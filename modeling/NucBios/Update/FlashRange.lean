import NucBios.Update.FlashRetry

/-!
# Reading and updating ranges of the flash

A range of the flash need not begin or end at a block. `ReadFlashRange` reads it chunk by chunk;
`UpdateFlashRangeFromImage` goes through the blocks it touches, leaves out those that hold the
image already, and read-modify-writes the blocks it covers only in part.

* `readFlashRange_spec`: a range that was read is what the flash holds, and reading changes nothing.
* `updateFlashRangeFromImage_spec`: on success the flash is what it was with the range taken from
  the image; on failure, nothing outside the blocks of the range has changed; the progress made on
  success is two steps a block, what `FmpDeviceGetFlashRangeStepCount` announces.
-/

namespace NucBios.Update

open NucBios.Lib NucBios.Uefi

variable {σ : Type*}

/-- `MAX_UINTN` of the 64-bit payload. Kind: D -/
def maxUintn : ℕ := 2 ^ 64 - 1

/-- A range of the flash: offset and size. Kind: D -/
structure FlashRange where
  offset : ℕ
  size : ℕ
  deriving DecidableEq, Repr

/-- The addresses of a range. Kind: D -/
def FlashRange.addresses (r : FlashRange) : Set ℕ := Set.Ico r.offset (r.offset + r.size)

/-- The `n` octets of `l` from `start`: what `CompareMem` and `CopyMem` look at. Kind: D -/
def slice (l : List UInt8) (start n : ℕ) : List UInt8 := (l.drop start).take n

lemma slice_eq_cells {l : List UInt8} {start n : ℕ} (h : start + n ≤ l.length) :
    slice l start n = cells (pointer l) start n := by
  apply List.ext_getElem
  · simp [slice]
    omega
  · intro i hi _
    rw [slice, List.length_take, List.length_drop] at hi
    simp [slice, pointer_of_lt (show start + i < l.length by omega)]

lemma slice_cells {m : ℕ → UInt8} {a n start k : ℕ} (h : start + k ≤ n) :
    slice (cells m a n) start k = cells m (a + start) k := by
  rw [slice, drop_cells, take_cells (by omega)]

/-! ### Reading a range -/

/-- The loop of `ReadFlashRange`: what is left, how far it has come, the buffer so far.
Source: `FmpDeviceSmmLib.c` `ReadFlashRange`
Kind: D -/
def readFlashRangeLoop (io : FlashIo σ) {blockSize : ℕ} (hpos : 0 < blockSize) (offset : ℕ)
    (remaining cursor : ℕ) (buffer : List UInt8) (s : σ) : Except EfiStatus (List UInt8) × σ :=
  if 0 < remaining then
    let lba := (offset + cursor) / blockSize
    let offsetInBlock := (offset + cursor) % blockSize
    let chunk := min remaining (blockSize - offsetInBlock)
    let read := fmpDeviceFlashReadWithRetry io lba offsetInBlock chunk s
    if efiError read.1.status || read.1.data.length != chunk then (.error efiDeviceError, read.2)
    else
      readFlashRangeLoop io hpos offset (remaining - chunk) (cursor + chunk)
        (buffer ++ read.1.data) read.2
  else (.ok buffer, s)
termination_by remaining
decreasing_by
  have := Nat.mod_lt (offset + cursor) hpos
  omega

/-- Read an arbitrary flash range into a buffer.
Source: `FmpDeviceSmmLib.c` `ReadFlashRange`
Kind: D -/
def readFlashRange (io : FlashIo σ) (blockSize flashSize offset length : ℕ) (s : σ) :
    Except EfiStatus (List UInt8) × σ :=
  if hpos : 0 < blockSize then
    if length = 0 then (.ok [], s)
    else if offset ≥ flashSize ∨ length > flashSize - offset then (.error efiInvalidParameter, s)
    else readFlashRangeLoop io hpos offset length 0 [] s
  else (.error efiInvalidParameter, s)

/-! ### Updating a range -/

/-- The flash and the progress counter `*Step`. Kind: D -/
structure UpdateState (σ : Type*) where
  device : σ
  step : ℕ

/-- The two calls of `IncrementProgress` a block gets, erased and written or found in place.
Kind: D -/
def UpdateState.incrementTwice (u : UpdateState σ) (device : σ) : UpdateState σ :=
  ⟨device, u.step + 2⟩

/-- Program a block, and count it.
Source: `FmpDeviceSmmLib.c` `UpdateFlashRangeFromImage`, `ProgramAnyBlockWithRetry`
Kind: D -/
def programBlock (io : FlashIo σ) (blockSize lba : ℕ) (expected : List UInt8) (u : UpdateState σ)
    (s : σ) : EfiStatus × UpdateState σ :=
  let (status, s') := fmpDeviceFlashProgramWithRetry io lba expected blockSize s
  if efiError status then (efiDeviceError, { u with device := s' })
  else (efiSuccess, u.incrementTwice s')

/-- The update of block `lba` from `startInBlock` to `endInBlock`: body of the loop. A block that is
covered whole is compared if it can be read and programmed otherwise; a block that is covered in
part must be read, for what has to stay in it.
Source: `FmpDeviceSmmLib.c` `UpdateFlashRangeFromImage`, body of the loop
Kind: D -/
def updateSegment (io : FlashIo σ) (blockSize : ℕ) (image : List UInt8)
    (lba startInBlock endInBlock : ℕ) (u : UpdateState σ) : EfiStatus × UpdateState σ :=
  let blockBase := lba * blockSize
  let segmentLen := endInBlock - startInBlock
  let (r, s) := fmpDeviceFlashReadWithRetry io lba 0 blockSize u.device
  if startInBlock = 0 ∧ endInBlock = blockSize then
    if !efiError r.status && r.data.length == blockSize && r.data == slice image blockBase blockSize
    then (efiSuccess, u.incrementTwice s)
    else programBlock io blockSize lba (slice image blockBase blockSize) u s
  else if efiError r.status || r.data.length != blockSize then
    (efiDeviceError, { u with device := s })
  else
    let segment := slice image (blockBase + startInBlock) segmentLen
    if slice r.data startInBlock segmentLen = segment then (efiSuccess, u.incrementTwice s)
    else
      programBlock io blockSize lba
        (r.data.take startInBlock ++ segment ++ r.data.drop endInBlock) u s

/-- The loop of `UpdateFlashRangeFromImage` from `offset` on.
Source: `FmpDeviceSmmLib.c` `UpdateFlashRangeFromImage`
Kind: D -/
def updateFlashRangeLoop (io : FlashIo σ) {blockSize : ℕ} (hpos : 0 < blockSize)
    (image : List UInt8) (rangeEnd offset : ℕ) (u : UpdateState σ) : EfiStatus × UpdateState σ :=
  if offset < rangeEnd then
    let lba := offset / blockSize
    let blockBase := lba * blockSize
    let startInBlock := offset - blockBase
    let endInBlock := min blockSize (rangeEnd - blockBase)
    let updated := updateSegment io blockSize image lba startInBlock endInBlock u
    if efiError updated.1 then updated
    else
      updateFlashRangeLoop io hpos image rangeEnd (offset + (endInBlock - startInBlock)) updated.2
  else (efiSuccess, u)
termination_by rangeEnd - offset
decreasing_by
  have := Nat.div_add_mod' offset blockSize
  have := Nat.mod_lt offset hpos
  omega

/-- Update a flash range using the image as the source. The sum of offset and size is that of
`UINTN`.
Source: `FmpDeviceSmmLib.c` `UpdateFlashRangeFromImage`
Kind: D -/
def updateFlashRangeFromImage (io : FlashIo σ) (blockSize : ℕ) (image : List UInt8)
    (imageSize : ℕ) (range : FlashRange) (u : UpdateState σ) : EfiStatus × UpdateState σ :=
  if hpos : 0 < blockSize then
    if range.size = 0 then (efiSuccess, u)
    else if (range.offset + range.size) % 2 ^ 64 > imageSize then (efiInvalidParameter, u)
    else
      updateFlashRangeLoop io hpos image ((range.offset + range.size) % 2 ^ 64) range.offset u
  else (efiInvalidParameter, u)

/-- Calculate the erase and write steps needed to update a flash range.
Source: `FmpDeviceSmmManifest.c` `FmpDeviceGetFlashRangeStepCount`
Kind: D -/
def fmpDeviceGetFlashRangeStepCount (range : FlashRange) (blockSize : ℕ) : Except EfiStatus ℕ :=
  if range.size = 0 ∨ blockSize = 0 then .error efiInvalidParameter
  else if range.offset > maxUintn - (range.size - 1) then .error efiBadBufferSize
  else
    let firstBlock := range.offset / blockSize
    let lastBlock := (range.offset + range.size - 1) / blockSize
    let blockCount := lastBlock - firstBlock + 1
    if blockCount > maxUintn / 2 then .error efiBadBufferSize
    else .ok (blockCount * 2)

/-! ### The segments of a range -/

/-- Block `lba` from `first` to `last` is what is left of its block, or of the range up to `stop`,
at `offset`. Kind: D -/
structure SegmentAt (blockSize offset stop lba first last : ℕ) : Prop where
  lba_eq : offset / blockSize = lba
  begins : lba * blockSize + first = offset
  nonempty : first < last
  inBlock : last ≤ blockSize
  inRange : lba * blockSize + last ≤ stop
  ends : lba * blockSize + last < stop → last = blockSize

lemma segmentAt {blockSize offset stop : ℕ} (hpos : 0 < blockSize) (hlt : offset < stop) :
    SegmentAt blockSize offset stop (offset / blockSize) (offset - offset / blockSize * blockSize)
      (min blockSize (stop - offset / blockSize * blockSize)) := by
  have hdiv := Nat.div_add_mod' offset blockSize
  have hmod := Nat.mod_lt offset hpos
  exact ⟨rfl, by omega, by omega, by omega, by omega, by omega⟩

/-- The rule of the update loop: a property of where it starts and what it returns holds if it
holds of a range that is done, of a segment that fails, and of a segment that succeeds followed by
the rest. Kind: P -/
theorem updateFlashRangeLoop_rule (io : FlashIo σ) {blockSize : ℕ} (hpos : 0 < blockSize)
    (image : List UInt8) (stop : ℕ)
    (P : ℕ → UpdateState σ → EfiStatus × UpdateState σ → Prop)
    (hdone : ∀ offset u, stop ≤ offset → P offset u (efiSuccess, u))
    (hfail : ∀ offset u lba first last, SegmentAt blockSize offset stop lba first last →
      efiError (updateSegment io blockSize image lba first last u).1 = true →
      P offset u (updateSegment io blockSize image lba first last u))
    (hnext : ∀ offset u lba first last r, SegmentAt blockSize offset stop lba first last →
      efiError (updateSegment io blockSize image lba first last u).1 = false →
      P (lba * blockSize + last) (updateSegment io blockSize image lba first last u).2 r →
      P offset u r)
    (offset : ℕ) (u : UpdateState σ) :
    P offset u (updateFlashRangeLoop io hpos image stop offset u) := by
  induction hn : stop - offset using Nat.strong_induction_on generalizing offset u with
  | _ n ih =>
    rw [updateFlashRangeLoop]
    split
    · rename_i hlt
      have hseg := segmentAt hpos hlt
      have hmiddle : offset + (min blockSize (stop - offset / blockSize * blockSize) -
            (offset - offset / blockSize * blockSize)) =
          offset / blockSize * blockSize +
            min blockSize (stop - offset / blockSize * blockSize) := by
        have := hseg.begins
        have := hseg.nonempty
        omega
      dsimp only
      split
      · rename_i herr
        exact hfail offset u _ _ _ hseg herr
      · rename_i hok
        rw [hmiddle]
        refine hnext offset u _ _ _ _ hseg (Bool.eq_false_iff.mpr hok) (ih _ ?_ _ _ rfl)
        have := hseg.begins
        have := hseg.nonempty
        omega
    · rename_i hge
      exact hdone offset u (not_lt.mp hge)

/-! ### What a read of a range returns -/

section Safety

variable (part : FlashPart σ)

/-- The loop appends to the buffer what the flash holds from the cursor on. Kind: L -/
theorem readFlashRangeLoop_spec (offset remaining cursor : ℕ) (buffer : List UInt8) (s : σ) :
    part.content (readFlashRangeLoop part.toFlashIo part.blockSize_pos offset remaining cursor
        buffer s).2 = part.content s ∧
      ∀ data, (readFlashRangeLoop part.toFlashIo part.blockSize_pos offset remaining cursor
          buffer s).1 = .ok data →
        data = buffer ++ cells (part.content s) (offset + cursor) remaining := by
  induction remaining using Nat.strong_induction_on generalizing cursor buffer s with
  | _ remaining ih =>
    rw [readFlashRangeLoop]
    split
    · rename_i hleft
      dsimp only
      have hmod := Nat.mod_lt (offset + cursor) part.blockSize_pos
      have hdiv := Nat.div_add_mod' (offset + cursor) part.blockSize
      generalize hchunk :
        min remaining (part.blockSize - (offset + cursor) % part.blockSize) = chunk
      have hread := fmpDeviceFlashReadWithRetry_spec part ((offset + cursor) / part.blockSize)
        ((offset + cursor) % part.blockSize) chunk s
      split
      · exact ⟨hread.unchanged, fun _ h => by cases h⟩
      · rename_i hcomplete
        simp only [Bool.or_eq_true, not_or, Bool.not_eq_true] at hcomplete
        obtain ⟨hsame, hdata⟩ := ih (remaining - chunk) (by omega) (cursor + chunk) _
          (fmpDeviceFlashReadWithRetry part.toFlashIo ((offset + cursor) / part.blockSize)
            ((offset + cursor) % part.blockSize) chunk s).2
        refine ⟨hsame.trans hread.unchanged, fun data h => ?_⟩
        rw [hdata data h, hread.data hcomplete.1, hread.unchanged, hdiv, List.append_assoc]
        congr 1
        rw [← Nat.add_assoc, ← cells_append, Nat.add_sub_cancel' (by omega)]
    · rename_i hleft
      obtain rfl : remaining = 0 := by omega
      exact ⟨rfl, fun data h => by cases h; simp [cells]⟩

/-- A range that was read is what the flash holds, and reading changes nothing. Kind: P -/
theorem readFlashRange_spec (flashSize offset length : ℕ) (s : σ) :
    part.content (readFlashRange part.toFlashIo part.blockSize flashSize offset length s).2 =
        part.content s ∧
      ∀ data, (readFlashRange part.toFlashIo part.blockSize flashSize offset length s).1 =
        .ok data → data = cells (part.content s) offset length := by
  unfold readFlashRange
  rw [dif_pos part.blockSize_pos]
  split
  · rename_i hzero
    exact ⟨rfl, fun data h => by cases h; simp [hzero, cells]⟩
  · split
    · exact ⟨rfl, fun _ h => by cases h⟩
    · exact readFlashRangeLoop_spec part offset length 0 [] s

/-! ### What an update of a range leaves -/

/-- The update of block `lba` between `start` and `stop`: the other blocks are as they were, and on
success so is this one, with the segment taken from the image.
Kind: D -/
structure SegmentSpec (image : List UInt8) (lba start stop : ℕ) (u : UpdateState σ)
    (r : EfiStatus × UpdateState σ) : Prop where
  frame : part.SameBut lba u.device r.2.device
  done : efiError r.1 = false →
    Overwritten (pointer image) (part.content u.device) (part.content r.2.device)
        (Set.Ico (lba * part.blockSize + start) (lba * part.blockSize + stop)) ∧
      r.2.step = u.step + 2

lemma eqOn_compl_of_sameBut {lba : ℕ} {s t : σ} (h : part.SameBut lba s t) :
    Set.EqOn (part.content t) (part.content s)
      (Set.Ico (lba * part.blockSize) (lba * part.blockSize + part.blockSize))ᶜ :=
  fun i hi => h i fun hdiv => hi ((div_eq_iff_mem_Ico part.blockSize_pos).mp hdiv)

variable {part}

/-- Programming a block with its own octets and a segment of the image. Kind: L -/
theorem programBlock_spec {image : List UInt8} {lba start stop : ℕ} (hle : start ≤ stop)
    (hstop : stop ≤ part.blockSize) {expected : List UInt8} {u : UpdateState σ} {s : σ}
    (hs : part.content s = part.content u.device)
    (hexpected : expected = (part.block u.device lba).take start ++
      cells (pointer image) (lba * part.blockSize + start) (stop - start) ++
        (part.block u.device lba).drop stop) :
    SegmentSpec part image lba start stop u
      (programBlock part.toFlashIo part.blockSize lba expected u s) := by
  have hspec := fmpDeviceFlashProgramWithRetry_spec part lba expected s
  have hframe : part.SameBut lba u.device
      (fmpDeviceFlashProgramWithRetry part.toFlashIo lba expected part.blockSize s).2 := by
    intro i hi
    rw [hspec.frame i hi, hs]
  unfold programBlock
  dsimp only
  split
  · exact ⟨hframe, by simp⟩
  · rename_i hok
    refine ⟨hframe, fun _ => ⟨?_, rfl⟩⟩
    have hblock := hspec.programmed (Bool.eq_false_iff.mpr hok)
    exact overwritten_of_splice hle hstop (hblock.trans hexpected)
      (eqOn_compl_of_sameBut part hframe)

/-- A segment that was read and found to be the image's is in place. Kind: L -/
theorem segmentSpec_of_same {image : List UInt8} {lba start stop : ℕ} (hle : start ≤ stop)
    {u : UpdateState σ} {s : σ} (hs : part.content s = part.content u.device)
    (h : cells (part.content u.device) (lba * part.blockSize + start) (stop - start) =
      cells (pointer image) (lba * part.blockSize + start) (stop - start)) :
    SegmentSpec part image lba start stop u (efiSuccess, u.incrementTwice s) := by
  refine ⟨(FlashPart.SameBut.refl lba u.device).of_content_eq hs, fun _ => ⟨?_, rfl⟩⟩
  have hsame : part.content (u.incrementTwice s).device = part.content u.device := hs
  rw [hsame]
  apply Overwritten.refl_of_eqOn
  rw [cells_eq_iff, Nat.add_assoc, Nat.add_sub_cancel' hle] at h
  exact h

variable (part)

/-- One block of the loop, whether it is skipped, programmed whole or merged. Kind: P -/
theorem updateSegment_spec {image : List UInt8} {lba start stop : ℕ} (hle : start ≤ stop)
    (hstop : stop ≤ part.blockSize) (himage : lba * part.blockSize + stop ≤ image.length)
    (u : UpdateState σ) :
    SegmentSpec part image lba start stop u
      (updateSegment part.toFlashIo part.blockSize image lba start stop u) := by
  have hread := fmpDeviceFlashReadWithRetry_spec part lba 0 part.blockSize u.device
  have hdata : efiError (fmpDeviceFlashReadWithRetry part.toFlashIo lba 0 part.blockSize
      u.device).1.status = false → (fmpDeviceFlashReadWithRetry part.toFlashIo lba 0
        part.blockSize u.device).1.data = part.block u.device lba := by
    intro hok
    rw [hread.data hok, Nat.add_zero, FlashPart.block]
  unfold updateSegment
  dsimp only
  split
  · rename_i hwhole
    obtain ⟨rfl, rfl⟩ := hwhole
    have himg := slice_eq_cells himage
    split
    · rename_i hsame
      simp only [Bool.and_eq_true, Bool.not_eq_true', beq_iff_eq] at hsame
      apply segmentSpec_of_same hle hread.unchanged
      rw [Nat.add_zero, Nat.sub_zero, ← himg, ← hsame.2, hdata hsame.1.1, FlashPart.block]
    · apply programBlock_spec hle hstop hread.unchanged
      rw [List.take_zero, List.nil_append, Nat.add_zero, Nat.sub_zero, himg, List.drop_of_length_le
        (by simp [FlashPart.block]), List.append_nil]
  · split
    · exact ⟨(FlashPart.SameBut.refl lba u.device).of_content_eq hread.unchanged, by simp⟩
    · rename_i hcomplete
      simp only [Bool.or_eq_true, not_or, Bool.not_eq_true] at hcomplete
      rw [hdata hcomplete.1]
      have himg : slice image (lba * part.blockSize + start) (stop - start) = _ :=
        slice_eq_cells (by omega)
      split
      · rename_i hsame
        apply segmentSpec_of_same hle hread.unchanged
        rw [FlashPart.block, slice_cells (by omega)] at hsame
        rw [hsame, himg]
      · exact programBlock_spec hle hstop hread.unchanged (by rw [himg])

/-- The blocks from that of `offset` to that of `stop - 1`. Kind: D -/
def blocksBetween (blockSize offset stop : ℕ) : ℕ :=
  if offset < stop then (stop - 1) / blockSize - offset / blockSize + 1 else 0

/-- What the loop leaves of a range that ends at `stop` when it starts at `offset`: nothing outside
the blocks of the range has changed; on success the range is the image's, and every block has been
counted twice.
Kind: D -/
structure LoopSpec (part : FlashPart σ) (image : List UInt8) (offset stop : ℕ) (u : UpdateState σ)
    (r : EfiStatus × UpdateState σ) : Prop where
  frame : Set.EqOn (part.content r.2.device) (part.content u.device)
    (hull part.blockSize (Set.Ico offset stop))ᶜ
  done : efiError r.1 = false →
    Overwritten (pointer image) (part.content u.device) (part.content r.2.device)
        (Set.Ico offset stop) ∧
      r.2.step = u.step + blocksBetween part.blockSize offset stop * 2

/-- A range is its first segment and the range after it. Kind: L -/
theorem loopSpec_cons {image : List UInt8} {offset middle stop : ℕ} {u v : UpdateState σ}
    {r : EfiStatus × UpdateState σ} (hfirst : offset < middle) (hle : middle ≤ stop)
    (hblock : (middle - 1) / part.blockSize = offset / part.blockSize)
    (hnext : middle < stop → middle / part.blockSize = offset / part.blockSize + 1)
    (hframe : part.SameBut (offset / part.blockSize) u.device v.device)
    (hdone : Overwritten (pointer image) (part.content u.device) (part.content v.device)
      (Set.Ico offset middle))
    (hstep : v.step = u.step + 2) (hrest : LoopSpec part image middle stop v r) :
    LoopSpec part image offset stop u r := by
  constructor
  · intro i hi
    have hother : i / part.blockSize ≠ offset / part.blockSize := by
      intro heq
      exact hi ⟨offset, ⟨le_rfl, by omega⟩, heq.symm⟩
    have hlater : i ∈ (hull part.blockSize (Set.Ico middle stop))ᶜ := by
      intro hin
      exact hi (hull_mono (Set.Ico_subset_Ico_left hfirst.le) hin)
    rw [hrest.frame hlater, hframe i hother]
  · intro hok
    obtain ⟨hover, hsteps⟩ := hrest.done hok
    refine ⟨?_, ?_⟩
    · rw [← Set.Ico_union_Ico_eq_Ico hfirst.le hle]
      exact hdone.trans hover
    · rw [hsteps, hstep]
      unfold blocksBetween
      rw [if_pos (show offset < stop by omega)]
      split
      · rename_i hlt
        have hmono : middle / part.blockSize ≤ (stop - 1) / part.blockSize :=
          Nat.div_le_div_right (by omega)
        have := hnext hlt
        omega
      · obtain rfl : middle = stop := by omega
        rw [hblock]
        omega

theorem updateFlashRangeLoop_spec {image : List UInt8} {stop : ℕ} (hstop : stop ≤ image.length)
    (offset : ℕ) (u : UpdateState σ) :
    LoopSpec part image offset stop u
      (updateFlashRangeLoop part.toFlashIo part.blockSize_pos image stop offset u) := by
  have hpos := part.blockSize_pos
  refine updateFlashRangeLoop_rule part.toFlashIo hpos image stop (LoopSpec part image · stop)
    ?_ ?_ ?_ offset u
  · intro offset u hge
    refine ⟨fun _ _ => rfl, fun _ => ⟨?_, by simp [blocksBetween, hge]⟩⟩
    rw [Set.Ico_eq_empty (by omega)]
    exact Overwritten.refl_of_eqOn (Set.eqOn_empty _ _)
  · intro offset u lba first last hat herr
    have hseg := updateSegment_spec part hat.nonempty.le hat.inBlock
      (hat.inRange.trans hstop) u
    have hlt : offset < stop := by
      have := hat.begins
      have := hat.nonempty
      have := hat.inRange
      omega
    refine ⟨fun i hi => hseg.frame i fun heq => hi ⟨offset, ⟨le_rfl, hlt⟩, ?_⟩,
      fun hok => absurd hok (by simp [herr])⟩
    rw [hat.lba_eq, heq]
  · intro offset u lba first last r hat hok hrest
    have hseg := updateSegment_spec part hat.nonempty.le hat.inBlock
      (hat.inRange.trans hstop) u
    obtain ⟨hover, hstep⟩ := hseg.done hok
    have hbegins := hat.begins
    have hnonempty := hat.nonempty
    have hinBlock := hat.inBlock
    rw [hat.begins] at hover
    refine loopSpec_cons part (by omega) hat.inRange ?_ ?_ (hat.lba_eq ▸ hseg.frame) hover
      hstep hrest
    · rw [hat.lba_eq, div_eq_iff_mem_Ico hpos, Set.mem_Ico]
      omega
    · intro hmore
      rw [hat.lba_eq, hat.ends hmore, Nat.add_div_right _ hpos, Nat.mul_div_cancel _ hpos]

/-- What `UpdateFlashRangeFromImage` leaves of a range.
Kind: D -/
structure RangeSpec (part : FlashPart σ) (image : List UInt8) (range : FlashRange)
    (u : UpdateState σ) (r : EfiStatus × UpdateState σ) : Prop where
  frame : Set.EqOn (part.content r.2.device) (part.content u.device)
    (hull part.blockSize range.addresses)ᶜ
  done : efiError r.1 = false →
    Overwritten (pointer image) (part.content u.device) (part.content r.2.device)
        range.addresses ∧
      r.2.step =
        u.step + blocksBetween part.blockSize range.offset (range.offset + range.size) * 2

theorem updateFlashRangeFromImage_spec {image : List UInt8} {imageSize : ℕ}
    (himage : imageSize ≤ image.length) {range : FlashRange}
    (hrange : range.offset + range.size < 2 ^ 64) (u : UpdateState σ) :
    RangeSpec part image range u
      (updateFlashRangeFromImage part.toFlashIo part.blockSize image imageSize range u) := by
  unfold updateFlashRangeFromImage
  rw [dif_pos part.blockSize_pos, Nat.mod_eq_of_lt hrange]
  split
  · rename_i hzero
    have hempty : range.addresses = ∅ := by simp [FlashRange.addresses, hzero]
    refine ⟨fun _ _ => rfl, fun _ => ⟨?_, by simp [blocksBetween, hzero]⟩⟩
    rw [hempty]
    exact Overwritten.refl_of_eqOn (Set.eqOn_empty _ _)
  · split
    · exact ⟨fun _ _ => rfl, by simp⟩
    · have hloop := updateFlashRangeLoop_spec part
        (show range.offset + range.size ≤ image.length by omega) range.offset u
      exact ⟨hloop.frame, hloop.done⟩

/-- The steps announced for a range are the steps its update makes. Kind: L -/
theorem fmpDeviceGetFlashRangeStepCount_eq_ok {range : FlashRange} {blockSize n : ℕ}
    (h : fmpDeviceGetFlashRangeStepCount range blockSize = .ok n) :
    n = blocksBetween blockSize range.offset (range.offset + range.size) * 2 ∧ 0 < n := by
  unfold fmpDeviceGetFlashRangeStepCount at h
  split at h
  · cases h
  · rename_i hzero
    rw [not_or] at hzero
    split at h
    · cases h
    · dsimp only at h
      split at h
      · cases h
      · cases h
        rw [blocksBetween, if_pos (by omega)]
        exact ⟨rfl, by omega⟩

end Safety

/-! ### Failures are paid for -/

section Tolerance

variable (part : NorPart σ)

lemma priced_programBlock {lba : ℕ} (hlba : lba < part.blockCount) {expected : List UInt8}
    (hlen : expected.length = part.blockSize) (u : UpdateState σ) (s : σ) :
    Priced part (efiError (programBlock part.toFlashIo part.blockSize lba expected u s).1) s
      (programBlock part.toFlashIo part.blockSize lba expected u s).2.device := by
  have hprice := faults_fmpDeviceFlashProgramWithRetry part hlba hlen s
  unfold programBlock
  dsimp only
  split
  · rename_i herr
    have := hprice.2 herr
    exact ⟨hprice.1, fun _ => by dsimp only; omega⟩
  · exact ⟨hprice.1, by simp⟩

/-- A block that could not be updated has cost four failed calls. Kind: L -/
theorem priced_updateSegment {image : List UInt8} {lba start stop : ℕ}
    (hlba : lba < part.blockCount) (hle : start ≤ stop) (hstop : stop ≤ part.blockSize)
    (himage : lba * part.blockSize + stop ≤ image.length) (u : UpdateState σ) :
    Priced part (efiError (updateSegment part.toFlashIo part.blockSize image lba start stop u).1)
      u.device (updateSegment part.toFlashIo part.blockSize image lba start stop u).2.device := by
  have hread := fmpDeviceFlashReadWithRetry_spec part.toFlashPart lba 0 part.blockSize u.device
  have hprice := priced_read part 0 hlba (Nat.zero_add _).le u.device
  unfold updateSegment
  dsimp only
  split
  · rename_i hwhole
    split
    · exact ⟨hprice.le, by simp⟩
    · refine hprice.trans part (priced_programBlock part hlba ?_ u _)
      rw [slice_eq_cells (by omega), length_cells]
  · rw [hread.incomplete_eq]
    split
    · rename_i hfailed
      exact ⟨hprice.le, fun _ => hprice.gaveUp hfailed⟩
    · rename_i hcomplete
      split
      · exact ⟨hprice.le, by simp⟩
      · refine hprice.trans part (priced_programBlock part hlba ?_ u _)
        rw [hread.data (Bool.eq_false_iff.mpr hcomplete), slice_eq_cells (by omega)]
        simp
        omega

lemma SegmentAt.lba_lt {blockSize offset stop lba first last blockCount : ℕ}
    (h : SegmentAt blockSize offset stop lba first last) (hstop : stop ≤ blockCount * blockSize) :
    lba < blockCount := by
  by_contra hge
  have hmul := Nat.mul_le_mul_right blockSize (not_lt.mp hge)
  have := h.nonempty
  have := h.inRange
  omega

theorem priced_updateFlashRangeLoop {image : List UInt8} {stop : ℕ}
    (hstop : stop ≤ image.length) (hpart : stop ≤ part.blockCount * part.blockSize) (offset : ℕ)
    (u : UpdateState σ) :
    Priced part
      (efiError (updateFlashRangeLoop part.toFlashIo part.blockSize_pos image stop offset u).1)
      u.device
      (updateFlashRangeLoop part.toFlashIo part.blockSize_pos image stop offset u).2.device := by
  refine updateFlashRangeLoop_rule part.toFlashIo part.blockSize_pos image stop
    (fun _ u r => Priced part (efiError r.1) u.device r.2.device) ?_ ?_ ?_ offset u
  · exact fun _ _ _ => ⟨le_rfl, by simp⟩
  · intro offset u lba first last hat _
    exact priced_updateSegment part (hat.lba_lt hpart) hat.nonempty.le hat.inBlock
      (hat.inRange.trans hstop) u
  · intro offset u lba first last r hat _ hrest
    exact (priced_updateSegment part (hat.lba_lt hpart) hat.nonempty.le hat.inBlock
      (hat.inRange.trans hstop) u).trans part hrest

/-- Four failed calls are needed to make the update of a range of the part fail. Kind: P -/
theorem priced_updateFlashRangeFromImage {image : List UInt8} {imageSize : ℕ}
    (himage : imageSize ≤ image.length) {range : FlashRange}
    (hrange : range.offset + range.size ≤ imageSize) (hsize : imageSize < 2 ^ 64)
    (hpart : imageSize ≤ part.blockCount * part.blockSize) (u : UpdateState σ) :
    Priced part
      (efiError (updateFlashRangeFromImage part.toFlashIo part.blockSize image imageSize range u).1)
      u.device
      (updateFlashRangeFromImage part.toFlashIo part.blockSize image imageSize range
        u).2.device := by
  unfold updateFlashRangeFromImage
  rw [dif_pos part.blockSize_pos, Nat.mod_eq_of_lt (by omega)]
  split
  · exact ⟨le_rfl, by simp⟩
  · rw [if_neg (by omega)]
    exact priced_updateFlashRangeLoop part (by omega) (by omega) range.offset u

theorem priced_readFlashRangeLoop {offset : ℕ} (remaining cursor : ℕ) (buffer : List UInt8)
    (s : σ) (hpart : offset + cursor + remaining ≤ part.blockCount * part.blockSize) :
    Priced part
      (!(readFlashRangeLoop part.toFlashIo part.blockSize_pos offset remaining cursor
        buffer s).1.isOk) s
      (readFlashRangeLoop part.toFlashIo part.blockSize_pos offset remaining cursor buffer
        s).2 := by
  induction remaining using Nat.strong_induction_on generalizing cursor buffer s with
  | _ remaining ih =>
    rw [readFlashRangeLoop]
    split
    · rename_i hleft
      dsimp only
      have hpos := part.blockSize_pos
      have hmod := Nat.mod_lt (offset + cursor) hpos
      have hlba : (offset + cursor) / part.blockSize < part.blockCount :=
        Nat.div_lt_of_lt_mul (by rw [Nat.mul_comm]; omega)
      generalize hchunk :
        min remaining (part.blockSize - (offset + cursor) % part.blockSize) = chunk
      have hread := fmpDeviceFlashReadWithRetry_spec part.toFlashPart
        ((offset + cursor) / part.blockSize) ((offset + cursor) % part.blockSize) chunk s
      have hprice := priced_read part ((offset + cursor) % part.blockSize) (n := chunk) hlba
        (by omega) s
      rw [hread.incomplete_eq]
      split
      · rename_i hfailed
        exact ⟨hprice.le, fun _ => hprice.gaveUp hfailed⟩
      · exact hprice.trans part (ih _ (by omega) _ _ _ (by omega))
    · exact ⟨le_rfl, by simp [Except.isOk, Except.toBool]⟩

/-! ### A range that is in place is only read -/

/-- One read, or one stall, takes the flash from `s` to `t`. Kind: D -/
inductive ReadStep (io : FlashIo σ) : σ → σ → Prop
  | read (lba offset n : ℕ) (s : σ) : ReadStep io s (io.read lba offset n s).2
  | stall (f : ℕ → σ → σ) (h : io.stall = some f) (k : ℕ) (s : σ) : ReadStep io s (f k s)

/-- The flash got from `s` to `t` without a write or an erase. Kind: D -/
def ReadsOnly (io : FlashIo σ) : σ → σ → Prop := Relation.ReflTransGen (ReadStep io)

lemma readsOnly_fmpDeviceFlashReadWithRetry (io : FlashIo σ) (lba offset n : ℕ) (s : σ) :
    ReadsOnly io s (fmpDeviceFlashReadWithRetry io lba offset n s).2 := by
  have hloop := retry_invariant (io.read lba offset n) (ReadAnswer.complete n)
    (stallAfterFailure io) (ReadsOnly io s)
    (fun t ht => ht.tail (.read lba offset n t))
    (fun k t ht => by
      unfold stallAfterFailure
      split
      · exact ht.tail (.stall _ ‹_› k t)
      · exact ht)
    flashRetryCount 0 ⟨efiDeviceError, []⟩ s .refl
  unfold fmpDeviceFlashReadWithRetry
  dsimp only
  split <;> exact hloop

/-- With fewer than four faults left, a segment that holds the image's octets is found to do so.
Kind: L -/
theorem readsOnly_updateSegment {image : List UInt8} {lba start stop : ℕ}
    (hlba : lba < part.blockCount) (hle : start ≤ stop) (hstop : stop ≤ part.blockSize)
    (himage : lba * part.blockSize + stop ≤ image.length) {u : UpdateState σ}
    (hfaults : part.faults u.device < 4)
    (hplace : Set.EqOn (part.content u.device) (pointer image)
      (Set.Ico (lba * part.blockSize + start) (lba * part.blockSize + stop))) :
    (updateSegment part.toFlashIo part.blockSize image lba start stop u).1 = efiSuccess ∧
      ReadsOnly part.toFlashIo u.device
        (updateSegment part.toFlashIo part.blockSize image lba start stop u).2.device := by
  have hread := fmpDeviceFlashReadWithRetry_spec part.toFlashPart lba 0 part.blockSize u.device
  have hprice := priced_read part 0 hlba (Nat.zero_add _).le u.device
  have honly := readsOnly_fmpDeviceFlashReadWithRetry part.toFlashIo lba 0 part.blockSize u.device
  have hok : efiError (fmpDeviceFlashReadWithRetry part.toFlashIo lba 0 part.blockSize
      u.device).1.status = false := by
    by_contra herr
    have := hprice.gaveUp (by simpa using herr)
    omega
  have hdata := hread.data hok
  have hsame : cells (part.content u.device) (lba * part.blockSize + start) (stop - start) =
      cells (pointer image) (lba * part.blockSize + start) (stop - start) := by
    rw [cells_eq_iff, Nat.add_assoc, Nat.add_sub_cancel' hle]
    exact hplace
  unfold updateSegment
  dsimp only
  rw [hdata, hok, Nat.add_zero]
  split
  · rename_i hwhole
    obtain ⟨rfl, rfl⟩ := hwhole
    rw [Nat.add_zero, Nat.sub_zero] at hsame
    rw [if_pos (by simp [hsame, slice_eq_cells himage])]
    exact ⟨rfl, honly⟩
  · rw [if_neg (by simp), if_pos (by
      rw [slice_cells (by omega), slice_eq_cells (by omega), hsame])]
    exact ⟨rfl, honly⟩

lemma ReadsOnly.content_eq {s t : σ} (h : ReadsOnly part.toFlashIo s t) :
    part.content t = part.content s := by
  induction h with
  | refl => rfl
  | tail _ hstep ih =>
      cases hstep with
      | read lba offset n => rw [part.content_read, ih]
      | stall f h k => rw [part.content_stall f h, ih]

lemma ReadsOnly.faults_le {s t : σ} (h : ReadsOnly part.toFlashIo s t) :
    part.faults t ≤ part.faults s := by
  induction h with
  | refl => exact le_rfl
  | tail _ hstep ih =>
      cases hstep with
      | read lba offset n => exact (part.faults_read lba offset n _).trans ih
      | stall f h k => exact (part.faults_stall f h k _).trans ih

theorem readsOnly_updateFlashRangeLoop {image : List UInt8} {stop : ℕ}
    (hstop : stop ≤ image.length) (hpart : stop ≤ part.blockCount * part.blockSize) (offset : ℕ)
    (u : UpdateState σ) (hfaults : part.faults u.device < 4)
    (hplace : Set.EqOn (part.content u.device) (pointer image) (Set.Ico offset stop)) :
    (updateFlashRangeLoop part.toFlashIo part.blockSize_pos image stop offset u).1 = efiSuccess ∧
      ReadsOnly part.toFlashIo u.device
        (updateFlashRangeLoop part.toFlashIo part.blockSize_pos image stop offset u).2.device := by
  refine updateFlashRangeLoop_rule part.toFlashIo part.blockSize_pos image stop
    (fun offset u r => part.faults u.device < 4 →
      Set.EqOn (part.content u.device) (pointer image) (Set.Ico offset stop) →
      r.1 = efiSuccess ∧ ReadsOnly part.toFlashIo u.device r.2.device)
    ?_ ?_ ?_ offset u hfaults hplace
  · exact fun _ _ _ _ _ => ⟨rfl, .refl⟩
  · intro offset u lba first last hat _ hfaults hplace
    exact readsOnly_updateSegment part (hat.lba_lt hpart) hat.nonempty.le hat.inBlock
      (hat.inRange.trans hstop) hfaults
      (hplace.mono (Set.Ico_subset_Ico hat.begins.ge hat.inRange))
  · intro offset u lba first last r hat _ hrest hfaults hplace
    obtain ⟨-, honly⟩ := readsOnly_updateSegment part (hat.lba_lt hpart) hat.nonempty.le hat.inBlock
      (hat.inRange.trans hstop) hfaults
      (hplace.mono (Set.Ico_subset_Ico hat.begins.ge hat.inRange))
    have hlater : offset ≤ lba * part.blockSize + last := by
      have := hat.begins
      have := hat.nonempty
      omega
    obtain ⟨hok, hrestOnly⟩ := hrest ((honly.faults_le part).trans_lt hfaults) (by
      rw [honly.content_eq part]
      exact hplace.mono (Set.Ico_subset_Ico_left hlater))
    exact ⟨hok, honly.trans hrestOnly⟩

/-- **A range that is in place is only read.** With fewer than four faults left, updating a range
that holds the image already succeeds without an erase or a write. Kind: P -/
theorem readsOnly_updateFlashRangeFromImage {image : List UInt8} {imageSize : ℕ}
    (himage : imageSize ≤ image.length) {range : FlashRange}
    (hrange : range.offset + range.size ≤ imageSize) (hsize : imageSize < 2 ^ 64)
    (hpart : imageSize ≤ part.blockCount * part.blockSize) {u : UpdateState σ}
    (hfaults : part.faults u.device < 4)
    (hplace : Set.EqOn (part.content u.device) (pointer image) range.addresses) :
    (updateFlashRangeFromImage part.toFlashIo part.blockSize image imageSize range u).1 =
        efiSuccess ∧
      ReadsOnly part.toFlashIo u.device
        (updateFlashRangeFromImage part.toFlashIo part.blockSize image imageSize range
          u).2.device := by
  unfold updateFlashRangeFromImage
  rw [dif_pos part.blockSize_pos, Nat.mod_eq_of_lt (by omega)]
  split
  · exact ⟨rfl, .refl⟩
  · rw [if_neg (by omega)]
    exact readsOnly_updateFlashRangeLoop part (by omega) (by omega) range.offset u hfaults hplace

end Tolerance

end NucBios.Update
