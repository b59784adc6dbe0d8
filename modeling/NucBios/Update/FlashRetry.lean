import NucBios.Lib.Memory
import NucBios.Lib.Retry
import NucBios.Uefi.Base

/-!
# Flash calls with retries

`FmpDeviceSmmFlashRetry.c` stands between the firmware updater and the SMI handler that owns the
flash: every read, write and erase is tried up to four times, and a block is programmed by
erasing, writing and reading it back, again up to four times. The callbacks are those of
`FMP_DEVICE_FLASH_IO`, over whatever state the flash has; what they may do is said once, by two
kinds of part.

* A `FlashPart` reads honestly and touches only the block it is told to. Its writes and erases may
  do anything to that block and report anything. This is enough for the updater's safety
  (`fmpDeviceFlashProgramWithRetry_spec`): success means that the block holds what it should, and
  no other block has changed.
* A `NorPart` also does what it reports: an erase sets every bit, a write clears bits and nothing
  else. Its calls may still fail, a bounded number of times. This is what makes the retries worth
  having (`program_succeeds_of_faults`): fifteen failed calls, whichever they are, do not make
  the programming of a block fail.
-/

namespace NucBios.Update

open NucBios.Lib NucBios.Uefi

/-! ### The callbacks -/

/-- What a read returns: its status and the octets it put into the buffer, as many as it reports
in `*NumBytes`.
Kind: D -/
structure ReadAnswer where
  status : EfiStatus
  data : List UInt8
  deriving DecidableEq, Repr

/-- What a write returns: its status and `*NumBytes`.
Kind: D -/
structure WriteAnswer where
  status : EfiStatus
  numBytes : ℕ
  deriving DecidableEq, Repr

/-- `FMP_DEVICE_FLASH_IO`: the flash calls, over the state `σ` of the flash. Only `Stall` may be
absent.
Source: `FmpDeviceSmmFlashRetry.h` `FMP_DEVICE_FLASH_IO`
Kind: D -/
structure FlashIo (σ : Type*) where
  read : (lba offset numBytes : ℕ) → σ → ReadAnswer × σ
  write : (lba offset : ℕ) → List UInt8 → σ → WriteAnswer × σ
  erase : (lba : ℕ) → σ → EfiStatus × σ
  stall : Option (ℕ → σ → σ)

/-- `FMP_DEVICE_SMM_FLASH_RETRY_COUNT`. Kind: D -/
def flashRetryCount : ℕ := 4

variable {σ : Type*}

/-- Delay after a failed flash operation when a stall callback is available.
Source: `FmpDeviceSmmFlashRetry.c` `StallAfterFailure`
Kind: D -/
def stallAfterFailure (io : FlashIo σ) (attempt : ℕ) (s : σ) : σ :=
  match io.stall with
  | some stall => stall attempt s
  | none => s

/-- The test both transfers make: no error, and all that was asked for. Kind: D -/
def ReadAnswer.complete (n : ℕ) (r : ReadAnswer) : Bool :=
  !efiError r.status && r.data.length == n

@[inherit_doc ReadAnswer.complete]
def WriteAnswer.complete (n : ℕ) (r : WriteAnswer) : Bool :=
  !efiError r.status && r.numBytes == n

/-- The status of a transfer that never completed: `EFI_ERROR (Status) ? Status :
EFI_DEVICE_ERROR`. Kind: D -/
def failedTransferStatus (status : EfiStatus) : EfiStatus :=
  if efiError status then status else efiDeviceError

@[simp] theorem efiError_efiDeviceError : efiError efiDeviceError = true := by decide

@[simp] theorem efiError_efiVolumeCorrupted : efiError efiVolumeCorrupted = true := by decide

@[simp] theorem efiError_efiInvalidParameter : efiError efiInvalidParameter = true := by decide

@[simp] theorem efiError_failedTransferStatus (status : EfiStatus) :
    efiError (failedTransferStatus status) = true := by
  unfold failedTransferStatus
  split
  · assumption
  · exact efiError_efiDeviceError

/-- Read from flash, retrying transient failures and short reads.
Source: `FmpDeviceSmmFlashRetry.c` `FmpDeviceFlashReadWithRetry`
Kind: D -/
def fmpDeviceFlashReadWithRetry (io : FlashIo σ) (lba offset numBytes : ℕ) (s : σ) :
    ReadAnswer × σ :=
  let (r, s') := retry (io.read lba offset numBytes) (ReadAnswer.complete numBytes)
    (stallAfterFailure io) flashRetryCount 0 ⟨efiDeviceError, []⟩ s
  if r.complete numBytes then (⟨efiSuccess, r.data⟩, s')
  else (⟨failedTransferStatus r.status, r.data⟩, s')

/-- Erase a flash block, retrying transient failures.
Source: `FmpDeviceSmmFlashRetry.c` `FmpDeviceFlashEraseWithRetry`
Kind: D -/
def fmpDeviceFlashEraseWithRetry (io : FlashIo σ) (lba : ℕ) (s : σ) : EfiStatus × σ :=
  let (status, s') := retry (io.erase lba) (fun status => !efiError status)
    (stallAfterFailure io) flashRetryCount 0 efiDeviceError s
  if efiError status then (status, s') else (efiSuccess, s')

/-- Write to flash, retrying transient failures and short writes.
Source: `FmpDeviceSmmFlashRetry.c` `FmpDeviceFlashWriteWithRetry`
Kind: D -/
def fmpDeviceFlashWriteWithRetry (io : FlashIo σ) (lba offset : ℕ) (buffer : List UInt8) (s : σ) :
    WriteAnswer × σ :=
  let (r, s') := retry (io.write lba offset buffer) (WriteAnswer.complete buffer.length)
    (stallAfterFailure io) flashRetryCount 0 ⟨efiDeviceError, 0⟩ s
  if r.complete buffer.length then (⟨efiSuccess, r.numBytes⟩, s')
  else (⟨failedTransferStatus r.status, r.numBytes⟩, s')

/-- Read back and verify a programmed flash block.
Source: `FmpDeviceSmmFlashRetry.c` `VerifyFlashWrite`
Kind: D -/
def verifyFlashWrite (io : FlashIo σ) (lba : ℕ) (expected : List UInt8) (blockSize : ℕ) (s : σ) :
    EfiStatus × σ :=
  let (r, s') := fmpDeviceFlashReadWithRetry io lba 0 blockSize s
  if efiError r.status || r.data.length != blockSize then (efiDeviceError, s')
  else if r.data = expected then (efiSuccess, s')
  else (efiVolumeCorrupted, s')

/-- One round of `FmpDeviceFlashProgramWithRetry`: erase, write, verify.
Source: `FmpDeviceSmmFlashRetry.c` `FmpDeviceFlashProgramWithRetry`, body of the loop
Kind: D -/
def programOnce (io : FlashIo σ) (lba : ℕ) (expected : List UInt8) (blockSize : ℕ) (s : σ) :
    EfiStatus × σ :=
  let (erased, s₁) := fmpDeviceFlashEraseWithRetry io lba s
  if efiError erased then (erased, s₁)
  else
    let (written, s₂) := fmpDeviceFlashWriteWithRetry io lba 0 expected s₁
    if efiError written.status || written.numBytes != blockSize then (efiDeviceError, s₂)
    else verifyFlashWrite io lba expected blockSize s₂

/-- Erase, write and verify a complete flash block with retries.
Source: `FmpDeviceSmmFlashRetry.c` `FmpDeviceFlashProgramWithRetry`
Kind: D -/
def fmpDeviceFlashProgramWithRetry (io : FlashIo σ) (lba : ℕ) (expected : List UInt8)
    (blockSize : ℕ) (s : σ) : EfiStatus × σ :=
  if blockSize = 0 then (efiInvalidParameter, s)
  else
    let (status, s') := retry (programOnce io lba expected blockSize)
      (fun status => !efiError status) (stallAfterFailure io) flashRetryCount 0 efiDeviceError s
    if efiError status then (status, s') else (efiSuccess, s')

/-! ### Parts -/

/-- A flash part behind the callbacks. Reads change nothing and, when they report success and the
whole length, deliver what the flash holds. A write or an erase touches no block but its own; what
it does there, and what it reports, is left open.
Kind: D -/
structure FlashPart (σ : Type*) extends FlashIo σ where
  blockSize : ℕ
  blockSize_pos : 0 < blockSize
  /-- What the flash holds at each address. -/
  content : σ → ℕ → UInt8
  content_read : ∀ lba offset n s, content (read lba offset n s).2 = content s
  content_stall : ∀ f, stall = some f → ∀ k s, content (f k s) = content s
  read_data : ∀ lba offset n s, (read lba offset n s).1.complete n = true →
    (read lba offset n s).1.data = cells (content s) (lba * blockSize + offset) n
  write_frame : ∀ lba offset d s i, i / blockSize ≠ lba →
    content (write lba offset d s).2 i = content s i
  erase_frame : ∀ lba s i, i / blockSize ≠ lba → content (erase lba s).2 i = content s i

/-- A NOR flash part of `blockCount` blocks with a bounded number of failures left. A call that
stays inside a block of the part fails at the cost of one of them; a successful erase leaves every
bit set; a write clears only bits that are clear in its data, and a successful one clears all of
those.
Kind: D -/
structure NorPart (σ : Type*) extends FlashPart σ where
  blockCount : ℕ
  /-- How many calls will still fail. -/
  faults : σ → ℕ
  faults_read : ∀ lba offset n s, faults (read lba offset n s).2 ≤ faults s
  faults_read_failed : ∀ lba offset n s, lba < blockCount → offset + n ≤ blockSize →
    (read lba offset n s).1.complete n = false → faults (read lba offset n s).2 < faults s
  faults_write : ∀ lba offset d s, faults (write lba offset d s).2 ≤ faults s
  faults_write_failed : ∀ lba offset d s, lba < blockCount → offset + d.length ≤ blockSize →
    (write lba offset d s).1.complete d.length = false →
      faults (write lba offset d s).2 < faults s
  faults_erase : ∀ lba s, faults (erase lba s).2 ≤ faults s
  faults_erase_failed : ∀ lba s, lba < blockCount → efiError (erase lba s).1 = true →
    faults (erase lba s).2 < faults s
  faults_stall : ∀ f, stall = some f → ∀ k s, faults (f k s) ≤ faults s
  erase_ok : ∀ lba s, efiError (erase lba s).1 = false →
    ∀ i, i / blockSize = lba → content (erase lba s).2 i = 0xFF
  write_bits : ∀ lba offset d s, offset + d.length ≤ blockSize → ∀ i (h : i < d.length),
    content (write lba offset d s).2 (lba * blockSize + offset + i) &&& d[i] =
      content s (lba * blockSize + offset + i) &&& d[i]
  write_ok : ∀ lba offset d s, offset + d.length ≤ blockSize →
    (write lba offset d s).1.complete d.length = true →
    ∀ i (h : i < d.length), content (write lba offset d s).2 (lba * blockSize + offset + i) =
      content s (lba * blockSize + offset + i) &&& d[i]

namespace FlashPart

variable (part : FlashPart σ)

/-- The octets of block `lba`. Kind: D -/
def block (s : σ) (lba : ℕ) : List UInt8 :=
  cells (part.content s) (lba * part.blockSize) part.blockSize

/-- No address outside block `lba` has changed since `s`. Kind: D -/
def SameBut (lba : ℕ) (s t : σ) : Prop :=
  ∀ i, i / part.blockSize ≠ lba → part.content t i = part.content s i

variable {part}

lemma SameBut.refl (lba : ℕ) (s : σ) : part.SameBut lba s s := fun _ _ => rfl

lemma SameBut.of_content_eq {lba : ℕ} {s t u : σ} (h : part.SameBut lba s t)
    (hc : part.content u = part.content t) : part.SameBut lba s u :=
  fun i hi => by rw [hc, h i hi]

lemma SameBut.trans {lba : ℕ} {s t u : σ} (h : part.SameBut lba s t)
    (h' : part.SameBut lba t u) : part.SameBut lba s u :=
  fun i hi => (h' i hi).trans (h i hi)

@[simp] theorem content_stallAfterFailure (part : FlashPart σ) (k : ℕ) (s : σ) :
    part.content (stallAfterFailure part.toFlashIo k s) = part.content s := by
  unfold stallAfterFailure
  split
  · exact part.content_stall _ ‹_› k s
  · rfl

end FlashPart

/-! ### What each call does -/

section Safety

variable (part : FlashPart σ)

/-- Everything a read with retries can do: the flash is as it was, a complete answer is what it
holds, and an incomplete one is an error.
Kind: P -/
structure ReadSpec (lba offset n : ℕ) (s : σ) (r : ReadAnswer × σ) : Prop where
  unchanged : part.content r.2 = part.content s
  data : efiError r.1.status = false →
    r.1.data = cells (part.content s) (lba * part.blockSize + offset) n

theorem fmpDeviceFlashReadWithRetry_spec (lba offset n : ℕ) (s : σ) :
    ReadSpec part lba offset n s (fmpDeviceFlashReadWithRetry part.toFlashIo lba offset n s) := by
  have hread : ∀ t, part.content t = part.content s →
      part.content (part.read lba offset n t).2 = part.content s := by
    intro t ht
    rw [part.content_read, ht]
  have hstall : ∀ k t, part.content t = part.content s →
      part.content (stallAfterFailure part.toFlashIo k t) = part.content s := by
    intro k t ht
    rw [part.content_stallAfterFailure, ht]
  have hcontent := retry_invariant _ (ReadAnswer.complete n) _ _ hread hstall flashRetryCount 0
    ⟨efiDeviceError, []⟩ s rfl
  unfold fmpDeviceFlashReadWithRetry
  dsimp only
  split
  · rename_i hok
    obtain ⟨t, ht, heq⟩ := exists_attempt_of_ok _ (ReadAnswer.complete n) _ _ hread hstall
      flashRetryCount 0 ⟨efiDeviceError, []⟩ s rfl rfl hok
    refine ⟨hcontent, fun _ => ?_⟩
    rw [heq] at hok ⊢
    rw [← ht]
    exact part.read_data lba offset n t hok
  · exact ⟨hcontent, fun herr => by simp at herr⟩

/-- The callers ask for the length as well; it is only wrong where the status is.
Kind: L -/
theorem ReadSpec.incomplete_eq {part : FlashPart σ} {lba offset n : ℕ} {s : σ} {r : ReadAnswer × σ}
    (h : ReadSpec part lba offset n s r) :
    (efiError r.1.status || r.1.data.length != n) = efiError r.1.status := by
  by_cases hok : efiError r.1.status = true
  · simp [hok]
  · have hok' := Bool.eq_false_iff.mpr hok
    simp [hok', h.data hok']

/-- Erasing a block, however often, leaves the others alone. Kind: L -/
theorem sameBut_fmpDeviceFlashEraseWithRetry (lba : ℕ) (s : σ) :
    part.SameBut lba s (fmpDeviceFlashEraseWithRetry part.toFlashIo lba s).2 := by
  have hloop := retry_invariant (part.erase lba) (fun status => !efiError status)
    (stallAfterFailure part.toFlashIo) (part.SameBut lba s)
    (fun t ht => ht.trans (part.erase_frame lba t))
    (fun k t ht => ht.of_content_eq (part.content_stallAfterFailure k t))
    flashRetryCount 0 efiDeviceError s (FlashPart.SameBut.refl lba s)
  unfold fmpDeviceFlashEraseWithRetry
  dsimp only
  split <;> exact hloop

/-- Writing into a block, however often, leaves the others alone. Kind: L -/
theorem sameBut_fmpDeviceFlashWriteWithRetry (lba offset : ℕ) (buffer : List UInt8) (s : σ) :
    part.SameBut lba s (fmpDeviceFlashWriteWithRetry part.toFlashIo lba offset buffer s).2 := by
  have hloop := retry_invariant (part.write lba offset buffer)
    (WriteAnswer.complete buffer.length) (stallAfterFailure part.toFlashIo) (part.SameBut lba s)
    (fun t ht => ht.trans (part.write_frame lba offset buffer t))
    (fun k t ht => ht.of_content_eq (part.content_stallAfterFailure k t))
    flashRetryCount 0 ⟨efiDeviceError, 0⟩ s (FlashPart.SameBut.refl lba s)
  unfold fmpDeviceFlashWriteWithRetry
  dsimp only
  split <;> exact hloop

/-- Verification reads, and only a block that holds what is expected passes. Kind: L -/
theorem verifyFlashWrite_spec (lba : ℕ) (expected : List UInt8) (s : σ) :
    part.content (verifyFlashWrite part.toFlashIo lba expected part.blockSize s).2 =
        part.content s ∧
      (efiError (verifyFlashWrite part.toFlashIo lba expected part.blockSize s).1 = false →
        part.block s lba = expected) := by
  have hread := fmpDeviceFlashReadWithRetry_spec part lba 0 part.blockSize s
  unfold verifyFlashWrite
  dsimp only
  rw [hread.incomplete_eq]
  split
  · exact ⟨hread.unchanged, by simp⟩
  · rename_i hcomplete
    split
    · rename_i heq
      refine ⟨hread.unchanged, fun _ => ?_⟩
      rw [FlashPart.block, ← heq, hread.data (Bool.eq_false_iff.mpr hcomplete), Nat.add_zero]
    · exact ⟨hread.unchanged, by simp⟩

/-- What the programming of block `lba` with `expected` guarantees, whatever the part's erases and
writes do: success means that the block holds `expected`, and no other block has changed.
Kind: D -/
structure ProgramSpec (lba : ℕ) (expected : List UInt8) (s : σ) (r : EfiStatus × σ) : Prop where
  programmed : efiError r.1 = false → part.block r.2 lba = expected
  frame : part.SameBut lba s r.2

lemma programOnce_spec (lba : ℕ) (expected : List UInt8) (s : σ) :
    ProgramSpec part lba expected s
      (programOnce part.toFlashIo lba expected part.blockSize s) := by
  have herase := sameBut_fmpDeviceFlashEraseWithRetry part lba s
  unfold programOnce
  dsimp only
  split
  · rename_i herr
    exact ⟨fun hno => absurd hno (by simp [herr]), herase⟩
  · have hwrite := herase.trans (sameBut_fmpDeviceFlashWriteWithRetry part lba 0 expected _)
    split
    · exact ⟨by simp, hwrite⟩
    · have hverify := verifyFlashWrite_spec part lba expected
        (fmpDeviceFlashWriteWithRetry part.toFlashIo lba 0 expected
          (fmpDeviceFlashEraseWithRetry part.toFlashIo lba s).2).2
      refine ⟨fun hok => ?_, hwrite.of_content_eq hverify.1⟩
      rw [FlashPart.block, hverify.1]
      exact hverify.2 hok

theorem fmpDeviceFlashProgramWithRetry_spec (lba : ℕ) (expected : List UInt8) (s : σ) :
    ProgramSpec part lba expected s
      (fmpDeviceFlashProgramWithRetry part.toFlashIo lba expected part.blockSize s) := by
  have hround : ∀ t, part.SameBut lba s t →
      part.SameBut lba s (programOnce part.toFlashIo lba expected part.blockSize t).2 :=
    fun t ht => ht.trans (programOnce_spec part lba expected t).frame
  have hstall : ∀ k t, part.SameBut lba s t →
      part.SameBut lba s (stallAfterFailure part.toFlashIo k t) :=
    fun k t ht => ht.of_content_eq (part.content_stallAfterFailure k t)
  have hframe := retry_invariant _ (fun status => !efiError status) _ _ hround hstall
    flashRetryCount 0 efiDeviceError s (FlashPart.SameBut.refl lba s)
  unfold fmpDeviceFlashProgramWithRetry
  rw [if_neg part.blockSize_pos.ne']
  dsimp only
  split
  · rename_i herr
    exact ⟨fun hno => absurd hno (by simp [herr]), hframe⟩
  · rename_i hok
    refine ⟨fun _ => ?_, hframe⟩
    -- the round that succeeded is the last thing that happened to the flash
    obtain ⟨t, -, heq⟩ := exists_attempt_of_ok _ (fun status => !efiError status) _ _ hround
      hstall flashRetryCount 0 efiDeviceError s (FlashPart.SameBut.refl lba s) (by simp)
      (by simpa using hok)
    rw [heq] at hok ⊢
    exact (programOnce_spec part lba expected t).programmed (by simpa using hok)

end Safety

/-! ### Fault tolerance -/

section Tolerance

variable (part : NorPart σ)

lemma faults_stallAfterFailure (k : ℕ) (s : σ) :
    part.faults (stallAfterFailure part.toFlashIo k s) ≤ part.faults s := by
  unfold stallAfterFailure
  split
  · exact part.faults_stall _ ‹_› k s
  · exact le_rfl

/-- The price of a call with retries: never more faults than there were, and four for giving up.
Kind: D -/
structure Priced (failed : Bool) (s t : σ) : Prop where
  le : part.faults t ≤ part.faults s
  gaveUp : failed = true → part.faults t + 4 ≤ part.faults s

/-- The four loops of this file pay alike. `I` is what the flash keeps while the loop runs.
Kind: P -/
theorem priced_retry {ρ : Type*} (attempt : σ → ρ × σ) (ok : ρ → Bool) (I : σ → Prop)
    (hI : ∀ t, I t → I (attempt t).2)
    (hstall : ∀ k t, I t → I (stallAfterFailure part.toFlashIo k t))
    (hle : ∀ t, part.faults (attempt t).2 ≤ part.faults t)
    (hlt : ∀ t, I t → ok (attempt t).1 = false → part.faults (attempt t).2 < part.faults t)
    (last : ρ) (s : σ) (hs : I s) :
    Priced part
      (!ok (retry attempt ok (stallAfterFailure part.toFlashIo) flashRetryCount 0 last s).1)
      s (retry attempt ok (stallAfterFailure part.toFlashIo) flashRetryCount 0 last s).2 := by
  constructor
  · exact retry_invariant _ _ _ (fun t => part.faults t ≤ part.faults s)
      (fun t ht => (hle t).trans ht)
      (fun k t ht => (faults_stallAfterFailure part k t).trans ht) _ _ _ _ le_rfl
  · intro hfail
    have hpaid := retry_budget attempt ok _ I part.faults 1 hI hstall
      (fun t ht hno => hlt t ht hno) (faults_stallAfterFailure part) flashRetryCount 0 last s hs
      (by simpa using hfail)
    simpa [flashRetryCount] using hpaid

lemma priced_read {lba n : ℕ} (offset : ℕ) (hlba : lba < part.blockCount)
    (hn : offset + n ≤ part.blockSize) (s : σ) :
    Priced part (efiError (fmpDeviceFlashReadWithRetry part.toFlashIo lba offset n s).1.status) s
      (fmpDeviceFlashReadWithRetry part.toFlashIo lba offset n s).2 := by
  have hloop := priced_retry part (part.read lba offset n) (ReadAnswer.complete n)
    (fun _ => True) (fun _ _ => trivial) (fun _ _ _ => trivial)
    (part.faults_read lba offset n) (fun t _ => part.faults_read_failed lba offset n t hlba hn)
    ⟨efiDeviceError, []⟩ s trivial
  unfold fmpDeviceFlashReadWithRetry
  dsimp only
  split
  · exact ⟨hloop.le, by simp⟩
  · rename_i hno
    exact ⟨hloop.le, fun _ => hloop.gaveUp (by simpa using hno)⟩

lemma priced_erase {lba : ℕ} (hlba : lba < part.blockCount) (s : σ) :
    Priced part (efiError (fmpDeviceFlashEraseWithRetry part.toFlashIo lba s).1) s
      (fmpDeviceFlashEraseWithRetry part.toFlashIo lba s).2 := by
  have hloop := priced_retry part (part.erase lba)
    (fun status => !efiError status) (fun _ => True) (fun _ _ => trivial)
    (fun _ _ _ => trivial) (part.faults_erase lba)
    (fun t _ hno => part.faults_erase_failed lba t hlba (by simpa using hno)) efiDeviceError s
    trivial
  unfold fmpDeviceFlashEraseWithRetry
  dsimp only
  split
  · rename_i herr
    exact ⟨hloop.le, fun _ => hloop.gaveUp (by simpa using herr)⟩
  · exact ⟨hloop.le, by simp⟩

lemma priced_write {lba : ℕ} (offset : ℕ) (buffer : List UInt8) (hlba : lba < part.blockCount)
    (hbuffer : offset + buffer.length ≤ part.blockSize) (s : σ) :
    Priced part
      (efiError (fmpDeviceFlashWriteWithRetry part.toFlashIo lba offset buffer s).1.status)
      s (fmpDeviceFlashWriteWithRetry part.toFlashIo lba offset buffer s).2 := by
  have hloop := priced_retry part (part.write lba offset buffer)
    (WriteAnswer.complete buffer.length) (fun _ => True) (fun _ _ => trivial)
    (fun _ _ _ => trivial) (part.faults_write lba offset buffer)
    (fun t _ => part.faults_write_failed lba offset buffer t hlba hbuffer) ⟨efiDeviceError, 0⟩ s
    trivial
  unfold fmpDeviceFlashWriteWithRetry
  dsimp only
  split
  · exact ⟨hloop.le, by simp⟩
  · rename_i hno
    exact ⟨hloop.le, fun _ => hloop.gaveUp (by simpa using hno)⟩

/-- An erase that reports success left every bit of the block set. Kind: L -/
theorem erased_of_eraseWithRetry (lba : ℕ) (s : σ)
    (h : efiError (fmpDeviceFlashEraseWithRetry part.toFlashIo lba s).1 = false) :
    ∀ i, i / part.blockSize = lba →
      part.content (fmpDeviceFlashEraseWithRetry part.toFlashIo lba s).2 i = 0xFF := by
  unfold fmpDeviceFlashEraseWithRetry at h ⊢
  dsimp only at h ⊢
  split at h
  · rename_i herr
    rw [herr] at h
    cases h
  · rename_i hok
    rw [if_neg hok]
    obtain ⟨t, -, heq⟩ := exists_attempt_of_ok (part.erase lba)
      (fun status => !efiError status) (stallAfterFailure part.toFlashIo)
      (fun _ => True) (fun _ _ => trivial) (fun _ _ _ => trivial) flashRetryCount 0
      efiDeviceError s trivial (by simp) (by simpa using hok)
    rw [heq] at hok ⊢
    exact part.erase_ok lba t (by simpa using hok)

/-- Writing `buffer` can still succeed: no bit of it that is set is clear in the flash. Kind: D -/
def Writable (lba offset : ℕ) (buffer : List UInt8) (s : σ) : Prop :=
  ∀ i (h : i < buffer.length),
    part.content s (lba * part.blockSize + offset + i) &&& buffer[i] = buffer[i]

/-- A failed or partial write clears no bit that the next one needs, so the attempt that reports
success leaves the data. Kind: P -/
theorem written_of_writeWithRetry {lba offset : ℕ} {buffer : List UInt8}
    (hbuffer : offset + buffer.length ≤ part.blockSize) {s : σ}
    (hs : Writable part lba offset buffer s)
    (h : efiError (fmpDeviceFlashWriteWithRetry part.toFlashIo lba offset buffer s).1.status =
      false) :
    ∀ i (hi : i < buffer.length),
      part.content (fmpDeviceFlashWriteWithRetry part.toFlashIo lba offset buffer s).2
        (lba * part.blockSize + offset + i) = buffer[i] := by
  unfold fmpDeviceFlashWriteWithRetry at h ⊢
  dsimp only at h ⊢
  split at h
  · rename_i hok
    rw [if_pos hok]
    obtain ⟨t, ht, heq⟩ := exists_attempt_of_ok (part.write lba offset buffer)
      (WriteAnswer.complete buffer.length) (stallAfterFailure part.toFlashIo)
      (Writable part lba offset buffer)
      (fun t ht i hi => (part.write_bits lba offset buffer t hbuffer i hi).trans (ht i hi))
      (fun k t ht i hi => by rw [part.content_stallAfterFailure]; exact ht i hi)
      flashRetryCount 0 ⟨efiDeviceError, 0⟩ s hs rfl hok
    rw [heq] at hok ⊢
    intro i hi
    rw [part.write_ok lba offset buffer t hbuffer hok i hi, ht i hi]
  · simp at h

/-- A write that ends without an error has written everything. Kind: L -/
theorem numBytes_of_writeWithRetry {io : FlashIo σ} {lba offset : ℕ} {buffer : List UInt8} {s : σ}
    (h : efiError (fmpDeviceFlashWriteWithRetry io lba offset buffer s).1.status = false) :
    (fmpDeviceFlashWriteWithRetry io lba offset buffer s).1.numBytes = buffer.length := by
  unfold fmpDeviceFlashWriteWithRetry at h ⊢
  dsimp only at h ⊢
  split at h
  · rename_i hok
    rw [if_pos hok]
    simp only [WriteAnswer.complete, Bool.and_eq_true, beq_iff_eq] at hok
    exact hok.2
  · simp at h

/-- On a block that holds what is expected, verification fails only by giving up a read.
Kind: L -/
theorem priced_verifyFlashWrite {lba : ℕ} (hlba : lba < part.blockCount)
    {expected : List UInt8} {s : σ} (hblock : part.block s lba = expected) :
    Priced part (efiError (verifyFlashWrite part.toFlashIo lba expected part.blockSize s).1) s
      (verifyFlashWrite part.toFlashIo lba expected part.blockSize s).2 := by
  have hread := fmpDeviceFlashReadWithRetry_spec part.toFlashPart lba 0 part.blockSize s
  have hprice := priced_read part 0 hlba (Nat.zero_add _).le s
  unfold verifyFlashWrite
  dsimp only
  rw [hread.incomplete_eq]
  split
  · rename_i hfailed
    exact ⟨hprice.le, fun _ => hprice.gaveUp hfailed⟩
  · rename_i hcomplete
    have hdata : (fmpDeviceFlashReadWithRetry part.toFlashIo lba 0 part.blockSize s).1.data =
        expected := by
      rw [hread.data (Bool.eq_false_iff.mpr hcomplete), Nat.add_zero]
      exact hblock
    rw [if_pos hdata]
    exact ⟨hprice.le, by simp⟩

/-- After an erase that reported success, a write that reports success leaves its data in the
block. Kind: L -/
theorem block_of_erase_write (lba : ℕ) (expected : List UInt8)
    (hlen : expected.length = part.blockSize) {s : σ}
    (hblank : ∀ i, i / part.blockSize = lba → part.content s i = 0xFF)
    (h : efiError (fmpDeviceFlashWriteWithRetry part.toFlashIo lba 0 expected s).1.status = false) :
    part.block (fmpDeviceFlashWriteWithRetry part.toFlashIo lba 0 expected s).2 lba = expected := by
  have hpos := part.blockSize_pos
  have hwritable : Writable part lba 0 expected s := by
    intro i hi
    have hinBlock : (lba * part.blockSize + 0 + i) / part.blockSize = lba := by
      rw [div_eq_iff_mem_Ico hpos, Set.mem_Ico]
      omega
    rw [hblank _ hinBlock]
    exact UInt8.neg_one_and
  symm
  rw [FlashPart.block, eq_cells_iff hlen]
  exact written_of_writeWithRetry part (by omega) hwritable h

lemma Priced.trans {failed failed' : Bool} {s t u : σ} (h : Priced part failed s t)
    (h' : Priced part failed' t u) : Priced part failed' s u :=
  ⟨h'.le.trans h.le, fun hf => (h'.gaveUp hf).trans h.le⟩

/-- A failed round of programming has cost four faults: four erases, four writes or four reads.
Kind: P -/
theorem priced_programOnce {lba : ℕ} (hlba : lba < part.blockCount) {expected : List UInt8}
    (hlen : expected.length = part.blockSize) (s : σ) :
    Priced part (efiError (programOnce part.toFlashIo lba expected part.blockSize s).1) s
      (programOnce part.toFlashIo lba expected part.blockSize s).2 := by
  have herase := priced_erase part hlba s
  have hblank := erased_of_eraseWithRetry part lba s
  unfold programOnce
  dsimp only
  split
  · rename_i herr
    exact ⟨herase.le, fun _ => herase.gaveUp herr⟩
  · rename_i herr
    replace hblank := hblank (Bool.eq_false_iff.mpr herr)
    have hwrite := herase.trans part (priced_write part 0 expected hlba
      (by omega) (fmpDeviceFlashEraseWithRetry part.toFlashIo lba s).2)
    split
    · rename_i hfailed
      refine ⟨hwrite.le, fun _ => hwrite.gaveUp ?_⟩
      by_contra hok
      have hok' := Bool.eq_false_iff.mpr hok
      simp [hok', numBytes_of_writeWithRetry hok', hlen] at hfailed
    · rename_i hcomplete
      simp only [Bool.or_eq_true, not_or, Bool.not_eq_true] at hcomplete
      exact hwrite.trans part (priced_verifyFlashWrite part hlba
        (block_of_erase_write part lba expected hlen hblank hcomplete.1))

/-- Sixteen failed calls are needed to make the programming of a block fail. Kind: P -/
theorem faults_fmpDeviceFlashProgramWithRetry {lba : ℕ} (hlba : lba < part.blockCount)
    {expected : List UInt8} (hlen : expected.length = part.blockSize) (s : σ) :
    part.faults (fmpDeviceFlashProgramWithRetry part.toFlashIo lba expected part.blockSize s).2 ≤
        part.faults s ∧
      (efiError (fmpDeviceFlashProgramWithRetry part.toFlashIo lba expected part.blockSize s).1 =
          true →
        part.faults
            (fmpDeviceFlashProgramWithRetry part.toFlashIo lba expected part.blockSize s).2 +
          16 ≤ part.faults s) := by
  have hle := retry_invariant (programOnce part.toFlashIo lba expected part.blockSize)
    (fun status => !efiError status) (stallAfterFailure part.toFlashIo)
    (fun t => part.faults t ≤ part.faults s)
    (fun t ht => (priced_programOnce part hlba hlen t).le.trans ht)
    (fun k t ht => (faults_stallAfterFailure part k t).trans ht) flashRetryCount 0 efiDeviceError s
    le_rfl
  unfold fmpDeviceFlashProgramWithRetry
  rw [if_neg part.blockSize_pos.ne']
  dsimp only
  split
  · rename_i herr
    refine ⟨hle, fun _ => ?_⟩
    exact retry_budget (programOnce part.toFlashIo lba expected part.blockSize)
      (fun status => !efiError status) (stallAfterFailure part.toFlashIo)
      (fun _ => True) part.faults 4 (fun _ _ => trivial) (fun _ _ _ => trivial)
      (fun t _ hno => (priced_programOnce part hlba hlen t).gaveUp (by simpa using hno))
      (faults_stallAfterFailure part) flashRetryCount 0 efiDeviceError s trivial
      (by simpa using herr)
  · exact ⟨hle, by simp⟩

/-- **Fifteen faults are tolerated.** On a NOR part of which fewer than sixteen calls will still
fail, whichever they are and however far a failed write got, programming a block reports success,
the block then holds what it should and no other block has changed.
Kind: P -/
theorem program_succeeds_of_faults (lba : ℕ) (expected : List UInt8) (s : σ)
    (hlba : lba < part.blockCount) (hlen : expected.length = part.blockSize)
    (hfaults : part.faults s < 16) :
    (fmpDeviceFlashProgramWithRetry part.toFlashIo lba expected part.blockSize s).1 = efiSuccess ∧
      part.block (fmpDeviceFlashProgramWithRetry part.toFlashIo lba expected part.blockSize s).2
        lba = expected ∧
      part.SameBut lba s
        (fmpDeviceFlashProgramWithRetry part.toFlashIo lba expected part.blockSize s).2 := by
  have hspec := fmpDeviceFlashProgramWithRetry_spec part.toFlashPart lba expected s
  have hok : efiError
      (fmpDeviceFlashProgramWithRetry part.toFlashIo lba expected part.blockSize s).1 = false := by
    by_contra herr
    have := (faults_fmpDeviceFlashProgramWithRetry part hlba hlen s).2
      (by simpa using herr)
    omega
  refine ⟨?_, hspec.programmed hok, hspec.frame⟩
  unfold fmpDeviceFlashProgramWithRetry at hok ⊢
  rw [if_neg part.blockSize_pos.ne'] at hok ⊢
  dsimp only at hok ⊢
  split at hok
  · simp_all
  · rename_i hno
    rw [if_neg hno]

end Tolerance

/-! ### A part with a script of failures -/

/-- A flash whose next calls fail or not as a script says. Kind: D -/
structure Scripted where
  mem : ℕ → UInt8
  script : List Bool

namespace Scripted

/-- Whether the next call fails. Kind: D -/
def fails (s : Scripted) : Bool := s.script.headD false

/-- The flash after a call that left `mem`. Kind: D -/
def next (s : Scripted) (mem : ℕ → UInt8) : Scripted := ⟨mem, s.script.tail⟩

/-- The memory after the first `n` octets of `d` were written at `a`, inside block `lba`.
Kind: D -/
def burn (mem : ℕ → UInt8) (blockSize lba a n : ℕ) (d : List UInt8) : ℕ → UInt8 := fun i =>
  if i / blockSize = lba ∧ a ≤ i ∧ i < a + n then mem i &&& d.getD (i - a) 0xFF else mem i

lemma burn_add {mem : ℕ → UInt8} {blockSize lba a n i : ℕ} {d : List UInt8} (hi : i < d.length) :
    burn mem blockSize lba a n d (a + i) =
      if (a + i) / blockSize = lba ∧ i < n then mem (a + i) &&& d[i] else mem (a + i) := by
  simp [burn, hi]

lemma burn_add_and {mem : ℕ → UInt8} {blockSize lba a n i : ℕ} {d : List UInt8}
    (hi : i < d.length) : burn mem blockSize lba a n d (a + i) &&& d[i] = mem (a + i) &&& d[i] := by
  rw [burn_add hi]
  split
  · rw [UInt8.and_assoc, UInt8.and_self]
  · rfl

/-- The calls: a failed read delivers nothing, a failed write stops half-way, a failed erase does
nothing. Kind: D -/
def io (blockSize : ℕ) : FlashIo Scripted where
  read lba offset n s :=
    (if s.fails then ⟨efiDeviceError, []⟩
      else ⟨efiSuccess, cells s.mem (lba * blockSize + offset) n⟩, s.next s.mem)
  write lba offset d s :=
    let n := if s.fails then d.length / 2 else d.length
    (⟨if s.fails then efiDeviceError else efiSuccess, n⟩,
      s.next (burn s.mem blockSize lba (lba * blockSize + offset) n d))
  erase lba s :=
    if s.fails then (efiDeviceError, s.next s.mem)
    else (efiSuccess, s.next fun i => if i / blockSize = lba then 0xFF else s.mem i)
  stall := none

lemma count_tail_le (l : List Bool) : l.tail.count true ≤ l.count true :=
  l.tail_sublist.count_le true

lemma count_tail_lt {l : List Bool} (h : l.headD false = true) :
    l.tail.count true < l.count true := by
  cases l with
  | nil => cases h
  | cons b l =>
      cases (show b = true from h)
      simp

/-- Every such flash is a NOR part, with the failures of its script as faults.
Kind: P -/
def part (blockSize blockCount : ℕ) (hpos : 0 < blockSize) : NorPart Scripted where
  toFlashIo := io blockSize
  blockSize := blockSize
  blockSize_pos := hpos
  content := mem
  content_read _ _ _ _ := rfl
  content_stall _ h := by cases h
  read_data lba offset n s h := by
    simp only [io] at h ⊢
    split at h
    · simp [ReadAnswer.complete] at h
    · rename_i hok
      rw [if_neg hok]
  write_frame lba offset d s i hi := by simp [io, next, burn, hi]
  erase_frame lba s i hi := by
    simp only [io]
    split <;> simp [next, hi]
  blockCount := blockCount
  faults s := s.script.count true
  faults_read _ _ _ s := count_tail_le s.script
  faults_read_failed lba offset n s _ _ h := by
    simp only [io] at h
    split at h
    · exact count_tail_lt ‹_›
    · simp [ReadAnswer.complete] at h
  faults_write _ _ _ s := count_tail_le s.script
  faults_write_failed lba offset d s _ _ h := by
    simp only [io] at h
    split at h
    · exact count_tail_lt ‹_›
    · simp [WriteAnswer.complete] at h
  faults_erase lba s := by
    simp only [io]
    split <;> exact count_tail_le s.script
  faults_erase_failed lba s _ h := by
    simp only [io] at h ⊢
    split at h
    · rename_i hfails
      rw [if_pos hfails]
      exact count_tail_lt hfails
    · simp at h
  faults_stall _ h := by cases h
  erase_ok lba s h i hi := by
    simp only [io] at h ⊢
    split at h
    · simp at h
    · rename_i hok
      rw [if_neg hok]
      simp [next, hi]
  write_bits _ _ _ _ _ _ hi := burn_add_and hi
  write_ok lba offset d s hd h i hi := by
    simp only [io] at h ⊢
    have hok : s.fails = false := by
      by_contra hf
      simp [WriteAnswer.complete, Bool.eq_true_of_not_eq_false hf] at h
    have hblock : (lba * blockSize + offset + i) / blockSize = lba := by
      rw [div_eq_iff_mem_Ico hpos, Set.mem_Ico]
      omega
    simp only [next, burn_add hi, hok, Bool.false_eq_true, if_false, hblock, hi, and_self, if_true]

end Scripted

/-- A block of a scripted part, programmed through three failed writes and three failed reads.
Kind: C -/
theorem program_succeeds_of_faults_scripted :
    (fmpDeviceFlashProgramWithRetry (Scripted.io 4) 1 [1, 2, 3, 4] 4
      ⟨fun _ => 0, [false, true, true, true, false, true, true, true]⟩).1 = efiSuccess :=
  (program_succeeds_of_faults (Scripted.part 4 2 (by decide)) 1 [1, 2, 3, 4]
    ⟨fun _ => 0, [false, true, true, true, false, true, true, true]⟩ (by decide) rfl (by decide)).1

end NucBios.Update
