import NucBios.Uefi.Base

/-!
# Capsule headers and drop-box names: `NucCapsuleParse.c`

The pure part of the capsule scanner. A buffer is what the C has, a pointer (`ℕ → UInt8`) and a
length, so that nothing in the model stops a function from reading past the end.

* `nucCapsuleValidateHeader` — the FMP GUID, the refusal of `PERSIST_ACROSS_RESET` and the two
  size checks, in the source's order, with the source's status codes;
* `nucCapsuleGetPayloadVersion` — the bounded search for the `MSS1` payload header. The loop is
  `searchPayload`, its body `payloadHeaderAt`; `searchPayload_eq_some_iff` says that it returns the
  leftmost accepted header;
* `nucCapsuleGetPayloadVersionChecked` — the same search on memory that faults behind the buffer,
  with the out parameter; `payload_version_leftmost` is its specification;
* `nucCapsuleIsCandidateFile` — the drop-box name filter, `nucCapsuleIsCandidateFile_iff` its
  meaning.

`NULL` arguments, which no caller in the tree passes, are not modelled.
-/

namespace NucBios.Capsule

open NucBios.Uefi

/-! ### The capsule header -/

/-- `EFI_FIRMWARE_MANAGEMENT_CAPSULE_ID_GUID`.
Source: `NucCapsuleParse.c` `mFmpCapsuleGuid`
Kind: D -/
def mFmpCapsuleGuid : Guid where
  data1 := 0x6dcbd5ed
  data2 := 0xe82d
  data3 := 0x4c44
  data4 := [0xbd, 0xa1, 0x71, 0x94, 0x19, 0x9a, 0xd9, 0x2a]

def capsuleOffGuid : ℕ := 0
def capsuleOffHeaderSize : ℕ := 16
def capsuleOffFlags : ℕ := 20
def capsuleOffImageSize : ℕ := 24
def capsuleMinHeader : ℕ := 28
def capsuleFlagsPersistAcrossReset : UInt32 := 0x00010000

/-- Source: `NucCapsuleParse.c` `NucCapsuleIsFmpCapsule`. Kind: D -/
def nucCapsuleIsFmpCapsule (guid : Guid) : Bool :=
  if guid.data1 ≠ mFmpCapsuleGuid.data1 ∨ guid.data2 ≠ mFmpCapsuleGuid.data2 ∨
      guid.data3 ≠ mFmpCapsuleGuid.data3 then
    false
  else
    (List.range 8).all fun i => guid.data4.getD i 0 == mFmpCapsuleGuid.data4.getD i 0

/-- The GUID `NucCapsuleValidateHeader` assembles from the first sixteen octets.
Source: `NucCapsuleParse.c` `NucCapsuleValidateHeader`
Kind: D -/
def headerGuid (buf : ℕ → UInt8) : Guid where
  data1 := readLe32 buf capsuleOffGuid
  data2 := readLe16 buf 4
  data3 := readLe16 buf 6
  data4 := (List.range 8).map fun i => buf (8 + i)

/-- The GUID test passes exactly the FMP capsule GUID. Kind: L -/
theorem nucCapsuleIsFmpCapsule_iff {g : Guid} (hlen : g.data4.length = 8) :
    nucCapsuleIsFmpCapsule g = true ↔ g = mFmpCapsuleGuid := by
  unfold nucCapsuleIsFmpCapsule
  split_ifs with h
  · simp only [false_iff]
    intro hg
    rw [hg] at h
    simp at h
  · rw [not_or, not_or, not_ne_iff, not_ne_iff, not_ne_iff] at h
    obtain ⟨d1, d2, d3, d4⟩ := g
    obtain ⟨rfl, rfl, rfl⟩ := h
    rw [List.all_eq_true]
    constructor
    · intro hall
      suffices d4 = mFmpCapsuleGuid.data4 by rw [this]
      refine List.ext_getElem hlen fun i hi hi' => ?_
      simpa [hi, hi'] using hall i (List.mem_range.mpr (hlen ▸ hi))
    · intro hg i _
      rw [hg, beq_self_eq_true]

/-- The header's GUID is the one whose octets it starts with. Kind: L -/
theorem headerGuid_eq_iff {buf : ℕ → UInt8} {g : Guid} (hlen : g.data4.length = 8) :
    headerGuid buf = g ↔ (List.range 16).map buf = g.octets := by
  have hrange : (List.range 16).map buf = [buf 0, buf 1, buf 2, buf 3] ++ [buf 4, buf 5] ++
      [buf 6, buf 7] ++ (List.range 8).map fun i => buf (8 + i) := rfl
  have h1 : readLe32 buf 0 = g.data1 ↔ _ := readLe32_eq_iff
  have h2 : readLe16 buf 4 = g.data2 ↔ _ := readLe16_eq_iff
  have h3 : readLe16 buf 6 = g.data3 ↔ _ := readLe16_eq_iff
  rw [hrange, Guid.octets]
  constructor
  · rintro rfl
    exact congrArg₂ _ (congrArg₂ _ (congrArg₂ _ (h1.mp rfl) (h2.mp rfl)) (h3.mp rfl)) rfl
  · intro h
    obtain ⟨h, hdata4⟩ := List.append_inj h rfl
    obtain ⟨h, hdata3⟩ := List.append_inj h rfl
    obtain ⟨hdata1, hdata2⟩ := List.append_inj h rfl
    obtain ⟨d1, d2, d3, d4⟩ := g
    rw [headerGuid, Guid.mk.injEq]
    exact ⟨h1.mpr hdata1, h2.mpr hdata2, h3.mpr hdata3, hdata4⟩

/-- What a validated header hands back through the out parameters. Kind: D -/
structure HeaderInfo where
  imageSize : ℕ
  flags : UInt32
  deriving DecidableEq, Repr

/-- Source: `NucCapsuleParse.c` `NucCapsuleValidateHeader`. Kind: D -/
def nucCapsuleValidateHeader (buf : ℕ → UInt8) (len : ℕ) : Except EfiStatus HeaderInfo :=
  if len < capsuleMinHeader then
    .error efiBadBufferSize
  else if !nucCapsuleIsFmpCapsule (headerGuid buf) then
    .error efiUnsupported
  else
    let headerSize := (readLe32 buf capsuleOffHeaderSize).toNat
    let capsuleFlags := readLe32 buf capsuleOffFlags
    let capsuleImageSize := (readLe32 buf capsuleOffImageSize).toNat
    if capsuleFlags &&& capsuleFlagsPersistAcrossReset ≠ 0 then
      .error efiUnsupported
    else if headerSize < capsuleMinHeader ∨ len < headerSize then
      .error efiBadBufferSize
    else if capsuleImageSize < headerSize ∨ len < capsuleImageSize then
      .error efiBadBufferSize
    else
      .ok ⟨capsuleImageSize, capsuleFlags⟩

/-- What an accepted header guarantees.
Source: `NucCapsuleParse.c` `NucCapsuleValidateHeader`
Kind: P -/
theorem nucCapsuleValidateHeader_eq_ok_iff {buf : ℕ → UInt8} {len : ℕ} {i : HeaderInfo} :
    nucCapsuleValidateHeader buf len = .ok i ↔
      capsuleMinHeader ≤ len ∧ nucCapsuleIsFmpCapsule (headerGuid buf) = true ∧
      readLe32 buf capsuleOffFlags &&& capsuleFlagsPersistAcrossReset = 0 ∧
      capsuleMinHeader ≤ (readLe32 buf capsuleOffHeaderSize).toNat ∧
      (readLe32 buf capsuleOffHeaderSize).toNat ≤ (readLe32 buf capsuleOffImageSize).toNat ∧
      (readLe32 buf capsuleOffImageSize).toNat ≤ len ∧
      i = ⟨(readLe32 buf capsuleOffImageSize).toNat, readLe32 buf capsuleOffFlags⟩ := by
  unfold nucCapsuleValidateHeader
  by_cases hlen : len < capsuleMinHeader
  · rw [if_pos hlen]
    constructor
    · intro h; cases h
    · intro h; omega
  rw [if_neg hlen]
  by_cases hguid : nucCapsuleIsFmpCapsule (headerGuid buf) = true
  swap
  · rw [if_pos (by simpa using hguid)]
    constructor
    · intro h; cases h
    · intro h; exact absurd h.2.1 hguid
  rw [if_neg (by simpa using hguid)]
  by_cases hflag : readLe32 buf capsuleOffFlags &&& capsuleFlagsPersistAcrossReset = 0
  swap
  · simp only [ne_eq, hflag, not_false_eq_true, if_true]
    constructor
    · intro h; cases h
    · intro h; exact h.2.2.1.elim
  simp only [ne_eq, hflag, not_true_eq_false, if_false]
  split_ifs with hh hi
  · constructor
    · intro h; cases h
    · intro h; omega
  · constructor
    · intro h; cases h
    · intro h; omega
  · constructor
    · intro h
      cases h
      exact ⟨by omega, hguid, trivial, by omega, by omega, by omega, rfl⟩
    · intro h
      rw [h.2.2.2.2.2.2]

/-! ### The payload version search -/

def fmpPayloadSignature : UInt32 := 0x3153534D
def fmpPayloadMinHeader : ℕ := 16
def fmpPayloadMaxHeader : ℕ := 4096
def fmpPayloadSearchLimit : ℕ := 64 * 1024

/-- The body of the search loop at one offset: the version when the header there is accepted,
`none` for each of the two `continue`s.
Source: `NucCapsuleParse.c` `NucCapsuleGetPayloadVersion`
Kind: D -/
def payloadHeaderAt (buf : ℕ → UInt8) (len off : ℕ) : Option UInt32 :=
  if readLe32 buf off ≠ fmpPayloadSignature then
    none
  else
    let headerSize := (readLe32 buf (off + 4)).toNat
    if headerSize < fmpPayloadMinHeader ∨ fmpPayloadMaxHeader ≤ headerSize ∨
        len ≤ off + headerSize then
      none
    else
      some (readLe32 buf (off + 8))

/-- The loop over offsets; `fuel` only bounds the recursion.
Source: `NucCapsuleParse.c` `NucCapsuleGetPayloadVersion`
Kind: D -/
def searchPayload (buf : ℕ → UInt8) (len limit : ℕ) : ℕ → ℕ → Option UInt32
  | 0, _ => none
  | fuel + 1, off =>
      if off + fmpPayloadMinHeader ≤ limit then
        match payloadHeaderAt buf len off with
        | some v => some v
        | none => searchPayload buf len limit fuel (off + 1)
      else
        none

/-- `Limit`: the whole buffer, but never more than 64 KiB of it. Kind: D -/
def payloadSearchLimit (len : ℕ) : ℕ :=
  if len < fmpPayloadSearchLimit then len else fmpPayloadSearchLimit

/-- The version found, or `none` for a `FALSE` return (the out parameter is then untouched).
Source: `NucCapsuleParse.c` `NucCapsuleGetPayloadVersion`
Kind: D -/
def nucCapsuleGetPayloadVersion (buf : ℕ → UInt8) (len : ℕ) : Option UInt32 :=
  if len < fmpPayloadMinHeader then
    none
  else
    searchPayload buf len (payloadSearchLimit len) (payloadSearchLimit len) 0

/-- The body accepts exactly a signature whose header size is plausible and ends before `len`.
Kind: L -/
theorem payloadHeaderAt_eq_some_iff {buf : ℕ → UInt8} {len off : ℕ} {v : UInt32} :
    payloadHeaderAt buf len off = some v ↔
      readLe32 buf off = fmpPayloadSignature ∧
      fmpPayloadMinHeader ≤ (readLe32 buf (off + 4)).toNat ∧
      (readLe32 buf (off + 4)).toNat < fmpPayloadMaxHeader ∧
      off + (readLe32 buf (off + 4)).toNat < len ∧ readLe32 buf (off + 8) = v := by
  unfold payloadHeaderAt
  by_cases hs : readLe32 buf off = fmpPayloadSignature
  swap
  · simp [hs]
  simp only [hs, ne_eq, not_true_eq_false, if_false, true_and]
  split_ifs with h
  · constructor
    · intro h'; cases h'
    · intro h'; omega
  · rw [Option.some.injEq]
    constructor
    · intro h'; exact ⟨by omega, by omega, by omega, h'⟩
    · intro h'; exact h'.2.2.2

/-- With fuel to reach the limit, the loop returns the leftmost accepted header. Kind: L -/
theorem searchPayload_eq_some_iff {buf : ℕ → UInt8} {len limit : ℕ} {v : UInt32} :
    ∀ {fuel off : ℕ}, limit ≤ off + fuel →
      (searchPayload buf len limit fuel off = some v ↔
        ∃ o, off ≤ o ∧ o + fmpPayloadMinHeader ≤ limit ∧ payloadHeaderAt buf len o = some v ∧
          ∀ o', off ≤ o' → o' < o → payloadHeaderAt buf len o' = none)
  | 0, off, hf => by
      constructor
      · intro h; cases h
      · rintro ⟨o, ho, hlim, -, -⟩
        have : fmpPayloadMinHeader = 16 := rfl
        omega
  | fuel + 1, off, hf => by
      rw [searchPayload]
      by_cases hlim : off + fmpPayloadMinHeader ≤ limit
      swap
      · rw [if_neg hlim]
        constructor
        · intro h; cases h
        · rintro ⟨o, ho, hlim', -, -⟩; omega
      rw [if_pos hlim]
      rcases hat : payloadHeaderAt buf len off with _ | w
      · simp only
        have hf' : limit ≤ off + 1 + fuel := by omega
        rw [searchPayload_eq_some_iff hf']
        constructor
        · rintro ⟨o, ho, hlim', hv, hleft⟩
          refine ⟨o, by omega, hlim', hv, fun o' h1 h2 => ?_⟩
          by_cases he : o' = off
          · rw [he]; exact hat
          · exact hleft o' (by omega) h2
        · rintro ⟨o, ho, hlim', hv, hleft⟩
          have hne : o ≠ off := by
            rintro rfl
            rw [hat] at hv
            cases hv
          exact ⟨o, by omega, hlim', hv, fun o' h1 h2 => hleft o' (by omega) h2⟩
      · simp only [Option.some.injEq]
        constructor
        · rintro rfl
          exact ⟨off, le_rfl, hlim, hat, fun o' h1 h2 => by omega⟩
        · rintro ⟨o, ho, -, hv, hleft⟩
          by_cases he : o = off
          · subst he
            rw [hat, Option.some.injEq] at hv
            exact hv
          · have := hleft off le_rfl (by omega)
            rw [hat] at this
            cases this

/-- **The search is leftmost.** The version found is that of the least offset whose sixteen
octets lie in the search window and whose header is accepted.
Source: `NucCapsuleParse.c` `NucCapsuleGetPayloadVersion`
Kind: P -/
theorem nucCapsuleGetPayloadVersion_eq_some_iff {buf : ℕ → UInt8} {len : ℕ} {v : UInt32} :
    nucCapsuleGetPayloadVersion buf len = some v ↔
      ∃ o, o + fmpPayloadMinHeader ≤ payloadSearchLimit len ∧
        payloadHeaderAt buf len o = some v ∧ ∀ o' < o, payloadHeaderAt buf len o' = none := by
  unfold nucCapsuleGetPayloadVersion
  split_ifs with hlen
  · constructor
    · intro h; cases h
    · rintro ⟨o, hlim, -, -⟩
      unfold payloadSearchLimit at hlim
      have : fmpPayloadMinHeader = 16 := rfl
      have : fmpPayloadSearchLimit = 65536 := rfl
      split_ifs at hlim <;> omega
  · rw [searchPayload_eq_some_iff (by omega)]
    simp

/-- No version is found exactly when no header in the window is accepted. Kind: L -/
theorem nucCapsuleGetPayloadVersion_eq_none_iff {buf : ℕ → UInt8} {len : ℕ} :
    nucCapsuleGetPayloadVersion buf len = none ↔
      ∀ o, o + fmpPayloadMinHeader ≤ payloadSearchLimit len → payloadHeaderAt buf len o = none := by
  constructor
  · intro hnone
    by_contra hne
    push Not at hne
    -- the least accepted offset would have been returned
    classical
    have hex : ∃ o, o + fmpPayloadMinHeader ≤ payloadSearchLimit len ∧
        payloadHeaderAt buf len o ≠ none := hne
    obtain ⟨hlim, hat⟩ := Nat.find_spec hex
    obtain ⟨v, hv⟩ := Option.ne_none_iff_exists'.mp hat
    have hleft : ∀ o' < Nat.find hex, payloadHeaderAt buf len o' = none := by
      intro o' ho'
      by_contra hc
      exact Nat.find_min hex ho' ⟨by omega, hc⟩
    have hsome := nucCapsuleGetPayloadVersion_eq_some_iff.mpr ⟨_, hlim, hv, hleft⟩
    rw [hnone] at hsome
    cases hsome
  · intro h
    rcases hv : nucCapsuleGetPayloadVersion buf len with _ | v
    · rfl
    · obtain ⟨o, hlim, hat, -⟩ := nucCapsuleGetPayloadVersion_eq_some_iff.mp hv
      rw [h o hlim] at hat
      cases hat

/-! ### The octets the search reads -/

/-- Memory as a pointer reaches it: `none` where a read faults. Kind: D -/
abbrev Memory := ℕ → Option UInt8

/-- A buffer of `len` octets with nothing readable behind it. Kind: D -/
def readable (buf : ℕ → UInt8) (len : ℕ) : Memory := fun i => if i < len then some (buf i) else none

/-- `ReadLe32`, octet by octet. Kind: D -/
def readLe32Checked (mem : Memory) (off : ℕ) : Option UInt32 := do
  let p0 ← mem off
  let p1 ← mem (off + 1)
  let p2 ← mem (off + 2)
  let p3 ← mem (off + 3)
  return p0.toUInt32 ||| (p1.toUInt32 <<< 8) ||| (p2.toUInt32 <<< 16) ||| (p3.toUInt32 <<< 24)

/-- The body of the search loop, `some none` for each of the two `continue`s. Kind: D -/
def payloadHeaderAtChecked (mem : Memory) (len off : ℕ) : Option (Option UInt32) := do
  let signature ← readLe32Checked mem off
  if signature ≠ fmpPayloadSignature then
    return none
  let headerSize ← readLe32Checked mem (off + 4)
  if headerSize.toNat < fmpPayloadMinHeader ∨ fmpPayloadMaxHeader ≤ headerSize.toNat ∨
      len ≤ off + headerSize.toNat then
    return none
  let version ← readLe32Checked mem (off + 8)
  return some version

/-- The loop with the return value and the content of `*FwVersion` at the return. Kind: D -/
def searchPayloadChecked (mem : Memory) (len limit : ℕ) (fwVersion : UInt32) :
    ℕ → ℕ → Option (Bool × UInt32)
  | 0, _ => some (false, fwVersion)
  | fuel + 1, off =>
      if off + fmpPayloadMinHeader ≤ limit then
        (payloadHeaderAtChecked mem len off).bind fun
          | some version => some (true, version)
          | none => searchPayloadChecked mem len limit fwVersion fuel (off + 1)
      else
        some (false, fwVersion)

/-- `NucCapsuleGetPayloadVersion` on memory that may fault: the value returned and what
`*FwVersion`, which held `fwVersion`, is left with; `none` where an octet is read that cannot be.
Source: `NucCapsuleParse.c` `NucCapsuleGetPayloadVersion`
Kind: D -/
def nucCapsuleGetPayloadVersionChecked (mem : Memory) (len : ℕ) (fwVersion : UInt32) :
    Option (Bool × UInt32) :=
  if len < fmpPayloadMinHeader then
    some (false, fwVersion)
  else
    searchPayloadChecked mem len (payloadSearchLimit len) fwVersion (payloadSearchLimit len) 0

section Readable

variable {buf : ℕ → UInt8} {len : ℕ}

lemma readLe32Checked_readable {off : ℕ} (h : off + 4 ≤ len) :
    readLe32Checked (readable buf len) off = some (readLe32 buf off) := by
  have hread : ∀ {i : ℕ}, i < 4 → readable buf len (off + i) = some (buf (off + i)) :=
    fun hi => if_pos (by omega)
  have h0 : readable buf len off = some (buf off) := hread (i := 0) (by omega)
  rw [readLe32Checked, h0, hread (by omega : 1 < 4), hread (by omega : 2 < 4),
    hread (by omega : 3 < 4)]
  rfl

/-- Where sixteen octets are readable, the body reads no others. Kind: L -/
theorem payloadHeaderAtChecked_readable {off : ℕ} (h : off + fmpPayloadMinHeader ≤ len) :
    payloadHeaderAtChecked (readable buf len) len off = some (payloadHeaderAt buf len off) := by
  have h16 : fmpPayloadMinHeader = 16 := rfl
  unfold payloadHeaderAtChecked payloadHeaderAt
  rw [readLe32Checked_readable (by omega), readLe32Checked_readable (by omega),
    readLe32Checked_readable (by omega)]
  simp only [Option.bind_eq_bind, Option.bind_some, Option.pure_def]
  split_ifs <;> rfl

/-- The loop stays inside the buffer, and finds what `searchPayload` finds. Kind: L -/
theorem searchPayloadChecked_readable {limit : ℕ} (hlimit : limit ≤ len) (fwVersion : UInt32) :
    ∀ fuel off : ℕ, searchPayloadChecked (readable buf len) len limit fwVersion fuel off =
      some ((searchPayload buf len limit fuel off).elim (false, fwVersion) fun v => (true, v))
  | 0, _ => rfl
  | fuel + 1, off => by
      rw [searchPayloadChecked, searchPayload]
      split_ifs with hoff
      · rw [payloadHeaderAtChecked_readable (hoff.trans hlimit), Option.bind_some]
        rcases payloadHeaderAt buf len off with _ | v
        · exact searchPayloadChecked_readable hlimit fwVersion fuel (off + 1)
        · rfl
      · rfl

/-- With the buffer alone readable no read faults, and the result is that of the unchecked search.
Kind: L -/
theorem nucCapsuleGetPayloadVersionChecked_readable (fwVersion : UInt32) :
    nucCapsuleGetPayloadVersionChecked (readable buf len) len fwVersion =
      some ((nucCapsuleGetPayloadVersion buf len).elim (false, fwVersion) fun v => (true, v)) := by
  have hlimit : payloadSearchLimit len ≤ len := by
    unfold payloadSearchLimit
    split_ifs <;> omega
  unfold nucCapsuleGetPayloadVersionChecked nucCapsuleGetPayloadVersion
  split_ifs
  · rfl
  · exact searchPayloadChecked_readable hlimit fwVersion _ _

end Readable

/-- The little-endian word at `o`, as a number. Kind: D -/
def leWord (buf : ℕ → UInt8) (o : ℕ) : ℕ :=
  (buf o).toNat + 256 * (buf (o + 1)).toNat + 65536 * (buf (o + 2)).toNat +
    16777216 * (buf (o + 3)).toNat

/-- A payload header the search is after stands at `o`. Kind: D -/
structure PayloadHeader (buf : ℕ → UInt8) (len o : ℕ) : Prop where
  inWindow : o + 16 ≤ min len 65536
  /-- `MSS1`. -/
  signature : leWord buf o = 0x3153534D
  minSize : 16 ≤ leWord buf (o + 4)
  maxSize : leWord buf (o + 4) < 4096
  endsInside : o + leWord buf (o + 4) < len

lemma readLe32_eq_ofNat (buf : ℕ → UInt8) (o : ℕ) :
    readLe32 buf o = UInt32.ofNat (leWord buf o) := by
  rw [leWord, ← readLe32_toNat, UInt32.ofNat_toNat]

lemma readLe32_eq_fmpPayloadSignature_iff {buf : ℕ → UInt8} {o : ℕ} :
    readLe32 buf o = fmpPayloadSignature ↔ leWord buf o = 0x3153534D := by
  rw [← UInt32.toNat_inj, readLe32_toNat]
  rfl

lemma payloadHeader_iff {buf : ℕ → UInt8} {len o : ℕ} :
    PayloadHeader buf len o ↔ o + fmpPayloadMinHeader ≤ payloadSearchLimit len ∧
      payloadHeaderAt buf len o = some (UInt32.ofNat (leWord buf (o + 8))) := by
  have hsize : (readLe32 buf (o + 4)).toNat = leWord buf (o + 4) := readLe32_toNat buf (o + 4)
  have hwindow : payloadSearchLimit len = min len 65536 := by
    show (if len < 65536 then len else 65536) = _
    split_ifs <;> omega
  rw [payloadHeaderAt_eq_some_iff, hsize, hwindow, readLe32_eq_fmpPayloadSignature_iff,
    ← readLe32_eq_ofNat]
  constructor
  · intro h
    exact ⟨h.inWindow, h.signature, h.minSize, h.maxSize, h.endsInside, rfl⟩
  · rintro ⟨hin, hsig, hmin, hmax, hend, -⟩
    exact ⟨hin, hsig, hmin, hmax, hend⟩

/-- In the window, no header is accepted exactly where none stands. Kind: L -/
theorem payloadHeaderAt_eq_none_iff {buf : ℕ → UInt8} {len o : ℕ}
    (h : o + fmpPayloadMinHeader ≤ payloadSearchLimit len) :
    payloadHeaderAt buf len o = none ↔ ¬ PayloadHeader buf len o := by
  rw [payloadHeader_iff, not_and, Option.eq_none_iff_forall_ne_some]
  constructor
  · exact fun hnone _ => hnone _
  · intro hnone v hv
    have hword := (payloadHeaderAt_eq_some_iff.mp hv).2.2.2.2
    rw [readLe32_eq_ofNat] at hword
    exact hnone h (hword ▸ hv)

/-- The version found is that of the leftmost header. Kind: L -/
theorem nucCapsuleGetPayloadVersion_eq_some_iff_isLeast {buf : ℕ → UInt8} {len : ℕ} {v : UInt32} :
    nucCapsuleGetPayloadVersion buf len = some v ↔
      ∃ o, IsLeast {o | PayloadHeader buf len o} o ∧ v = UInt32.ofNat (leWord buf (o + 8)) := by
  rw [nucCapsuleGetPayloadVersion_eq_some_iff]
  constructor
  · rintro ⟨o, hlim, hat, hleft⟩
    have hword := (payloadHeaderAt_eq_some_iff.mp hat).2.2.2.2
    rw [readLe32_eq_ofNat] at hword
    refine ⟨o, ⟨payloadHeader_iff.mpr ⟨hlim, hword ▸ hat⟩, fun o' ho' => ?_⟩, hword.symm⟩
    by_contra hlt
    exact (payloadHeaderAt_eq_none_iff (by omega)).mp (hleft o' (by omega)) ho'
  · rintro ⟨o, ⟨ho, hleast⟩, rfl⟩
    obtain ⟨hlim, hat⟩ := payloadHeader_iff.mp ho
    refine ⟨o, hlim, hat, fun o' ho' => (payloadHeaderAt_eq_none_iff (by omega)).mpr ?_⟩
    intro h
    have hle : o ≤ o' := hleast h
    omega

lemma nucCapsuleGetPayloadVersion_eq_none_iff_forall {buf : ℕ → UInt8} {len : ℕ} :
    nucCapsuleGetPayloadVersion buf len = none ↔ ∀ o, ¬ PayloadHeader buf len o := by
  rw [nucCapsuleGetPayloadVersion_eq_none_iff]
  constructor
  · intro h o ho
    have hlim := (payloadHeader_iff.mp ho).1
    exact (payloadHeaderAt_eq_none_iff hlim).mp (h o hlim) ho
  · exact fun h o hlim => (payloadHeaderAt_eq_none_iff hlim).mpr (h o)

/-- **The payload-version search.** On a buffer behind which nothing can be read, the search
returns `TRUE` with the word eight octets into the leftmost payload header, and `FALSE` with
`*FwVersion` as it was exactly when there is no such header. In neither case does it read an octet
at or beyond `len`: the result would be `none`.
Source: `NucCapsuleParse.c` `NucCapsuleGetPayloadVersion`
Kind: P -/
theorem payload_version_leftmost (buf : ℕ → UInt8) (len : ℕ) (fwVersion : UInt32) :
    nucCapsuleGetPayloadVersionChecked (readable buf len) len fwVersion ≠ none ∧
      (∀ v, nucCapsuleGetPayloadVersionChecked (readable buf len) len fwVersion = some (true, v) ↔
        ∃ o, IsLeast {o | PayloadHeader buf len o} o ∧ v = UInt32.ofNat (leWord buf (o + 8))) ∧
      ∀ v, nucCapsuleGetPayloadVersionChecked (readable buf len) len fwVersion = some (false, v) ↔
        (∀ o, ¬ PayloadHeader buf len o) ∧ v = fwVersion := by
  rw [nucCapsuleGetPayloadVersionChecked_readable fwVersion]
  refine ⟨Option.some_ne_none _, fun v => ?_, fun v => ?_⟩
  · rw [← nucCapsuleGetPayloadVersion_eq_some_iff_isLeast]
    rcases nucCapsuleGetPayloadVersion buf len with _ | w <;> simp
  · rw [← nucCapsuleGetPayloadVersion_eq_none_iff_forall]
    rcases nucCapsuleGetPayloadVersion buf len with _ | w <;> simp [eq_comm]

/-- The smallest accepted capsule with a payload header: the capsule header, the `MSS1` header with
version `v`, and one octet of payload.
Kind: D -/
def capsuleOfVersion (v : UInt8) : List UInt8 :=
  [0xed, 0xd5, 0xcb, 0x6d, 0x2d, 0xe8, 0x44, 0x4c, 0xbd, 0xa1, 0x71, 0x94, 0x19, 0x9a, 0xd9, 0x2a,
    28, 0, 0, 0, 0, 0, 0, 0, 45, 0, 0, 0,
    0x4D, 0x53, 0x53, 0x31, 16, 0, 0, 0, v, 0, 0, 0, 0, 0, 0, 0, 0xff]

example : nucCapsuleValidateHeader (pointer (capsuleOfVersion 7)) 45 = .ok ⟨45, 0⟩ := by decide

example : nucCapsuleGetPayloadVersion (pointer (capsuleOfVersion 7)) 45 = some 7 := by decide

/-! ### Drop-box names -/

/-- The ASCII lower case of an upper-case letter; every other `CHAR16` unchanged.
Source: `NucCapsuleParse.c` `NucCapsuleIsCandidateFile`
Kind: D -/
def lowerChar16 (c : UInt16) : UInt16 :=
  if 0x41 ≤ c ∧ c ≤ 0x5A then c + 0x20 else c

/-- Source: `NucCapsuleParse.c` `NucCapsuleIsCandidateFile` (`Name` without its NUL). Kind: D -/
def nucCapsuleIsCandidateFile (name : List UInt16) : Bool :=
  let len := name.length
  if len = 1 ∧ name.getD 0 0 = 0x2E then
    false
  else if len = 2 ∧ name.getD 0 0 = 0x2E ∧ name.getD 1 0 = 0x2E then
    false
  else if len < 4 then
    false
  else
    (List.range 4).all fun i => lowerChar16 (name.getD (len - 4 + i) 0) == (ucs2 ".cap").getD i 0

/-- The name ends in `.cap`, the letters in either case. Kind: D -/
def EndsInCap (name : List UInt16) : Prop :=
  ∃ stem : List UInt16, ∃ c a p : UInt16, name = stem ++ [0x2E, c, a, p] ∧
    (c = 0x63 ∨ c = 0x43) ∧ (a = 0x61 ∨ a = 0x41) ∧ (p = 0x70 ∨ p = 0x50)

lemma lowerChar16_toNat (c : UInt16) : (lowerChar16 c).toNat =
    if 0x41 ≤ c.toNat ∧ c.toNat ≤ 0x5A then c.toNat + 0x20 else c.toNat := by
  have hcap : (0x41 ≤ c ∧ c ≤ 0x5A) ↔ 0x41 ≤ c.toNat ∧ c.toNat ≤ 0x5A := by
    rw [UInt16.le_iff_toNat_le, UInt16.le_iff_toNat_le]
    rfl
  have hadd : (c + 0x20).toNat = (c.toNat + 0x20) % 2 ^ 16 := UInt16.toNat_add ..
  unfold lowerChar16
  simp only [hcap]
  split_ifs with h
  · rw [hadd]
    omega
  · rfl

/-- A small letter comes from itself and from its capital. Kind: L -/
theorem lowerChar16_eq_letter_iff {c l : UInt16} (hl : 0x61 ≤ l ∧ l ≤ 0x7A) :
    lowerChar16 c = l ↔ c = l ∨ c = l - 0x20 := by
  have hlo : 0x61 ≤ l.toNat := UInt16.le_iff_toNat_le.mp hl.1
  have hhi : l.toNat ≤ 0x7A := UInt16.le_iff_toNat_le.mp hl.2
  have hsub : (l - 0x20).toNat = l.toNat - 0x20 :=
    UInt16.toNat_sub_of_le _ _ (UInt16.le_iff_toNat_le.mpr (show 0x20 ≤ l.toNat by omega))
  rw [← UInt16.toNat_inj, ← UInt16.toNat_inj, ← UInt16.toNat_inj, lowerChar16_toNat, hsub]
  split_ifs <;> omega

lemma lowerChar16_eq_dot_iff {c : UInt16} : lowerChar16 c = 0x2E ↔ c = 0x2E := by
  have hdot : (0x2E : UInt16).toNat = 46 := rfl
  rw [← UInt16.toNat_inj, ← UInt16.toNat_inj, lowerChar16_toNat, hdot]
  split_ifs <;> omega

/-- The test on the last four characters. Kind: L -/
theorem nucCapsuleIsCandidateFile_append (stem : List UInt16) (d c a p : UInt16) :
    nucCapsuleIsCandidateFile (stem ++ [d, c, a, p]) = true ↔
      d = 0x2E ∧ (c = 0x63 ∨ c = 0x43) ∧ (a = 0x61 ∨ a = 0x41) ∧ (p = 0x70 ∨ p = 0x50) := by
  have hlen : (stem ++ [d, c, a, p]).length = stem.length + 4 := List.length_append
  have hget : ∀ i, (stem ++ [d, c, a, p]).getD (stem.length + i) 0 = [d, c, a, p].getD i 0 := by
    intro i
    simp [List.getElem?_append_right (Nat.le_add_right stem.length i)]
  have hext : ucs2 ".cap" = [0x2E, 0x63, 0x61, 0x70] := by decide
  unfold nucCapsuleIsCandidateFile
  simp only [hlen]
  rw [if_neg (by omega), if_neg (by omega), if_neg (by omega), Nat.add_sub_cancel]
  simp only [hget, hext, List.all_eq_true, List.mem_range, beq_iff_eq]
  have hc := lowerChar16_eq_letter_iff (c := c) (l := 0x63) (by decide)
  have ha := lowerChar16_eq_letter_iff (c := a) (l := 0x61) (by decide)
  have hp := lowerChar16_eq_letter_iff (c := p) (l := 0x70) (by decide)
  rw [← lowerChar16_eq_dot_iff, ← show _ ↔ c = 0x63 ∨ c = 0x43 from hc,
    ← show _ ↔ a = 0x61 ∨ a = 0x41 from ha, ← show _ ↔ p = 0x70 ∨ p = 0x50 from hp]
  constructor
  · exact fun h => ⟨h 0 (by decide), h 1 (by decide), h 2 (by decide), h 3 (by decide)⟩
  · rintro ⟨h0, h1, h2, h3⟩ i hi
    interval_cases i
    exacts [h0, h1, h2, h3]

/-- **The name filter** keeps the names that end in `.cap`.
Source: `NucCapsuleParse.c` `NucCapsuleIsCandidateFile`
Kind: P -/
theorem nucCapsuleIsCandidateFile_iff {name : List UInt16} :
    nucCapsuleIsCandidateFile name = true ↔ EndsInCap name := by
  constructor
  · intro h
    have hlen : 4 ≤ name.length := by
      by_contra hlt
      unfold nucCapsuleIsCandidateFile at h
      simp only [show name.length < 4 by omega, if_true] at h
      split_ifs at h
    have hsplit := List.take_append_drop (name.length - 4) name
    have hdrop : (name.drop (name.length - 4)).length = 4 := by
      rw [List.length_drop]
      omega
    obtain ⟨d, c, a, p, hlast⟩ := List.length_eq_four.mp hdrop
    rw [← hsplit, hlast, nucCapsuleIsCandidateFile_append] at h
    obtain ⟨rfl, hrest⟩ := h
    exact ⟨_, c, a, p, by rw [← hlast, hsplit], hrest⟩
  · rintro ⟨stem, c, a, p, rfl, hrest⟩
    exact (nucCapsuleIsCandidateFile_append stem _ c a p).mpr ⟨rfl, hrest⟩

instance : DecidablePred EndsInCap := fun _ =>
  decidable_of_iff _ nucCapsuleIsCandidateFile_iff

example : nucCapsuleIsCandidateFile (ucs2 "FW.CAP") = true := by decide

example : nucCapsuleIsCandidateFile (ucs2 "cap") = false := by decide

end NucBios.Capsule
