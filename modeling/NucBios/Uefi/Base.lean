import Mathlib.Tactic

/-!
# The UEFI vocabulary of the drivers

Status codes, GUIDs, C strings and little-endian words, as the sources under `NucRedfishPkg` use
them. A status is the 64-bit `EFI_STATUS` itself: an *error* is a value with the top bit set
(`EFI_ERROR`), so a warning such as `EFI_WARN_DELETE_FAILURE` is neither an error nor
`EFI_SUCCESS` — a distinction one of the drivers depends on.
-/

namespace NucBios.Uefi

/-! ### Status codes -/

/-- `EFI_STATUS`, a 64-bit word.
Source: UEFI Appendix D, as `Uefi.h` declares it
Kind: D -/
abbrev EfiStatus := BitVec 64

/-- `EFI_ERROR (Status)`: the top bit is set.
Kind: D -/
def efiError (s : EfiStatus) : Bool := s.msb

def efiSuccess : EfiStatus := 0
def efiInvalidParameter : EfiStatus := 0x8000000000000002
def efiUnsupported : EfiStatus := 0x8000000000000003
def efiBadBufferSize : EfiStatus := 0x8000000000000004
def efiBufferTooSmall : EfiStatus := 0x8000000000000005
def efiNotReady : EfiStatus := 0x8000000000000006
def efiDeviceError : EfiStatus := 0x8000000000000007
def efiWriteProtected : EfiStatus := 0x8000000000000008
def efiOutOfResources : EfiStatus := 0x8000000000000009
def efiVolumeCorrupted : EfiStatus := 0x800000000000000A
def efiNotFound : EfiStatus := 0x800000000000000E
def efiAccessDenied : EfiStatus := 0x800000000000000F
def efiTimeout : EfiStatus := 0x8000000000000012
def efiAlreadyStarted : EfiStatus := 0x8000000000000014
def efiCompromisedData : EfiStatus := 0x8000000000000021

@[simp] theorem efiError_efiSuccess : efiError efiSuccess = false := by decide

/-! ### GUIDs -/

/-- `EFI_GUID`. `data4` is a list because the sources compare it octet by octet.
Kind: D -/
structure Guid where
  data1 : UInt32
  data2 : UInt16
  data3 : UInt16
  data4 : List UInt8
  deriving DecidableEq, Repr

/-! ### Octets and words -/

/-- The ASCII octets of a literal, without its terminating NUL.
Kind: D -/
def ascii (s : String) : List UInt8 := s.toList.map fun c => UInt8.ofNat c.toNat

/-- The `CHAR16`s of a literal, without its terminating NUL.
Kind: D -/
def ucs2 (s : String) : List UInt16 := s.toList.map fun c => UInt16.ofNat c.toNat

/-- `ReadLe32 (Buf + off)`: four octets, least significant first, shifted and or-ed.
Source: `NucCapsuleParse.c` `ReadLe32`
Kind: D -/
def readLe32 (buf : ℕ → UInt8) (off : ℕ) : UInt32 :=
  (buf off).toUInt32 ||| ((buf (off + 1)).toUInt32 <<< 8) |||
    ((buf (off + 2)).toUInt32 <<< 16) ||| ((buf (off + 3)).toUInt32 <<< 24)

/-- `(UINT16)(Buf[off] | (Buf[off + 1] << 8))`.
Source: `NucCapsuleParse.c` `NucCapsuleValidateHeader`
Kind: D -/
def readLe16 (buf : ℕ → UInt8) (off : ℕ) : UInt16 :=
  (buf off).toUInt16 ||| ((buf (off + 1)).toUInt16 <<< 8)

/-- The word read is a function of its four octets alone. Kind: L -/
theorem readLe32_congr {buf buf' : ℕ → UInt8} {off : ℕ}
    (h : ∀ i < 4, buf (off + i) = buf' (off + i)) : readLe32 buf off = readLe32 buf' off := by
  have h0 := h 0 (by omega)
  have h1 := h 1 (by omega)
  have h2 := h 2 (by omega)
  have h3 := h 3 (by omega)
  rw [Nat.add_zero] at h0
  rw [readLe32, readLe32, h0, h1, h2, h3]

lemma or_shiftLeft_eq_add {k a : ℕ} (b : ℕ) (h : a < 2 ^ k) :
    a ||| (b <<< k) = a + b * 2 ^ k := by
  rw [Nat.or_comm, ← Nat.shiftLeft_add_eq_or_of_lt h, Nat.shiftLeft_eq, Nat.add_comm]

/-- The value of the word read. Kind: L -/
theorem readLe32_toNat (buf : ℕ → UInt8) (off : ℕ) :
    (readLe32 buf off).toNat = (buf off).toNat + 256 * (buf (off + 1)).toNat +
      65536 * (buf (off + 2)).toNat + 16777216 * (buf (off + 3)).toNat := by
  have h0 := (buf off).toNat_lt
  have h1 := (buf (off + 1)).toNat_lt
  have h2 := (buf (off + 2)).toNat_lt
  have h3 := (buf (off + 3)).toNat_lt
  unfold readLe32
  simp only [UInt32.toNat_or, UInt32.toNat_shiftLeft, UInt8.toNat_toUInt32, UInt32.reduceToNat,
    Nat.reduceMod]
  have hmod : ∀ {x k : ℕ}, x < 2 ^ 8 → k ≤ 24 → x <<< k % 2 ^ 32 = x <<< k := by
    intro x k hx hk
    have hpow : 2 ^ k ≤ 2 ^ 24 := Nat.pow_le_pow_right (by omega) hk
    rw [Nat.shiftLeft_eq]
    exact Nat.mod_eq_of_lt (calc
      x * 2 ^ k < 2 ^ 8 * 2 ^ k := Nat.mul_lt_mul_of_pos_right hx (by positivity)
      _ ≤ 2 ^ 8 * 2 ^ 24 := Nat.mul_le_mul_left _ hpow)
  rw [hmod h1 (by omega), hmod h2 (by omega), hmod h3 (by omega), or_shiftLeft_eq_add (k := 8) _ h0,
    or_shiftLeft_eq_add (k := 16) _ (by omega), or_shiftLeft_eq_add (k := 24) _ (by omega)]
  omega

lemma readLe16_toNat (buf : ℕ → UInt8) (off : ℕ) :
    (readLe16 buf off).toNat = (buf off).toNat + 256 * (buf (off + 1)).toNat := by
  have h0 := (buf off).toNat_lt
  have h1 := (buf (off + 1)).toNat_lt
  unfold readLe16
  simp only [UInt16.toNat_or, UInt16.toNat_shiftLeft, UInt8.toNat_toUInt16, UInt16.reduceToNat,
    Nat.reduceMod]
  have hmod : (buf (off + 1)).toNat <<< 8 % 2 ^ 16 = (buf (off + 1)).toNat <<< 8 := by
    rw [Nat.shiftLeft_eq]
    exact Nat.mod_eq_of_lt (by omega)
  rw [hmod, or_shiftLeft_eq_add (k := 8) _ h0]
  omega

/-- A word as it stands in memory, least significant octet first. Kind: D -/
def le32 (w : UInt32) : List UInt8 :=
  [w.toUInt8, (w >>> 8).toUInt8, (w >>> 16).toUInt8, (w >>> 24).toUInt8]

@[inherit_doc le32]
def le16 (w : UInt16) : List UInt8 := [w.toUInt8, (w >>> 8).toUInt8]

lemma readLe32_eq_iff {buf : ℕ → UInt8} {off : ℕ} {w : UInt32} :
    readLe32 buf off = w ↔
      [buf off, buf (off + 1), buf (off + 2), buf (off + 3)] = le32 w := by
  have h0 := (buf off).toNat_lt
  have h1 := (buf (off + 1)).toNat_lt
  have h2 := (buf (off + 2)).toNat_lt
  have h3 := (buf (off + 3)).toNat_lt
  have hw := w.toNat_lt
  rw [← UInt32.toNat_inj, readLe32_toNat]
  simp only [le32, List.cons.injEq, and_true, ← UInt8.toNat_inj, UInt32.toNat_toUInt8,
    UInt32.toNat_shiftRight, UInt32.reduceToNat, Nat.reduceMod, Nat.shiftRight_eq_div_pow]
  omega

lemma readLe16_eq_iff {buf : ℕ → UInt8} {off : ℕ} {w : UInt16} :
    readLe16 buf off = w ↔ [buf off, buf (off + 1)] = le16 w := by
  have h0 := (buf off).toNat_lt
  have h1 := (buf (off + 1)).toNat_lt
  have hw := w.toNat_lt
  rw [← UInt16.toNat_inj, readLe16_toNat]
  simp only [le16, List.cons.injEq, and_true, ← UInt8.toNat_inj, UInt16.toNat_toUInt8,
    UInt16.toNat_shiftRight, UInt16.reduceToNat, Nat.reduceMod, Nat.shiftRight_eq_div_pow]
  omega

/-- A GUID as it stands in memory: the first three fields little-endian. Kind: D -/
def Guid.octets (g : Guid) : List UInt8 := le32 g.data1 ++ le16 g.data2 ++ le16 g.data3 ++ g.data4

/-- An allocated buffer seen through its pointer: the octets of `l`, then octets that are not
part of it.
Kind: D -/
def pointer (l : List UInt8) : ℕ → UInt8 := fun i => l.getD i 0

lemma pointer_of_lt {l : List UInt8} {i : ℕ} (h : i < l.length) : pointer l i = l[i] := by
  simp [pointer, h]

/-- Below the length of `l`, appending changes nothing. Kind: L -/
theorem pointer_append_of_lt {l t : List UInt8} {i : ℕ} (h : i < l.length) :
    pointer (l ++ t) i = pointer l i := by
  simp [pointer, List.getElem?_append_left h]

lemma pointer_append_of_le {l t : List UInt8} {i : ℕ} (h : l.length ≤ i) :
    pointer (l ++ t) i = pointer t (i - l.length) := by
  simp [pointer, List.getElem?_append_right h]

lemma map_pointer_range {l : List UInt8} {n : ℕ} (h : n ≤ l.length) :
    (List.range n).map (pointer l) = l.take n := by
  apply List.ext_getElem
  · simpa using h
  · intro i hi _
    have hlt : i < l.length := by
      rw [List.length_map, List.length_range] at hi
      omega
    simp [pointer_of_lt hlt]

end NucBios.Uefi
