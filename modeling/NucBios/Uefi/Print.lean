import NucBios.Uefi.Base

/-!
# C strings in fixed buffers and what is printed into them

The string functions of `BaseLib` and `PrintLib` the Redfish drivers build their texts with, as
their headers document them. A buffer is represented by the characters before its terminator: the
NUL and what is behind it are never read. Where a buffer is used again and again, `CharArray` keeps
the octets behind the terminator too. A number is printed digit by digit, `width` bounding
how many there can be.
-/

namespace NucBios.Uefi

def NoNul (s : List UInt8) : Prop := ∀ c ∈ s, c ≠ 0

instance : DecidablePred NoNul := fun s => List.decidableBAll (· ≠ 0) s

@[simp] theorem noNul_append {s t : List UInt8} : NoNul (s ++ t) ↔ NoNul s ∧ NoNul t :=
  List.forall_mem_append

lemma NoNul.take {s : List UInt8} (h : NoNul s) (n : ℕ) : NoNul (s.take n) :=
  fun c hc => h c (List.mem_of_mem_take hc)

/-- A C string in an array of `size` `CHAR8`s: it leaves room for the terminator and holds none.
Kind: D -/
structure CString (size : ℕ) where
  text : List UInt8
  fits : text.length < size
  noNul : NoNul text

/-- The string in an array of zeros. Kind: D -/
def CString.empty (size : ℕ) (hsize : 0 < size) : CString size :=
  ⟨[], hsize, fun _ hc => nomatch hc⟩

/-- `CHAR8 a[size]` with everything that is in it: a terminator somewhere, and octets behind it that
stay from earlier uses.
Kind: D -/
@[ext] structure CharArray (size : ℕ) where
  octets : List UInt8
  length_octets : octets.length = size
  terminated : 0 ∈ octets
  deriving DecidableEq

namespace CharArray

variable {size : ℕ}

/-- What `ZeroMem` leaves. Kind: D -/
def zero (size : ℕ) (hsize : 0 < size) : CharArray size where
  octets := List.replicate size 0
  length_octets := List.length_replicate
  terminated := List.mem_replicate.mpr ⟨hsize.ne', rfl⟩

/-- The C string in the array. Kind: D -/
def text (a : CharArray size) : List UInt8 := a.octets.takeWhile (· ≠ 0)

lemma noNul_text (a : CharArray size) : NoNul a.text :=
  fun c hc => of_decide_eq_true (List.all_eq_true.mp List.all_takeWhile c hc)

lemma length_text_lt (a : CharArray size) : a.text.length < size := by
  have hle := (List.takeWhile_prefix (l := a.octets) fun c => decide (c ≠ 0)).length_le
  rw [a.length_octets] at hle
  refine lt_of_le_of_ne hle fun heq => ?_
  have hall : a.text = a.octets :=
    (List.takeWhile_prefix _).eq_of_length (heq.trans a.length_octets.symm)
  exact a.noNul_text 0 (hall ▸ a.terminated) rfl

/-- The C string in the array, with what is known of it. Kind: D -/
def toCString (a : CharArray size) : CString size := ⟨a.text, a.length_text_lt, a.noNul_text⟩

@[simp] theorem text_toCString (a : CharArray size) : a.toCString.text = a.text := rfl

end CharArray

/-- `AsciiStrCatS`: appends when the result and its terminator fit, and otherwise leaves the
destination as it is.
Kind: D -/
def asciiStrCatS (size : ℕ) (dest source : List UInt8) : List UInt8 :=
  if dest.length + source.length < size then dest ++ source else dest

lemma asciiStrCatS_of_lt {size : ℕ} {dest source : List UInt8}
    (h : dest.length + source.length < size) : asciiStrCatS size dest source = dest ++ source :=
  if_pos h

lemma length_asciiStrCatS_lt {size : ℕ} {dest : List UInt8} (h : dest.length < size)
    (source : List UInt8) : (asciiStrCatS size dest source).length < size := by
  unfold asciiStrCatS
  split_ifs with hfits
  · rwa [List.length_append]
  · exact h

lemma length_foldl_asciiStrCatS_lt {size : ℕ} : ∀ (sources : List (List UInt8))
    {dest : List UInt8}, dest.length < size →
    (sources.foldl (asciiStrCatS size) dest).length < size
  | [], _, h => h
  | source :: sources, _, h =>
      length_foldl_asciiStrCatS_lt sources (length_asciiStrCatS_lt h source)

/-- Several appends in a row, when all of them fit together. Kind: L -/
theorem foldl_asciiStrCatS {size : ℕ} : ∀ {sources : List (List UInt8)} {dest : List UInt8},
    dest.length + sources.flatten.length < size →
    sources.foldl (asciiStrCatS size) dest = dest ++ sources.flatten
  | [], dest, _ => (List.append_nil dest).symm
  | source :: sources, dest, h => by
      rw [List.flatten_cons, List.length_append] at h
      rw [List.foldl_cons, asciiStrCatS_of_lt (by omega),
        foldl_asciiStrCatS (by rw [List.length_append]; omega), List.flatten_cons,
        List.append_assoc]

/-- None of several appends in a row fails. Kind: D -/
def AllFit (size : ℕ) : List UInt8 → List (List UInt8) → Prop
  | _, [] => True
  | dest, source :: sources =>
      dest.length + source.length < size ∧ AllFit size (asciiStrCatS size dest source) sources

theorem allFit_of_lt {size : ℕ} : ∀ {sources : List (List UInt8)} {dest : List UInt8},
    dest.length + sources.flatten.length < size → AllFit size dest sources
  | [], _, _ => trivial
  | source :: sources, dest, h => by
      rw [List.flatten_cons, List.length_append] at h
      refine ⟨by omega, ?_⟩
      rw [asciiStrCatS_of_lt (by omega)]
      exact allFit_of_lt (by rw [List.length_append]; omega)

/-- `AsciiSPrint`: the formatted text, cut where the buffer ends. Kind: D -/
def asciiSPrint (size : ℕ) (formatted : List UInt8) : List UInt8 := formatted.take (size - 1)

lemma length_asciiSPrint_lt {size : ℕ} (h : 0 < size) (formatted : List UInt8) :
    (asciiSPrint size formatted).length < size := by
  have hle := List.length_take_le (size - 1) formatted
  unfold asciiSPrint
  omega

lemma asciiSPrint_of_lt {size : ℕ} {formatted : List UInt8} (h : formatted.length < size) :
    asciiSPrint size formatted = formatted :=
  List.take_of_length_le (by omega)

/-! ### Digits -/

/-- `%u`, for numbers of at most `width` digits. Kind: D -/
def decimal : ℕ → ℕ → List UInt8
  | 0, _ => []
  | width + 1, n =>
      if n < 10 then [UInt8.ofNat (0x30 + n)]
      else decimal width (n / 10) ++ [UInt8.ofNat (0x30 + n % 10)]

/-- `%u` of a `UINT32`. Kind: D -/
def decimal32 (n : UInt32) : List UInt8 := decimal 10 n.toNat

lemma length_decimal_le : ∀ width n : ℕ, (decimal width n).length ≤ width
  | 0, _ => Nat.le_refl 0
  | width + 1, n => by
      have ih := length_decimal_le width (n / 10)
      unfold decimal
      split_ifs
      · exact Nat.succ_le_succ (Nat.zero_le width)
      · rw [List.length_append]
        exact Nat.succ_le_succ ih

/-- A number of `bits` bits printed as a signed one. Kind: D -/
def signedDecimal (width bits n : ℕ) : List UInt8 :=
  if n < 2 ^ (bits - 1) then decimal width n else ascii "-" ++ decimal width (2 ^ bits - n)

/-- `%d` of a `UINT32`. Kind: D -/
def signedDecimal32 (n : UInt32) : List UInt8 := signedDecimal 10 32 n.toNat

/-- `%ld` of a `UINT64`. Kind: D -/
def signedDecimal64 (n : UInt64) : List UInt8 := signedDecimal 19 64 n.toNat

/-- The letters of hexadecimal digits: `PrintLib` prints capital ones for `%x` as for `%X`, the
scripts small ones. Kind: D -/
inductive HexCase where
  | upper
  | lower
  deriving DecidableEq, Repr

/-- A hexadecimal digit. Kind: D -/
def HexCase.digit (letters : HexCase) (d : ℕ) : UInt8 :=
  match letters with
  | .upper => UInt8.ofNat (if d < 10 then 0x30 + d else 0x37 + d)
  | .lower => UInt8.ofNat (if d < 10 then 0x30 + d else 0x57 + d)

/-- `%0wx` of a number of at most `w` hexadecimal digits. Kind: D -/
def hexadecimal (letters : HexCase) : ℕ → ℕ → List UInt8
  | 0, _ => []
  | width + 1, n => hexadecimal letters width (n / 16) ++ [letters.digit (n % 16)]

lemma mem_hexadecimal {letters : HexCase} {c : UInt8} : ∀ {width n : ℕ},
    c ∈ hexadecimal letters width n → ∃ d < 16, c = letters.digit d
  | 0, _, h => absurd h List.not_mem_nil
  | width + 1, n, h => by
      rw [hexadecimal, List.mem_append, List.mem_singleton] at h
      rcases h with h | rfl
      · exact mem_hexadecimal h
      · exact ⟨n % 16, Nat.mod_lt n (by decide), rfl⟩

@[simp] theorem noNul_hexadecimal (letters : HexCase) (width n : ℕ) :
    NoNul (hexadecimal letters width n) := by
  intro c hc
  obtain ⟨d, hd, rfl⟩ := mem_hexadecimal hc
  have hdigit : ∀ d < 16, letters.digit d ≠ 0 := by cases letters <;> decide
  exact hdigit d hd

end NucBios.Uefi
