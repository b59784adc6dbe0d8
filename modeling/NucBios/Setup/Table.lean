import NucBios.Lib.Crc
import NucBios.Lib.Memory
import NucBios.Uefi.Base

/-!
# The table of option forms

coreboot describes its options in one record of its table, the CFR root: a header with a checksum,
and forms. The payload takes the record apart at boot: it checks version and checksum and copies
each form into a HOB, from where the setup menu and the defaults are made.

* `cbCalculateCrc32_eq`: the octet-wise loop computes the check of `NucBios.Lib.Crc` on the bits of
  the buffer, most significant first;
* `parseMiscInfo_of_burst`: a table that was good and has since been changed anywhere within 32
  consecutive bits of its forms is refused, before a single form is handed on;
* `parseForms_flatten`: what is handed on is the forms of the table, one after the other, with
  nothing left out and nothing in between.
-/

namespace NucBios.Setup

open NucBios.Lib NucBios.Uefi

/-! ### The checksum -/

/-- The generator of coreboot's CRC-32. Kind: D -/
def crcPolynomial : UInt32 := 0x04C11DB7

/-- The inner loop's body.
Source: `CbParseLib.c` `CbCalculateCrc32`
Kind: D -/
def crcBit (crc : UInt32) : UInt32 :=
  if crc &&& 0x80000000 ≠ 0 then (crc <<< 1) ^^^ crcPolynomial else crc <<< 1

/-- The outer loop's body.
Source: `CbParseLib.c` `CbCalculateCrc32`
Kind: D -/
def crcOctet (crc : UInt32) (octet : UInt8) : UInt32 :=
  crcBit^[8] (crc ^^^ (octet.toUInt32 <<< 24))

/-- Source: `CbParseLib.c` `CbCalculateCrc32`
Kind: D -/
def cbCalculateCrc32 (buffer : List UInt8) : UInt32 := buffer.foldl crcOctet 0

/-- The bits of an octet, most significant first. Kind: D -/
def octetBits (octet : UInt8) : List Bool :=
  (List.range 8).map fun i => octet.toBitVec.getLsbD (7 - i)

/-- The bits of a message. Kind: D -/
def messageBits (message : List UInt8) : List Bool := message.flatMap octetBits

/-- The bit that is tested is the top one. Kind: L -/
lemma and_top_ne_zero_iff (crc : UInt32) : crc &&& 0x80000000 ≠ 0 ↔ crc.toBitVec.msb = true := by
  have hand : (crc &&& 0x80000000).toBitVec = crc.toBitVec &&& BitVec.twoPow 32 31 := rfl
  rw [ne_eq, ← UInt32.toBitVec_inj, hand, BitVec.and_twoPow, BitVec.msb_eq_getLsbD_last]
  cases crc.toBitVec.getLsbD (32 - 1) <;> decide

lemma toBitVec_crcBit (crc : UInt32) :
    (crcBit crc).toBitVec = Crc.shift crcPolynomial.toBitVec crc.toBitVec := by
  unfold crcBit Crc.shift
  by_cases h : crc.toBitVec.msb = true
  · rw [if_pos ((and_top_ne_zero_iff crc).mpr h), if_pos h]
    rfl
  · rw [if_neg fun hne => h ((and_top_ne_zero_iff crc).mp hne), if_neg h]
    rfl

lemma word_octetBits (octet : UInt8) :
    (Crc.word (octetBits octet) : BitVec 32) = (octet.toUInt32 <<< 24).toBitVec := by
  have hmove : (octet.toUInt32 <<< 24).toBitVec = octet.toBitVec.setWidth 32 <<< 24 := rfl
  apply BitVec.eq_of_getLsbD_eq
  intro i hi
  rw [Crc.getLsbD_word hi, hmove, BitVec.getLsbD_shiftLeft, BitVec.getLsbD_setWidth]
  by_cases hlow : i < 24
  · rw [octetBits, List.getD_eq_getElem?_getD, List.getElem?_eq_none (by simp; omega)]
    simp [hlow]
  · rw [octetBits, List.getD_eq_getElem?_getD, List.getElem?_map,
      List.getElem?_range (show 32 - 1 - i < 8 by omega), Option.map_some, Option.getD_some,
      show 7 - (32 - 1 - i) = i - 24 by omega]
    simp [hi, hlow]
    omega

/-- One octet is eight bits. Kind: L -/
theorem toBitVec_crcOctet (crc : UInt32) (octet : UInt8) :
    (crcOctet crc octet).toBitVec =
      (octetBits octet).foldl (Crc.feed crcPolynomial.toBitVec) crc.toBitVec := by
  have hiterate : ∀ (n : ℕ) (c : UInt32),
      (crcBit^[n] c).toBitVec = (Crc.shift crcPolynomial.toBitVec)^[n] c.toBitVec := by
    intro n
    induction n with
    | zero => exact fun _ => rfl
    | succ n ih =>
        intro c
        rw [Function.iterate_succ_apply, ih, toBitVec_crcBit, Function.iterate_succ_apply]
  rw [Crc.foldl_feed_eq (by simp [octetBits]), word_octetBits, crcOctet, hiterate]
  simp [octetBits]

/-- **The loop is the check.** Kind: P -/
theorem cbCalculateCrc32_eq (buffer : List UInt8) :
    (cbCalculateCrc32 buffer).toBitVec =
      Crc.crc crcPolynomial.toBitVec (messageBits buffer) := by
  have hloop : ∀ (l : List UInt8) (c : UInt32), (l.foldl crcOctet c).toBitVec =
      (messageBits l).foldl (Crc.feed crcPolynomial.toBitVec) c.toBitVec := by
    intro l
    induction l with
    | nil => exact fun _ => rfl
    | cons octet l ih =>
        intro c
        rw [List.foldl_cons, ih, toBitVec_crcOctet, messageBits, messageBits, List.flatMap_cons,
          List.foldl_append]
  exact hloop buffer 0

/-! ### The table -/

/-- `CB_TAG_CFR_OPTION_FORM`. Kind: D -/
def cbTagCfrOptionForm : UInt32 := 0x0001

/-- `CB_CFR_VERSION`. Kind: D -/
def cbCfrVersion : UInt32 := 0

/-- `sizeof (struct cb_cfr)`: tag, size, version and checksum. Kind: D -/
def cbCfrSize : ℕ := 16

/-- What `ParseMiscInfo` returns; `hang` for a form of size zero, over which its loop never gets.
Kind: D -/
inductive ParseStatus where
  | success
  | notFound
  | incompatibleVersion
  | crcError
  | hang
  deriving DecidableEq, Repr

/-- The status and the forms that were copied into HOBs, in this order. Kind: D -/
structure ParseResult where
  status : ParseStatus
  hobs : List (List UInt8)
  deriving DecidableEq, Repr

/-- A form in front of what follows. Kind: D -/
def ParseResult.cons (hob : List UInt8) (r : ParseResult) : ParseResult :=
  { r with hobs := hob :: r.hobs }

/-- The loop over the forms, from `processedLength` on. `built` says for which sizes
`BuildGuidDataHob` returns a HOB.
Source: `CbParseLib.c` `ParseMiscInfo`
Kind: D -/
def parseForms (built : ℕ → Bool) (table : ℕ → UInt8) (size processedLength : ℕ) : ParseResult :=
  if processedLength < size then
    if readLe32 table processedLength ≠ cbTagCfrOptionForm then ⟨.notFound, []⟩
    else
      let formSize := (readLe32 table (processedLength + 4)).toNat
      if !built formSize then ⟨.success, []⟩
      else if formSize = 0 then ⟨.hang, []⟩
      else
        (parseForms built table size (processedLength + formSize)).cons
          (cells table processedLength formSize)
  else ⟨.success, []⟩
termination_by size - processedLength

/-- The octets the checksum is over. The size is a `UINT32` and the header's size a `UINTN`.
Kind: D -/
def tableData (table : ℕ → UInt8) : List UInt8 :=
  cells table cbCfrSize (((readLe32 table 4).toNat + 2 ^ 64 - cbCfrSize) % 2 ^ 64)

/-- `table` is what `FindCbTag` found.
Source: `CbParseLib.c` `ParseMiscInfo`
Kind: D -/
def parseMiscInfo (built : ℕ → Bool) (table : Option (ℕ → UInt8)) : ParseResult :=
  match table with
  | none => ⟨.notFound, []⟩
  | some table =>
      if readLe32 table 8 ≠ cbCfrVersion then ⟨.incompatibleVersion, []⟩
      else if cbCalculateCrc32 (tableData table) ≠ readLe32 table 12 then ⟨.crcError, []⟩
      else parseForms built table (readLe32 table 4).toNat cbCfrSize

lemma cbCalculateCrc32_of_parsed {built : ℕ → Bool} {table : ℕ → UInt8}
    (h : (parseMiscInfo built (some table)).status = .success) :
    readLe32 table 8 = cbCfrVersion ∧ cbCalculateCrc32 (tableData table) = readLe32 table 12 := by
  unfold parseMiscInfo at h
  dsimp only at h
  split at h
  · cases h
  · rename_i hversion
    split at h
    · cases h
    · rename_i hcrc
      exact ⟨not_not.mp hversion, not_not.mp hcrc⟩

/-- **A damaged table is refused.** Take a table that is accepted, and one with the same header
whose forms differ from its forms only within 32 consecutive bits, wherever these begin and
whatever stands there. It is refused for its checksum, and none of its forms is handed on.
Kind: P -/
theorem parseMiscInfo_of_burst (built : ℕ → Bool) (table table' : ℕ → UInt8)
    (before x y after : List Bool) (hgood : (parseMiscInfo built (some table)).status = .success)
    (hheader : ∀ i < cbCfrSize, table' i = table i)
    (hbits : messageBits (tableData table) = before ++ x ++ after)
    (hbits' : messageBits (tableData table') = before ++ y ++ after)
    (hlen : x.length = y.length) (hburst : x.length ≤ 32) (hne : x ≠ y) :
    parseMiscInfo built (some table') = ⟨.crcError, []⟩ := by
  obtain ⟨hversion, hcrc⟩ := cbCalculateCrc32_of_parsed hgood
  have hword : ∀ off, off + 4 ≤ cbCfrSize → readLe32 table' off = readLe32 table off := by
    intro off hoff
    apply readLe32_congr
    intro i hi
    exact hheader _ (by omega)
  have hdiffer : cbCalculateCrc32 (tableData table') ≠ cbCalculateCrc32 (tableData table) := by
    rw [ne_eq, ← UInt32.toBitVec_inj, cbCalculateCrc32_eq, cbCalculateCrc32_eq, hbits, hbits']
    exact (Crc.crc_ne_of_burst (by decide) hlen hburst hne).symm
  rw [parseMiscInfo, hword 8 (by decide), hword 12 (by decide),
    if_neg (not_not_intro hversion), ← hcrc, if_pos hdiffer]

/-- A table with one form, which has no name and no options. Kind: D -/
def sampleForms (first : UInt8) : List UInt8 :=
  [first, 0, 0, 0, 28, 0, 0, 0] ++ List.replicate 20 0

/-- The sample's table, with the checksum of the good form. Kind: D -/
def sampleTable (first : UInt8) : ℕ → UInt8 :=
  pointer (le32 0x47 ++ le32 44 ++ le32 0 ++ le32 (cbCalculateCrc32 (sampleForms 1)) ++
    sampleForms first)

/-- Three bits of the sample's form are changed. Kind: C -/
theorem parseMiscInfo_of_burst_sample :
    (parseMiscInfo (fun _ => true) (some (sampleTable 1))).status = .success ∧
      parseMiscInfo (fun _ => true) (some (sampleTable 0x43)) = ⟨.crcError, []⟩ := by
  have hgood : (parseMiscInfo (fun _ => true) (some (sampleTable 1))).status = .success := by
    decide +kernel
  refine ⟨hgood, parseMiscInfo_of_burst _ (sampleTable 1) _ [] (octetBits 1) (octetBits 0x43)
    (messageBits (sampleForms 1)).tail.tail.tail.tail.tail.tail.tail.tail hgood ?_ ?_ ?_ rfl ?_ ?_⟩
  all_goals decide +kernel

/-! ### The forms -/

/-- What a HOB holds: a form's tag and, if there is room for it, its own length. Kind: D -/
structure FormHob (hob : List UInt8) : Prop where
  tag : 4 ≤ hob.length → readLe32 (pointer hob) 0 = cbTagCfrOptionForm
  size : 8 ≤ hob.length → (readLe32 (pointer hob) 4).toNat = hob.length

lemma pointer_cells {table : ℕ → UInt8} {a n i : ℕ} (h : i < n) :
    pointer (cells table a n) i = table (a + i) := by
  rw [pointer, List.getD_eq_getElem?_getD, getElem?_cells h, Option.getD_some]

lemma readLe32_cells {table : ℕ → UInt8} {a n off : ℕ} (h : off + 4 ≤ n) :
    readLe32 (pointer (cells table a n)) off = readLe32 table (a + off) := by
  have hshift : readLe32 (fun i => table (a + i)) off = readLe32 table (a + off) := by
    simp only [readLe32, Nat.add_assoc]
  rw [← hshift]
  apply readLe32_congr
  intro i hi
  exact pointer_cells (by omega)

lemma formHob_cells {table : ℕ → UInt8} {a : ℕ} (htag : readLe32 table a = cbTagCfrOptionForm) :
    FormHob (cells table a (readLe32 table (a + 4)).toNat) := by
  constructor
  · intro hlong
    rw [length_cells] at hlong
    rw [readLe32_cells hlong]
    exact htag
  · intro hlong
    rw [length_cells] at hlong ⊢
    rw [readLe32_cells hlong]

/-- **Every form is handed on.** If memory for HOBs lasts and the table is taken apart to its end,
the HOBs are the table's octets cut into forms, in their order and without a gap.
Kind: P -/
theorem parseForms_flatten {built : ℕ → Bool} (hbuilt : ∀ n, built n = true) {table : ℕ → UInt8}
    {size p : ℕ} (h : (parseForms built table size p).status = .success) :
    (∀ hob ∈ (parseForms built table size p).hobs, FormHob hob) ∧
      ∃ n, (parseForms built table size p).hobs.flatten = cells table p n ∧ size ≤ p + n := by
  induction hleft : size - p using Nat.strong_induction_on generalizing p with
  | _ left ih =>
    rw [parseForms] at h ⊢
    split at h
    · rename_i hmore
      rw [if_pos hmore]
      split at h
      · cases h
      · rename_i htag
        rw [not_not] at htag
        rw [if_neg (not_not_intro htag)]
        dsimp only at h ⊢
        rw [hbuilt] at h ⊢
        simp only [Bool.not_true, Bool.false_eq_true, if_false] at h ⊢
        split at h
        · cases h
        · rename_i hpos
          rw [if_neg hpos]
          generalize hsize : (readLe32 table (p + 4)).toNat = formSize at h hpos ⊢
          obtain ⟨hforms, n, hflat, hend⟩ := ih (size - (p + formSize)) (by omega) h rfl
          refine ⟨List.forall_mem_cons.mpr ⟨hsize ▸ formHob_cells htag, hforms⟩,
            formSize + n, ?_, by omega⟩
          rw [ParseResult.cons, List.flatten_cons, hflat, ← cells_append]
    · rename_i hdone
      rw [if_neg hdone]
      exact ⟨List.forall_mem_nil _, 0, by simp [cells], by omega⟩

end NucBios.Setup
