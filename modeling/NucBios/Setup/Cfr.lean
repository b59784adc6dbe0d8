import NucBios.Lib.Memory
import NucBios.Uefi.Base

/-!
# The option records of coreboot, and how the setup menu reads them

CFR records stand in memory one after the other, children inside their parents. A record begins
with its tag and its size; names, texts and value lists are records of their own (`CFR_VARBINARY`)
that follow the fixed part of an option, some of them only if their tag is found.

The driver fuses reading a record with producing the menu for it. Here the two are apart: this file
is the reading, from memory to items, and `NucBios.Setup.Compile` what is made of the items. A read
that the driver answers with an `ASSERT` ends everything, so nothing is lost by the separation.

* `readForm_encode`: a form whose options are not forms is read back exactly as it was written, if
  the word behind it is not taken for an optional field;
* `readForm_nested`: the name of a form inside a form is looked for at twice its offset.
-/

namespace NucBios.Setup

open NucBios.Lib NucBios.Uefi

/-! ### The records -/

/-- Why the driver stops: an `ASSERT`, a write past a buffer, or a loop that makes no progress.
Kind: D -/
inductive Stop where
  | assert
  | overrun
  | hang
  deriving DecidableEq, Repr

/-- `ASSERT (x != NULL)`. Kind: D -/
def require {α : Type*} : Option α → Except Stop α
  | none => .error .assert
  | some a => .ok a

/-- `CFR_VARBINARY`: its data, and the octets up to its size. Kind: D -/
structure VarBinary where
  data : List UInt8
  padding : ℕ
  deriving DecidableEq, Repr

/-- The fixed part of a `CFR_VARBINARY`: tag, size and length of the data. Kind: D -/
def varBinaryHeader : ℕ := 12

/-- The size of the record. Kind: D -/
def VarBinary.size (v : VarBinary) : ℕ := varBinaryHeader + v.data.length + v.padding

/-- The tags of `CfrSetupMenuGuid.h`. Kind: D -/
def tagForm : UInt32 := 0x0001
@[inherit_doc tagForm]
def tagEnumValue : UInt32 := 0x0002
@[inherit_doc tagForm]
def tagEnum : UInt32 := 0x0003
@[inherit_doc tagForm]
def tagNumber : UInt32 := 0x0004
@[inherit_doc tagForm]
def tagBool : UInt32 := 0x0005
@[inherit_doc tagForm]
def tagVarchar : UInt32 := 0x0006
@[inherit_doc tagForm]
def tagOptName : UInt32 := 0x0007
@[inherit_doc tagForm]
def tagUiName : UInt32 := 0x0008
@[inherit_doc tagForm]
def tagHelpText : UInt32 := 0x0009
@[inherit_doc tagForm]
def tagDefValue : UInt32 := 0x000a
@[inherit_doc tagForm]
def tagComment : UInt32 := 0x000b
@[inherit_doc tagForm]
def tagDepValues : UInt32 := 0x000c

/-- What every option begins with, after tag and size. Kind: D -/
structure OptionHeader where
  objectId : ℕ
  dependencyId : ℕ
  flags : UInt32
  deriving DecidableEq, Repr

/-- A flag of `enum cfr_option_flags`. Kind: D -/
def OptionHeader.has (h : OptionHeader) (flag : UInt32) : Bool := h.flags &&& flag != 0

/-- `CFR_OPTFLAG_READONLY` and its companions. Kind: D -/
def flagReadOnly : UInt32 := 1
@[inherit_doc flagReadOnly]
def flagInactive : UInt32 := 2
@[inherit_doc flagReadOnly]
def flagSuppress : UInt32 := 4
@[inherit_doc flagReadOnly]
def flagVolatile : UInt32 := 8
@[inherit_doc flagReadOnly]
def flagRuntime : UInt32 := 16

/-- The three tags a `CFR_OPTION_NUMERIC` may have. Kind: D -/
inductive NumericKind where
  | enum
  | number
  | bool
  deriving DecidableEq, Repr

/-- The tag of a kind. Kind: D -/
def NumericKind.tag : NumericKind → UInt32
  | .enum => tagEnum
  | .number => tagNumber
  | .bool => tagBool

/-- `CFR_ENUM_VALUE` with its name. Kind: D -/
structure EnumValue where
  value : UInt32
  uiName : VarBinary
  deriving DecidableEq, Repr

/-- `CFR_OPTION_NUMERIC` with what follows it. Kind: D -/
structure NumericOption where
  kind : NumericKind
  header : OptionHeader
  defaultValue : UInt32
  min : UInt32
  max : UInt32
  step : UInt32
  displayFlags : UInt32
  name : VarBinary
  displayName : VarBinary
  helpText : Option VarBinary
  depValues : Option VarBinary
  enumValues : List EnumValue
  deriving DecidableEq, Repr

/-- `CFR_OPTION_VARCHAR` or `CFR_OPTION_COMMENT`; only the former has a default and a name.
Kind: D -/
structure CharacterOption where
  header : OptionHeader
  storage : Option (VarBinary × VarBinary)
  displayName : VarBinary
  helpText : Option VarBinary
  depValues : Option VarBinary
  deriving DecidableEq, Repr

/-- `CFR_OPTION_FORM`, without the options in it. Kind: D -/
structure FormOption where
  header : OptionHeader
  name : VarBinary
  depValues : Option VarBinary
  deriving DecidableEq, Repr

/-- What the driver finds on its way through a form. Kind: D -/
inductive CfrItem where
  | form (f : FormOption)
  | numeric (o : NumericOption)
  | character (o : CharacterOption)
  deriving DecidableEq, Repr

/-- `sizeof` of an option without numbers, and of a numeric one. Kind: D -/
def optionHeaderSize : ℕ := 28
@[inherit_doc optionHeaderSize]
def numericHeaderSize : ℕ := 48

/-- `sizeof (CFR_ENUM_VALUE)`. Kind: D -/
def enumHeaderSize : ℕ := 12

/-! ### Reading -/

/-- A `UINT64` in memory. Kind: D -/
def readLe64 (buf : ℕ → UInt8) (off : ℕ) : ℕ :=
  (readLe32 buf off).toNat + 2 ^ 32 * (readLe32 buf (off + 4)).toNat

/-- The size field of the record at `off`. Kind: D -/
def sizeAt (buf : ℕ → UInt8) (off : ℕ) : ℕ := (readLe32 buf (off + 4)).toNat

/-- The record at `off`, whatever its tag. Kind: D -/
def varBinaryAt (buf : ℕ → UInt8) (off : ℕ) : VarBinary :=
  let dataLength := (readLe32 buf (off + 8)).toNat
  ⟨cells buf (off + varBinaryHeader) dataLength, sizeAt buf off - (varBinaryHeader + dataLength)⟩

/-- The record at `buffer + offset` if it has the tag asked for, and the offset behind it.
Source: `CfrHelpersLib.c` `CfrExtractVarBinary`
Kind: D -/
def cfrExtractVarBinary (buf : ℕ → UInt8) (buffer offset : ℕ) (targetTag : UInt32) :
    Option VarBinary × ℕ :=
  if readLe32 buf (buffer + offset) ≠ targetTag then (none, offset)
  else (some (varBinaryAt buf (buffer + offset)), offset + sizeAt buf (buffer + offset))

/-- The common part of the option at `option`. Kind: D -/
def optionHeaderAt (buf : ℕ → UInt8) (option : ℕ) : OptionHeader :=
  ⟨readLe64 buf (option + 8), readLe64 buf (option + 16), readLe32 buf (option + 24)⟩

/-- The loop over the enumeration's values, from `processed` to `size`.
Source: `SetupMenuCfr.c` `CfrProcessNumericOption`
Kind: D -/
def readEnumValues (buf : ℕ → UInt8) (option size processed : ℕ) :
    Except Stop (List EnumValue × ℕ) :=
  if processed < size then
    if readLe32 buf (option + processed) ≠ tagEnumValue then .error .assert
    else if readLe32 buf (option + processed + enumHeaderSize) ≠ tagUiName then .error .assert
    else if sizeAt buf (option + processed) = 0 then .error .hang
    else do
      let (values, stop) ←
        readEnumValues buf option size (processed + sizeAt buf (option + processed))
      return (⟨readLe32 buf (option + processed + 8),
        varBinaryAt buf (option + processed + enumHeaderSize)⟩ :: values, stop)
  else .ok ([], processed)
termination_by size - processed

/-- The values of a numeric option: only an enumeration has any. Kind: D -/
def readValues (buf : ℕ → UInt8) (option : ℕ) (kind : NumericKind) (processed : ℕ) :
    Except Stop (List EnumValue × ℕ) :=
  if kind = .enum then readEnumValues buf option (sizeAt buf option) processed
  else .ok ([], processed)

/-- Source: `SetupMenuCfr.c` `CfrProcessNumericOption`, the fields
Kind: D -/
def readNumericOption (buf : ℕ → UInt8) (option : ℕ) (kind : NumericKind) :
    Except Stop NumericOption := do
  let (name?, o₁) := cfrExtractVarBinary buf option numericHeaderSize tagOptName
  let name ← require name?
  let (displayName?, o₂) := cfrExtractVarBinary buf option o₁ tagUiName
  let displayName ← require displayName?
  let (helpText, o₃) := cfrExtractVarBinary buf option o₂ tagHelpText
  let (depValues, o₄) := cfrExtractVarBinary buf option o₃ tagDepValues
  let (enumValues, o₅) ← readValues buf option kind o₄
  if o₅ ≠ sizeAt buf option then .error .assert
  else return {
    kind, name, displayName, helpText, depValues, enumValues
    header := optionHeaderAt buf option
    defaultValue := readLe32 buf (option + 28)
    min := readLe32 buf (option + 32)
    max := readLe32 buf (option + 36)
    step := readLe32 buf (option + 40)
    displayFlags := readLe32 buf (option + 44) }

/-- What a string and a comment have in common, from `o` on.
Source: `SetupMenuCfr.c` `CfrProcessCharacterOption`, the fields after the name
Kind: D -/
def readCharacterFields (buf : ℕ → UInt8) (option o : ℕ)
    (storage : Option (VarBinary × VarBinary)) :
    Except Stop CharacterOption := do
  let (displayName?, o₁) := cfrExtractVarBinary buf option o tagUiName
  let displayName ← require displayName?
  let (helpText, o₂) := cfrExtractVarBinary buf option o₁ tagHelpText
  let (depValues, o₃) := cfrExtractVarBinary buf option o₂ tagDepValues
  if o₃ ≠ sizeAt buf option then .error .assert
  else return { header := optionHeaderAt buf option, storage, displayName, helpText, depValues }

/-- `none` for a default of more than 255 characters, over which the driver goes with a message.
Source: `SetupMenuCfr.c` `CfrProcessCharacterOption`, the fields
Kind: D -/
def readCharacterOption (buf : ℕ → UInt8) (option : ℕ) (varchar : Bool) :
    Except Stop (Option CharacterOption) :=
  if varchar then do
    let (defaultValue?, o₁) := cfrExtractVarBinary buf option optionHeaderSize tagDefValue
    let defaultValue ← require defaultValue?
    if defaultValue.data.length > 0xFF then .ok none
    else do
      let (name?, o₂) := cfrExtractVarBinary buf option o₁ tagOptName
      let name ← require name?
      (readCharacterFields buf option o₂ (some (defaultValue, name))).map some
  else (readCharacterFields buf option optionHeaderSize none).map some

/-- The fields of the form at `option`, and the new `*ProcessedLength`. That length counts from the
outermost form, but is added to the address of this one.
Source: `SetupMenuCfr.c` `CfrProcessFormOption`, the fields
Kind: D -/
def readFormOption (buf : ℕ → UInt8) (option processedLength : ℕ) :
    Except Stop (FormOption × ℕ) := do
  let (name?, o₁) :=
    cfrExtractVarBinary buf option (processedLength + optionHeaderSize) tagUiName
  let name ← require name?
  let (depValues, o₂) := cfrExtractVarBinary buf option o₁ tagDepValues
  return ({ header := optionHeaderAt buf option, name, depValues }, o₂)

/-- The kind of a numeric tag. Kind: D -/
def numericKind? (tag : UInt32) : Option NumericKind :=
  if tag = tagEnum then some .enum
  else if tag = tagNumber then some .number
  else if tag = tagBool then some .bool
  else none

/-- One record of a form at `processedLength`: what it is, if it is anything, and where the next
one begins. An entry that is not expected is skipped.
Source: `SetupMenuCfr.c` `CfrCreateRuntimeComponents`, the switch
Kind: D -/
def readItem (buf : ℕ → UInt8) (processedLength : ℕ) : Except Stop (Option CfrItem × ℕ) :=
  let tag := readLe32 buf processedLength
  let next := processedLength + sizeAt buf processedLength
  if tag = tagForm then
    (readFormOption buf processedLength processedLength).map fun r => (some (.form r.1), r.2)
  else
    match numericKind? tag with
    | some kind =>
        (readNumericOption buf processedLength kind).map fun o => (some (.numeric o), next)
    | none =>
        if tag = tagVarchar ∨ tag = tagComment then
          (readCharacterOption buf processedLength (tag = tagVarchar)).map fun o =>
            (o.map .character, next)
        else .ok (none, next)

/-- The loop over the records of a form, up to its size.
Source: `SetupMenuCfr.c` `CfrCreateRuntimeComponents`
Kind: D -/
def readItems (buf : ℕ → UInt8) (size processedLength : ℕ) : Except Stop (List CfrItem) :=
  if processedLength < size then
    match readItem buf processedLength with
    | .error stop => .error stop
    | .ok (item, next) =>
        if next ≤ processedLength then .error .hang
        else (readItems buf size next).map (item.toList ++ ·)
  else .ok []
termination_by size - processedLength

/-- A form, from its first octet: the form itself and what is in it.
Source: `SetupMenuCfr.c` `CfrCreateRuntimeComponents`, one HOB
Kind: D -/
def readForm (buf : ℕ → UInt8) : Except Stop (FormOption × List CfrItem) := do
  let (form, processedLength) ← readFormOption buf 0 0
  let items ← readItems buf (sizeAt buf 0) processedLength
  return (form, items)

/-! ### Writing -/

/-- A `UINT64` as it stands in memory. Kind: D -/
def le64 (n : ℕ) : List UInt8 := le32 (UInt32.ofNat n) ++ le32 (UInt32.ofNat (n / 2 ^ 32))

/-- A record with its tag. Kind: D -/
def VarBinary.encode (tag : UInt32) (v : VarBinary) : List UInt8 :=
  le32 tag ++ le32 (UInt32.ofNat v.size) ++ le32 (UInt32.ofNat v.data.length) ++ v.data ++
    List.replicate v.padding 0

/-- A record that may be missing. Kind: D -/
def encodeOptional (tag : UInt32) (v : Option VarBinary) : List UInt8 :=
  v.toList.flatMap (VarBinary.encode tag)

/-- Tag, size and the common part of an option. Kind: D -/
def OptionHeader.encode (tag : UInt32) (size : ℕ) (h : OptionHeader) : List UInt8 :=
  le32 tag ++ le32 (UInt32.ofNat size) ++ le64 h.objectId ++ le64 h.dependencyId ++ le32 h.flags

/-- An enumeration's value and its name. Kind: D -/
def EnumValue.encode (e : EnumValue) : List UInt8 :=
  le32 tagEnumValue ++ le32 (UInt32.ofNat (enumHeaderSize + e.uiName.size)) ++ le32 e.value ++
    e.uiName.encode tagUiName

/-- The two optional fields. Kind: D -/
def encodeHelpDep (help dep : Option VarBinary) : List UInt8 :=
  encodeOptional tagHelpText help ++ encodeOptional tagDepValues dep

/-- The records that follow the fixed part of a numeric option. Kind: D -/
def NumericOption.fields (o : NumericOption) : List UInt8 :=
  o.name.encode tagOptName ++ (o.displayName.encode tagUiName ++
    (encodeHelpDep o.helpText o.depValues ++ o.enumValues.flatMap EnumValue.encode))

/-- A numeric option. Kind: D -/
def NumericOption.encode (o : NumericOption) : List UInt8 :=
  o.header.encode o.kind.tag (numericHeaderSize + o.fields.length) ++
    (le32 o.defaultValue ++ le32 o.min ++ le32 o.max ++ le32 o.step ++ le32 o.displayFlags) ++
    o.fields

/-- The default and the name of a string option, in the order the driver reads them. Kind: D -/
def encodeStorage : Option (VarBinary × VarBinary) → List UInt8
  | none => []
  | some (defaultValue, name) => defaultValue.encode tagDefValue ++ name.encode tagOptName

/-- The records that follow the fixed part of a string or a comment. Kind: D -/
def CharacterOption.fields (o : CharacterOption) : List UInt8 :=
  encodeStorage o.storage ++
    (o.displayName.encode tagUiName ++ encodeHelpDep o.helpText o.depValues)

/-- A string or a comment. Kind: D -/
def CharacterOption.encode (o : CharacterOption) : List UInt8 :=
  o.header.encode (if o.storage.isSome then tagVarchar else tagComment)
    (optionHeaderSize + o.fields.length) ++ o.fields

/-- A form around the records in it. Kind: D -/
def FormOption.encode (f : FormOption) (body : List UInt8) : List UInt8 :=
  let fields := f.name.encode tagUiName ++ encodeOptional tagDepValues f.depValues ++ body
  f.header.encode tagForm (optionHeaderSize + fields.length) ++ fields

/-- An item of a form; a form in a form with nothing in it. Kind: D -/
def CfrItem.encode : CfrItem → List UInt8
  | .form f => f.encode []
  | .numeric o => o.encode
  | .character o => o.encode

/-- The ids fit their fields. Kind: D -/
def OptionHeader.Fits (h : OptionHeader) : Prop := h.objectId < 2 ^ 64 ∧ h.dependencyId < 2 ^ 64

/-- An item the format can hold and the driver reads: not a form, ids that fit, values for an
enumeration only, and a default of at most 255 characters. Kind: D -/
def CfrItem.Flat : CfrItem → Prop
  | .form _ => False
  | .numeric o => o.header.Fits ∧ (o.kind = .enum ∨ o.enumValues = [])
  | .character o => o.header.Fits ∧ ∀ d n, o.storage = some (d, n) → d.data.length ≤ 0xFF

/-! ### What is written can be read -/

/-- The octets `l` stand in memory from `off` on. Kind: D -/
def Holds (buf : ℕ → UInt8) (off : ℕ) (l : List UInt8) : Prop :=
  ∀ i (h : i < l.length), buf (off + i) = l[i]

lemma holds_append {buf : ℕ → UInt8} {off : ℕ} {a b : List UInt8} :
    Holds buf off (a ++ b) ↔ Holds buf off a ∧ Holds buf (off + a.length) b := by
  constructor
  · intro h
    refine ⟨fun i hi => ?_, fun i hi => ?_⟩
    · rw [h i (by rw [List.length_append]; omega), List.getElem_append_left hi]
    · rw [Nat.add_assoc, h (a.length + i) (by rw [List.length_append]; omega),
        List.getElem_append_right (by omega)]
      simp
  · rintro ⟨ha, hb⟩ i hi
    by_cases hlt : i < a.length
    · rw [List.getElem_append_left hlt]
      exact ha i hlt
    · rw [List.getElem_append_right (by omega)]
      have := hb (i - a.length) (by rw [List.length_append] at hi; omega)
      rwa [Nat.add_assoc, Nat.add_sub_cancel' (by omega)] at this

lemma Holds.word {buf : ℕ → UInt8} {off : ℕ} {w : UInt32} (h : Holds buf off (le32 w)) :
    readLe32 buf off = w := by
  rw [readLe32_eq_iff]
  have h0 := h 0 (by simp [le32])
  have h1 := h 1 (by simp [le32])
  have h2 := h 2 (by simp [le32])
  have h3 := h 3 (by simp [le32])
  rw [Nat.add_zero] at h0
  rw [h0, h1, h2, h3]
  rfl

lemma Holds.cells {buf : ℕ → UInt8} {off : ℕ} {l : List UInt8} (h : Holds buf off l) :
    cells buf off l.length = l :=
  ((eq_cells_iff rfl).mpr h).symm

@[simp] theorem length_le32 (w : UInt32) : (le32 w).length = 4 := rfl

@[simp] theorem length_le64 (n : ℕ) : (le64 n).length = 8 := rfl

lemma Holds.long {buf : ℕ → UInt8} {off n : ℕ} (h : Holds buf off (le64 n)) (hn : n < 2 ^ 64) :
    readLe64 buf off = n := by
  obtain ⟨hlow, hhigh⟩ := holds_append.mp h
  rw [readLe64, hlow.word]
  rw [length_le32] at hhigh
  rw [hhigh.word, UInt32.toNat_ofNat', UInt32.toNat_ofNat']
  omega

@[simp] theorem VarBinary.length_encode (tag : UInt32) (v : VarBinary) :
    (v.encode tag).length = v.size := by
  simp [VarBinary.encode, VarBinary.size, varBinaryHeader]
  omega

lemma VarBinary.toNat_size {v : VarBinary} (h : v.size < 2 ^ 32) :
    (UInt32.ofNat v.size).toNat = v.size ∧ (UInt32.ofNat v.data.length).toNat = v.data.length := by
  rw [UInt32.toNat_ofNat', UInt32.toNat_ofNat']
  rw [VarBinary.size] at *
  constructor <;> apply Nat.mod_eq_of_lt <;> omega

/-- A record in memory: its tag, its size and its content. Kind: L -/
theorem VarBinary.at_of_holds {buf : ℕ → UInt8} {off : ℕ} {tag : UInt32} {v : VarBinary}
    (hsize : v.size < 2 ^ 32) (h : Holds buf off (v.encode tag)) :
    readLe32 buf off = tag ∧ sizeAt buf off = v.size ∧ varBinaryAt buf off = v := by
  obtain ⟨hnsize, hnlength⟩ := VarBinary.toNat_size hsize
  simp only [VarBinary.encode, holds_append, List.length_append, length_le32] at h
  obtain ⟨⟨⟨⟨htag, hsz⟩, hlen⟩, hdata⟩, -⟩ := h
  have hsizeAt : sizeAt buf off = v.size := by rw [sizeAt, hsz.word, hnsize]
  have hlength : (readLe32 buf (off + 8)).toNat = v.data.length := by rw [hlen.word, hnlength]
  refine ⟨htag.word, hsizeAt, ?_⟩
  rw [varBinaryAt, hlength, hsizeAt]
  congr 1
  · exact hdata.cells
  · rw [VarBinary.size]
    omega

/-- A record that is there is found. Kind: L -/
theorem cfrExtractVarBinary_encode {buf : ℕ → UInt8} {buffer offset : ℕ} {tag : UInt32}
    {v : VarBinary} (hsize : v.size < 2 ^ 32) (h : Holds buf (buffer + offset) (v.encode tag)) :
    cfrExtractVarBinary buf buffer offset tag = (some v, offset + v.size) := by
  obtain ⟨htag, hsizeAt, hv⟩ := VarBinary.at_of_holds hsize h
  rw [cfrExtractVarBinary, if_neg (not_not_intro htag), hsizeAt, hv]

/-- A record that may be missing is found, if what comes instead does not look like it. Kind: L -/
theorem cfrExtractVarBinary_optional {buf : ℕ → UInt8} {buffer offset : ℕ} {tag : UInt32}
    {v : Option VarBinary} (hsize : (encodeOptional tag v).length < 2 ^ 32)
    (h : Holds buf (buffer + offset) (encodeOptional tag v))
    (hnext : v = none → readLe32 buf (buffer + offset) ≠ tag) :
    cfrExtractVarBinary buf buffer offset tag =
      (v, offset + (encodeOptional tag v).length) := by
  cases v with
  | none => rw [cfrExtractVarBinary, if_pos (hnext rfl)]; rfl
  | some v =>
      simp only [encodeOptional, Option.toList_some, List.flatMap_cons, List.flatMap_nil,
        List.append_nil, VarBinary.length_encode] at hsize h ⊢
      exact cfrExtractVarBinary_encode hsize h

/-- The word at `off` is not the tag of an optional field. Kind: D -/
def Plain (buf : ℕ → UInt8) (off : ℕ) : Prop :=
  readLe32 buf off ≠ tagHelpText ∧ readLe32 buf off ≠ tagDepValues

lemma plain_of_word {buf : ℕ → UInt8} {off : ℕ} {tag : UInt32} (h : readLe32 buf off = tag)
    (htag : tag ≠ tagHelpText ∧ tag ≠ tagDepValues) : Plain buf off := by
  rw [Plain, h]
  exact htag

@[simp] theorem EnumValue.length_encode (e : EnumValue) :
    e.encode.length = enumHeaderSize + e.uiName.size := by
  simp [EnumValue.encode, enumHeaderSize]
  omega

/-- The values of an enumeration are read to the end of the option. Kind: L -/
theorem readEnumValues_encode {buf : ℕ → UInt8} {option size : ℕ} {values : List EnumValue}
    {processed : ℕ} (hsize : size < 2 ^ 32)
    (hend : size = processed + (values.flatMap EnumValue.encode).length)
    (h : Holds buf (option + processed) (values.flatMap EnumValue.encode)) :
    readEnumValues buf option size processed = .ok (values, size) := by
  induction values generalizing processed with
  | nil =>
      rw [readEnumValues, if_neg (by simp at hend; omega)]
      simp_all
  | cons e values ih =>
      rw [List.flatMap_cons, List.length_append, EnumValue.length_encode, enumHeaderSize] at hend
      rw [List.flatMap_cons, holds_append, EnumValue.length_encode, Nat.add_assoc] at h
      obtain ⟨hfirst, hrest⟩ := h
      simp only [EnumValue.encode, holds_append, List.length_append, length_le32] at hfirst
      obtain ⟨⟨⟨htag, hlength⟩, hvalue⟩, hrecord⟩ := hfirst
      obtain ⟨htagName, -, huiName⟩ := VarBinary.at_of_holds (by omega) hrecord
      have hsizeAt : sizeAt buf (option + processed) = enumHeaderSize + e.uiName.size := by
        rw [sizeAt, hlength.word, UInt32.toNat_ofNat', enumHeaderSize]
        omega
      rw [readEnumValues, if_pos (by omega), htag.word, enumHeaderSize, htagName, hsizeAt,
        hvalue.word, huiName, ih (by rw [enumHeaderSize]; omega) hrest]
      simp [enumHeaderSize]

/-- What comes behind optional fields is either an enumeration's value or what is behind the
option. Kind: L -/
theorem plain_of_enumValues {buf : ℕ → UInt8} {off : ℕ} {values : List EnumValue}
    (h : Holds buf off (values.flatMap EnumValue.encode))
    (hnext : Plain buf (off + (values.flatMap EnumValue.encode).length)) : Plain buf off := by
  cases values with
  | nil => simpa using hnext
  | cons e values =>
      rw [List.flatMap_cons, holds_append] at h
      have htag := h.1
      simp only [EnumValue.encode, holds_append] at htag
      exact plain_of_word htag.1.1.1.word (by decide)

/-- The two optional fields together, in front of a word that is neither's tag. Kind: L -/
theorem extract_help_dep {buf : ℕ → UInt8} {option o : ℕ} {help dep : Option VarBinary}
    (hsize : (encodeHelpDep help dep).length < 2 ^ 32)
    (h : Holds buf (option + o) (encodeHelpDep help dep))
    (hnext : Plain buf (option + o + (encodeHelpDep help dep).length)) :
    ∃ o', cfrExtractVarBinary buf option o tagHelpText = (help, o') ∧
      cfrExtractVarBinary buf option o' tagDepValues =
        (dep, o + (encodeHelpDep help dep).length) := by
  rw [encodeHelpDep, List.length_append] at hsize hnext ⊢
  obtain ⟨hhelp, hdep⟩ := holds_append.mp h
  rw [Nat.add_assoc] at hdep
  refine ⟨_, cfrExtractVarBinary_optional (by omega) hhelp fun hnone => ?_, ?_⟩
  · subst hnone
    cases dep with
    | none => exact hnext.1
    | some dep =>
        simp only [encodeOptional, Option.toList_some, Option.toList_none, List.flatMap_cons,
          List.flatMap_nil, List.append_nil, List.length_nil, VarBinary.length_encode,
          Nat.add_zero] at hdep hsize
        rw [(VarBinary.at_of_holds (by omega) hdep).1]
        decide
  · rw [cfrExtractVarBinary_optional (by omega) hdep, Nat.add_assoc]
    intro hnone
    subst hnone
    rw [← Nat.add_assoc]
    exact hnext.2

@[simp] theorem OptionHeader.length_encode (tag : UInt32) (size : ℕ) (h : OptionHeader) :
    (h.encode tag size).length = optionHeaderSize := by
  simp [OptionHeader.encode, optionHeaderSize]

/-- The fixed part of an option in memory. Kind: L -/
theorem OptionHeader.at_of_holds {buf : ℕ → UInt8} {off size : ℕ} {tag : UInt32} {hd : OptionHeader}
    (hfits : hd.Fits) (hsize : size < 2 ^ 32) (h : Holds buf off (hd.encode tag size)) :
    readLe32 buf off = tag ∧ sizeAt buf off = size ∧ optionHeaderAt buf off = hd := by
  simp only [OptionHeader.encode, holds_append, List.length_append, length_le32,
    length_le64] at h
  obtain ⟨⟨⟨⟨htag, hsz⟩, hobject⟩, hdependency⟩, hflags⟩ := h
  refine ⟨htag.word, ?_, ?_⟩
  · rw [sizeAt, hsz.word, UInt32.toNat_ofNat']
    exact Nat.mod_eq_of_lt hsize
  · rw [optionHeaderAt, hobject.long hfits.1, hdependency.long hfits.2, hflags.word]

@[simp] theorem NumericOption.length_encode (o : NumericOption) :
    o.encode.length = numericHeaderSize + o.fields.length := by
  simp [NumericOption.encode, optionHeaderSize, numericHeaderSize]
  omega

/-- A numeric option is read back. Kind: P -/
theorem readNumericOption_encode {buf : ℕ → UInt8} {option : ℕ} {o : NumericOption}
    (hflat : CfrItem.Flat (.numeric o)) (hsize : o.encode.length < 2 ^ 32)
    (h : Holds buf option o.encode) (hnext : Plain buf (option + o.encode.length)) :
    readLe32 buf option = o.kind.tag ∧ sizeAt buf option = o.encode.length ∧
      readNumericOption buf option o.kind = .ok o := by
  obtain ⟨hfits, henum⟩ := hflat
  rw [NumericOption.length_encode] at hsize hnext ⊢
  simp only [NumericOption.encode, holds_append, OptionHeader.length_encode, List.length_append,
    length_le32, optionHeaderSize, Nat.reduceAdd, Nat.add_assoc] at h
  obtain ⟨⟨hheader, ⟨⟨⟨hdefault, hmin⟩, hmax⟩, hstep⟩, hdisplay⟩, hfields⟩ := h
  obtain ⟨htag, hsizeAt, hheaderAt⟩ := OptionHeader.at_of_holds hfits hsize hheader
  refine ⟨htag, hsizeAt, ?_⟩
  simp only [NumericOption.fields, holds_append, List.length_append, VarBinary.length_encode,
    Nat.add_assoc] at hfields hsize hnext hsizeAt
  obtain ⟨hname, hdisplayName, hoptional, hvalues⟩ := hfields
  rw [numericHeaderSize] at hsize hnext hsizeAt
  have hext₁ := cfrExtractVarBinary_encode (by omega) hname
  have hext₂ := cfrExtractVarBinary_encode (by omega) hdisplayName
  have hplain := plain_of_enumValues hvalues (by simpa only [Nat.add_assoc] using hnext)
  obtain ⟨o', hext₃, hext₄⟩ := extract_help_dep (by omega) hoptional
    (by simpa only [Nat.add_assoc] using hplain)
  rw [Nat.add_assoc] at hext₂ hext₄
  have hend : readValues buf option o.kind
      (48 + (o.name.size + o.displayName.size + (encodeHelpDep o.helpText o.depValues).length)) =
      .ok (o.enumValues, sizeAt buf option) := by
    rw [readValues]
    split
    · refine readEnumValues_encode (by omega) (by omega) ?_
      simpa only [Nat.add_assoc] using hvalues
    · rename_i hkind
      rw [henum.resolve_left hkind, List.flatMap_nil, List.length_nil] at hsizeAt
      rw [henum.resolve_left hkind, hsizeAt]
      congr 2
      omega
  unfold readNumericOption
  simp only [numericHeaderSize, hext₁, require, hext₂, hext₃, hext₄, bind, Except.bind, hend]
  simp [hheaderAt, hdefault.word, hmin.word, hmax.word, hstep.word, hdisplay.word, pure,
    Except.pure]

@[simp] theorem CharacterOption.length_encode (o : CharacterOption) :
    o.encode.length = optionHeaderSize + o.fields.length := by
  simp [CharacterOption.encode]

/-- The fields that strings and comments share are read back. Kind: L -/
theorem readCharacterFields_encode {buf : ℕ → UInt8} {option o : ℕ} {c : CharacterOption}
    (hheader : optionHeaderAt buf option = c.header)
    (hsizeAt : sizeAt buf option =
      o + (c.displayName.size + (encodeHelpDep c.helpText c.depValues).length))
    (hsize : sizeAt buf option < 2 ^ 32)
    (h : Holds buf (option + o)
      (c.displayName.encode tagUiName ++ encodeHelpDep c.helpText c.depValues))
    (hnext : Plain buf (option + sizeAt buf option)) :
    readCharacterFields buf option o c.storage = .ok c := by
  simp only [holds_append, VarBinary.length_encode, Nat.add_assoc] at h
  obtain ⟨hdisplayName, hoptional⟩ := h
  have hext₁ := cfrExtractVarBinary_encode (by omega) hdisplayName
  obtain ⟨o', hext₂, hext₃⟩ := extract_help_dep (by omega) hoptional
    (by simpa only [hsizeAt, Nat.add_assoc] using hnext)
  rw [Nat.add_assoc, ← hsizeAt] at hext₃
  unfold readCharacterFields
  simp only [hext₁, require, hext₂, hext₃, bind, Except.bind]
  simp [hheader, pure, Except.pure]

/-- A string or a comment is read back. Kind: P -/
theorem readCharacterOption_encode {buf : ℕ → UInt8} {option : ℕ} {o : CharacterOption}
    (hflat : CfrItem.Flat (.character o)) (hsize : o.encode.length < 2 ^ 32)
    (h : Holds buf option o.encode) (hnext : Plain buf (option + o.encode.length)) :
    readLe32 buf option = (if o.storage.isSome then tagVarchar else tagComment) ∧
      sizeAt buf option = o.encode.length ∧
      readCharacterOption buf option o.storage.isSome = .ok (some o) := by
  obtain ⟨hfits, hshort⟩ := hflat
  rw [CharacterOption.length_encode] at hsize hnext ⊢
  rw [CharacterOption.encode, holds_append, OptionHeader.length_encode] at h
  obtain ⟨hheader, hfields⟩ := h
  obtain ⟨htag, hsizeAt, hheaderAt⟩ := OptionHeader.at_of_holds hfits hsize hheader
  refine ⟨htag, hsizeAt, ?_⟩
  rw [← hsizeAt] at hsize hnext
  rw [CharacterOption.fields, holds_append] at hfields
  rw [CharacterOption.fields, List.length_append, List.length_append,
    VarBinary.length_encode] at hsizeAt
  obtain ⟨hstorage, hrest⟩ := hfields
  cases hcase : o.storage with
  | none =>
      rw [hcase] at hsizeAt hrest
      have hread := readCharacterFields_encode (o := optionHeaderSize) hheaderAt
        (by simpa [encodeStorage] using hsizeAt) hsize (by simpa [encodeStorage] using hrest) hnext
      rw [hcase] at hread
      rw [readCharacterOption, Option.isSome_none, if_neg Bool.false_ne_true, hread]
      rfl
  | some storage =>
      obtain ⟨defaultValue, name⟩ := storage
      rw [hcase] at hsizeAt hrest hstorage
      rw [encodeStorage, holds_append, VarBinary.length_encode, Nat.add_assoc] at hstorage
      simp only [encodeStorage, List.length_append, VarBinary.length_encode,
        Nat.add_assoc] at hsizeAt hrest
      have hext₁ := cfrExtractVarBinary_encode (by omega) hstorage.1
      have hext₂ := cfrExtractVarBinary_encode (by omega) hstorage.2
      have hread := readCharacterFields_encode
        (o := optionHeaderSize + (defaultValue.size + name.size))
        hheaderAt (by omega) hsize (by simpa only [Nat.add_assoc] using hrest) hnext
      rw [hcase] at hread
      have hle : ¬ defaultValue.data.length > 0xFF := by
        have := hshort defaultValue name hcase
        omega
      rw [Nat.add_assoc] at hext₂
      simp only [readCharacterOption, Option.isSome_some, if_true, hext₁, require, bind,
        Except.bind, hle, if_false, hext₂, hread]
      rfl

/-- The number of octets of an item. Kind: D -/
def CfrItem.size (item : CfrItem) : ℕ := item.encode.length

/-- An item begins with a tag that is not that of an optional field. Kind: L -/
theorem plain_of_item {buf : ℕ → UInt8} {off : ℕ} {item : CfrItem}
    (h : Holds buf off item.encode) : Plain buf off := by
  have hheader : ∃ tag size, ∃ hd : OptionHeader, Holds buf off (hd.encode tag size) ∧
      tag ≠ tagHelpText ∧ tag ≠ tagDepValues := by
    cases item with
    | form f =>
        exact ⟨_, _, _, (holds_append.mp h).1, by decide, by decide⟩
    | numeric o =>
        simp only [CfrItem.encode, NumericOption.encode, holds_append] at h
        exact ⟨_, _, _, h.1.1, by cases o.kind <;> decide, by cases o.kind <;> decide⟩
    | character o =>
        refine ⟨_, _, _, (holds_append.mp h).1, ?_, ?_⟩ <;> split <;> decide
  obtain ⟨tag, size, hd, hheader, htag⟩ := hheader
  simp only [OptionHeader.encode, holds_append] at hheader
  exact plain_of_word hheader.1.1.1.1.word htag

/-- One item is read back, and the next one begins behind it. Kind: L -/
theorem readItem_encode {buf : ℕ → UInt8} {off : ℕ} {item : CfrItem} (hflat : item.Flat)
    (hsize : item.size < 2 ^ 32) (h : Holds buf off item.encode)
    (hnext : Plain buf (off + item.size)) :
    readItem buf off = .ok (some item, off + item.size) := by
  cases item with
  | form f => exact absurd hflat (by simp [CfrItem.Flat])
  | numeric o =>
      obtain ⟨htag, hsizeAt, hread⟩ := readNumericOption_encode hflat hsize h hnext
      have hkind : numericKind? o.kind.tag = some o.kind := by cases o.kind <;> rfl
      have hform : o.kind.tag ≠ tagForm := by cases o.kind <;> decide
      simp only [readItem, htag, hform, if_false, hkind, hread, hsizeAt]
      rfl
  | character o =>
      obtain ⟨htag, hsizeAt, hread⟩ := readCharacterOption_encode hflat hsize h hnext
      cases hcase : o.storage.isSome
      all_goals
        rw [hcase] at htag hread
        simp only [Bool.false_eq_true, if_false, if_true] at htag
        simp only [readItem, htag, hsizeAt]
        exact congrArg (Except.map _) hread

lemma CfrItem.size_pos (item : CfrItem) : 0 < item.size := by
  cases item with
  | form f =>
      rw [CfrItem.size, CfrItem.encode, FormOption.encode, List.length_append,
        OptionHeader.length_encode, optionHeaderSize]
      omega
  | numeric o =>
      rw [CfrItem.size, CfrItem.encode, NumericOption.length_encode, numericHeaderSize]
      omega
  | character o =>
      rw [CfrItem.size, CfrItem.encode, CharacterOption.length_encode, optionHeaderSize]
      omega

/-- What is behind an item is another one, or what is behind them all. Kind: L -/
theorem plain_of_items {buf : ℕ → UInt8} {off : ℕ} {items : List CfrItem}
    (h : Holds buf off (items.flatMap CfrItem.encode))
    (hnext : Plain buf (off + (items.flatMap CfrItem.encode).length)) : Plain buf off := by
  cases items with
  | nil => exact hnext
  | cons item items =>
      rw [List.flatMap_cons, holds_append] at h
      exact plain_of_item h.1

/-- The items at `off` are read, and then whatever comes behind them. Kind: P -/
theorem readItems_append {buf : ℕ → UInt8} {items : List CfrItem} {off size : ℕ}
    (hflat : ∀ item ∈ items, item.Flat) (hsize : size < 2 ^ 32)
    (hend : off + (items.flatMap CfrItem.encode).length ≤ size)
    (h : Holds buf off (items.flatMap CfrItem.encode))
    (hnext : Plain buf (off + (items.flatMap CfrItem.encode).length)) :
    readItems buf size off =
      (readItems buf size (off + (items.flatMap CfrItem.encode).length)).map (items ++ ·) := by
  induction items generalizing off with
  | nil =>
      simp only [List.flatMap_nil, List.length_nil, Nat.add_zero, List.nil_append]
      cases readItems buf size off <;> rfl
  | cons item items ih =>
      have hpos := item.size_pos
      rw [List.flatMap_cons, List.length_append, ← CfrItem.size, ← Nat.add_assoc] at hend hnext ⊢
      rw [List.flatMap_cons, holds_append, ← CfrItem.size] at h
      obtain ⟨hfirst, hrest⟩ := h
      have hplain : Plain buf (off + item.size) := plain_of_items hrest hnext
      have hread := readItem_encode (hflat item List.mem_cons_self) (by omega) hfirst hplain
      have hitems := ih (fun i hi => hflat i (List.mem_cons_of_mem _ hi)) hend hrest hnext
      rw [readItems, if_pos (by omega), hread]
      simp only [hitems]
      rw [if_neg (by omega)]
      cases readItems buf size (off + item.size + (items.flatMap CfrItem.encode).length) <;> rfl

/-- Where the records in a form begin. Kind: D -/
def FormOption.front (f : FormOption) : ℕ :=
  optionHeaderSize + (f.name.size + (encodeOptional tagDepValues f.depValues).length)

@[simp] theorem FormOption.length_encode (f : FormOption) (body : List UInt8) :
    (f.encode body).length = f.front + body.length := by
  simp only [FormOption.encode, FormOption.front, List.length_append, OptionHeader.length_encode,
    VarBinary.length_encode, Nat.add_assoc]

lemma FormOption.holds_body {buf : ℕ → UInt8} {off : ℕ} {f : FormOption} {body : List UInt8}
    (h : Holds buf off (f.encode body)) : Holds buf (off + f.front) body := by
  simp only [FormOption.encode, holds_append, List.length_append, OptionHeader.length_encode,
    VarBinary.length_encode, Nat.add_assoc] at h
  exact h.2.2

/-- The form itself, in front of the records in it. Kind: L -/
theorem readFormOption_encode {buf : ℕ → UInt8} {f : FormOption} {body : List UInt8}
    (hfits : f.header.Fits) (hsize : f.front + body.length < 2 ^ 32)
    (h : Holds buf 0 (f.encode body)) (hbody : Plain buf f.front) :
    sizeAt buf 0 = f.front + body.length ∧ readFormOption buf 0 0 = .ok (f, f.front) := by
  simp only [FormOption.encode, holds_append, List.length_append, OptionHeader.length_encode,
    VarBinary.length_encode, Nat.zero_add, Nat.add_assoc] at h
  rw [FormOption.front] at *
  obtain ⟨hheader, ⟨hname, hdep⟩, -⟩ := h
  obtain ⟨-, hsizeAt, hheaderAt⟩ := OptionHeader.at_of_holds hfits (by omega) hheader
  rw [optionHeaderSize] at *
  have hext₁ : cfrExtractVarBinary buf 0 28 tagUiName = (some f.name, 28 + f.name.size) :=
    cfrExtractVarBinary_encode (by omega) (by rwa [Nat.zero_add])
  have hext₂ : cfrExtractVarBinary buf 0 (28 + f.name.size) tagDepValues =
      (f.depValues, 28 + f.name.size + (encodeOptional tagDepValues f.depValues).length) := by
    apply cfrExtractVarBinary_optional (by omega) (by rwa [Nat.zero_add])
    intro hnone
    rw [hnone] at hbody
    simpa [encodeOptional] using hbody.2
  refine ⟨by omega, ?_⟩
  unfold readFormOption
  simp only [optionHeaderSize, Nat.zero_add, hext₁, require, bind, Except.bind, hext₂, hheaderAt]
  rw [Nat.add_assoc]
  rfl

/-- A form whose records begin with items: the form and the items are read, then the rest.
Kind: L -/
theorem readForm_append {buf : ℕ → UInt8} {f : FormOption} {items : List CfrItem}
    {rest : List UInt8} (hfits : f.header.Fits) (hflat : ∀ item ∈ items, item.Flat)
    (hsize : f.front + (items.flatMap CfrItem.encode).length + rest.length < 2 ^ 32)
    (h : Holds buf 0 (f.encode (items.flatMap CfrItem.encode ++ rest)))
    (hnext : Plain buf (f.front + (items.flatMap CfrItem.encode).length)) :
    readForm buf =
      (readItems buf (f.front + (items.flatMap CfrItem.encode).length + rest.length)
        (f.front + (items.flatMap CfrItem.encode).length)).map fun more => (f, items ++ more) := by
  have hitems := (holds_append.mp (FormOption.holds_body h)).1
  rw [Nat.zero_add] at hitems
  rw [Nat.add_assoc, ← List.length_append] at hsize
  obtain ⟨hsizeAt, hform⟩ := readFormOption_encode hfits hsize h (plain_of_items hitems hnext)
  rw [List.length_append, ← Nat.add_assoc] at hsize hsizeAt
  have hread := readItems_append hflat hsize (Nat.le_add_right _ _) hitems hnext
  simp only [readForm, hform, bind, Except.bind, hsizeAt, hread]
  cases readItems buf (f.front + (items.flatMap CfrItem.encode).length + rest.length)
    (f.front + (items.flatMap CfrItem.encode).length) <;> rfl

/-- Whatever form was written, without a form in it, is read back: the form with its name and its
dependency, then every option in its order with all its fields. Kind: P -/
theorem readForm_encode {buf : ℕ → UInt8} {f : FormOption} {items : List CfrItem}
    (hfits : f.header.Fits) (hflat : ∀ item ∈ items, item.Flat)
    (hsize : (f.encode (items.flatMap CfrItem.encode)).length < 2 ^ 32)
    (h : Holds buf 0 (f.encode (items.flatMap CfrItem.encode)))
    (hnext : Plain buf (f.encode (items.flatMap CfrItem.encode)).length) :
    readForm buf = .ok (f, items) := by
  rw [FormOption.length_encode] at hsize hnext
  rw [← List.append_nil (items.flatMap CfrItem.encode)] at h
  have hread := readForm_append hfits hflat (by rwa [List.length_nil, Nat.add_zero]) h hnext
  rw [hread, List.length_nil, readItems, if_neg (by omega)]
  simp [Except.map]

/-- A numeric option with a name of one letter. Kind: D -/
def sampleOption (kind : NumericKind) (objectId dependencyId : ℕ) (letter : UInt8)
    (depValues : Option VarBinary) (enumValues : List EnumValue) : NumericOption where
  kind := kind
  header := ⟨objectId, dependencyId, 0⟩
  defaultValue := 0
  min := 0
  max := 1
  step := 1
  displayFlags := 0
  name := ⟨[letter, 0], 2⟩
  displayName := ⟨[letter, 0], 2⟩
  helpText := none
  depValues := depValues
  enumValues := enumValues

/-- A form with a switch, and a choice that is there only if the switch is on. Kind: D -/
def sampleForm : FormOption × List CfrItem :=
  (⟨⟨1, 0, 0⟩, ⟨[0x46, 0], 2⟩, none⟩,
    [.numeric (sampleOption .bool 2 0 0x61 none []),
      .numeric (sampleOption .enum 3 2 0x62 (some ⟨[1, 0, 0, 0], 0⟩) [⟨7, ⟨[0x78, 0], 2⟩⟩])])

/-- A list of octets in memory, with zeros behind. Kind: D -/
def memoryOf (l : List UInt8) : ℕ → UInt8 := fun i => l.getD i 0

lemma holds_memoryOf (l : List UInt8) : Holds (memoryOf l) 0 l := by
  intro i hi
  rw [Nat.zero_add, memoryOf, List.getD_eq_getElem?_getD, List.getElem?_eq_getElem hi,
    Option.getD_some]

lemma plain_memoryOf (l : List UInt8) : Plain (memoryOf l) l.length := by
  have hzero : ∀ i, memoryOf l (l.length + i) = 0 := by
    intro i
    rw [memoryOf, List.getD_eq_getElem?_getD, List.getElem?_eq_none (by omega), Option.getD_none]
  have hword : readLe32 (memoryOf l) l.length = 0 := by
    rw [readLe32_eq_iff, hzero 1, hzero 2, hzero 3]
    have := hzero 0
    rw [Nat.add_zero] at this
    rw [this]
    rfl
  exact plain_of_word hword (by decide)

/-- The octets of a form. Kind: D -/
def formOctets (form : FormOption × List CfrItem) : List UInt8 :=
  form.1.encode (form.2.flatMap CfrItem.encode)

lemma sampleForm_flat : ∀ item ∈ sampleForm.2, item.Flat := by
  rw [sampleForm, List.forall_mem_cons, List.forall_mem_singleton]
  exact ⟨⟨⟨by decide, by decide⟩, .inr rfl⟩, ⟨⟨by decide, by decide⟩, .inl rfl⟩⟩

lemma sampleForm_size : (formOctets sampleForm).length < 2 ^ 32 := by
  rw [formOctets, FormOption.length_encode]
  decide +kernel

/-- The sample form, read back. Kind: C -/
theorem readForm_encode_sample : readForm (memoryOf (formOctets sampleForm)) = .ok sampleForm :=
  readForm_encode ⟨by decide, by decide⟩ sampleForm_flat sampleForm_size (holds_memoryOf _)
    (plain_memoryOf _)

/-- The name of a form inside a form, `p` octets into the outer one, is looked for at `2 * p + 28`.
If no name stands there the driver stops, whatever the nested form says of itself. Kind: P -/
theorem readForm_nested {buf : ℕ → UInt8} {f g : FormOption} {items : List CfrItem}
    {body rest : List UInt8} (hfits : f.header.Fits) (hflat : ∀ item ∈ items, item.Flat) (p : ℕ)
    (hp : p = (f.encode (items.flatMap CfrItem.encode)).length)
    (hsize : (f.encode (items.flatMap CfrItem.encode ++ (g.encode body ++ rest))).length < 2 ^ 32)
    (h : Holds buf 0 (f.encode (items.flatMap CfrItem.encode ++ (g.encode body ++ rest))))
    (hword : readLe32 buf (2 * p + 28) ≠ tagUiName) :
    readForm buf = .error .assert := by
  rw [FormOption.length_encode] at hp
  rw [FormOption.length_encode, List.length_append, ← Nat.add_assoc] at hsize
  -- the nested form stands at `p`, behind the items
  have hnested := (holds_append.mp (holds_append.mp (FormOption.holds_body h)).2).1
  rw [Nat.zero_add, ← hp, FormOption.encode, holds_append] at hnested
  have hheader := hnested.1
  simp only [OptionHeader.encode, holds_append] at hheader
  have htag : readLe32 buf p = tagForm := hheader.1.1.1.1.word
  have hread := readForm_append hfits hflat hsize h (hp ▸ plain_of_word htag (by decide))
  have hpos : 0 < (g.encode body ++ rest).length := by
    rw [List.length_append, FormOption.length_encode, FormOption.front, optionHeaderSize]
    omega
  have hform : readFormOption buf p p = .error .assert := by
    rw [readFormOption, cfrExtractVarBinary, if_pos]
    · rfl
    · rwa [optionHeaderSize, ← Nat.add_assoc, ← Nat.two_mul]
  rw [hread, ← hp, readItems, if_pos (by omega), readItem, htag, hform]
  rfl

/-- A form in the sample form: its name is not where it is looked for. Kind: C -/
theorem readForm_nested_sample :
    readForm (memoryOf (sampleForm.1.encode (sampleForm.2.flatMap CfrItem.encode ++
      (sampleForm.1.encode [] ++ [])))) = .error .assert := by
  refine readForm_nested ⟨by decide, by decide⟩ sampleForm_flat _ rfl ?_ (holds_memoryOf _) ?_
  · rw [FormOption.length_encode]
    decide +kernel
  · rw [FormOption.length_encode]
    decide +kernel

end NucBios.Setup
