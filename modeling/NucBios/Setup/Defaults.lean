import Mathlib.Data.List.TakeWhile
import NucBios.Setup.Boots

/-!
# The default of an option, before it has a variable

Code that runs before the setup menu cannot read an option's variable. `CfrOptionGetDefaultValue`
looks its default up in the option records instead, in a walk of its own. This file is that walk,
and how it agrees with what the menu does with the same records.

* `getDefault_agrees`: without string options, the default that is found is the one the menu will
  store;
* `getDefault_string`: a string option that the menu can read stops the search for every option
  behind it. The menu wants the default of a string first and its name second, the search the other
  way round.
-/

namespace NucBios.Setup

open NucBios.Lib NucBios.Uefi

/-! ### The walk -/

/-- `AsciiStrCmp` with the string at `off` gives zero, for a `name` without a zero in it. Kind: D -/
def asciiStrEq (buf : ℕ → UInt8) (off : ℕ) (name : List UInt8) : Bool :=
  cells buf off (name.length + 1) == name ++ [0]

/-- How the search in a form ends: the default, a form of that name, or nothing. Kind: D -/
inductive Search where
  | found (data : List UInt8)
  | refused
  | missing
  deriving DecidableEq, Repr

/-- What one record gives: an end, or the offset of the next one. Kind: D -/
inductive SearchStep where
  | done (result : Search)
  | next (processedLength : ℕ)
  deriving DecidableEq, Repr

/-- The default of the string option at `option`.
Source: `CfrHelpersLib.c` `CfrOptionGetDefaultValue`, `CB_TAG_CFR_OPTION_VARCHAR`
Kind: D -/
def varcharDefault (buf : ℕ → UInt8) (option : ℕ) : Except Stop VarBinary := do
  let (name?, o₁) := cfrExtractVarBinary buf option optionHeaderSize tagOptName
  let _ ← require name?
  let (uiName?, o₂) := cfrExtractVarBinary buf option o₁ tagUiName
  let _ ← require uiName?
  let (_, o₃) := cfrExtractVarBinary buf option o₂ tagHelpText
  let (defaultValue?, _) := cfrExtractVarBinary buf option o₃ tagDefValue
  require defaultValue?

/-- One record of a form.
Source: `CfrHelpersLib.c` `CfrOptionGetDefaultValue`, the switch
Kind: D -/
def searchRecord (buf : ℕ → UInt8) (name : List UInt8) (processedLength : ℕ) :
    Except Stop SearchStep :=
  let tag := readLe32 buf processedLength
  let next := .next (processedLength + sizeAt buf processedLength)
  if tag = tagForm then do
    let (formName?, o) :=
      cfrExtractVarBinary buf 0 (processedLength + optionHeaderSize) tagUiName
    let _ ← require formName?
    if asciiStrEq buf (processedLength + optionHeaderSize + varBinaryHeader) name then
      .ok (.done .refused)
    else .ok (.next o)
  else if (numericKind? tag).isSome then do
    let (name?, _) := cfrExtractVarBinary buf processedLength numericHeaderSize tagOptName
    let _ ← require name?
    if asciiStrEq buf (processedLength + numericHeaderSize + varBinaryHeader) name then
      .ok (.done (.found (cells buf (processedLength + 28) 4)))
    else .ok next
  else if tag = tagVarchar then do
    let defaultValue ← varcharDefault buf processedLength
    if asciiStrEq buf (processedLength + optionHeaderSize + varBinaryHeader) name then
      .ok (.done (.found defaultValue.data))
    else .ok next
  else .ok next

/-- The loop over the records of a form. Kind: D -/
def searchRecords (buf : ℕ → UInt8) (size : ℕ) (name : List UInt8) (processedLength : ℕ) :
    Except Stop Search :=
  if processedLength < size then
    match searchRecord buf name processedLength with
    | .error stop => .error stop
    | .ok (.done result) => .ok result
    | .ok (.next next) =>
        if next ≤ processedLength then .error .hang else searchRecords buf size name next
  else .ok .missing
termination_by size - processedLength

/-- `none` for `EFI_NOT_FOUND`.
Source: `CfrHelpersLib.c` `CfrOptionGetDefaultValue`
Kind: D -/
def cfrOptionGetDefaultValue (formName : Option (List UInt8)) (optionName : List UInt8) :
    List (ℕ → UInt8) → Except Stop (Option (List UInt8))
  | [] => .ok none
  | hob :: hobs =>
      match cfrExtractVarBinary hob 0 optionHeaderSize tagUiName with
      | (none, _) => .error .assert
      | (some _, processedLength) =>
          if formName.any fun f => !asciiStrEq hob (optionHeaderSize + varBinaryHeader) f then
            cfrOptionGetDefaultValue formName optionName hobs
          else
            match searchRecords hob (sizeAt hob 0) optionName processedLength with
            | .error stop => .error stop
            | .ok (.found data) => .ok (some data)
            | .ok .refused => .ok none
            | .ok .missing => cfrOptionGetDefaultValue formName optionName hobs

/-! ### The walk over records that were written -/

/-- The characters of a record, in eight bits each. Kind: D -/
def VarBinary.ascii (v : VarBinary) : List UInt8 := v.data.takeWhile (· != 0)

lemma Holds.left {buf : ℕ → UInt8} {off : ℕ} {a b : List UInt8} (h : Holds buf off (a ++ b)) :
    Holds buf off a := (holds_append.mp h).1

lemma Holds.zero {buf : ℕ → UInt8} {off : ℕ} {t rest : List UInt8}
    (h : Holds buf off (t ++ 0 :: rest)) : buf (off + t.length) = 0 := by
  have hcell := h t.length (by simp)
  rw [List.getElem_append_right le_rfl] at hcell
  simpa using hcell

/-- A string does not end before another at the same place. Kind: L -/
theorem length_le_of_holds {buf : ℕ → UInt8} {off : ℕ} {t rest t' rest' : List UInt8}
    (h : Holds buf off (t ++ 0 :: rest)) (h' : Holds buf off (t' ++ 0 :: rest')) (ht' : 0 ∉ t') :
    t'.length ≤ t.length := by
  by_contra hlt
  rw [not_le] at hlt
  have hcell := h'.left t.length hlt
  rw [h.zero] at hcell
  exact ht' (hcell ▸ List.getElem_mem hlt)

/-- A string in memory is compared up to its end. Kind: L -/
theorem asciiStrEq_iff {buf : ℕ → UInt8} {off : ℕ} {t rest name : List UInt8}
    (h : Holds buf off (t ++ 0 :: rest)) (ht : 0 ∉ t) (hname : 0 ∉ name) :
    asciiStrEq buf off name = true ↔ t = name := by
  have hholds : asciiStrEq buf off name = true ↔ Holds buf off (name ++ [0]) := by
    rw [asciiStrEq, beq_iff_eq, eq_comm]
    exact eq_cells_iff (by simp)
  rw [hholds]
  constructor
  · intro h'
    have hlength : t.length = name.length :=
      le_antisymm (length_le_of_holds h' h ht) (length_le_of_holds h h' hname)
    rw [← h.left.cells, ← h'.left.cells, hlength]
  · rintro rfl
    rw [← List.singleton_append, ← List.append_assoc] at h
    exact h.left

lemma zero_notMem_ascii (v : VarBinary) : 0 ∉ v.ascii := by
  intro h
  simpa using List.mem_takeWhile_imp h

lemma exists_eq_takeWhile_append {l : List UInt8} (h : 0 ∈ l) :
    ∃ rest, l = l.takeWhile (· != 0) ++ 0 :: rest := by
  induction l with
  | nil => exact absurd h List.not_mem_nil
  | cons c data ih =>
      by_cases hc : c = 0
      · exact ⟨data, by simp [hc]⟩
      · obtain ⟨rest, hrest⟩ := ih (List.mem_of_ne_of_mem (Ne.symm hc) h)
        refine ⟨rest, ?_⟩
        rw [List.takeWhile_cons_of_pos (by simpa using hc), List.cons_append, ← hrest]

/-- A text is its characters, its end, and what is behind. Kind: L -/
lemma VarBinary.IsText.split {v : VarBinary} (h : v.IsText) :
    ∃ rest, v.data = v.ascii ++ 0 :: rest :=
  exists_eq_takeWhile_append h

/-- The text of a record in memory is compared with a name. Kind: L -/
theorem asciiStrEq_record {buf : ℕ → UInt8} {off : ℕ} {tag : UInt32} {v : VarBinary}
    {name : List UInt8} (h : Holds buf off (v.encode tag)) (htext : v.IsText) (hname : 0 ∉ name) :
    asciiStrEq buf (off + varBinaryHeader) name = true ↔ v.ascii = name := by
  obtain ⟨rest, hrest⟩ := htext.split
  simp only [VarBinary.encode, holds_append, List.length_append, length_le32] at h
  have hdata := h.1.2
  rw [hrest] at hdata
  exact asciiStrEq_iff hdata (zero_notMem_ascii v) hname

/-- What the search finds in the records of a form. Kind: D -/
def searchItems (name : List UInt8) : List CfrItem → Except Stop Search
  | [] => .ok .missing
  | .form _ :: items => searchItems name items
  | .numeric o :: items =>
      if o.name.ascii = name then .ok (.found (le32 o.defaultValue)) else searchItems name items
  | .character o :: items => if o.storage.isSome then .error .assert else searchItems name items

lemma cells_of_readLe32 {buf : ℕ → UInt8} {off : ℕ} {w : UInt32} (h : readLe32 buf off = w) :
    cells buf off 4 = le32 w := by
  rw [readLe32_eq_iff] at h
  rw [← h]
  rfl

/-- A numeric option: its default, if it has the name. Kind: L -/
theorem searchRecord_numeric {buf : ℕ → UInt8} {off : ℕ} {o : NumericOption} {name : List UInt8}
    (hflat : CfrItem.Flat (.numeric o)) (hsize : o.encode.length < 2 ^ 32)
    (h : Holds buf off o.encode) (hnext : Plain buf (off + o.encode.length))
    (htext : o.name.IsText) (hname : 0 ∉ name) :
    searchRecord buf name off =
      if o.name.ascii = name then .ok (.done (.found (le32 o.defaultValue)))
      else .ok (.next (off + o.encode.length)) := by
  obtain ⟨htag, hsizeAt, -⟩ := readNumericOption_encode hflat hsize h hnext
  rw [NumericOption.length_encode, NumericOption.fields] at hsize
  simp only [NumericOption.encode, NumericOption.fields, holds_append, OptionHeader.length_encode,
    List.length_append, length_le32, optionHeaderSize, Nat.reduceAdd, Nat.add_assoc] at h
  have hrecord := h.2.1
  have hdefault := cells_of_readLe32 h.1.2.1.1.1.1.word
  have hext := cfrExtractVarBinary_encode (by simp at hsize; omega) hrecord
  have hform : o.kind.tag ≠ tagForm := by cases o.kind <;> decide
  have hkind : (numericKind? o.kind.tag).isSome := by cases o.kind <;> rfl
  rw [searchRecord, htag, if_neg hform, if_pos hkind, numericHeaderSize, hext, hdefault, hsizeAt]
  simp only [require, bind, Except.bind, asciiStrEq_record hrecord htext hname]

/-- A string option: what the search takes for its name is its default. Kind: L -/
theorem searchRecord_string {buf : ℕ → UInt8} {off : ℕ} {o : CharacterOption} {name : List UInt8}
    (hflat : CfrItem.Flat (.character o)) (hstorage : o.storage.isSome)
    (hsize : o.encode.length < 2 ^ 32) (h : Holds buf off o.encode)
    (hnext : Plain buf (off + o.encode.length)) : searchRecord buf name off = .error .assert := by
  obtain ⟨htag, -, -⟩ := readCharacterOption_encode hflat hsize h hnext
  obtain ⟨⟨defaultValue, optName⟩, hcase⟩ := Option.isSome_iff_exists.mp hstorage
  rw [CharacterOption.length_encode, CharacterOption.fields, hcase] at hsize
  simp only [CharacterOption.encode, CharacterOption.fields, hcase, encodeStorage, holds_append,
    OptionHeader.length_encode] at h
  have hword := (VarBinary.at_of_holds (by simp [encodeStorage] at hsize; omega) h.2.1.1).1
  rw [hcase, Option.isSome_some, if_pos rfl] at htag
  have hextract : cfrExtractVarBinary buf off optionHeaderSize tagOptName =
      (none, optionHeaderSize) := by
    rw [cfrExtractVarBinary, hword, if_pos (by decide)]
  have hdefault : varcharDefault buf off = .error .assert := by
    rw [varcharDefault, hextract]
    rfl
  rw [searchRecord, htag, if_neg (by decide), if_neg (by decide), if_pos rfl, hdefault]
  rfl

/-- A comment is passed over. Kind: L -/
theorem searchRecord_comment {buf : ℕ → UInt8} {off : ℕ} {o : CharacterOption} {name : List UInt8}
    (hflat : CfrItem.Flat (.character o)) (hstorage : o.storage.isSome = false)
    (hsize : o.encode.length < 2 ^ 32) (h : Holds buf off o.encode)
    (hnext : Plain buf (off + o.encode.length)) :
    searchRecord buf name off = .ok (.next (off + o.encode.length)) := by
  obtain ⟨htag, hsizeAt, -⟩ := readCharacterOption_encode hflat hsize h hnext
  rw [hstorage, if_neg Bool.false_ne_true] at htag
  rw [searchRecord, htag, if_neg (by decide), if_neg (by decide), if_neg (by decide), hsizeAt]

/-- The name of an option is a text. Kind: D -/
def CfrItem.HasName : CfrItem → Prop
  | .form _ => True
  | .numeric o => o.name.IsText
  | .character _ => True

/-- The search in the records of a form, by induction on them. Kind: L -/
theorem searchRecords_eq {buf : ℕ → UInt8} {items : List CfrItem} {off size : ℕ}
    {name : List UInt8} (hflat : ∀ item ∈ items, item.Flat)
    (hnamed : ∀ item ∈ items, item.HasName) (hname : 0 ∉ name) (hsize : size < 2 ^ 32)
    (hend : size = off + (items.flatMap CfrItem.encode).length)
    (h : Holds buf off (items.flatMap CfrItem.encode)) (hnext : Plain buf size) :
    searchRecords buf size name off = searchItems name items := by
  induction items generalizing off with
  | nil =>
      rw [searchRecords, if_neg (by simp at hend; omega)]
      rfl
  | cons item items ih =>
      have hpos := item.size_pos
      rw [List.flatMap_cons, List.length_append, ← CfrItem.size, ← Nat.add_assoc] at hend
      rw [List.flatMap_cons, holds_append, ← CfrItem.size] at h
      obtain ⟨hfirst, hrest⟩ := h
      have hplain : Plain buf (off + item.size) := plain_of_items hrest (hend ▸ hnext)
      have hitem := hflat item List.mem_cons_self
      have hfit : item.size < 2 ^ 32 := by omega
      have hitems := ih (fun i hi => hflat i (List.mem_cons_of_mem _ hi))
        (fun i hi => hnamed i (List.mem_cons_of_mem _ hi)) hend hrest
      have hadvance : (if off + item.size ≤ off then .error .hang
          else searchRecords buf size name (off + item.size)) = searchItems name items := by
        rw [if_neg (by omega), hitems]
      rw [searchRecords, if_pos (by omega)]
      cases item with
      | form f => exact hitem.elim
      | numeric o =>
          rw [searchItems, searchRecord_numeric hitem hfit hfirst hplain
            (hnamed _ List.mem_cons_self) hname]
          by_cases hcalled : o.name.ascii = name
          · rw [if_pos hcalled, if_pos hcalled]
          · rw [if_neg hcalled, if_neg hcalled]
            exact hadvance
      | character o =>
          rw [searchItems]
          cases hstorage : o.storage.isSome with
          | true =>
              rw [searchRecord_string hitem hstorage hfit hfirst hplain]
              rfl
          | false =>
              rw [searchRecord_comment hitem hstorage hfit hfirst hplain]
              exact hadvance

/-- The record of a form's own dependency is passed over. Kind: L -/
theorem searchRecords_dependency {buf : ℕ → UInt8} {dep : VarBinary} {off size : ℕ}
    {name : List UInt8} (hsize : size < 2 ^ 32) (hend : off + dep.size ≤ size)
    (h : Holds buf off (dep.encode tagDepValues)) :
    searchRecords buf size name off = searchRecords buf size name (off + dep.size) := by
  have hpos : 0 < dep.size := by
    rw [VarBinary.size, varBinaryHeader]
    omega
  obtain ⟨htag, hsizeAt, -⟩ := VarBinary.at_of_holds (by omega) h
  have hrecord : searchRecord buf name off = .ok (.next (off + dep.size)) := by
    rw [searchRecord, htag, if_neg (by decide), if_neg (by decide), if_neg (by decide), hsizeAt]
  rw [searchRecords, if_pos (by omega), hrecord]
  exact if_neg (by omega)

/-- The search in a form that was written. Kind: L -/
theorem searchForm_eq {buf : ℕ → UInt8} {form : FormOption × List CfrItem} {name : List UInt8}
    (hwritten : Written buf form) (hnamed : ∀ item ∈ form.2, item.HasName) (hname : 0 ∉ name) :
    searchRecords buf (sizeAt buf 0) name (optionHeaderSize + form.1.name.size) =
      searchItems name form.2 := by
  have hsize := hwritten.size
  have hnext := hwritten.next
  have hbody := FormOption.holds_body hwritten.holds
  rw [FormOption.length_encode] at hsize hnext
  rw [Nat.zero_add] at hbody
  obtain ⟨hsizeAt, -⟩ := readFormOption_encode hwritten.fits hsize hwritten.holds
    (plain_of_items hbody hnext)
  have hitems := searchRecords_eq hwritten.flat hnamed hname hsize rfl hbody hnext
  rw [hsizeAt, ← hitems]
  cases hdep : form.1.depValues with
  | none =>
      congr 1
      simp [FormOption.front, hdep, encodeOptional]
  | some dep =>
      have hfront : form.1.front = optionHeaderSize + form.1.name.size + dep.size := by
        simp [FormOption.front, hdep, encodeOptional, Nat.add_assoc]
      have hholds := hwritten.holds
      simp only [FormOption.encode, holds_append, OptionHeader.length_encode,
        VarBinary.length_encode, Nat.zero_add, hdep] at hholds
      have hrecord : Holds buf (optionHeaderSize + form.1.name.size) (dep.encode tagDepValues) := by
        simpa [encodeOptional] using hholds.2.1.2
      rw [searchRecords_dependency hsize (by omega) hrecord, ← hfront]

/-- What the caller gets. Kind: D -/
def Search.data? : Search → Option (List UInt8)
  | .found data => some data
  | _ => none

lemma searchItems_append (name : List UInt8) (items items' : List CfrItem) :
    searchItems name (items ++ items') =
      match searchItems name items with
      | .ok .missing => searchItems name items'
      | r => r := by
  induction items with
  | nil => rfl
  | cons item items ih =>
      cases item with
      | form f => exact ih
      | numeric o =>
          rw [List.cons_append, searchItems, searchItems]
          split
          · rfl
          · exact ih
      | character o =>
          rw [List.cons_append, searchItems, searchItems]
          split
          · rfl
          · exact ih

lemma searchItems_ne_refused (name : List UInt8) (items : List CfrItem) :
    searchItems name items ≠ .ok .refused := by
  induction items with
  | nil => exact nofun
  | cons item items ih =>
      cases item with
      | form f => exact ih
      | numeric o =>
          rw [searchItems]
          split
          · exact nofun
          · exact ih
      | character o =>
          rw [searchItems]
          split
          · exact nofun
          · exact ih

/-- The form is the one asked for, if one is. Kind: D -/
def formIsNamed (formName : Option (List UInt8)) (form : FormOption × List CfrItem) : Bool :=
  formName.all fun f => form.1.name.ascii = f

/-- The search over all forms is a search in one list of records: those of the forms asked for.
Kind: P -/
theorem getDefault_eq {hobs : List (ℕ → UInt8)} {forms : List (FormOption × List CfrItem)}
    {formName : Option (List UInt8)} {name : List UInt8}
    (hwritten : List.Forall₂ Written hobs forms)
    (htext : ∀ form ∈ forms, form.1.name.IsText)
    (hnamed : ∀ form ∈ forms, ∀ item ∈ form.2, item.HasName)
    (hform : ∀ f ∈ formName, 0 ∉ f) (hname : 0 ∉ name) :
    cfrOptionGetDefaultValue formName name hobs =
      (searchItems name ((forms.filter (formIsNamed formName)).flatMap Prod.snd)).map
        Search.data? := by
  induction hwritten with
  | nil => rfl
  | @cons hob form hobs forms hfirst hrest ih =>
      have hsearch := searchForm_eq hfirst (hnamed form List.mem_cons_self) hname
      have htail := ih (fun f hf => htext f (List.mem_cons_of_mem _ hf))
        (fun f hf => hnamed f (List.mem_cons_of_mem _ hf))
      have hsize := hfirst.size
      rw [FormOption.length_encode, FormOption.front] at hsize
      have hrecord := hfirst.holds
      simp only [FormOption.encode, holds_append, OptionHeader.length_encode, Nat.zero_add]
        at hrecord
      have hextract : cfrExtractVarBinary hob 0 optionHeaderSize tagUiName =
          (some form.1.name, optionHeaderSize + form.1.name.size) :=
        cfrExtractVarBinary_encode (by omega) (by rw [Nat.zero_add]; exact hrecord.2.1.1)
      have hcalled : (formName.any fun f =>
          !asciiStrEq hob (optionHeaderSize + varBinaryHeader) f) = !formIsNamed formName form := by
        cases formName with
        | none => rfl
        | some f =>
            have hiff := asciiStrEq_record hrecord.2.1.1 (htext form List.mem_cons_self)
              (hform f rfl)
            rw [Option.any_some, formIsNamed, Option.all_some]
            congr 1
            rw [Bool.eq_iff_iff, hiff, decide_eq_true_iff]
      rw [cfrOptionGetDefaultValue, hextract]
      simp only [hcalled, hsearch]
      cases hthis : formIsNamed formName form with
      | false => simpa [hthis] using htail
      | true =>
          rw [List.filter_cons_of_pos hthis, List.flatMap_cons, searchItems_append]
          rw [if_neg (by simp)]
          have hne := searchItems_ne_refused name form.2
          cases hresult : searchItems name form.2 with
          | error stop => rfl
          | ok result =>
              cases result with
              | found data => rfl
              | refused => exact absurd hresult hne
              | missing => exact htail

/-! ### Against the menu -/

/-- A name as the variable driver has it. Kind: D -/
def wideName (name : List UInt8) : Text := name.map UInt8.toUInt16

lemma wideName_injective : Function.Injective wideName := by
  apply List.map_injective_iff.mpr
  intro a b h
  have hnat := congrArg UInt16.toNat h
  rw [UInt8.toNat_toUInt16, UInt8.toNat_toUInt16] at hnat
  exact UInt8.toNat_inj.mp hnat

lemma VarBinary.IsText.text_eq {v : VarBinary} (h : v.IsText) : v.text = wideName v.ascii := by
  rw [VarBinary.IsText] at h
  rw [VarBinary.text, VarBinary.text?, if_pos h]
  rfl

/-- Without string options, the search finds what the first request of the name asks to be stored.
Kind: L -/
theorem searchItems_eq_request (fw : Firmware) {items : List CfrItem} {name : List UInt8}
    (hnamed : ∀ item ∈ items, item.HasName)
    (hstring : ∀ o, .character o ∈ items → o.storage.isSome = false) :
    (searchItems name items).map Search.data? =
      .ok (((items.filterMap (CfrItem.request? fw)).find? fun r => r.name = wideName name).map
        fun r => r.initial.data) := by
  induction items with
  | nil => rfl
  | cons item items ih =>
      have hrest := ih (fun i hi => hnamed i (List.mem_cons_of_mem _ hi))
        fun o ho => hstring o (List.mem_cons_of_mem _ ho)
      cases item with
      | form f => exact hrest
      | numeric o =>
          have htext : o.name.text = wideName o.name.ascii :=
            VarBinary.IsText.text_eq (hnamed _ List.mem_cons_self)
          rw [searchItems, List.filterMap_cons]
          simp only [CfrItem.request?, List.find?_cons, OptionHeader.request, htext,
            wideName_injective.eq_iff]
          by_cases hcalled : o.name.ascii = name
          · simp [hcalled, Except.map, Search.data?]
          · simpa [hcalled] using hrest
      | character o =>
          have hnone : o.storage = none := by
            simpa using hstring o List.mem_cons_self
          rw [searchItems, List.filterMap_cons]
          simpa [CfrItem.request?, hnone] using hrest

/-- The requests of HOBs that were written are those of their forms' records. Kind: L -/
theorem flatMap_hobRequests {fw : Firmware} {hobs : List (ℕ → UInt8)}
    {forms : List (FormOption × List CfrItem)} (hwritten : List.Forall₂ Written hobs forms) :
    hobs.flatMap (hobRequests fw) =
      (forms.flatMap Prod.snd).filterMap (CfrItem.request? fw) := by
  induction hwritten with
  | nil => rfl
  | @cons hob form hobs forms hfirst _ ih =>
      rw [List.flatMap_cons, List.flatMap_cons, List.filterMap_append, ih, hobRequests, hfirst.read]
      rfl

/-- If no string option is among the records, the default that is found for a name is what the menu
stores under it when there is no variable yet; if nothing is found, nothing is stored. Kind: P -/
theorem getDefault_agrees {fw : Firmware} {hobs : List (ℕ → UInt8)}
    {forms : List (FormOption × List CfrItem)} {name : List UInt8} {vars : Variables} {m : Menu}
    (hwritten : List.Forall₂ Written hobs forms) (htext : ∀ form ∈ forms, form.1.name.IsText)
    (hnamed : ∀ form ∈ forms, ∀ item ∈ form.2, item.HasName)
    (hstring : ∀ form ∈ forms, ∀ o, .character o ∈ form.2 → o.storage.isSome = false)
    (hname : 0 ∉ name) (hok : cfrCreateRuntimeComponents fw hobs vars = .ok m)
    (hnew : vars.get (wideName name) = none) :
    cfrOptionGetDefaultValue none name hobs =
      .ok ((m.vars.get (wideName name)).map Variable.data) := by
  have hall : forms.filter (formIsNamed none) = forms := List.filter_eq_self.mpr fun _ _ => rfl
  rw [getDefault_eq hwritten htext hnamed (fun _ h => absurd h (Option.not_mem_none _)) hname, hall]
  rw [searchItems_eq_request fw, ← flatMap_hobRequests hwritten,
    (createdVariables_eq hok).get, hnew, Option.none_or, Option.map_map]
  · rfl
  · intro item hitem
    obtain ⟨form, hform, hmem⟩ := List.mem_flatMap.mp hitem
    exact hnamed form hform item hmem
  · intro o ho
    obtain ⟨form, hform, hmem⟩ := List.mem_flatMap.mp ho
    exact hstring form hform o hmem

/-- The default of a switch, found before the menu is there and stored by it. Kind: C -/
theorem getDefault_agrees_sample :
    ∃ m, cfrCreateRuntimeComponents sampleFirmware [memoryOf (formOctets (switchForm 1 0))]
        noVariables = .ok m ∧
      cfrOptionGetDefaultValue none [0x61] [memoryOf (formOctets (switchForm 1 0))] =
        .ok ((m.vars.get [0x61]).map Variable.data) := by
  obtain ⟨vars', hboot⟩ := switchBoot_ok 1 0 [] [] noVariables
  obtain ⟨m, hok, -⟩ := map_eq_ok.mp hboot
  refine ⟨m, hok,
    getDefault_agrees (.cons (written_switchForm 1 0) .nil) ?_ ?_ ?_ (by decide) hok rfl⟩
  · rw [List.forall_mem_singleton]
    exact List.mem_cons_of_mem _ List.mem_cons_self
  · simp only [List.forall_mem_singleton, switchForm]
    exact List.mem_cons_of_mem _ List.mem_cons_self
  · simp [switchForm]

lemma searchItems_of_string {name : List UInt8} {before after : List CfrItem} {o : CharacterOption}
    (hstorage : o.storage.isSome)
    (hbefore : ∀ p, .numeric p ∈ before → p.name.ascii ≠ name) :
    searchItems name (before ++ .character o :: after) = .error .assert := by
  induction before with
  | nil => rw [List.nil_append, searchItems, if_pos hstorage]
  | cons item before ih =>
      have hrest := ih fun p hp => hbefore p (List.mem_cons_of_mem _ hp)
      cases item with
      | form f => exact hrest
      | numeric p =>
          rw [List.cons_append, searchItems, if_neg (hbefore p List.mem_cons_self)]
          exact hrest
      | character p =>
          rw [List.cons_append, searchItems]
          split
          · rfl
          · exact hrest

/-- A string option that the menu can read stops the search for every name that is not found before
it. Kind: P -/
theorem getDefault_string {hobs : List (ℕ → UInt8)} {forms : List (FormOption × List CfrItem)}
    {name : List UInt8} {before after : List CfrItem} {o : CharacterOption}
    (hwritten : List.Forall₂ Written hobs forms) (htext : ∀ form ∈ forms, form.1.name.IsText)
    (hnamed : ∀ form ∈ forms, ∀ item ∈ form.2, item.HasName) (hname : 0 ∉ name)
    (hitems : forms.flatMap Prod.snd = before ++ .character o :: after)
    (hstorage : o.storage.isSome) (hbefore : ∀ p, .numeric p ∈ before → p.name.ascii ≠ name) :
    cfrOptionGetDefaultValue none name hobs = .error .assert := by
  have hall : forms.filter (formIsNamed none) = forms := List.filter_eq_self.mpr fun _ _ => rfl
  rw [getDefault_eq hwritten htext hnamed (fun _ h => absurd h (Option.not_mem_none _)) hname, hall,
    hitems, searchItems_of_string hstorage hbefore]
  rfl

/-- A form with a string option, and a switch behind it. Kind: D -/
def stringForm : FormOption × List CfrItem :=
  (⟨⟨1, 0, 0⟩, ⟨[0x46, 0], 2⟩, none⟩,
    [.character ⟨⟨4, 0, 0⟩, some (⟨[0x78, 0], 2⟩, ⟨[0x73, 0], 2⟩), ⟨[0x73, 0], 2⟩, none, none⟩,
      .numeric (sampleOption .bool 2 0 0x61 none [])])

lemma written_stringForm : Written (memoryOf (formOctets stringForm)) stringForm := by
  apply written_memoryOf
  · simp [OptionHeader.Fits, stringForm]
  · rw [stringForm, List.forall_mem_cons, List.forall_mem_singleton]
    refine ⟨⟨by simp [OptionHeader.Fits], ?_⟩,
      ⟨by simp [OptionHeader.Fits, sampleOption], .inr rfl⟩⟩
    intro d n h
    injection h with h
    injection h with hd hn
    subst hd
    decide
  · rw [formOctets, FormOption.length_encode]
    decide +kernel

/-- The switch is not found. Kind: C -/
theorem getDefault_string_sample :
    cfrOptionGetDefaultValue none [0x61] [memoryOf (formOctets stringForm)] = .error .assert := by
  have hzero : ∀ letter : UInt8, (0 : UInt8) ∈ [letter, 0] :=
    fun _ => List.mem_cons_of_mem _ List.mem_cons_self
  refine getDefault_string (.cons written_stringForm .nil) ?_ ?_ (by decide)
    (show _ = [] ++ _ from List.flatMap_singleton _ _) rfl fun _ h => absurd h List.not_mem_nil
  · rw [List.forall_mem_singleton]
    exact hzero _
  · rw [List.forall_mem_singleton, stringForm, List.forall_mem_cons, List.forall_mem_singleton]
    exact ⟨trivial, hzero _⟩

end NucBios.Setup
