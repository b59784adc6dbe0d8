import NucBios.Lib.Outcome
import NucBios.Setup.Ifr
import NucBios.Setup.Storage

/-!
# From option records to the setup menu

`CfrSetupMenuDxe` is a compiler: it takes the option records of coreboot and produces the opcodes
of a form, with the strings the opcodes refer to and the variables the questions are kept in. This
file has its passes, one for each kind of record.

`Emits` says all that the pass over one record can do: strings are added behind those that are
there, the variable of the option is asked for, and the opcodes are one statement inside the
conditions of the option. `item_emits` is that every pass does this, `item_ok` when it succeeds.
-/

namespace NucBios.Setup

open NucBios.Lib NucBios.Uefi

/-! ### The passes -/

/-- `CFR_COMPONENT_START + object_id`, as it fits a question id. Kind: D -/
def questionId (objectId : ℕ) : UInt16 := UInt16.ofNat (0x1000 + objectId)

/-- The strings the driver brings, those of them it uses by name, and what freshly allocated
memory holds. Kind: D -/
structure Firmware extends Services where
  strings : List Text
  emptyString : Fin strings.length
  invalidString : Fin strings.length
  boolEnabled : Fin strings.length
  boolDisabled : Fin strings.length
  pool : ℕ → UInt16

/-- What the driver has produced: strings beside its own, variables, opcodes. Kind: D -/
structure Menu where
  added : List Text
  vars : Variables
  ops : List IfrOp

/-- The id of one of the driver's own strings. Zero is no string. Kind: D -/
def Firmware.token (fw : Firmware) (i : Fin fw.strings.length) : StringId := i + 1

/-- The text of a string id. Kind: D -/
def Firmware.text (fw : Firmware) (added : List Text) : StringId → Option Text
  | 0 => some []
  | id + 1 => (fw.strings ++ added)[id]?

/-- `HiiSetString` with id zero: a new string. Kind: D -/
def Menu.addString (fw : Firmware) (m : Menu) (text : Text) : StringId × Menu :=
  (fw.strings.length + m.added.length + 1, { m with added := m.added ++ [text] })

/-- Append opcodes. Kind: D -/
def Menu.emit (m : Menu) (ops : List IfrOp) : Menu := { m with ops := m.ops ++ ops }

/-- Source: `SetupMenuCfr.c` `CfrConvertVarBinaryToStrings`, with a string id
Kind: D -/
def cfrConvertVarBinaryToStrings (fw : Firmware) (v : VarBinary) (m : Menu) :
    Except Stop (StringId × Menu) :=
  (require v.text?).map (m.addString fw)

/-- The values behind a record of dependency values.
Source: `SetupMenuCfr.c` `CfrConvertVarBinaryToUint32Array`
Kind: D -/
def uint32Array : List UInt8 → List UInt32
  | a :: b :: c :: d :: rest =>
      UInt32.ofNat (a.toNat + 2 ^ 8 * b.toNat + 2 ^ 16 * c.toNat + 2 ^ 24 * d.toNat) ::
        uint32Array rest
  | _ => []

/-- The dependency values of an option; none if the record is missing. Kind: D -/
def depValuesOf (v : Option VarBinary) : List UInt32 := v.elim [] fun v => uint32Array v.data

/-- Source: `SetupMenuCfr.c` `CfrProduceHiiForFlags`
Kind: D -/
def cfrProduceHiiForFlags (gray : Bool) : List IfrOp := [ifOp gray, .trueOp]

/-- Source: `SetupMenuCfr.c` `CfrProduceHiiForDependency`
Kind: D -/
def cfrProduceHiiForDependency (question : UInt16) (depValues : List UInt32) : List IfrOp :=
  if depValues.length ≠ 0 then
    [.suppressIf,
      .eqIdValList (BitVec.ofNat 7 (eqIdValListSize depValues.length)) question
        (UInt16.ofNat depValues.length) (depValues.map UInt32.toUInt16),
      .notOp, .endOp]
  else [.suppressIf, .eqIdVal question 0, .endOp]

/-- Opcodes before and one `END` after, if they are wanted. Kind: D -/
def enclose (wanted : Bool) (opening body : List IfrOp) : List IfrOp :=
  if wanted then opening ++ body ++ [.endOp] else body

/-- A statement inside what its option's dependency and flags ask for. Kind: D -/
def guarded (h : OptionHeader) (depValues : List UInt32) (statement : IfrOp) : List IfrOp :=
  enclose (h.dependencyId != 0)
      (cfrProduceHiiForDependency (questionId h.dependencyId) depValues) <|
    enclose (h.has flagSuppress) (cfrProduceHiiForFlags false) <|
      enclose (h.has flagInactive) (cfrProduceHiiForFlags true) [statement]

/-- `sizeof (EFI_IFR_VARSTORE)`, with the end of the name. Kind: D -/
def varStoreSize : ℕ := 23

/-- What an option with a name asks the variable driver for. Kind: D -/
def OptionHeader.request (h : OptionHeader) (name : Text) (initial : List UInt8) : Request :=
  ⟨name, ⟨!h.has flagVolatile, h.has flagRuntime, initial⟩, h.has flagReadOnly⟩

/-- Source: `SetupMenuCfr.c` `CfrProduceStorageForOption`
Kind: D -/
def cfrProduceStorageForOption (fw : Firmware) (name : VarBinary) (initial : List UInt8)
    (h : OptionHeader) (m : Menu) : Except Stop Menu := do
  let text ← require name.text?
  let vars ← produceVariable fw.toServices (h.request text initial) m.vars
  if varStoreSize + text.length > 0x7F then .error .assert
  -- `CopyMem` of the whole record into room for its text
  else if name.data.length > text.length + 1 then .error .overrun
  else .ok (Menu.emit { m with vars }
    [.varStore (questionId h.objectId) (UInt16.ofNat initial.length) name.data])

/-- Source: `SetupMenuCfr.c` `CfrProcessFormOption`
Kind: D -/
def cfrProcessFormOption (fw : Firmware) (f : FormOption) (m : Menu) : Except Stop Menu := do
  let (name, m) ← cfrConvertVarBinaryToStrings fw f.name m
  return m.emit (guarded f.header (depValuesOf f.depValues)
    (.subtitle name (fw.token fw.emptyString)))

/-- The help text's string, or the empty one. Kind: D -/
def helpString (fw : Firmware) (help : Option VarBinary) (m : Menu) :
    Except Stop (StringId × Menu) :=
  match help with
  | none => .ok (fw.token fw.emptyString, m)
  | some v => cfrConvertVarBinaryToStrings fw v m

/-- The options of an enumeration, one after the other. Kind: D -/
def enumOptions (fw : Firmware) :
    List EnumValue → Menu → Except Stop (List (StringId × UInt32) × Menu)
  | [], m => .ok ([], m)
  | e :: values, m => do
      let (name, m) ← cfrConvertVarBinaryToStrings fw e.uiName m
      let (options, m) ← enumOptions fw values m
      return ((name, e.value) :: options, m)

/-- The question of an option. Kind: D -/
def OptionHeader.question (h : OptionHeader) (prompt help : StringId) : Question :=
  ⟨questionId h.objectId, questionId h.objectId, prompt, help, h.has flagReadOnly⟩

/-- `CFR_NUM_OPT_DISPFLAG_HEX`. Kind: D -/
def displayHex : UInt32 := 1

/-- The statement of a numeric option. Kind: D -/
def numericStatement (fw : Firmware) (o : NumericOption) (question : Question) (m : Menu) :
    Except Stop (IfrOp × Menu) :=
  match o.kind with
  | .enum => (enumOptions fw o.enumValues m).map fun r =>
      (.oneOf question r.1 o.defaultValue, r.2)
  | .number => .ok (.numeric question (o.displayFlags &&& displayHex != 0) o.min o.max o.step
      o.defaultValue, m)
  | .bool => .ok (.oneOf question [(fw.token fw.boolEnabled, 1), (fw.token fw.boolDisabled, 0)]
      o.defaultValue, m)

/-- Source: `SetupMenuCfr.c` `CfrProcessNumericOption`
Kind: D -/
def cfrProcessNumericOption (fw : Firmware) (o : NumericOption) (m : Menu) : Except Stop Menu := do
  let m ← cfrProduceStorageForOption fw o.name (le32 o.defaultValue) o.header m
  let (prompt, m) ← cfrConvertVarBinaryToStrings fw o.displayName m
  let (help, m) ← helpString fw o.helpText m
  let (statement, m) ← numericStatement fw o (o.header.question prompt help) m
  return m.emit (guarded o.header (depValuesOf o.depValues) statement)

/-- The characters of a record. Kind: D -/
def VarBinary.text (v : VarBinary) : Text := v.text?.getD []

/-- The characters of the default of a string option, with the end: its text, or
`STR_INVALID_STRING` if it is empty. What stands behind the end of the text was never written.
Kind: D -/
def defaultChars (fw : Firmware) (defaultValue : VarBinary) : List UInt16 :=
  if defaultValue.data.length > 1 then
    defaultValue.text ++
      0 :: (List.range (defaultValue.data.length - (defaultValue.text.length + 1))).map fw.pool
  else fw.strings.get fw.invalidString ++ [0]

/-- The string of the default. Kind: D -/
def defaultString (fw : Firmware) (defaultValue : VarBinary) (m : Menu) :
    Except Stop (StringId × Menu) :=
  if defaultValue.data.length > 1 then cfrConvertVarBinaryToStrings fw defaultValue m
  else .ok (fw.token fw.invalidString, m)

/-- `CHAR16`s as they stand in memory. Kind: D -/
def le16s (text : List UInt16) : List UInt8 :=
  text.flatMap fun (c : UInt16) => [c.toUInt8, (c >>> 8).toUInt8]

/-- The statement of a string or a comment, with its strings. Kind: D -/
def characterStatement (fw : Firmware) (o : CharacterOption)
    (statement : StringId → StringId → IfrOp) (m : Menu) : Except Stop Menu := do
  let (prompt, m) ← cfrConvertVarBinaryToStrings fw o.displayName m
  let (help, m) ← helpString fw o.helpText m
  return m.emit (guarded o.header (depValuesOf o.depValues) (statement prompt help))

/-- Source: `SetupMenuCfr.c` `CfrProcessCharacterOption`
Kind: D -/
def cfrProcessCharacterOption (fw : Firmware) (o : CharacterOption) (m : Menu) :
    Except Stop Menu :=
  match o.storage with
  | none => characterStatement fw o .text m
  | some (defaultValue, name) => do
      let (id, m) ← defaultString fw defaultValue m
      let m ← cfrProduceStorageForOption fw name (le16s (defaultChars fw defaultValue)) o.header m
      let size := UInt8.ofNat ((defaultChars fw defaultValue).length - 1)
      characterStatement fw o
        (fun prompt help => .string (o.header.question prompt help) size size id) m

/-- One record of a form. Kind: D -/
def processItem (fw : Firmware) : CfrItem → Menu → Except Stop Menu
  | .form f => cfrProcessFormOption fw f
  | .numeric o => cfrProcessNumericOption fw o
  | .character o => cfrProcessCharacterOption fw o

/-- The records of a form, in their order. Kind: D -/
def processItems (fw : Firmware) : List CfrItem → Menu → Except Stop Menu
  | [], m => .ok m
  | item :: items, m => (processItem fw item m).bind (processItems fw items)

/-- A form with its records, and the empty line behind it. Kind: D -/
def processForm (fw : Firmware) (form : FormOption × List CfrItem) (m : Menu) :
    Except Stop Menu := do
  let m ← cfrProcessFormOption fw form.1 m
  let m ← processItems fw form.2 m
  return m.emit [.subtitle (fw.token fw.emptyString) 0]

/-- Each form HOB in turn. Kind: D -/
def processHobs (fw : Firmware) : List (ℕ → UInt8) → Menu → Except Stop Menu
  | [], m => .ok m
  | hob :: hobs, m => do
      let form ← readForm hob
      let m ← processForm fw form m
      processHobs fw hobs m

/-- `LABEL_RT_COMP_START`. Kind: D -/
def labelStart : UInt16 := 0x0001

/-- Source: `SetupMenuCfr.c` `CfrCreateRuntimeComponents`
Kind: D -/
def cfrCreateRuntimeComponents (fw : Firmware) (hobs : List (ℕ → UInt8)) (vars : Variables) :
    Except Stop Menu :=
  processHobs fw hobs ⟨[], vars, [.label labelStart]⟩

/-! ### Lines -/

/-- The part of a line the user works with. Kind: D -/
inductive Control where
  | title
  | note
  | choice (options : List (Text × UInt32)) (default : UInt32)
  | number (hex : Bool) (min max step default : UInt32)
  | text (minSize maxSize : UInt8)
  deriving DecidableEq, Repr

/-- A line of the menu as the user sees it, and the question it answers. Kind: D -/
structure Line where
  prompt : Text
  help : Text
  control : Control
  question : Option UInt16
  readOnly : Bool
  grayed : Bool
  deriving DecidableEq, Repr

/-- The text of a help record, or the empty string. Kind: D -/
def helpTextOf (fw : Firmware) (help : Option VarBinary) : Text :=
  help.elim (fw.strings.get fw.emptyString) VarBinary.text

/-- What a numeric option offers. Kind: D -/
def NumericOption.control (fw : Firmware) (o : NumericOption) : Control :=
  match o.kind with
  | .enum => .choice (o.enumValues.map fun e => (e.uiName.text, e.value)) o.defaultValue
  | .number => .number (o.displayFlags &&& displayHex != 0) o.min o.max o.step o.defaultValue
  | .bool => .choice [(fw.strings.get fw.boolEnabled, 1), (fw.strings.get fw.boolDisabled, 0)]
      o.defaultValue

/-- The header and the dependency values of a record. Kind: D -/
def CfrItem.header : CfrItem → OptionHeader
  | .form f => f.header
  | .numeric o => o.header
  | .character o => o.header

@[inherit_doc CfrItem.header]
def CfrItem.depValues : CfrItem → List UInt32
  | .form f => depValuesOf f.depValues
  | .numeric o => depValuesOf o.depValues
  | .character o => depValuesOf o.depValues

/-- The line of a record when it is shown. Kind: D -/
def CfrItem.line (fw : Firmware) : CfrItem → Line
  | .form f => ⟨f.name.text, fw.strings.get fw.emptyString, .title, none, false, false⟩
  | .numeric o => ⟨o.displayName.text, helpTextOf fw o.helpText, o.control fw,
      some (questionId o.header.objectId), o.header.has flagReadOnly, false⟩
  | .character o =>
      match o.storage with
      | none => ⟨o.displayName.text, helpTextOf fw o.helpText, .note, none, false, false⟩
      | some (defaultValue, _) =>
          let size := UInt8.ofNat ((defaultChars fw defaultValue).length - 1)
          ⟨o.displayName.text, helpTextOf fw o.helpText, .text size size,
            some (questionId o.header.objectId), o.header.has flagReadOnly, false⟩

/-- What a record asks the variable driver for. Kind: D -/
def CfrItem.request? (fw : Firmware) : CfrItem → Option Request
  | .form _ => none
  | .numeric o => some (o.header.request o.name.text (le32 o.defaultValue))
  | .character o => o.storage.map fun s =>
      o.header.request s.2.text (le16s (defaultChars fw s.1))

/-- The line of a statement, with the texts of its strings; `none` for other opcodes and for
strings that do not exist. Kind: D -/
def IfrOp.line? (text : StringId → Option Text) (grayed : Bool) : IfrOp → Option Line
  | .subtitle prompt help => do
      return ⟨← text prompt, ← text help, .title, none, false, grayed⟩
  | .text prompt help => do
      return ⟨← text prompt, ← text help, .note, none, false, grayed⟩
  | .oneOf q options default => do
      let options ← options.mapM fun o => (text o.1).map (·, o.2)
      return ⟨← text q.prompt, ← text q.help, .choice options default, some q.questionId,
        q.readOnly, grayed⟩
  | .numeric q hex min max step default => do
      return ⟨← text q.prompt, ← text q.help, .number hex min max step default,
        some q.questionId, q.readOnly, grayed⟩
  | .string q minSize maxSize _ => do
      return ⟨← text q.prompt, ← text q.help, .text minSize maxSize, some q.questionId,
        q.readOnly, grayed⟩
  | _ => none

/-- The opcodes that show something. Kind: D -/
def IfrOp.IsStatement : IfrOp → Prop
  | .subtitle _ _ | .text _ _ | .oneOf _ _ _ | .numeric _ _ _ _ _ _ | .string _ _ _ _ => True
  | _ => False

/-! ### Strings -/

lemma Firmware.text_mono {fw : Firmware} {added added' : List Text} {id : StringId} {t : Text}
    (hle : added <+: added') (h : fw.text added id = some t) : fw.text added' id = some t := by
  cases id with
  | zero => exact h
  | succ id =>
      obtain ⟨more, rfl⟩ := hle
      rw [Firmware.text, ← List.append_assoc]
      exact List.getElem?_append_left (List.getElem?_eq_some_iff.mp h).1 ▸ h

@[simp] theorem Firmware.text_zero (fw : Firmware) (added : List Text) :
    fw.text added 0 = some [] := rfl

@[simp] theorem Firmware.text_token (fw : Firmware) (added : List Text)
    (i : Fin fw.strings.length) : fw.text added (fw.token i) = some (fw.strings.get i) := by
  rw [Firmware.token, Firmware.text, List.getElem?_append_left i.isLt]
  simp

/-- From `m` to `m'` only strings were added. Kind: D -/
structure OnlyStrings (m m' : Menu) : Prop where
  ops : m'.ops = m.ops
  vars : m'.vars = m.vars
  strings : m.added <+: m'.added

lemma OnlyStrings.refl (m : Menu) : OnlyStrings m m := ⟨rfl, rfl, List.prefix_rfl⟩

lemma OnlyStrings.trans {m m' m'' : Menu} (h : OnlyStrings m m') (h' : OnlyStrings m' m'') :
    OnlyStrings m m'' :=
  ⟨h'.ops.trans h.ops, h'.vars.trans h.vars, h.strings.trans h'.strings⟩

/-- `id` is the id of `t` in `m`, and in whatever is made from it. Kind: D -/
def Names (fw : Firmware) (m : Menu) (id : StringId) (t : Text) : Prop :=
  ∀ added, m.added <+: added → fw.text added id = some t

lemma Names.mono {fw : Firmware} {m m' : Menu} {id : StringId} {t : Text} (h : Names fw m id t)
    (hle : m.added <+: m'.added) : Names fw m' id t :=
  fun added hadded => h added (hle.trans hadded)

lemma names_token (fw : Firmware) (m : Menu) (i : Fin fw.strings.length) :
    Names fw m (fw.token i) (fw.strings.get i) :=
  fun added _ => fw.text_token added i

lemma addString_spec (fw : Firmware) (m : Menu) (t : Text) :
    OnlyStrings m (m.addString fw t).2 ∧ Names fw (m.addString fw t).2 (m.addString fw t).1 t := by
  refine ⟨⟨rfl, rfl, List.prefix_append _ _⟩, fun added hle => ?_⟩
  apply Firmware.text_mono hle
  simp [Menu.addString, Firmware.text, ← List.append_assoc]

lemma require_eq_ok {α : Type*} {x : Option α} {a : α} : require x = .ok a ↔ x = some a := by
  cases x <;> simp [require]

lemma VarBinary.text_of_eq_some {v : VarBinary} {t : Text} (h : v.text? = some t) : v.text = t := by
  rw [VarBinary.text, h, Option.getD_some]

/-- Source: `SetupMenuCfr.c` `CfrConvertVarBinaryToStrings`. Kind: L -/
theorem convert_spec {fw : Firmware} {v : VarBinary} {m m' : Menu} {id : StringId}
    (h : cfrConvertVarBinaryToStrings fw v m = .ok (id, m')) :
    OnlyStrings m m' ∧ Names fw m' id v.text := by
  obtain ⟨t, ht, hadd⟩ := map_eq_ok.mp h
  rw [VarBinary.text_of_eq_some (require_eq_ok.mp ht)]
  have hspec := addString_spec fw m t
  rw [hadd] at hspec
  exact hspec

/-- The help string, whether there is one or not. Kind: L -/
theorem helpString_spec {fw : Firmware} {help : Option VarBinary} {m m' : Menu} {id : StringId}
    (h : helpString fw help m = .ok (id, m')) :
    OnlyStrings m m' ∧ Names fw m' id (helpTextOf fw help) := by
  cases help with
  | none =>
      injection h with h
      injection h with hid hm
      subst hid hm
      exact ⟨OnlyStrings.refl _, names_token fw _ _⟩
  | some v => exact convert_spec h

/-- The strings of an enumeration, by induction on its values. Kind: L -/
theorem enumOptions_spec {fw : Firmware} {values : List EnumValue} {m m' : Menu}
    {options : List (StringId × UInt32)} (h : enumOptions fw values m = .ok (options, m')) :
    OnlyStrings m m' ∧ ∀ added, m'.added <+: added →
      options.mapM (fun o => (fw.text added o.1).map (·, o.2)) =
        some (values.map fun e => (e.uiName.text, e.value)) := by
  induction values generalizing m options with
  | nil =>
      injection h with h
      injection h with hoptions hm
      subst hoptions hm
      exact ⟨OnlyStrings.refl _, fun _ _ => rfl⟩
  | cons e values ih =>
      rw [enumOptions, bind_eq_ok] at h
      obtain ⟨⟨id, m₁⟩, hname, h⟩ := h
      rw [bind_eq_ok] at h
      obtain ⟨⟨rest, m₂⟩, hrest, h⟩ := h
      injection h with h
      injection h with hoptions hm
      subst hoptions hm
      obtain ⟨honly, hid⟩ := convert_spec hname
      obtain ⟨honly', hrest⟩ := ih hrest
      refine ⟨honly.trans honly', fun added hadded => ?_⟩
      rw [List.mapM_cons, hid.mono honly'.strings added hadded, hrest added hadded]
      rfl

/-! ### What the pass over a record can do -/

/-- The request of a record, if it has one, is carried out. Kind: D -/
def Stores (services : Services) (request : Option Request) (vars vars' : Variables) : Prop :=
  match request with
  | none => vars' = vars
  | some request => produceVariable services request vars = .ok vars'

/-- All that the pass over `item` does. Kind: D -/
structure Emits (fw : Firmware) (item : CfrItem) (m m' : Menu) : Prop where
  strings : m.added <+: m'.added
  vars : Stores fw.toServices (item.request? fw) m.vars m'.vars
  shape : ∃ front statement,
    m'.ops = m.ops ++ (front ++ guarded item.header item.depValues statement) ∧
    (∀ op ∈ front, op.Sized) ∧ (∀ value, Silent value front) ∧ statement.IsStatement ∧
    ∀ added, m'.added <+: added → ∀ grayed,
      statement.line? (fw.text added) grayed = some { item.line fw with grayed }

variable {fw : Firmware}

lemma sized_nil : ∀ op ∈ ([] : List IfrOp), op.Sized := fun _ h => absurd h List.not_mem_nil

lemma silent_nil (value : UInt16 → ℕ) : Silent value [] := by
  intro b _
  rw [Reading.run_nil]

/-- The storage of an option: a variable, and an opcode that is not seen in the menu. Kind: L -/
theorem storage_spec {name : VarBinary} {initial : List UInt8} {h : OptionHeader} {m m' : Menu}
    (hok : cfrProduceStorageForOption fw name initial h m = .ok m') :
    m'.added = m.added ∧
      produceVariable fw.toServices (h.request name.text initial) m.vars = .ok m'.vars ∧
      ∃ front, m'.ops = m.ops ++ front ∧ (∀ op ∈ front, op.Sized) ∧
        ∀ value, Silent value front := by
  simp only [cfrProduceStorageForOption, bind_eq_ok] at hok
  obtain ⟨text, htext, vars, hvars, hok⟩ := hok
  split at hok
  · exact nomatch hok
  · split at hok
    · exact nomatch hok
    · injection hok with hok
      subst hok
      rw [VarBinary.text_of_eq_some (require_eq_ok.mp htext)]
      refine ⟨rfl, hvars, _, rfl, by simp [IfrOp.Sized], fun value b hb => ?_⟩
      simp [Reading.step, hb, Reading.statement]

/-- The statement of a numeric option is what the option offers. Kind: L -/
theorem numericStatement_spec {o : NumericOption} {q : Question} {m m' : Menu} {st : IfrOp}
    (hok : numericStatement fw o q m = .ok (st, m')) :
    OnlyStrings m m' ∧ st.IsStatement ∧ ∀ added, m'.added <+: added → ∀ prompt help grayed,
      fw.text added q.prompt = some prompt → fw.text added q.help = some help →
      st.line? (fw.text added) grayed =
        some ⟨prompt, help, o.control fw, some q.questionId, q.readOnly, grayed⟩ := by
  rw [numericStatement] at hok
  rw [NumericOption.control]
  cases hkind : o.kind with
  | enum =>
      rw [hkind] at hok
      obtain ⟨⟨options, m₁⟩, henum, hok⟩ := map_eq_ok.mp hok
      injection hok with hst hm
      subst hst hm
      obtain ⟨honly, hoptions⟩ := enumOptions_spec henum
      refine ⟨honly, trivial, fun added hadded prompt help grayed hprompt hhelp => ?_⟩
      simp [IfrOp.line?, hoptions added hadded, hprompt, hhelp]
  | number =>
      rw [hkind] at hok
      injection hok with hok
      injection hok with hst hm
      subst hst hm
      refine ⟨OnlyStrings.refl _, trivial, fun added _ prompt help grayed hprompt hhelp => ?_⟩
      simp [IfrOp.line?, hprompt, hhelp]
  | bool =>
      rw [hkind] at hok
      injection hok with hok
      injection hok with hst hm
      subst hst hm
      refine ⟨OnlyStrings.refl _, trivial, fun added _ prompt help grayed hprompt hhelp => ?_⟩
      simp [IfrOp.line?, hprompt, hhelp]

lemma form_emits {f : FormOption} {m m' : Menu} (hok : cfrProcessFormOption fw f m = .ok m') :
    Emits fw (.form f) m m' := by
  rw [cfrProcessFormOption, bind_eq_ok] at hok
  obtain ⟨⟨id, m₁⟩, hname, hok⟩ := hok
  injection hok with hok
  subst hok
  obtain ⟨honly, hid⟩ := convert_spec hname
  refine ⟨honly.strings, honly.vars, [], .subtitle id (fw.token fw.emptyString), ?_, sized_nil,
    silent_nil, trivial, ?_⟩
  · rw [List.nil_append, Menu.emit, honly.ops]
    rfl
  · intro added hadded grayed
    simp [IfrOp.line?, CfrItem.line, hid added hadded]

lemma numeric_emits {o : NumericOption} {m m' : Menu}
    (hok : cfrProcessNumericOption fw o m = .ok m') : Emits fw (.numeric o) m m' := by
  simp only [cfrProcessNumericOption, bind_eq_ok] at hok
  obtain ⟨m₁, hstorage, ⟨prompt, m₂⟩, hprompt, ⟨help, m₃⟩, hhelp, ⟨st, m₄⟩, hst, hok⟩ := hok
  injection hok with hok
  subst hok
  obtain ⟨hadded₁, hvars₁, front, hfront, hsized, hsilent⟩ := storage_spec hstorage
  obtain ⟨honly₂, hprompt⟩ := convert_spec hprompt
  obtain ⟨honly₃, hhelp⟩ := helpString_spec hhelp
  obtain ⟨honly₄, hstatement, hline⟩ := numericStatement_spec hst
  have honly := honly₂.trans (honly₃.trans honly₄)
  refine ⟨hadded₁ ▸ honly.strings, ?_, front, st, ?_, hsized, hsilent, hstatement, ?_⟩
  · exact hvars₁.trans (congrArg Except.ok honly.vars.symm)
  · rw [Menu.emit, honly.ops, hfront, List.append_assoc]
    rfl
  · intro added hadded grayed
    exact hline added hadded _ _ grayed
      (hprompt.mono (honly₃.trans honly₄).strings added hadded)
      (hhelp.mono honly₄.strings added hadded)

/-- A string or a comment, once its storage is there. Kind: L -/
theorem characterStatement_spec {o : CharacterOption} {statement : StringId → StringId → IfrOp}
    {m m' : Menu} (hok : characterStatement fw o statement m = .ok m') :
    m.added <+: m'.added ∧ m'.vars = m.vars ∧ ∃ prompt help,
      m'.ops = m.ops ++ guarded o.header (depValuesOf o.depValues) (statement prompt help) ∧
      Names fw m' prompt o.displayName.text ∧ Names fw m' help (helpTextOf fw o.helpText) := by
  simp only [characterStatement, bind_eq_ok] at hok
  obtain ⟨⟨prompt, m₁⟩, hprompt, ⟨help, m₂⟩, hhelp, hok⟩ := hok
  injection hok with hok
  subst hok
  obtain ⟨honly₁, hprompt⟩ := convert_spec hprompt
  obtain ⟨honly₂, hhelp⟩ := helpString_spec hhelp
  have honly := honly₁.trans honly₂
  refine ⟨honly.strings, honly.vars, prompt, help, ?_, hprompt.mono honly₂.strings, hhelp⟩
  rw [Menu.emit, honly.ops]

lemma defaultString_spec {defaultValue : VarBinary} {m m' : Menu} {id : StringId}
    (hok : defaultString fw defaultValue m = .ok (id, m')) : OnlyStrings m m' := by
  rw [defaultString] at hok
  split at hok
  · exact (convert_spec hok).1
  · injection hok with hok
    injection hok with hid hm
    exact hm ▸ OnlyStrings.refl m

lemma character_emits {o : CharacterOption} {m m' : Menu}
    (hok : cfrProcessCharacterOption fw o m = .ok m') : Emits fw (.character o) m m' := by
  rw [cfrProcessCharacterOption] at hok
  cases hcase : o.storage with
  | none =>
      rw [hcase] at hok
      obtain ⟨hstrings, hvars, prompt, help, hops, hprompt, hhelp⟩ := characterStatement_spec hok
      refine ⟨hstrings, ?_, [], _, hops, sized_nil, silent_nil, trivial, ?_⟩
      · simpa [CfrItem.request?, hcase, Stores] using hvars
      · intro added hadded grayed
        simp [IfrOp.line?, CfrItem.line, hcase, hprompt added hadded, hhelp added hadded]
  | some storage =>
      obtain ⟨defaultValue, name⟩ := storage
      rw [hcase] at hok
      simp only [bind_eq_ok] at hok
      obtain ⟨⟨id, m₁⟩, hdefault, m₂, hstorage, hok⟩ := hok
      have honly := defaultString_spec hdefault
      obtain ⟨hadded₂, hvars₂, front, hfront, hsized, hsilent⟩ := storage_spec hstorage
      obtain ⟨hstrings, hvars, prompt, help, hops, hprompt, hhelp⟩ := characterStatement_spec hok
      rw [hadded₂] at hstrings
      rw [hfront, honly.ops, List.append_assoc] at hops
      refine ⟨honly.strings.trans hstrings, ?_, front, _, hops, hsized, hsilent, trivial, ?_⟩
      · simp only [CfrItem.request?, hcase, Option.map_some, Stores]
        rw [← honly.vars, hvars₂, hvars]
      · intro added hadded grayed
        simp [IfrOp.line?, CfrItem.line, hcase, OptionHeader.question, hprompt added hadded,
          hhelp added hadded]

/-- Whatever the record, the pass over it does no more than this. Kind: P -/
theorem item_emits {item : CfrItem} {m m' : Menu} (hok : processItem fw item m = .ok m') :
    Emits fw item m m' := by
  cases item with
  | form f => exact form_emits hok
  | numeric o => exact numeric_emits hok
  | character o => exact character_emits hok

/-! ### When the pass over a record succeeds -/

/-- The record holds a text: there is an end to it. Kind: D -/
def VarBinary.IsText (v : VarBinary) : Prop := 0 ∈ v.data

/-- The record holds a name a `varstore` has room for: nothing behind its end, and at most 104
characters. Kind: D -/
def VarBinary.IsName (v : VarBinary) : Prop :=
  v.IsText ∧ v.data.length = v.text.length + 1 ∧ v.text.length ≤ 104

/-- The texts of an option are texts, its name is a name, and its variable can be written.
Kind: D -/
def CfrItem.Proper (fw : Firmware) : CfrItem → Prop
  | .form f => f.name.IsText
  | .numeric o => o.name.IsName ∧ fw.canWrite o.name.text ∧ o.displayName.IsText ∧
      (∀ help ∈ o.helpText, help.IsText) ∧ ∀ e ∈ o.enumValues, e.uiName.IsText
  | .character o => o.displayName.IsText ∧ (∀ help ∈ o.helpText, help.IsText) ∧
      ∀ s ∈ o.storage, (s.1.data.length ≤ 1 ∨ s.1.IsText) ∧ s.2.IsName ∧ fw.canWrite s.2.text

lemma VarBinary.IsText.text? {v : VarBinary} (h : v.IsText) : v.text? = some v.text := by
  rw [VarBinary.IsText] at h
  rw [VarBinary.text, VarBinary.text?, if_pos h, Option.getD_some]

lemma convert_ok (fw : Firmware) {v : VarBinary} (h : v.IsText) (m : Menu) :
    ∃ r, cfrConvertVarBinaryToStrings fw v m = .ok r :=
  ⟨_, by rw [cfrConvertVarBinaryToStrings, h.text?]; rfl⟩

lemma helpString_ok (fw : Firmware) {help : Option VarBinary} (h : ∀ v ∈ help, v.IsText)
    (m : Menu) : ∃ r, helpString fw help m = .ok r := by
  cases help with
  | none => exact ⟨_, rfl⟩
  | some v => exact convert_ok fw (h v rfl) m

lemma enumOptions_ok (fw : Firmware) {values : List EnumValue}
    (h : ∀ e ∈ values, e.uiName.IsText) (m : Menu) : ∃ r, enumOptions fw values m = .ok r := by
  induction values generalizing m with
  | nil => exact ⟨_, rfl⟩
  | cons e values ih =>
      obtain ⟨r, hr⟩ := convert_ok fw (h e List.mem_cons_self) m
      obtain ⟨r', hr'⟩ := ih (fun e he => h e (List.mem_cons_of_mem _ he)) r.2
      exact ⟨_, by rw [enumOptions]; exact bind_eq_ok.mpr ⟨r, hr, bind_eq_ok.mpr ⟨r', hr', rfl⟩⟩⟩

lemma numericStatement_ok (fw : Firmware) {o : NumericOption}
    (h : ∀ e ∈ o.enumValues, e.uiName.IsText) (q : Question) (m : Menu) :
    ∃ r, numericStatement fw o q m = .ok r := by
  rw [numericStatement]
  cases o.kind with
  | enum =>
      obtain ⟨r, hr⟩ := enumOptions_ok fw h m
      exact ⟨_, by rw [hr]; rfl⟩
  | number => exact ⟨_, rfl⟩
  | bool => exact ⟨_, rfl⟩

lemma storage_ok (fw : Firmware) {name : VarBinary} {initial : List UInt8} {h : OptionHeader}
    {m : Menu} (hname : name.IsName) (hwrite : fw.canWrite name.text) (hsound : m.vars.Sound) :
    ∃ m', cfrProduceStorageForOption fw name initial h m = .ok m' := by
  obtain ⟨htext, hend, hshort⟩ := hname
  obtain ⟨vars, hvars⟩ : ∃ vars,
      produceVariable fw.toServices (h.request name.text initial) m.vars = .ok vars := by
    apply produceVariable_ok
    by_cases hget : m.vars.get name.text = none
    · right
      refine ⟨hwrite, ?_⟩
      by_contra hlocked
      exact hsound name.text (Bool.of_not_eq_false hlocked) hget
    · exact .inl hget
  simp only [cfrProduceStorageForOption, htext.text?, require, bind, Except.bind, hvars]
  rw [if_neg (by rw [varStoreSize]; omega), if_neg (by omega)]
  exact ⟨_, rfl⟩

lemma characterStatement_ok (fw : Firmware) {o : CharacterOption}
    {statement : StringId → StringId → IfrOp} (hdisplay : o.displayName.IsText)
    (hhelp : ∀ help ∈ o.helpText, help.IsText) (m : Menu) :
    ∃ m', characterStatement fw o statement m = .ok m' := by
  obtain ⟨r, hr⟩ := convert_ok fw hdisplay m
  obtain ⟨r', hr'⟩ := helpString_ok fw hhelp r.2
  exact ⟨_, bind_eq_ok.mpr ⟨r, hr, bind_eq_ok.mpr ⟨r', hr', rfl⟩⟩⟩

lemma defaultString_ok (fw : Firmware) {defaultValue : VarBinary}
    (h : defaultValue.data.length ≤ 1 ∨ defaultValue.IsText) (m : Menu) :
    ∃ r, defaultString fw defaultValue m = .ok r := by
  rw [defaultString]
  split
  · exact convert_ok fw (h.resolve_left (by omega)) m
  · exact ⟨_, rfl⟩

/-- A proper record does not stop the driver. Kind: P -/
theorem item_ok {item : CfrItem} {m : Menu} (hproper : item.Proper fw) (hsound : m.vars.Sound) :
    ∃ m', processItem fw item m = .ok m' := by
  cases item with
  | form f =>
      obtain ⟨r, hr⟩ := convert_ok fw hproper m
      exact ⟨_, bind_eq_ok.mpr ⟨r, hr, rfl⟩⟩
  | numeric o =>
      obtain ⟨hname, hwrite, hdisplay, hhelp, henum⟩ := hproper
      obtain ⟨m₁, h₁⟩ := storage_ok fw hname hwrite hsound
      obtain ⟨r₂, h₂⟩ := convert_ok fw hdisplay m₁
      obtain ⟨r₃, h₃⟩ := helpString_ok fw hhelp r₂.2
      obtain ⟨r₄, h₄⟩ := numericStatement_ok fw henum (o.header.question r₂.1 r₃.1) r₃.2
      exact ⟨_, bind_eq_ok.mpr ⟨m₁, h₁, bind_eq_ok.mpr ⟨r₂, h₂, bind_eq_ok.mpr ⟨r₃, h₃,
        bind_eq_ok.mpr ⟨r₄, h₄, rfl⟩⟩⟩⟩⟩
  | character o =>
      obtain ⟨hdisplay, hhelp, hstorage⟩ := hproper
      rw [processItem, cfrProcessCharacterOption]
      cases hcase : o.storage with
      | none => exact characterStatement_ok fw hdisplay hhelp m
      | some storage =>
          obtain ⟨hdefault, hname, hwrite⟩ := hstorage storage hcase
          obtain ⟨r₁, h₁⟩ := defaultString_ok fw hdefault m
          have hvars : r₁.2.vars = m.vars := (defaultString_spec h₁).vars
          obtain ⟨m₂, h₂⟩ := storage_ok fw hname hwrite (hvars ▸ hsound)
          obtain ⟨m₃, h₃⟩ := characterStatement_ok fw hdisplay hhelp m₂
          exact ⟨m₃, bind_eq_ok.mpr ⟨r₁, h₁, bind_eq_ok.mpr ⟨m₂, h₂, h₃⟩⟩⟩

/-- Only existing variables are locked after a pass, if it was so before. Kind: L -/
theorem Emits.sound {item : CfrItem} {m m' : Menu} (h : Emits fw item m m')
    (hsound : m.vars.Sound) : m'.vars.Sound := by
  have hvars := h.vars
  cases hrequest : item.request? fw with
  | none =>
      rw [hrequest] at hvars
      exact hvars ▸ hsound
  | some request =>
      rw [hrequest] at hvars
      exact (produced_of_eq_ok hvars).sound hsound

end NucBios.Setup
