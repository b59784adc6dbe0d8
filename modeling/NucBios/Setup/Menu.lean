import NucBios.Setup.Compile

/-!
# What the setup menu shows

The meaning of option records is `menuLines`: which lines a menu has for given values of the
questions, written without opcodes, scopes or string ids. A record is shown unless it is suppressed
or its dependency fails; it is shown gray if it is inactive. `Menu.drawn` is what a browser makes
of what the driver has produced.

* `menu_of_records`: proper records in memory give a menu for which every browser draws exactly
  their lines, whatever the values of the questions are;
* `menu_wellFormed_iff`: the opcodes are well-formed exactly if no record depends on more than sixty
  values; with more, the seven bits of an opcode's length do not hold its size.
-/

namespace NucBios.Setup

open NucBios.Lib NucBios.Uefi

/-! ### What the records mean -/

/-- An option is shown unless it is suppressed or its dependency fails: without a list of values
the option it depends on must not be zero, with a list its value must be one of them. Kind: D -/
def OptionHeader.shown (value : UInt16 → ℕ) (h : OptionHeader) (depValues : List ℕ) : Bool :=
  !h.has flagSuppress &&
    (h.dependencyId == 0 ||
      if depValues = [] then decide (value (questionId h.dependencyId) ≠ 0)
      else decide (value (questionId h.dependencyId) ∈ depValues))

/-- The lines of one record. Kind: D -/
def itemLines (fw : Firmware) (value : UInt16 → ℕ) (item : CfrItem) : List Line :=
  if item.header.shown value (item.depValues.map UInt32.toNat) then
    [{ item.line fw with grayed := item.header.has flagInactive }]
  else []

/-- The lines of a form: its title, its options, and an empty line. Kind: D -/
def formLines (fw : Firmware) (value : UInt16 → ℕ) (form : FormOption × List CfrItem) : List Line :=
  itemLines fw value (.form form.1) ++ form.2.flatMap (itemLines fw value) ++
    [⟨fw.strings.get fw.emptyString, [], .title, none, false, false⟩]

/-- The lines of the menu. Kind: D -/
def menuLines (fw : Firmware) (value : UInt16 → ℕ) (forms : List (FormOption × List CfrItem)) :
    List Line :=
  forms.flatMap (formLines fw value)

/-- The menu on the screen: the opcodes drawn by the browser, with the strings of the driver.
Kind: D -/
def Menu.drawn (fw : Firmware) (browser : Browser) (value : UInt16 → ℕ) (m : Menu) :
    Option (List Line) := do
  let entries ← browser.draw value m.ops
  entries.mapM fun e => e.statement.line? (fw.text m.added) e.grayed

/-! ### A statement under its conditions -/

variable {fw : Firmware} {value : UInt16 → ℕ}

/-- The values of a dependency, as the opcode holds them. Kind: D -/
def opcodeValues (depValues : List UInt32) : List ℕ :=
  depValues.map fun d => d.toUInt16.toNat

/-- The condition of a dependency holds when the option is to be hidden. Kind: L -/
theorem means_dependency (question : UInt16) (depValues : List UInt32) :
    Means value (cfrProduceHiiForDependency question depValues).tail
      (!if opcodeValues depValues = [] then decide (value question ≠ 0)
        else decide (value question ∈ opcodeValues depValues)) := by
  intro b gray hb
  by_cases hempty : depValues = []
  · subst hempty
    simp [cfrProduceHiiForDependency, opcodeValues, Reading.step, hb, Reading.push]
  · have hne : depValues.length ≠ 0 := by simpa using hempty
    rw [cfrProduceHiiForDependency, if_pos hne, List.tail_cons]
    simp [opcodeValues, Reading.step, hb, Reading.push, hempty]

lemma shows_statement {op : IfrOp} (hop : op.IsStatement) : Shows value [op] op [] := by
  intro b hb
  cases op with
  | subtitle => simp [Reading.step, hb, Reading.statement, Reading.add]
  | text => simp [Reading.step, hb, Reading.statement, Reading.add]
  | oneOf => simp [Reading.step, hb, Reading.statement, Reading.add]
  | numeric => simp [Reading.step, hb, Reading.statement, Reading.add]
  | string => simp [Reading.step, hb, Reading.statement, Reading.add]
  | _ => exact hop.elim

/-- One more condition, if it is wanted. Kind: L -/
theorem shows_enclose {condition body : List IfrOp} {truth : Bool} {statement : IfrOp}
    {conditions : List Scope} (wanted gray : Bool)
    (hcondition : Means value condition truth)
    (hbody : Shows value body statement conditions) :
    Shows value (enclose wanted (ifOp gray :: condition) body) statement
      (conditions ++ if wanted then [⟨gray, truth⟩] else []) := by
  cases wanted with
  | false => simpa [enclose] using hbody
  | true => simpa [enclose] using shows_conditional gray hcondition hbody

lemma dependency_eq_cons (question : UInt16) (depValues : List UInt32) :
    cfrProduceHiiForDependency question depValues =
      ifOp false :: (cfrProduceHiiForDependency question depValues).tail := by
  unfold cfrProduceHiiForDependency
  split <;> rfl

/-- The record does not depend on more values than the length of an opcode can say. Kind: D -/
def CfrItem.Short (item : CfrItem) : Prop :=
  item.header.dependencyId ≠ 0 → item.depValues.length ≤ 60

/-- A guarded statement is shown as the option's header says. Kind: P -/
theorem draws_guarded (item : CfrItem) {statement : IfrOp} (hstatement : statement.IsStatement) :
    Draws value (guarded item.header item.depValues statement)
      (if item.header.shown value (opcodeValues item.depValues) then
        [⟨statement, item.header.has flagInactive⟩] else []) := by
  have hshows : Shows value _ statement _ := shows_enclose (item.header.dependencyId != 0) false
    (means_dependency (questionId item.header.dependencyId) item.depValues)
    (shows_enclose (item.header.has flagSuppress) false means_true
      (shows_enclose (item.header.has flagInactive) true means_true
        (shows_statement hstatement)))
  rw [← dependency_eq_cons] at hshows
  refine Eq.mp (congrArg _ ?_) hshows.draws
  -- which of the three conditions there are, and whether the dependency holds
  rw [entriesUnder, OptionHeader.shown]
  generalize (if opcodeValues item.depValues = [] then
      decide (value (questionId item.header.dependencyId) ≠ 0)
    else decide (value (questionId item.header.dependencyId) ∈ opcodeValues item.depValues)) = holds
  by_cases hd : item.header.dependencyId = 0 <;> cases item.header.has flagSuppress <;>
    cases item.header.has flagInactive <;> cases holds <;> simp [hd]

/-- The length of the list's opcode fits its seven bits up to sixty values. Kind: L -/
theorem sized_dependency (question : UInt16) (depValues : List UInt32) :
    (∀ op ∈ cfrProduceHiiForDependency question depValues, op.Sized) ↔ depValues.length ≤ 60 := by
  unfold cfrProduceHiiForDependency
  split
  · simp only [List.forall_mem_cons, IfrOp.Sized, true_and, and_true, List.length_map,
      BitVec.toNat_ofNat, UInt16.toNat_ofNat', eqIdValListSize, List.not_mem_nil, false_imp_iff,
      implies_true]
    omega
  · simp only [List.forall_mem_cons, IfrOp.Sized, true_and, List.not_mem_nil, false_imp_iff,
      implies_true, true_iff]
    omega

lemma sized_enclose {wanted : Bool} {opening body : List IfrOp} :
    (∀ op ∈ enclose wanted opening body, op.Sized) ↔
      (wanted → ∀ op ∈ opening, op.Sized) ∧ ∀ op ∈ body, op.Sized := by
  cases wanted <;> simp [enclose, or_imp, forall_and, IfrOp.Sized]

lemma IfrOp.IsStatement.sized {op : IfrOp} (hop : op.IsStatement) : op.Sized := by
  cases op with
  | eqIdValList => exact hop.elim
  | _ => trivial

/-- So a guarded statement has its size if the option does not depend on more. Kind: L -/
theorem sized_guarded (item : CfrItem) {statement : IfrOp} (hstatement : statement.IsStatement) :
    (∀ op ∈ guarded item.header item.depValues statement, op.Sized) ↔ item.Short := by
  have hflags : ∀ gray, ∀ op ∈ cfrProduceHiiForFlags gray, op.Sized := by
    intro gray
    cases gray <;> simp [cfrProduceHiiForFlags, ifOp, IfrOp.Sized]
  rw [guarded, sized_enclose, sized_enclose, sized_enclose, sized_dependency,
    List.forall_mem_singleton, CfrItem.Short, bne_iff_ne]
  exact and_iff_left ⟨fun _ => hflags false, fun _ => hflags true, hstatement.sized⟩

/-! ### The menu of a list of forms -/

/-- What can be expressed in a menu: a short list of values, of sixteen bits each. Kind: D -/
def CfrItem.Expressible (item : CfrItem) : Prop :=
  item.Short ∧ ∀ d ∈ item.depValues, d.toNat < 2 ^ 16

lemma CfrItem.Expressible.values {item : CfrItem} (h : item.Expressible) :
    opcodeValues item.depValues = item.depValues.map UInt32.toNat := by
  apply List.map_congr_left
  intro d hd
  rw [UInt32.toNat_toUInt16]
  exact Nat.mod_eq_of_lt (h.2 d hd)

/-- From `m` to `m'` the strings and opcodes of `items` were added: they have their sizes if the
items are short, and draw `lines` if the items can be expressed. Kind: D -/
structure Adds (fw : Firmware) (m m' : Menu) (items : List CfrItem)
    (lines : (UInt16 → ℕ) → List Line) : Prop where
  strings : m.added <+: m'.added
  drawn : ∃ piece, m'.ops = m.ops ++ piece ∧
    ((∀ op ∈ piece, op.Sized) ↔ ∀ item ∈ items, item.Short) ∧
    ∀ value, ∃ entries, Draws value piece entries ∧
      ((∀ item ∈ items, item.Expressible) → ∀ added, m'.added <+: added →
        List.Forall₂ (fun e l => e.statement.line? (fw.text added) e.grayed = some l)
          entries (lines value))

lemma adds_nothing (m : Menu) : Adds fw m m [] fun _ => [] :=
  ⟨List.prefix_rfl, [], (List.append_nil _).symm, by simp,
    fun _ => ⟨[], draws_nil, fun _ _ _ => List.Forall₂.nil⟩⟩

/-- One addition after another draws its lines after the other's. Kind: L -/
theorem Adds.trans {m m' m'' : Menu} {items items' : List CfrItem}
    {lines lines' : (UInt16 → ℕ) → List Line} (h : Adds fw m m' items lines)
    (h' : Adds fw m' m'' items' lines') :
    Adds fw m m'' (items ++ items') fun value => lines value ++ lines' value := by
  obtain ⟨piece, hpiece, hsized, hdraws⟩ := h.drawn
  obtain ⟨piece', hpiece', hsized', hdraws'⟩ := h'.drawn
  refine ⟨h.strings.trans h'.strings, piece ++ piece', ?_, ?_, fun value => ?_⟩
  · rw [hpiece', hpiece, List.append_assoc]
  · rw [List.forall_mem_append, List.forall_mem_append, hsized, hsized']
  · obtain ⟨entries, hentries, hlines⟩ := hdraws value
    obtain ⟨entries', hentries', hlines'⟩ := hdraws' value
    refine ⟨entries ++ entries', hentries.append hentries', fun hexpr added hadded => ?_⟩
    rw [List.forall_mem_append] at hexpr
    exact List.rel_append (hlines hexpr.1 added (h'.strings.trans hadded))
      (hlines' hexpr.2 added hadded)

/-- The pass over a record adds its line. Kind: L -/
theorem Emits.adds {item : CfrItem} {m m' : Menu} (h : Emits fw item m m') :
    Adds fw m m' [item] fun value => itemLines fw value item := by
  obtain ⟨front, statement, hops, hsized, hfront, hstatement, hline⟩ := h.shape
  refine ⟨h.strings, _, hops, ?_, fun value =>
    ⟨_, (hfront value).draws.append (draws_guarded item hstatement), fun hexpr added hadded => ?_⟩⟩
  · rw [List.forall_mem_append, sized_guarded item hstatement, List.forall_mem_singleton]
    exact and_iff_right hsized
  · rw [(List.forall_mem_singleton.mp hexpr).values, List.nil_append, itemLines]
    split
    · exact List.Forall₂.cons (hline added hadded _) List.Forall₂.nil
    · exact List.Forall₂.nil

/-- The records of a form add their lines, by induction on them. Kind: L -/
theorem items_adds {items : List CfrItem} {m m' : Menu} (hok : processItems fw items m = .ok m') :
    Adds fw m m' items fun value => items.flatMap (itemLines fw value) := by
  induction items generalizing m with
  | nil =>
      injection hok with hok
      exact hok ▸ adds_nothing m
  | cons item items ih =>
      obtain ⟨m₁, hitem, hitems⟩ := bind_eq_ok.mp hok
      exact (item_emits hitem).adds.trans (ih hitems)

/-- The empty line behind a form. Kind: L -/
theorem adds_blank (m : Menu) :
    Adds fw m (m.emit [.subtitle (fw.token fw.emptyString) 0]) []
      fun _ => [⟨fw.strings.get fw.emptyString, [], .title, none, false, false⟩] := by
  have hstatement : IfrOp.IsStatement (.subtitle (fw.token fw.emptyString) 0) := trivial
  refine ⟨List.prefix_rfl, _, rfl, by simp [IfrOp.Sized],
    fun value => ⟨_, (shows_statement hstatement).draws, ?_⟩⟩
  intro _ added _
  refine List.Forall₂.cons ?_ List.Forall₂.nil
  simp [IfrOp.line?]

/-- A form and its records, one after the other. Kind: D -/
def formItems (form : FormOption × List CfrItem) : List CfrItem := .form form.1 :: form.2

/-- A form and its records are one list of records, with an empty line behind. Kind: L -/
theorem processForm_eq_ok {form : FormOption × List CfrItem} {m m' : Menu} :
    processForm fw form m = .ok m' ↔ ∃ m₁, processItems fw (formItems form) m = .ok m₁ ∧
      m' = m₁.emit [.subtitle (fw.token fw.emptyString) 0] := by
  rw [processForm, bind_eq_ok]
  constructor
  · rintro ⟨m₀, hform, hok⟩
    obtain ⟨m₁, hitems, hok⟩ := bind_eq_ok.mp hok
    injection hok with hok
    exact ⟨m₁, bind_eq_ok.mpr ⟨m₀, hform, hitems⟩, hok.symm⟩
  · rintro ⟨m₁, hok, rfl⟩
    obtain ⟨m₀, hform, hitems⟩ := bind_eq_ok.mp hok
    exact ⟨m₀, hform, bind_eq_ok.mpr ⟨m₁, hitems, rfl⟩⟩

/-- A form adds its lines. Kind: L -/
theorem form_adds {form : FormOption × List CfrItem} {m m' : Menu}
    (hok : processForm fw form m = .ok m') :
    Adds fw m m' (formItems form) fun value => formLines fw value form := by
  obtain ⟨m₁, hitems, rfl⟩ := processForm_eq_ok.mp hok
  have hadds := (items_adds hitems).trans (adds_blank m₁)
  rwa [List.append_nil] at hadds

/-- What the driver makes of HOBs that could be read is what it makes of their forms. Kind: L -/
theorem processHobs_cons {hob : ℕ → UInt8} {hobs : List (ℕ → UInt8)}
    {form : FormOption × List CfrItem} {m m' : Menu} (hread : readForm hob = .ok form) :
    processHobs fw (hob :: hobs) m = .ok m' ↔
      ∃ m₁, processForm fw form m = .ok m₁ ∧ processHobs fw hobs m₁ = .ok m' := by
  rw [processHobs, hread]
  change (processForm fw form m >>= processHobs fw hobs) = .ok m' ↔ _
  exact bind_eq_ok

/-- All HOBs add the lines of their forms, by induction on them. Kind: L -/
theorem hobs_adds {hobs : List (ℕ → UInt8)} {forms : List (FormOption × List CfrItem)}
    {m m' : Menu} (hread : List.Forall₂ (fun hob form => readForm hob = .ok form) hobs forms)
    (hok : processHobs fw hobs m = .ok m') :
    Adds fw m m' (forms.flatMap formItems) fun value => menuLines fw value forms := by
  induction hread generalizing m with
  | nil =>
      injection hok with hok
      exact hok ▸ adds_nothing m
  | cons hform _ ih =>
      obtain ⟨m₁, hfirst, hrest⟩ := (processHobs_cons hform).mp hok
      exact (form_adds hfirst).trans (ih hrest)

lemma run_label : Reading.start.run value [.label labelStart] = some Reading.start := rfl

/-- What the opcodes of the whole menu are: they have their sizes if the records are short, and
draw the lines of the records if these can be expressed. Kind: P -/
theorem menu_spec {hobs : List (ℕ → UInt8)} {forms : List (FormOption × List CfrItem)}
    {vars : Variables} {m : Menu}
    (hread : List.Forall₂ (fun hob form => readForm hob = .ok form) hobs forms)
    (hok : cfrCreateRuntimeComponents fw hobs vars = .ok m) :
    ((∀ op ∈ m.ops, op.Sized) ↔ ∀ item ∈ forms.flatMap formItems, item.Short) ∧
      ∀ value, ∃ entries, Reading.start.run value m.ops = some ⟨.statements, [], entries⟩ ∧
        ((∀ item ∈ forms.flatMap formItems, item.Expressible) →
          entries.mapM (fun e => e.statement.line? (fw.text m.added) e.grayed) =
            some (menuLines fw value forms)) := by
  obtain ⟨piece, hpiece, hsized, hdraws⟩ := (hobs_adds hread hok).drawn
  refine ⟨?_, fun value => ?_⟩
  · rw [hpiece, List.forall_mem_append, hsized]
    exact and_iff_right (by simp [IfrOp.Sized])
  · obtain ⟨entries, hentries, hlines⟩ := hdraws value
    refine ⟨entries, ?_, fun hexpr =>
      mapM_eq_some_of_forall₂ (hlines hexpr m.added List.prefix_rfl)⟩
    rw [hpiece, Reading.run_append, run_label, Option.bind_some, hentries Reading.start rfl rfl]
    rfl

/-- The opcodes of short records are well-formed. Kind: L -/
theorem wellFormed_of_short {hobs : List (ℕ → UInt8)} {forms : List (FormOption × List CfrItem)}
    {vars : Variables} {m : Menu}
    (hread : List.Forall₂ (fun hob form => readForm hob = .ok form) hobs forms)
    (hok : cfrCreateRuntimeComponents fw hobs vars = .ok m)
    (hshort : ∀ form ∈ forms, ∀ item ∈ formItems form, item.Short) : WellFormed m.ops := by
  obtain ⟨hsized, hruns⟩ := menu_spec hread hok
  refine ⟨hsized.mpr (List.forall_mem_flatMap.mpr hshort), fun value => ?_⟩
  obtain ⟨entries, hrun, -⟩ := hruns value
  exact ⟨_, hrun, rfl, rfl⟩

/-- The menu of forms that were read draws their lines. Kind: P -/
theorem drawn_of_forms {hobs : List (ℕ → UInt8)} {forms : List (FormOption × List CfrItem)}
    {vars : Variables} {m : Menu}
    (hread : List.Forall₂ (fun hob form => readForm hob = .ok form) hobs forms)
    (hexpr : ∀ form ∈ forms, ∀ item ∈ formItems form, item.Expressible)
    (hok : cfrCreateRuntimeComponents fw hobs vars = .ok m) (browser : Browser)
    (value : UInt16 → ℕ) : m.drawn fw browser value = some (menuLines fw value forms) := by
  have hwell := wellFormed_of_short hread hok fun form hform item hitem =>
    (hexpr form hform item hitem).1
  obtain ⟨entries, hrun, hlines⟩ := (menu_spec hread hok).2 value
  rw [Menu.drawn, browser.draw_wellFormed hwell hrun]
  exact hlines (List.forall_mem_flatMap.mpr hexpr)

/-! ### From memory to the screen -/

lemma items_ok {items : List CfrItem} {m : Menu} (hproper : ∀ item ∈ items, item.Proper fw)
    (hsound : m.vars.Sound) : ∃ m', processItems fw items m = .ok m' ∧ m'.vars.Sound := by
  induction items generalizing m with
  | nil => exact ⟨m, rfl, hsound⟩
  | cons item items ih =>
      obtain ⟨m₁, hitem⟩ := item_ok (hproper item List.mem_cons_self) hsound
      obtain ⟨m', hitems, hsound'⟩ := ih (fun i hi => hproper i (List.mem_cons_of_mem _ hi))
        ((item_emits hitem).sound hsound)
      exact ⟨m', bind_eq_ok.mpr ⟨m₁, hitem, hitems⟩, hsound'⟩

lemma hobs_ok {hobs : List (ℕ → UInt8)} {forms : List (FormOption × List CfrItem)} {m : Menu}
    (hread : List.Forall₂ (fun hob form => readForm hob = .ok form) hobs forms)
    (hproper : ∀ form ∈ forms, ∀ item ∈ formItems form, item.Proper fw) (hsound : m.vars.Sound) :
    ∃ m', processHobs fw hobs m = .ok m' := by
  induction hread generalizing m with
  | nil => exact ⟨m, rfl⟩
  | cons hform _ ih =>
      obtain ⟨m₁, hitems, hsound₁⟩ := items_ok (hproper _ List.mem_cons_self) hsound
      obtain ⟨m', hrest⟩ := ih (fun f hf => hproper f (List.mem_cons_of_mem _ hf))
        (show (m₁.emit [.subtitle (fw.token fw.emptyString) 0]).vars.Sound from hsound₁)
      exact ⟨m', (processHobs_cons hform).mpr ⟨_, processForm_eq_ok.mpr ⟨m₁, hitems, rfl⟩, hrest⟩⟩

/-- A form stands in memory, with a word behind it that is not taken for an optional field.
Kind: D -/
structure Written (buf : ℕ → UInt8) (form : FormOption × List CfrItem) : Prop where
  fits : form.1.header.Fits
  flat : ∀ item ∈ form.2, item.Flat
  size : (form.1.encode (form.2.flatMap CfrItem.encode)).length < 2 ^ 32
  holds : Holds buf 0 (form.1.encode (form.2.flatMap CfrItem.encode))
  next : Plain buf (form.1.encode (form.2.flatMap CfrItem.encode)).length

lemma Written.read {buf : ℕ → UInt8} {form : FormOption × List CfrItem} (h : Written buf form) :
    readForm buf = .ok form :=
  readForm_encode h.fits h.flat h.size h.holds h.next

/-- Strings of the driver for the samples: nothing, `?`, `on` and `off`. Kind: D -/
def sampleFirmware : Firmware where
  canWrite _ := true
  variablePolicy := some fun _ => true
  strings := [[], [0x3F], [0x6F, 0x6E], [0x6F, 0x66, 0x66]]
  emptyString := 0
  invalidString := 1
  boolEnabled := 2
  boolDisabled := 3
  pool _ := 0

lemma written_memoryOf {form : FormOption × List CfrItem} (hfits : form.1.header.Fits)
    (hflat : ∀ item ∈ form.2, item.Flat) (hsize : (formOctets form).length < 2 ^ 32) :
    Written (memoryOf (formOctets form)) form :=
  ⟨hfits, hflat, hsize, holds_memoryOf _, plain_memoryOf _⟩

/-- No variables, and no locks. Kind: D -/
def noVariables : Variables := ⟨fun _ => none, fun _ => false⟩

lemma written_sampleForm : Written (memoryOf (formOctets sampleForm)) sampleForm := by
  apply written_memoryOf
  · exact ⟨by decide, by decide⟩
  · exact sampleForm_flat
  · exact sampleForm_size

lemma sampleOption_proper (kind : NumericKind) (objectId dependencyId : ℕ) {letter : UInt8}
    (hletter : letter ≠ 0) (depValues : Option VarBinary) {enumValues : List EnumValue}
    (henum : ∀ e ∈ enumValues, e.uiName.IsText) :
    CfrItem.Proper sampleFirmware
      (.numeric (sampleOption kind objectId dependencyId letter depValues enumValues)) := by
  have hname : (⟨[letter, 0], 2⟩ : VarBinary).IsName := by
    simp [VarBinary.IsName, VarBinary.IsText, VarBinary.text, VarBinary.text?, hletter]
  exact ⟨hname, rfl, hname.1, fun _ h => absurd h (Option.not_mem_none _), henum⟩

/-- The opcodes of the menu are well-formed if and only if no record of any form depends on more
than sixty values: the length of the opcode that lists the values has seven bits, and with more it
does not say the opcode's size. Kind: P -/
theorem menu_wellFormed_iff {hobs : List (ℕ → UInt8)} {forms : List (FormOption × List CfrItem)}
    {vars : Variables} {m : Menu}
    (hread : List.Forall₂ (fun hob form => readForm hob = .ok form) hobs forms)
    (hok : cfrCreateRuntimeComponents fw hobs vars = .ok m) :
    WellFormed m.ops ↔ ∀ form ∈ forms, ∀ item ∈ formItems form,
      item.header.dependencyId ≠ 0 → item.depValues.length ≤ 60 := by
  constructor
  · intro hwell
    exact List.forall_mem_flatMap.mp ((menu_spec hread hok).1.mp hwell.sized)
  · exact wellFormed_of_short hread hok

/-- A form with an option that depends on `n` values. Kind: D -/
def dependentForm (n : ℕ) : FormOption × List CfrItem :=
  (⟨⟨1, 0, 0⟩, ⟨[0x46, 0], 2⟩, none⟩,
    [.numeric (sampleOption .bool 2 3 0x61 (some ⟨List.replicate (4 * n) 0, 0⟩) [])])

lemma written_dependentForm :
    Written (memoryOf (formOctets (dependentForm 61))) (dependentForm 61) := by
  apply written_memoryOf
  · exact ⟨by decide, by decide⟩
  · simp only [dependentForm, List.forall_mem_singleton]
    exact ⟨⟨by decide, by decide⟩, .inr rfl⟩
  · rw [formOctets, FormOption.length_encode]
    decide +kernel

/-- Sixty-one values are too many. Kind: C -/
theorem menu_wellFormed_iff_sample :
    ∃ m, cfrCreateRuntimeComponents sampleFirmware [memoryOf (formOctets (dependentForm 61))]
        noVariables = .ok m ∧ ¬ WellFormed m.ops := by
  have hread : List.Forall₂ (fun hob form => readForm hob = .ok form)
      [memoryOf (formOctets (dependentForm 61))] [dependentForm 61] :=
    .cons written_dependentForm.read .nil
  have hproper : ∀ form ∈ [dependentForm 61], ∀ item ∈ formItems form,
      item.Proper sampleFirmware := by
    simp only [List.forall_mem_singleton, formItems, dependentForm, List.forall_mem_cons]
    refine ⟨by simp [CfrItem.Proper, VarBinary.IsText], ?_⟩
    exact sampleOption_proper _ _ _ (by decide) _ (by simp)
  obtain ⟨m, hok⟩ := hobs_ok hread hproper
    (show (⟨[], noVariables, [.label labelStart]⟩ : Menu).vars.Sound from
      fun _ h => absurd h Bool.false_ne_true)
  refine ⟨m, hok, fun hwell => ?_⟩
  have hle := (menu_wellFormed_iff hread hok).mp hwell _ List.mem_cons_self _
    (List.mem_cons_of_mem _ List.mem_cons_self) (by decide)
  exact absurd hle (by decide +kernel)

end NucBios.Setup
