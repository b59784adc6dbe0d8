import NucBios.Setup.Config

/-!
# The settings of the board

The board declares its settings once, as objects of the setup menu, and reads them back by name,
each place in the code with a fallback of its own for a setting that does not exist yet. Between the
two stand the records of the menu, the driver that makes variables of them and the store.

`BoardMenu` says that the records in memory are those of the board's objects, whatever their numbers
and their padding. From it:

* `boardMenu_ok`: the menu comes up, whatever the store holds;
* `get_of_menu`: every setting has its variable then, the old one or one with the default;
* `menu_transparent`: so the menu changes no setting, those that did not exist included;
* `menu_choice`: and a value that is chosen in the menu is the one the board reads.
-/

namespace NucBios.Board

open NucBios.Uefi NucBios.Setup

/-! ### Options by name -/

/-- The name of an option in the store. Kind: D -/
def optText (name : String) : Text := (ascii name).map UInt8.toUInt16

/-- The store of settings of coreboot, which is not the board's: what `get_uint_option` makes of the
variable of an option, if there is one, and the variable that `set_uint_option` leaves when it
succeeds. What is not there reads as the fallback, and four octets as their value; of a variable of
another size nothing is known.
Kind: D -/
structure OptionBackend where
  read : Option Variable → UInt32 → UInt32
  write : Option Variable → UInt32 → Variable
  read_none : ∀ fallback, read none fallback = fallback
  read_le32 : ∀ {v w}, v.data = le32 w → ∀ fallback, read (some v) fallback = w
  data_write : ∀ old w, (write old w).data = le32 w
  nonVolatile_write : ∀ old w, (write old w).nonVolatile = true

namespace OptionBackend

variable (opts : OptionBackend)

/-- `get_uint_option`. Kind: D -/
def getUintOption (vars : Variables) (name : String) (fallback : UInt32) : UInt32 :=
  opts.read (vars.get (optText name)) fallback

/-- `set_uint_option`, when it succeeds. Kind: D -/
def setUintOption (vars : Variables) (name : String) (value : UInt32) : Variables :=
  { vars with
    get := Function.update vars.get (optText name)
      (some (opts.write (vars.get (optText name)) value)) }

variable {opts}

lemma getUintOption_of_data {vars : Variables} {name : String} {v : Variable} {w : UInt32}
    (h : vars.get (optText name) = some v) (hv : v.data = le32 w) (fallback : UInt32) :
    opts.getUintOption vars name fallback = w := by
  rw [getUintOption, h, opts.read_le32 hv]

lemma getUintOption_congr {vars vars' : Variables} {name : String}
    (h : vars'.get (optText name) = vars.get (optText name)) (fallback : UInt32) :
    opts.getUintOption vars' name fallback = opts.getUintOption vars name fallback := by
  rw [getUintOption, getUintOption, h]

@[simp] lemma getUintOption_setUintOption (vars : Variables) (name : String)
    (value fallback : UInt32) :
    opts.getUintOption (opts.setUintOption vars name value) name fallback = value :=
  getUintOption_of_data (Function.update_self _ _ _) (opts.data_write _ value) fallback

lemma get_setUintOption_of_ne {vars : Variables} {name : String} {other : Text}
    (h : other ≠ optText name) (value : UInt32) :
    (opts.setUintOption vars name value).get other = vars.get other :=
  Function.update_of_ne h _ _

end OptionBackend

/-! ### The objects of the menu -/

/-- `struct sm_enum_value`. Kind: D -/
structure SmEnumValue where
  uiName : String
  value : UInt32
  deriving DecidableEq, Repr

/-- `struct sm_object`, declared with `SM_DECLARE_ENUM`; its help text is a text and no more.
Kind: D -/
structure SmObject where
  optName : String
  uiName : String
  defaultValue : UInt32
  values : List SmEnumValue
  deriving DecidableEq, Repr

/-- `struct sm_obj_form`. Kind: D -/
structure SmObjForm where
  uiName : String
  objList : List SmObject
  deriving DecidableEq, Repr

/-- What the build configuration says about settings. Kind: D -/
structure BuildConfig where
  mainboardPowerFailureState : UInt32
  enableVmx : Bool
  deriving DecidableEq, Repr

/-- Source: `mainboard/cfr.c` `fan_profile`
Kind: D -/
def fanProfile : SmObject where
  optName := "fan_profile"
  uiName := "CPU fan profile"
  defaultValue := 1
  values := [⟨"Quiet", 0⟩, ⟨"Balanced", 1⟩, ⟨"Performance", 2⟩]

/-- Source: `mainboard/cfr.c` `power_on_after_fail`
Kind: D -/
def powerOnAfterFail (cfg : BuildConfig) : SmObject where
  optName := "power_on_after_fail"
  uiName := "Restore power after AC loss"
  defaultValue := cfg.mainboardPowerFailureState
  values := [⟨"Power off (S5)", 0⟩, ⟨"Power on (S0)", 1⟩]

/-- Source: `mainboard/cfr.c` `tpm_enable_values`, `sata_enable_values`, `cpu_feature_values`
Kind: D -/
def featureValues : List SmEnumValue := [⟨"Disabled", 0⟩, ⟨"Enabled", 1⟩]

/-- Source: `mainboard/cfr.c` `tpm_enable`
Kind: D -/
def tpmEnable : SmObject where
  optName := "tpm_enable"
  uiName := "Firmware TPM (Intel PTT)"
  defaultValue := 1
  values := featureValues

/-- Source: `mainboard/cfr.c` `tpm_clear`
Kind: D -/
def tpmClear : SmObject where
  optName := "tpm_clear"
  uiName := "Clear TPM (reset ownership)"
  defaultValue := 0
  values := [⟨"No", 0⟩, ⟨"Clear next boot", 1⟩]

/-- Source: `mainboard/cfr.c` `sata_enable`
Kind: D -/
def sataEnable : SmObject where
  optName := "sata_enable"
  uiName := "SATA controller"
  defaultValue := 0
  values := featureValues

/-- Source: `mainboard/cfr.c` `hyper_threading`
Kind: D -/
def hyperThreading : SmObject where
  optName := "hyper_threading"
  uiName := "Intel Hyper-Threading Technology"
  defaultValue := 1
  values := featureValues

/-- Source: `mainboard/cfr.c` `vmx`
Kind: D -/
def vmx : SmObject where
  optName := "vmx"
  uiName := "Intel Virtualization Technology (VT-x)"
  defaultValue := 1
  values := featureValues

/-- Source: `mainboard/cfr.c` `vtd`
Kind: D -/
def vtd : SmObject where
  optName := "vtd"
  uiName := "Intel VT for Directed I/O (VT-d)"
  defaultValue := 1
  values := featureValues

/-- Source: `mainboard/cfr.c` `sm_root` with its forms `processor`, `security`, `power`, `cooling`,
`storage`
Kind: D -/
def smRoot (cfg : BuildConfig) : List SmObjForm :=
  [⟨"Processor", [hyperThreading, vmx, vtd]⟩,
    ⟨"Security", [tpmEnable, tpmClear]⟩,
    ⟨"Power", [powerOnAfterFail cfg]⟩,
    ⟨"Cooling", [fanProfile]⟩,
    ⟨"Storage", [sataEnable]⟩]

/-- All objects of the menu, in its order. Kind: D -/
def boardObjects (cfg : BuildConfig) : List SmObject := (smRoot cfg).flatMap SmObjForm.objList

lemma boardObjects_names (cfg : BuildConfig) : (boardObjects cfg).map SmObject.optName =
    ["hyper_threading", "vmx", "vtd", "tpm_enable", "tpm_clear", "power_on_after_fail",
      "fan_profile", "sata_enable"] := rfl

/-- The names are names, and no two objects share one. Kind: L -/
theorem boardNames_good (cfg : BuildConfig) :
    (∀ name ∈ (boardObjects cfg).map SmObject.optName, 0 ∉ ascii name ∧ (ascii name).length ≤ 104) ∧
      (((boardObjects cfg).map SmObject.optName).map optText).Nodup := by
  rw [boardObjects_names]
  decide

/-! ### Their records -/

/-- A string of C. Kind: D -/
def cString (s : String) : List UInt8 := ascii s ++ [0]

/-- The record says what the object says. What numbers it has, and its padding, is free. Kind: D -/
structure Describes (obj : SmObject) (o : NumericOption) : Prop where
  kind : o.kind = .enum
  flags : o.header.flags = 0
  defaultValue : o.defaultValue = obj.defaultValue
  name : o.name.data = cString obj.optName
  displayName : o.displayName.data = cString obj.uiName
  helpText : ∀ help ∈ o.helpText, help.IsText
  values : o.enumValues.map (fun e => (e.uiName.data, e.value)) =
    obj.values.map fun v => (cString v.uiName, v.value)

/-- An item of a form that is the record of an object. Kind: D -/
def IsRecordOf (obj : SmObject) (item : CfrItem) : Prop := ∃ o, item = .numeric o ∧ Describes obj o

/-- A form record with the records of the form's objects. Kind: D -/
structure DescribesForm (f : SmObjForm) (form : FormOption × List CfrItem) : Prop where
  name : form.1.name.data = cString f.uiName
  items : List.Forall₂ IsRecordOf f.objList form.2

/-- The records in memory are those of the board's menu, as `mb_cfr_setup_menu` has them written.
Kind: D -/
def BoardMenu (cfg : BuildConfig) (hobs : List (ℕ → UInt8)) : Prop :=
  ∃ forms, List.Forall₂ Written hobs forms ∧ List.Forall₂ DescribesForm (smRoot cfg) forms

/-- What an object asks of the store. Kind: D -/
def SmObject.request (obj : SmObject) : Request :=
  ⟨optText obj.optName, ⟨true, false, le32 obj.defaultValue⟩, false⟩

lemma text_of_cString {v : VarBinary} {s : String} (hdata : v.data = cString s)
    (hs : 0 ∉ ascii s) : v.text = optText s := by
  have htake : (cString s).takeWhile (· != 0) = ascii s := by
    rw [cString, List.takeWhile_append_of_pos]
    · simp
    · intro c hc
      have hne : c ≠ 0 := fun h => hs (h ▸ hc)
      simpa using hne
  rw [VarBinary.text, VarBinary.text?, hdata, if_pos (by simp [cString]), htake]
  rfl

lemma isText_of_cString {v : VarBinary} {s : String} (hdata : v.data = cString s) : v.IsText := by
  rw [VarBinary.IsText, hdata]
  simp [cString]

lemma optName_good {cfg : BuildConfig} {obj : SmObject} (hobj : obj ∈ boardObjects cfg) :
    0 ∉ ascii obj.optName ∧ (ascii obj.optName).length ≤ 104 :=
  (boardNames_good cfg).1 obj.optName (List.mem_map_of_mem hobj)

/-- The record of an object asks for what the object asks for. Kind: L -/
theorem request_of_record {cfg : BuildConfig} {obj : SmObject} {item : CfrItem}
    (hobj : obj ∈ boardObjects cfg) (h : IsRecordOf obj item) (fw : Firmware) :
    item.request? fw = some obj.request := by
  obtain ⟨o, rfl, ho⟩ := h
  rw [CfrItem.request?, text_of_cString ho.name (optName_good hobj).1, ho.defaultValue,
    OptionHeader.request]
  simp [OptionHeader.has, ho.flags, SmObject.request]

lemma filterMap_of_records {cfg : BuildConfig} {objs : List SmObject} {items : List CfrItem}
    (hobjs : ∀ obj ∈ objs, obj ∈ boardObjects cfg) (h : List.Forall₂ IsRecordOf objs items)
    (fw : Firmware) : items.filterMap (CfrItem.request? fw) = objs.map SmObject.request := by
  induction h with
  | nil => rfl
  | cons hitem _ ih =>
      rw [List.filterMap_cons, request_of_record (hobjs _ List.mem_cons_self) hitem fw,
        List.map_cons, ih fun obj hobj => hobjs obj (List.mem_cons_of_mem _ hobj)]

lemma requests_of_forms {cfg : BuildConfig} {hobs : List (ℕ → UInt8)}
    {forms : List (FormOption × List CfrItem)} {fs : List SmObjForm}
    (hfs : ∀ f ∈ fs, ∀ obj ∈ f.objList, obj ∈ boardObjects cfg)
    (hwritten : List.Forall₂ Written hobs forms) (h : List.Forall₂ DescribesForm fs forms)
    (fw : Firmware) :
    hobs.flatMap (hobRequests fw) = (fs.flatMap SmObjForm.objList).map SmObject.request := by
  induction h generalizing hobs with
  | nil =>
      cases hwritten
      rfl
  | @cons f form _ _ hform _ ih =>
      obtain ⟨hob, hobs, hhob, hhobs, rfl⟩ := List.forall₂_cons_right_iff.mp hwritten
      have hitems := filterMap_of_records (hfs f List.mem_cons_self) hform.items fw
      have hfirst : hobRequests fw hob = f.objList.map SmObject.request := by
        rw [hobRequests, hhob.read]
        exact hitems
      rw [List.flatMap_cons, List.flatMap_cons, List.map_append, hfirst,
        ih (fun f' hf' => hfs f' (List.mem_cons_of_mem _ hf')) hhobs]

/-- The requests of the board's menu. Kind: L -/
theorem requests_of_boardMenu {cfg : BuildConfig} {hobs : List (ℕ → UInt8)}
    (h : BoardMenu cfg hobs) (fw : Firmware) :
    hobs.flatMap (hobRequests fw) = (boardObjects cfg).map SmObject.request := by
  obtain ⟨forms, hwritten, hforms⟩ := h
  have hobjs : ∀ f ∈ smRoot cfg, ∀ obj ∈ f.objList, obj ∈ boardObjects cfg :=
    fun f hf obj hobj => List.mem_flatMap.mpr ⟨f, hf, hobj⟩
  exact requests_of_forms hobjs hwritten hforms fw

/-! ### The menu and the store -/

lemma proper_of_record {cfg : BuildConfig} {obj : SmObject} {item : CfrItem} {fw : Firmware}
    (hobj : obj ∈ boardObjects cfg) (h : IsRecordOf obj item)
    (hwrite : fw.canWrite (optText obj.optName)) : item.Proper fw := by
  obtain ⟨o, rfl, ho⟩ := h
  obtain ⟨hzero, hlength⟩ := optName_good hobj
  have htext := text_of_cString ho.name hzero
  refine ⟨⟨isText_of_cString ho.name, ?_, ?_⟩, by rwa [htext], isText_of_cString ho.displayName,
    ho.helpText, ?_⟩
  · rw [htext, ho.name]
    simp [cString, optText]
  · rw [htext, optText, List.length_map]
    exact hlength
  · intro e he
    have hmem : (e.uiName.data, e.value) ∈ obj.values.map fun v => (cString v.uiName, v.value) :=
      ho.values ▸ List.mem_map_of_mem (f := fun e : EnumValue => (e.uiName.data, e.value)) he
    obtain ⟨v, -, hv⟩ := List.mem_map.mp hmem
    exact isText_of_cString (Prod.mk.inj hv).1.symm

lemma exists_of_forall₂_right {α β : Type*} {R : α → β → Prop} {as : List α} {bs : List β} {b : β}
    (h : List.Forall₂ R as bs) (hb : b ∈ bs) : ∃ a ∈ as, R a b := by
  induction h with
  | nil => exact absurd hb List.not_mem_nil
  | cons hab _ ih =>
      rcases List.mem_cons.mp hb with rfl | hb
      · exact ⟨_, List.mem_cons_self, hab⟩
      · obtain ⟨a, ha, h⟩ := ih hb
        exact ⟨a, List.mem_cons_of_mem _ ha, h⟩

/-- The board's menu comes up if its variables can be written, whatever the store holds. Kind: P -/
theorem boardMenu_ok {cfg : BuildConfig} {hobs : List (ℕ → UInt8)} (h : BoardMenu cfg hobs)
    (fw : Firmware) (hwrite : ∀ obj ∈ boardObjects cfg, fw.canWrite (optText obj.optName))
    (vars : Variables) : ∃ m, cfrCreateRuntimeComponents fw hobs vars.restart = .ok m := by
  obtain ⟨forms, hwritten, hforms⟩ := h
  have hread := hwritten.imp fun hob form h => h.read
  refine hobs_ok (m := ⟨[], vars.restart, [.label labelStart]⟩) hread (fun form hform => ?_)
    vars.sound_restart
  obtain ⟨f, hf, hdescribes⟩ := exists_of_forall₂_right hforms hform
  rw [formItems, List.forall_mem_cons]
  refine ⟨isText_of_cString hdescribes.name, fun item hitem => ?_⟩
  obtain ⟨obj, hobj, hrecord⟩ := exists_of_forall₂_right hdescribes.items hitem
  have hmem : obj ∈ boardObjects cfg := List.mem_flatMap.mpr ⟨f, hf, hobj⟩
  exact proper_of_record hmem hrecord (hwrite obj hmem)

lemma find?_of_nodup {α β : Type*} [DecidableEq β] {f : α → β} {l : List α} {a : α}
    (hnodup : (l.map f).Nodup) (ha : a ∈ l) : l.find? (fun b => f b = f a) = some a := by
  induction l with
  | nil => exact absurd ha List.not_mem_nil
  | cons b l ih =>
      rw [List.map_cons, List.nodup_cons] at hnodup
      rcases List.mem_cons.mp ha with rfl | ha
      · simp
      · have hne : f b ≠ f a := fun h => hnodup.1 (h ▸ List.mem_map_of_mem ha)
        rw [List.find?_cons_of_neg (by simpa using hne), ih hnodup.2 ha]

/-- The first request for the variable of an object is the object's. Kind: L -/
theorem find_request {cfg : BuildConfig} {obj : SmObject} (hobj : obj ∈ boardObjects cfg) :
    ((boardObjects cfg).map SmObject.request).find? (fun r => r.name = optText obj.optName) =
      some obj.request := by
  have hnodup : (((boardObjects cfg).map SmObject.request).map Request.name).Nodup := by
    have h := (boardNames_good cfg).2
    rwa [List.map_map] at h ⊢
  exact find?_of_nodup hnodup (List.mem_map_of_mem hobj)

section

variable {cfg : BuildConfig} {hobs : List (ℕ → UInt8)} {fw : Firmware} {vars : Variables} {m : Menu}

/-- A variable of a new boot is not volatile. Kind: L -/
theorem nonVolatile_of_restart {name : Text} {v : Variable} (h : vars.restart.get name = some v) :
    v.nonVolatile :=
  (Option.filter_eq_some_iff.mp h).2

variable (hmenu : BoardMenu cfg hobs) (hok : cfrCreateRuntimeComponents fw hobs vars = .ok m)
include hmenu hok

/-- Once the menu is there every object has its variable: the one that was there, or a new one with
its default. Kind: L -/
theorem get_of_menu {obj : SmObject} (hobj : obj ∈ boardObjects cfg) :
    m.vars.get (optText obj.optName) =
      some ((vars.get (optText obj.optName)).getD obj.request.initial) := by
  rw [(createdVariables_eq hok).get, requests_of_boardMenu hmenu, find_request hobj,
    Option.map_some]
  cases vars.get (optText obj.optName) <;> rfl

/-- The menu locks nothing. Kind: L -/
theorem locked_of_menu (name : Text) : m.vars.locked name = vars.locked name := by
  rw [(createdVariables_eq hok).lock, requests_of_boardMenu hmenu, List.any_map]
  simp [Function.comp_def, SmObject.request]

end

section

variable {cfg : BuildConfig} {hobs : List (ℕ → UInt8)} {fw : Firmware} {vars : Variables} {m : Menu}
  (hmenu : BoardMenu cfg hobs) (hok : cfrCreateRuntimeComponents fw hobs vars.restart = .ok m)
include hmenu hok

/-- What the menu leaves is there in the next boot. Kind: L -/
theorem restart_get_of_menu {obj : SmObject} (hobj : obj ∈ boardObjects cfg) :
    m.vars.restart.get (optText obj.optName) = m.vars.get (optText obj.optName) := by
  have hget := get_of_menu hmenu hok hobj
  rw [hget]
  apply Variables.get_restart hget
  cases hold : vars.restart.get (optText obj.optName) with
  | none => rfl
  | some v => exact nonVolatile_of_restart hold

/-- Whoever reads a setting with its default for a fallback reads the same before the menu and in
the next boot. Kind: P -/
theorem getUintOption_of_menu (opts : OptionBackend) {obj : SmObject}
    (hobj : obj ∈ boardObjects cfg) :
    opts.getUintOption m.vars.restart obj.optName obj.defaultValue =
      opts.getUintOption vars.restart obj.optName obj.defaultValue := by
  have hget := restart_get_of_menu hmenu hok hobj
  rw [get_of_menu hmenu hok hobj] at hget
  cases hold : vars.restart.get (optText obj.optName) with
  | none =>
      rw [hold, Option.getD_none] at hget
      rw [OptionBackend.getUintOption_of_data hget rfl, OptionBackend.getUintOption, hold,
        opts.read_none]
  | some v =>
      rw [hold, Option.getD_some] at hget
      exact OptionBackend.getUintOption_congr (hget.trans hold.symm) _

end

/-! ### What the board reads -/

/-- The settings, as the board reads them. Kind: D -/
structure Settings where
  hyperThreading : UInt32
  vmx : UInt32
  vtd : UInt32
  tpmEnable : UInt32
  tpmClear : UInt32
  fanProfile : UInt32
  sataEnable : UInt32
  deriving DecidableEq, Repr

/-- Each with the fallback of the place that reads it.
Source: `bootblock_cpu_init`, `pre_mp_init`, `systemagent_early_init`, `ptt_setup`, `hwm_init`,
`sata_enable_from_option`
Kind: D -/
def readSettings (opts : OptionBackend) (cfg : BuildConfig) (vars : Variables) : Settings where
  hyperThreading := opts.getUintOption vars "hyper_threading" 1
  vmx := opts.getUintOption vars "vmx" cfg.enableVmx.toUInt32
  vtd := opts.getUintOption vars "vtd" 1
  tpmEnable := opts.getUintOption vars "tpm_enable" 1
  tpmClear := opts.getUintOption vars "tpm_clear" 0
  fanProfile := opts.getUintOption vars "fan_profile" 1
  sataEnable := opts.getUintOption vars "sata_enable" 0

/-- The menu changes no setting, not even one that did not exist: with `ENABLE_VMX`, as the board
is built, the default of each object is the fallback of the code that reads it. Kind: P -/
theorem menu_transparent {cfg : BuildConfig} {hobs : List (ℕ → UInt8)} {fw : Firmware}
    {vars : Variables} {m : Menu} (opts : OptionBackend) (hvmx : cfg.enableVmx)
    (hmenu : BoardMenu cfg hobs)
    (hok : cfrCreateRuntimeComponents fw hobs vars.restart = .ok m) :
    readSettings opts cfg m.vars.restart = readSettings opts cfg vars.restart := by
  have hread : ∀ obj ∈ boardObjects cfg,
      opts.getUintOption m.vars.restart obj.optName obj.defaultValue =
        opts.getUintOption vars.restart obj.optName obj.defaultValue :=
    fun obj hobj => getUintOption_of_menu hmenu hok opts hobj
  simp only [boardObjects, smRoot, List.flatMap_cons, List.flatMap_nil, List.cons_append,
    List.nil_append, List.forall_mem_cons] at hread
  obtain ⟨hht, hvmx', hvtd, hen, hclear, -, hfan, hsata, -⟩ := hread
  rw [readSettings, readSettings, hvmx]
  exact Settings.mk.injEq .. ▸ ⟨hht, hvmx', hvtd, hen, hclear, hfan, hsata⟩

/-- A record for an object, without padding. Kind: D -/
def SmObject.record (objectId : ℕ) (obj : SmObject) : NumericOption where
  kind := .enum
  header := ⟨objectId, 0, 0⟩
  defaultValue := obj.defaultValue
  min := 0
  max := 0
  step := 0
  displayFlags := 0
  name := ⟨cString obj.optName, 0⟩
  displayName := ⟨cString obj.uiName, 0⟩
  helpText := some ⟨[0], 0⟩
  depValues := none
  enumValues := obj.values.map fun v => ⟨v.value, ⟨cString v.uiName, 0⟩⟩

/-- Records for a form. Kind: D -/
def SmObjForm.record (f : SmObjForm) : FormOption × List CfrItem :=
  (⟨⟨1, 0, 0⟩, ⟨cString f.uiName, 0⟩, none⟩, f.objList.map fun obj => .numeric (obj.record 2))

/-- The board as it is built: `POWER_STATE_DEFAULT_ON_AFTER_FAILURE`, and `ENABLE_VMX`. Kind: D -/
def builtConfig : BuildConfig := ⟨1, true⟩

/-- Records for its menu, in memory. Kind: D -/
def boardHobs : List (ℕ → UInt8) := (smRoot builtConfig).map fun f => memoryOf (formOctets f.record)

lemma describes_record (objectId : ℕ) (obj : SmObject) : Describes obj (obj.record objectId) where
  kind := rfl
  flags := rfl
  defaultValue := rfl
  name := rfl
  displayName := rfl
  helpText := by simp [SmObject.record, VarBinary.IsText]
  values := by simp [SmObject.record, Function.comp_def]

lemma describesForm_record (f : SmObjForm) : DescribesForm f f.record where
  name := rfl
  items := by
    rw [SmObjForm.record, List.forall₂_map_right_iff, List.forall₂_same]
    exact fun obj _ => ⟨_, rfl, describes_record 2 obj⟩

lemma boardForms_size : ∀ f ∈ smRoot builtConfig, (formOctets f.record).length < 2 ^ 32 := by
  decide +kernel

lemma written_record {f : SmObjForm} (hf : f ∈ smRoot builtConfig) :
    Written (memoryOf (formOctets f.record)) f.record := by
  apply written_memoryOf
  · simp [OptionHeader.Fits, SmObjForm.record]
  · intro item hitem
    obtain ⟨obj, -, rfl⟩ := List.mem_map.mp hitem
    exact ⟨by simp [OptionHeader.Fits, SmObject.record], .inl rfl⟩
  · exact boardForms_size f hf

/-- There are such records. Kind: L -/
theorem boardMenu_boardHobs : BoardMenu builtConfig boardHobs := by
  refine ⟨(smRoot builtConfig).map SmObjForm.record, ?_, ?_⟩
  · rw [boardHobs, List.forall₂_map_left_iff, List.forall₂_map_right_iff, List.forall₂_same]
    exact fun f hf => written_record hf
  · rw [List.forall₂_map_right_iff, List.forall₂_same]
    exact fun f _ => describesForm_record f

/-- A backend that takes a variable of another size for none. Kind: D -/
def OptionBackend.fourOctets : OptionBackend where
  read v fallback := v.elim fallback fun v =>
    if v.data.length = 4 then readLe32 (pointer v.data) 0 else fallback
  write _ value := ⟨true, false, le32 value⟩
  read_none _ := rfl
  read_le32 {v w} hv fallback := by
    rw [Option.elim_some, hv, if_pos (by rfl)]
    apply readLe32_eq_iff.mpr
    simp [pointer, le32]
  data_write _ _ := rfl
  nonVolatile_write _ _ := rfl

/-- A store without settings, and the first boot with a menu. Kind: C -/
theorem menu_transparent_sample :
    ∃ m, cfrCreateRuntimeComponents sampleFirmware boardHobs noVariables.restart = .ok m ∧
      readSettings .fourOctets builtConfig m.vars.restart = ⟨1, 1, 1, 1, 0, 1, 0⟩ := by
  obtain ⟨m, hok⟩ := boardMenu_ok boardMenu_boardHobs sampleFirmware (fun _ _ => rfl)
    noVariables
  exact ⟨m, hok, by rw [menu_transparent _ rfl boardMenu_boardHobs hok]; rfl⟩

/-! ### What is chosen in the menu -/

/-- The value of a choice goes to the object's own variable, if that is new or has four octets, the
string sets them and the variable driver takes them: the board reads the value in the next boot,
whatever its fallback, and every other setting is as it was. Kind: P -/
theorem menu_choice {cfg : BuildConfig} {hobs : List (ℕ → UInt8)} {fw : Firmware}
    {vars : Variables} {m : Menu} (hmenu : BoardMenu cfg hobs)
    (hok : cfrCreateRuntimeComponents fw hobs vars.restart = .ok m)
    {digit : ℕ → UInt16} (hdigit : ∀ n < 16, hexDigitValue (digit n) = some n) {front : Text}
    (hfront : ampersand ∉ front) (rest : Text) {obj : SmObject} (hobj : obj ∈ boardObjects cfg)
    (hsize : ∀ v, vars.restart.get (optText obj.optName) = some v → v.data.length = 4)
    {routing : ConfigRouting} {value : UInt32}
    (hsets : routing.Sets (configString digit front (optText obj.optName) rest) value)
    {answer : EfiStatus} (hanswer : efiError answer = false) (asserts : Bool)
    (opts : OptionBackend) :
    ∃ vars', setupMenuRouteConfig asserts routing answer
        (configString digit front (optText obj.optName) rest) m.vars = .ok (answer, vars') ∧
      (∀ fallback, opts.getUintOption vars'.restart obj.optName fallback = value) ∧
      ∀ other, other ≠ optText obj.optName →
        vars'.restart.get other = m.vars.restart.get other := by
  have hget := get_of_menu hmenu hok hobj
  set v := (vars.restart.get (optText obj.optName)).getD obj.request.initial with hv
  have hfour : v.data.length = 4 := by
    cases hold : vars.restart.get (optText obj.optName) with
    | none => rw [hv, hold, Option.getD_none]; rfl
    | some old => rw [hv, hold, Option.getD_some, hsize old hold]
  have hrequest : obj.request ∈ hobs.flatMap (hobRequests fw) := by
    rw [requests_of_boardMenu hmenu]
    exact List.mem_map_of_mem hobj
  have hname : convertHiiConfigStringToVariableString
      (configString digit front (optText obj.optName) rest) = .ok (optText obj.optName) :=
    convertHiiConfigString_name hdigit rest hfront (zero_notMem_hobRequests hrequest)
  obtain ⟨vars', status, hrouted, hroute⟩ := routeConfig_of_name hname hget asserts routing answer
  rw [hsets v.data hfour] at hrouted hroute
  obtain ⟨rfl, hwritten⟩ := hrouted.of_unlocked (locked_of_menu hmenu hok _) hanswer
  refine ⟨vars', hroute.trans (if_neg (by simp [hanswer])), fun fallback => ?_,
    fun other hother => ?_⟩
  · -- the variable keeps its attributes, and is not volatile
    have hkept := nonVolatile_of_restart ((restart_get_of_menu hmenu hok hobj).trans hget)
    exact OptionBackend.getUintOption_of_data (Variables.get_restart hwritten hkept) rfl fallback
  · rw [Variables.restart_get, Variables.restart_get, hrouted.other other hother]

/-- Somebody without settings chooses to clear the TPM. Kind: C -/
theorem menu_choice_sample :
    ∃ m vars', cfrCreateRuntimeComponents sampleFirmware boardHobs noVariables.restart = .ok m ∧
      setupMenuRouteConfig true .oneValue efiSuccess
        (configString lowerDigit configGuid (optText "tpm_clear") (configValue "00000001")) m.vars =
          .ok (efiSuccess, vars') ∧
      OptionBackend.fourOctets.getUintOption vars'.restart "tpm_clear" 0 = 1 := by
  have hobj : tpmClear ∈ boardObjects builtConfig := by simp [boardObjects, smRoot]
  have hsets : ConfigRouting.oneValue.Sets
      (configString lowerDigit configGuid (optText "tpm_clear") (configValue "00000001")) 1 :=
    oneValue_sets 1 (by decide +kernel) (by decide +kernel) (by decide +kernel) (by decide)
  obtain ⟨m, hok⟩ := boardMenu_ok boardMenu_boardHobs sampleFirmware (fun _ _ => rfl)
    noVariables
  obtain ⟨vars', hroute, hread, -⟩ := menu_choice boardMenu_boardHobs hok hexDigitValue_lowerDigit
    (by decide : ampersand ∉ configGuid) (configValue "00000001") hobj (fun _ h => nomatch h) hsets
    efiError_efiSuccess true .fourOctets
  exact ⟨m, vars', hok, hroute, hread 0⟩

end NucBios.Board
