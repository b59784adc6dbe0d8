import NucBios.Board.Ptt
import NucBios.Lib.Machine

/-!
# The board from one start to the next

A start of the board goes through the bootblock, which may restart it to have the CPU take another
strap, through the places that look at the settings, through the firmware TPM and on to the payload
with its menu. After that the settings may be changed by anybody, and at any access to the TPM power
may be lost instead. `board` is the machine whose events are such starts and such changes.

* `startUp_spec`: the bootblock restarts the board at most once, and then the CPU has the strap the
  setting asks for;
* `start_follows_settings`: whatever has happened before, a start does what the settings say;
* `clears_le_requests`: over all runs, with power lost anywhere, the TPM is cleared no more often
  than somebody has asked for it;
* `resets_le_changes`: over all runs, the bootblock resets the board no more often than the
  setting was written or the strap was lost.
-/

namespace NucBios.Board

open NucBios.Uefi NucBios.Setup
open NucBios.Lib (Machine)

variable (opts : OptionBackend)

/-! ### The strap of the CPU -/

/-- `SOFT_RESET_DATA` and `SOFT_RESET_CTRL`, and what the CPU has made of them when it was last
reset: whether it runs without SMT. Kind: D -/
structure Strap where
  softResetData : BitVec 32
  softResetCtrl : BitVec 32
  smtOff : Bool
  deriving DecidableEq, Repr

/-- A cold start clears the registers. Kind: D -/
def Strap.cold : Strap := ⟨0, 0, false⟩

/-- A reset of the CPU: bit 0 is taken if the control register says so. Kind: D -/
def Strap.reset (s : Strap) : Strap :=
  { s with smtOff := s.softResetCtrl.getLsbD 0 && s.softResetData.getLsbD 0 }

/-- What the setting asks for: no SMT. Kind: D -/
def smtUnwanted (vars : Variables) : Bool := opts.getUintOption vars "hyper_threading" 1 == 0

/-- The register value that is wanted. Kind: D -/
def wantedData (vars : Variables) (data : BitVec 32) : BitVec 32 :=
  data &&& ~~~1#32 ||| BitVec.setWidth 32 (BitVec.ofBool (smtUnwanted opts vars))

/-- `none` if the bootblock goes on, and else the registers with which it asks for a reset.
Source: `cpu/intel/haswell/bootblock.c` `bootblock_cpu_init`
Kind: D -/
def bootblockCpuInit (htOrMcSupported : Bool) (vars : Variables) (s : Strap) : Option Strap :=
  if htOrMcSupported then
    let wanted := wantedData opts vars s.softResetData
    if wanted = s.softResetData then none
    else some { s with softResetData := wanted, softResetCtrl := s.softResetCtrl ||| 1 }
  else none

/-- The bootblock until it goes on, with the number of resets; `none` if `fuel` resets are not
enough. Kind: D -/
def startUp (htOrMcSupported : Bool) (vars : Variables) : ℕ → Strap → Option (ℕ × Strap)
  | fuel, s =>
      match bootblockCpuInit opts htOrMcSupported vars s with
      | none => some (0, s)
      | some s' =>
          match fuel with
          | 0 => none
          | fuel + 1 =>
              (startUp htOrMcSupported vars fuel s'.reset).map fun (resets, s) => (resets + 1, s)

variable {opts}

/-- The CPU runs with the strap that is in the register, and a strap in the register is in force.
Kind: D -/
structure Strap.Sound (s : Strap) : Prop where
  taken : s.smtOff = s.softResetData.getLsbD 0
  inForce : s.softResetData.getLsbD 0 → s.softResetCtrl.getLsbD 0

lemma Strap.sound_cold : Strap.cold.Sound := ⟨rfl, by decide⟩

lemma Strap.Sound.reset_eq {s : Strap} (h : s.Sound) : s.reset = s := by
  have hctrl := h.inForce
  rw [Strap.reset, Strap.mk.injEq, h.taken]
  cases hdata : s.softResetData.getLsbD 0 with
  | false => simp
  | true => simp [hctrl hdata]

lemma wantedData_bit (vars : Variables) (data : BitVec 32) :
    (wantedData opts vars data).getLsbD 0 = smtUnwanted opts vars := by
  simp [wantedData]

lemma wantedData_other (vars : Variables) (data : BitVec 32) {i : ℕ} (hi : i ≠ 0) :
    (wantedData opts vars data).getLsbD i = data.getLsbD i := by
  by_cases hlt : i < 32
  · have hone : (1#32).getLsbD i = false := by
      simp [BitVec.getLsbD_one, hi]
    have hbit : (BitVec.ofBool (smtUnwanted opts vars)).getLsbD i = false := by
      simp [hi]
    rw [wantedData, BitVec.getLsbD_or, BitVec.getLsbD_and, BitVec.getLsbD_not,
      BitVec.getLsbD_setWidth, hone, hbit]
    simp [hlt]
  · rw [BitVec.getLsbD_of_ge _ _ (Nat.le_of_not_lt hlt),
      BitVec.getLsbD_of_ge _ _ (Nat.le_of_not_lt hlt)]

lemma wantedData_eq_iff (vars : Variables) (data : BitVec 32) :
    wantedData opts vars data = data ↔ data.getLsbD 0 = smtUnwanted opts vars := by
  constructor
  · intro h
    rw [← h, wantedData_bit]
  · intro h
    apply BitVec.eq_of_getLsbD_eq
    intro i _
    by_cases hi : i = 0
    · rw [hi, wantedData_bit, h]
    · exact wantedData_other vars data hi

variable (opts) in
/-- The registers with which the bootblock asks for a reset. Kind: D -/
def Strap.rewritten (vars : Variables) (s : Strap) : Strap :=
  { s with softResetData := wantedData opts vars s.softResetData,
           softResetCtrl := s.softResetCtrl ||| 1 }

/-- What the bootblock decides: nothing to do for a CPU without threads or with the strap it should
have, and else a reset. Kind: L -/
theorem bootblockCpuInit_eq (htOrMcSupported : Bool) (vars : Variables) (s : Strap) :
    bootblockCpuInit opts htOrMcSupported vars s =
      if htOrMcSupported && s.softResetData.getLsbD 0 != smtUnwanted opts vars then
        some (s.rewritten opts vars)
      else none := by
  rw [bootblockCpuInit]
  cases htOrMcSupported with
  | false => rfl
  | true =>
      simp only [if_true, wantedData_eq_iff, Bool.true_and, bne_iff_ne, ne_eq, ite_not]
      rfl

lemma Strap.sound_rewritten (vars : Variables) (s : Strap) :
    (s.rewritten opts vars).reset.Sound := by
  have hctrl : (s.softResetCtrl ||| 1).getLsbD 0 = true := by
    simp
  refine ⟨?_, fun _ => hctrl⟩
  simp only [Strap.reset, Strap.rewritten, hctrl, Bool.true_and]

variable (opts) in
/-- All that the bootblock does to the strap, with the resets it takes. Kind: D -/
structure StartedUp (htOrMcSupported : Bool) (vars : Variables) (s : Strap) (resets : ℕ)
    (s' : Strap) : Prop where
  resets : resets = (htOrMcSupported && s.softResetData.getLsbD 0 != smtUnwanted opts vars).toNat
  sound : s.Sound → s'.Sound
  strap : htOrMcSupported → s'.softResetData.getLsbD 0 = smtUnwanted opts vars
  others : ∀ i ≠ 0, s'.softResetData.getLsbD i = s.softResetData.getLsbD i

lemma StartedUp.resets_le {htOrMcSupported : Bool} {vars : Variables} {s s' : Strap} {resets : ℕ}
    (h : StartedUp opts htOrMcSupported vars s resets s') : resets ≤ 1 := by
  rw [h.resets]
  exact Bool.toNat_le _

lemma startUp_of_none {htOrMcSupported : Bool} {vars : Variables} {s : Strap}
    (h : bootblockCpuInit opts htOrMcSupported vars s = none) (fuel : ℕ) :
    startUp opts htOrMcSupported vars fuel s = some (0, s) := by
  unfold startUp
  rw [h]

/-- The bootblock comes to its end after at most one reset, with the strap that is wanted.
Kind: L -/
theorem startUp_spec (opts : OptionBackend) (htOrMcSupported : Bool) (vars : Variables)
    (s : Strap) :
    ∃ resets s', StartedUp opts htOrMcSupported vars s resets s' ∧
      ∀ fuel, startUp opts htOrMcSupported vars fuel s =
        if resets ≤ fuel then some (resets, s') else none := by
  cases hreset : htOrMcSupported && s.softResetData.getLsbD 0 != smtUnwanted opts vars with
  | false =>
      have hnone : bootblockCpuInit opts htOrMcSupported vars s = none := by
        rw [bootblockCpuInit_eq, hreset]
        rfl
      refine ⟨0, s, ⟨by rw [hreset]; rfl, id, fun hht => ?_, fun i _ => rfl⟩, fun fuel => ?_⟩
      · simpa [hht] using hreset
      · rw [startUp_of_none hnone, if_pos (Nat.zero_le fuel)]
  | true =>
      have hsome : bootblockCpuInit opts htOrMcSupported vars s = some (s.rewritten opts vars) := by
        rw [bootblockCpuInit_eq, hreset]
        rfl
      -- after the reset the register has what is wanted
      have hbit : (s.rewritten opts vars).reset.softResetData.getLsbD 0 = smtUnwanted opts vars :=
        wantedData_bit vars s.softResetData
      have hnone :
          bootblockCpuInit opts htOrMcSupported vars (s.rewritten opts vars).reset = none := by
        rw [bootblockCpuInit_eq, hbit]
        simp
      refine ⟨1, (s.rewritten opts vars).reset, ⟨by rw [hreset]; rfl,
        fun _ => s.sound_rewritten vars, fun _ => hbit,
        fun i hi => wantedData_other vars s.softResetData hi⟩, fun fuel => ?_⟩
      unfold startUp
      rw [hsome]
      cases fuel with
      | zero => rfl
      | succ fuel =>
          simp only [startUp_of_none hnone, Option.map_some]
          exact (if_pos (Nat.succ_pos fuel)).symm

/-! ### What looks at the settings -/

variable (opts)

/-- Source: `cpu/intel/haswell/haswell_init.c` `pre_mp_init`
Kind: D -/
def vmxEnable (cfg : BuildConfig) (vars : Variables) : Bool :=
  opts.getUintOption vars "vmx" cfg.enableVmx.toUInt32 != 0

/-- Whether the remapping units are programmed.
Source: `northbridge/intel/broadwell/early_init.c` `systemagent_early_init`
Kind: D -/
def systemagentEarlyInit (vtdCapable : Bool) (vars : Variables) : Bool :=
  if !vtdCapable || opts.getUintOption vars "vtd" 1 == 0 then false else true

lemma systemagentEarlyInit_eq (vtdCapable : Bool) (vars : Variables) :
    systemagentEarlyInit opts vtdCapable vars =
      (vtdCapable && opts.getUintOption vars "vtd" 1 != 0) := by
  rw [systemagentEarlyInit, bne]
  cases vtdCapable <;> cases opts.getUintOption vars "vtd" 1 == 0 <;> rfl

/-- Whether there is a `DMAR` table.
Source: `northbridge/intel/haswell/acpi.c` `northbridge_write_acpi_tables`
Kind: D -/
def northbridgeWriteAcpiTables (vtdCapable : Bool) (vars : Variables) : Bool :=
  if !vtdCapable then false
  else if opts.getUintOption vars "vtd" 1 == 0 then false
  else true

lemma northbridgeWriteAcpiTables_eq (vtdCapable : Bool) (vars : Variables) :
    northbridgeWriteAcpiTables opts vtdCapable vars =
      (vtdCapable && opts.getUintOption vars "vtd" 1 != 0) := by
  rw [northbridgeWriteAcpiTables, bne]
  cases vtdCapable <;> cases opts.getUintOption vars "vtd" 1 == 0 <;> rfl

/-- The place of the fan's curve in the table of three.
Source: `mainboard/ramstage.c` `hwm_init`
Kind: D -/
def hwmInit (vars : Variables) : UInt32 :=
  let profile := opts.getUintOption vars "fan_profile" 1
  if profile > 2 then 1 else profile

/-- Source: `mainboard/ramstage.c` `sata_enable_from_option`
Kind: D -/
def sataEnableFromOption (vars : Variables) : UInt32 := opts.getUintOption vars "sata_enable" 0

/-! ### The board -/

/-- What the CPU and the chipset can do. Kind: D -/
structure Platform where
  htOrMcSupported : Bool
  vtdCapable : Bool
  deriving DecidableEq, Repr

/-- The board between two starts: the store as it was left, and the strap. Kind: D -/
structure BoardState where
  vars : Variables
  strap : Strap

/-- One start: whether the strap was lost before it, what is behind the window of the TPM, whether
a setting can be written, the payload with the records of the board's menu, and the number of
accesses to the TPM before power is lost, if it is. Kind: D -/
structure PowerOn (cfg : BuildConfig) where
  cold : Bool
  dev : Device
  settable : Bool
  fw : Firmware
  hobs : List (ℕ → UInt8)
  menu : BoardMenu cfg hobs
  cut : Option ℕ

/-- The accesses that happen. Kind: D -/
def PowerOn.part {cfg : BuildConfig} (on : PowerOn cfg) (trace : Trace) : Trace :=
  match on.cut with
  | none => trace
  | some n => trace.take n

/-- What coreboot has done before it starts the payload. Kind: D -/
structure Started where
  resets : ℕ
  strap : Strap
  vmx : Bool
  remapping : Bool
  dmar : Bool
  fanCurve : UInt32
  sata : UInt32
  tpm2 : Bool
  trace : Trace

/-- What is done once the bootblock goes on. The tables are written after the TPM is set up.
Kind: D -/
def PowerOn.effects {cfg : BuildConfig} (on : PowerOn cfg) (platform : Platform) (vars : Variables)
    (resets : ℕ) (strap : Strap) : Started :=
  let setup := pttSetup opts on.dev on.settable vars
  { resets, strap
    vmx := vmxEnable opts cfg vars
    remapping := systemagentEarlyInit opts platform.vtdCapable vars
    dmar := northbridgeWriteAcpiTables opts platform.vtdCapable (stored opts vars setup.2)
    fanCurve := hwmInit opts vars
    sata := sataEnableFromOption opts vars
    tpm2 := setup.1
    trace := setup.2 }

/-- One start, up to the payload. Kind: D -/
def PowerOn.start {cfg : BuildConfig} (on : PowerOn cfg) (platform : Platform) (fuel : ℕ)
    (board : BoardState) : Option Started :=
  let vars := board.vars.restart
  (startUp opts platform.htOrMcSupported vars fuel
      (if on.cold then .cold else board.strap.reset)).map
    fun up => on.effects opts platform vars up.1 up.2

/-- A start of the board, or a write to a variable while it runs. Kind: D -/
inductive Event (cfg : BuildConfig) where
  | powerOn (on : PowerOn cfg)
  | write (name : Text) (v : Option Variable)

/-- What becomes of the store when the payload takes over, if it gets so far. Kind: D -/
def PowerOn.handOver {cfg : BuildConfig} (on : PowerOn cfg) (vars : Variables) : Option Variables :=
  if on.cut.isSome then some vars
  else (cfrCreateRuntimeComponents on.fw on.hobs vars).toOption.map Menu.vars

/-- The board from one start to the next. Kind: D -/
def board (cfg : BuildConfig) (platform : Platform) (fuel : ℕ) :
    Machine BoardState (Event cfg) where
  step
    | state, .write name v => some { state with vars := state.vars.write name v }
    | state, .powerOn on =>
        (on.start opts platform fuel state).bind fun started =>
          (on.handOver (stored opts state.vars.restart (on.part started.trace))).map fun vars =>
            ⟨vars, started.strap⟩

/-! ### One start -/

variable {opts}

lemma restart_of_durable {vars : Variables} (hlocked : vars.locked = fun _ => false)
    (hdurable : ∀ name v, vars.get name = some v → v.nonVolatile) : vars.restart = vars := by
  rw [Variables.restart, ← hlocked]
  congr 1
  funext name
  cases hget : vars.get name with
  | none => rfl
  | some v => exact Option.filter_some_pos (hdurable name v hget)

lemma restart_restart (vars : Variables) : vars.restart.restart = vars.restart :=
  restart_of_durable rfl fun _ _ h => nonVolatile_of_restart h

lemma restart_setUintOption (vars : Variables) (name : String) (value : UInt32) :
    (opts.setUintOption vars.restart name value).restart =
      opts.setUintOption vars.restart name value := by
  apply restart_of_durable rfl
  intro other v hget
  by_cases hother : other = optText name
  · subst hother
    have hnew := (Function.update_self (optText name) _ vars.restart.get).symm.trans hget
    rw [← Option.some.inj hnew, opts.nonVolatile_write]
  · rw [OptionBackend.get_setUintOption_of_ne hother] at hget
    exact nonVolatile_of_restart hget

lemma eq_ok_of_toOption {ε α : Type*} {x : Except ε α} {a : α} (h : x.toOption = some a) :
    x = .ok a := by
  cases x with
  | error e => exact nomatch h
  | ok b => exact congrArg _ (Option.some.inj h)

section

variable {cfg : BuildConfig} {platform : Platform} {fuel : ℕ} {s t : BoardState} {on : PowerOn cfg}
  {started : Started}

lemma part_of_trace (on : PowerOn cfg) (trace : Trace) : on.part trace <+: trace := by
  rw [PowerOn.part]
  split
  · exact List.prefix_rfl
  · exact List.take_prefix _ _

/-- A start comes through if there is fuel for the reset it may take. Kind: L -/
theorem start_spec (opts : OptionBackend) (platform : Platform) (s : BoardState)
    (on : PowerOn cfg) :
    ∃ resets strap, StartedUp opts platform.htOrMcSupported s.vars.restart
        (if on.cold then .cold else s.strap.reset) resets strap ∧
      ∀ fuel, on.start opts platform fuel s =
        if resets ≤ fuel then
          some (on.effects opts platform s.vars.restart resets strap)
        else none := by
  obtain ⟨resets, strap, hspec, hrun⟩ := startUp_spec opts platform.htOrMcSupported s.vars.restart
    (if on.cold then .cold else s.strap.reset)
  refine ⟨resets, strap, hspec, fun fuel => ?_⟩
  rw [PowerOn.start, hrun fuel]
  split <;> rfl

/-- What a start does to the strap and to the TPM. Kind: L -/
theorem start_eq_some (h : on.start opts platform fuel s = some started) :
    StartedUp opts platform.htOrMcSupported s.vars.restart
        (if on.cold then .cold else s.strap.reset) started.resets started.strap ∧
      started.trace = (pttSetup opts on.dev on.settable s.vars.restart).2 := by
  obtain ⟨resets, strap, hspec, hstart⟩ := start_spec opts platform s on
  rw [hstart fuel, Option.ite_none_right_eq_some, Option.some.injEq] at h
  obtain ⟨-, rfl⟩ := h
  exact ⟨hspec, rfl⟩

/-- The two things a start can leave in the store for the payload. Kind: L -/
theorem stored_cases (h : on.start opts platform fuel s = some started) :
    stored opts s.vars.restart (on.part started.trace) = s.vars.restart ∨
      stored opts s.vars.restart (on.part started.trace) =
        opts.setUintOption s.vars.restart "tpm_clear" 0 := by
  rw [(start_eq_some h).2]
  exact (clears_add_pending_le opts on.dev on.settable s.vars.restart (part_of_trace on _)).2

/-- It is as good as the store of a new boot. Kind: L -/
theorem restart_stored (h : on.start opts platform fuel s = some started) :
    (stored opts s.vars.restart (on.part started.trace)).restart =
      stored opts s.vars.restart (on.part started.trace) := by
  rcases stored_cases h with hstored | hstored
  · rw [hstored, restart_restart]
  · rw [hstored, restart_setUintOption]

/-- A start leaves every setting of the menu as the TPM's setup has left it. Kind: L -/
theorem powerOn_step (h : (board opts cfg platform fuel).step s (.powerOn on) = some t) :
    ∃ started, on.start opts platform fuel s = some started ∧ t.strap = started.strap ∧
      ∀ obj ∈ boardObjects cfg, opts.getUintOption t.vars.restart obj.optName obj.defaultValue =
        opts.getUintOption (stored opts s.vars.restart (on.part started.trace)) obj.optName
          obj.defaultValue := by
  obtain ⟨started, hstart, h⟩ := Option.bind_eq_some_iff.mp h
  obtain ⟨vars, hvars, rfl⟩ := Option.map_eq_some_iff.mp h
  refine ⟨started, hstart, rfl, fun obj hobj => ?_⟩
  have hdurable := restart_stored hstart
  rw [PowerOn.handOver] at hvars
  split at hvars
  · injection hvars with hvars
    rw [← hvars, hdurable]
  · obtain ⟨m, hm, rfl⟩ := Option.map_eq_some_iff.mp hvars
    rw [← hdurable] at hm ⊢
    exact getUintOption_of_menu on.menu (eq_ok_of_toOption hm) opts hobj

end

/-! ### What a start does -/

/-- A start does what the settings say. Kind: D -/
structure Follows (platform : Platform) (dev : Device) (settable : Bool) (settings : Settings)
    (started : Started) : Prop where
  resets : started.resets ≤ 1
  smt : platform.htOrMcSupported → started.strap.smtOff = (settings.hyperThreading == 0)
  vmx : started.vmx = (settings.vmx != 0)
  remapping : started.remapping = (platform.vtdCapable && settings.vtd != 0)
  dmar : started.dmar = started.remapping
  fanInTable : started.fanCurve ≤ 2
  fanCurve : settings.fanProfile ≤ 2 → started.fanCurve = settings.fanProfile
  sata : started.sata = settings.sataEnable
  tpm2 : started.tpm2 = decide (settings.tpmEnable ≠ 0 ∧ dev.Live)
  commands : executed started.trace =
    if settings.tpmEnable ≠ 0 ∧ dev.Live then
      some startupClear :: if settings.tpmClear ≠ 0 ∧ settable then [some clearCmd] else []
    else []

lemma sound_before (cold : Bool) {strap : Strap} (h : strap.Sound) :
    (if cold then Strap.cold else strap.reset).Sound := by
  cases cold with
  | true => exact Strap.sound_cold
  | false => exact h.reset_eq.symm ▸ h

lemma hwmInit_spec (opts : OptionBackend) (vars : Variables) :
    hwmInit opts vars ≤ 2 ∧ (opts.getUintOption vars "fan_profile" 1 ≤ 2 →
      hwmInit opts vars = opts.getUintOption vars "fan_profile" 1) := by
  simp only [hwmInit]
  split
  · next h => exact ⟨by decide, fun hle => absurd h (UInt32.not_lt.mpr hle)⟩
  · next h => exact ⟨UInt32.not_lt.mp h, fun _ => rfl⟩

lemma optText_vtd_ne : optText "vtd" ≠ optText "tpm_clear" := by decide

lemma optText_hyperThreading_ne : optText "hyper_threading" ≠ optText "tpm_clear" := by decide

section

variable {cfg : BuildConfig} {platform : Platform} {fuel : ℕ} {s t u : BoardState}
  {es : List (Event cfg)}

/-- The strap the CPU has is the strap in the register, from one start to the next. Kind: L -/
theorem sound_step {e : Event cfg} (hs : s.strap.Sound)
    (h : (board opts cfg platform fuel).step s e = some t) : t.strap.Sound := by
  cases e with
  | write name v =>
      injection h with h
      exact h ▸ hs
  | powerOn on =>
      obtain ⟨started, hstart, hstrap, -⟩ := powerOn_step h
      rw [hstrap]
      exact (start_eq_some hstart).1.sound (sound_before on.cold hs)

/-- Every start gets to the payload, and the payload comes up if the variables of the menu can be
written. Kind: L -/
theorem powerOn_ok (hfuel : 1 ≤ fuel) {on : PowerOn cfg}
    (hwrite : ∀ obj ∈ boardObjects cfg, on.fw.canWrite (optText obj.optName)) (s : BoardState) :
    ∃ t, (board opts cfg platform fuel).step s (.powerOn on) = some t := by
  obtain ⟨started, hstart⟩ : ∃ started, on.start opts platform fuel s = some started := by
    obtain ⟨resets, strap, hspec, hstart⟩ := start_spec opts platform s on
    exact ⟨_, (hstart fuel).trans (if_pos (hspec.resets_le.trans hfuel))⟩
  obtain ⟨m, hm⟩ := boardMenu_ok on.menu on.fw hwrite
    (stored opts s.vars.restart (on.part started.trace))
  rw [restart_stored hstart] at hm
  obtain ⟨vars, hvars⟩ : ∃ vars, on.handOver (stored opts s.vars.restart (on.part started.trace)) =
      some vars := by
    rw [PowerOn.handOver, hm]
    split <;> exact ⟨_, rfl⟩
  exact ⟨⟨vars, started.strap⟩, Option.bind_eq_some_iff.mpr ⟨started, hstart, by rw [hvars]; rfl⟩⟩

/-- So there are runs over all events. By induction on them. Kind: L -/
theorem exists_run (hfuel : 1 ≤ fuel) {es : List (Event cfg)}
    (hwrite : ∀ on, .powerOn on ∈ es →
      ∀ obj ∈ boardObjects cfg, on.fw.canWrite (optText obj.optName)) (s : BoardState) :
    ∃ u, (board opts cfg platform fuel).run s es = some u := by
  induction es generalizing s with
  | nil => exact ⟨s, rfl⟩
  | cons e es ih =>
      obtain ⟨t, ht⟩ : ∃ t, (board opts cfg platform fuel).step s e = some t := by
        cases e with
        | write name v => exact ⟨_, rfl⟩
        | powerOn on => exact powerOn_ok hfuel (hwrite on List.mem_cons_self) s
      obtain ⟨u, hu⟩ := ih (fun on hon => hwrite on (List.mem_cons_of_mem _ hon)) t
      exact ⟨u, Machine.run_cons_eq_some _ |>.mpr ⟨t, ht, hu⟩⟩

/-- Whatever has happened before, whoever has written what and wherever power was lost: the next
start comes through, and does what the settings say. Kind: P -/
theorem start_follows_settings (hs : s.strap.Sound)
    (hrun : (board opts cfg platform fuel).run s es = some t) (hfuel : 1 ≤ fuel)
    (on : PowerOn cfg) :
    ∃ started, on.start opts platform fuel t = some started ∧
      Follows platform on.dev on.settable (readSettings opts cfg t.vars.restart) started := by
  have ht : t.strap.Sound :=
    Machine.invariant_of_run _ (fun state => state.strap.Sound)
      (fun _ _ _ hsound hstep => sound_step hsound hstep) hs hrun
  obtain ⟨resets, strap, hspec, hstart⟩ := start_spec opts platform t on
  have hfan := hwmInit_spec opts t.vars.restart
  refine ⟨on.effects opts platform t.vars.restart resets strap, ?_, ?_⟩
  · rw [hstart fuel, if_pos (hspec.resets_le.trans hfuel)]
  · refine ⟨hspec.resets_le, fun hht => ?_, rfl, ?_, ?_, hfan.1, hfan.2, rfl, ?_, ?_⟩
    · exact (hspec.sound (sound_before on.cold ht)).taken.trans (hspec.strap hht)
    · exact systemagentEarlyInit_eq opts platform.vtdCapable t.vars.restart
    · refine (northbridgeWriteAcpiTables_eq opts _ _).trans ?_
      -- the table is written after the TPM may have changed the store
      rw [getUintOption_stored opts on.dev on.settable List.prefix_rfl optText_vtd_ne]
      exact (systemagentEarlyInit_eq opts platform.vtdCapable t.vars.restart).symm
    · exact pttSetup_enabled opts on.dev on.settable t.vars.restart
    · have hcommands := pttSetup_executed opts on.dev on.settable t.vars.restart
      simp only [pending, bne_iff_ne] at hcommands
      exact hcommands

end

/-- A TPM that keeps what is written to it and is never busy. Kind: D -/
def sampleDevice : Device where
  answer8 _ := 0
  answer32 trace := if trace.getLast? = some (.read32 crbCtrlCmdSize) then pttCrbDataSize else 0
  patience _ := 0

/-- A start of the board as it is built. Kind: D -/
def sampleStart (cold : Bool) (cut : Option ℕ) : PowerOn builtConfig where
  cold := cold
  dev := sampleDevice
  settable := true
  fw := sampleFirmware
  hobs := boardHobs
  menu := boardMenu_boardHobs
  cut := cut

/-- A board without settings. Kind: D -/
def newBoard : BoardState := ⟨noVariables, .cold⟩

lemma exists_sampleRun (es : List (Event builtConfig))
    (hes : ∀ e ∈ es,
      (∃ name v, e = .write name v) ∨ ∃ cold cut, e = .powerOn (sampleStart cold cut)) :
    ∃ u, (board .fourOctets builtConfig ⟨true, true⟩ 1).run newBoard es = some u := by
  apply exists_run le_rfl
  intro on hon obj _
  rcases hes _ hon with ⟨name, v, h⟩ | ⟨cold, cut, h⟩
  · exact nomatch h
  · injection h with h
    rw [h]
    rfl

/-- A board that has lost power while its TPM was started. Kind: C -/
theorem start_follows_settings_sample :
    ∃ t started, (board .fourOctets builtConfig ⟨true, true⟩ 1).run newBoard
        [.powerOn (sampleStart true (some 20))] = some t ∧
      (sampleStart true none).start .fourOctets ⟨true, true⟩ 1 t = some started ∧
      Follows ⟨true, true⟩ sampleDevice true
        (readSettings .fourOctets builtConfig t.vars.restart) started := by
  obtain ⟨t, hrun⟩ := exists_sampleRun [.powerOn (sampleStart true (some 20))]
    (by simp [sampleStart])
  obtain ⟨started, hstart, hfollows⟩ := start_follows_settings Strap.sound_cold hrun le_rfl
    (sampleStart true none)
  exact ⟨t, started, hrun, hstart, hfollows⟩

/-! ### Whole runs -/

variable (opts)

/-- How often the TPM is cleared in a step. Kind: D -/
def clearsIn (platform : Platform) (fuel : ℕ) {cfg : BuildConfig} (state : BoardState) :
    Event cfg → ℕ
  | .write _ _ => 0
  | .powerOn on =>
      (on.start opts platform fuel state).elim 0 fun started => clears (on.part started.trace)

/-- How often the bootblock resets the board in a step. Kind: D -/
def resetsIn (platform : Platform) (fuel : ℕ) {cfg : BuildConfig} (state : BoardState) :
    Event cfg → ℕ
  | .write _ _ => 0
  | .powerOn on => (on.start opts platform fuel state).elim 0 Started.resets

/-- A write asks for the TPM to be cleared. Kind: D -/
def isClearWrite (name : Text) (v : Option Variable) : Bool :=
  name == optText "tpm_clear" && opts.read v 0 != 0

@[inherit_doc isClearWrite]
def Event.isClearRequest {cfg : BuildConfig} : Event cfg → Bool
  | .write name v => isClearWrite opts name v
  | .powerOn _ => false

/-- Somebody writes the setting of the strap, or the strap is lost. Kind: D -/
def Event.isStrapChange {cfg : BuildConfig} : Event cfg → Bool
  | .write name _ => name == optText "hyper_threading"
  | .powerOn on => on.cold

variable {opts}

lemma getUintOption_write_of_ne {vars : Variables} {name : Text} {option : String}
    (h : name ≠ optText option) (v : Option Variable) (fallback : UInt32) :
    opts.getUintOption (vars.write name v).restart option fallback =
      opts.getUintOption vars.restart option fallback := by
  apply OptionBackend.getUintOption_congr
  rw [Variables.restart_get, Variables.restart_get, Variables.get_write_of_ne h]

/-- After a write there is a request only if there was one, or if it is one. Kind: L -/
theorem pending_write {vars : Variables} {name : Text} {v : Option Variable}
    (h : pending opts (vars.write name v).restart) :
    isClearWrite opts name v ∨ pending opts vars.restart := by
  by_cases hname : name = optText "tpm_clear"
  · subst hname
    cases hlocked : vars.locked (optText "tpm_clear") with
    | true =>
        rw [Variables.write, hlocked] at h
        exact .inr h
    | false =>
        left
        have hget : (vars.write (optText "tpm_clear") v).get (optText "tpm_clear") = v := by
          simp [Variables.write, hlocked]
        rw [pending, OptionBackend.getUintOption, Variables.restart_get, hget] at h
        rw [isClearWrite, beq_self_eq_true, Bool.true_and]
        cases v with
        | none => exact absurd h (by simp [opts.read_none])
        | some v =>
            rw [Option.filter_some] at h
            split at h
            · exact h
            · exact absurd h (by simp [opts.read_none])
  · rw [pending, getUintOption_write_of_ne hname] at h
    exact .inr h

section

variable {cfg : BuildConfig} {platform : Platform} {fuel : ℕ} {s t u : BoardState}
  {es : List (Event cfg)}

/-- One step: every clear is paid for by a request, an old one or a new one. Kind: L -/
theorem clears_step {e : Event cfg} (h : (board opts cfg platform fuel).step s e = some t) :
    clearsIn opts platform fuel s e + (pending opts t.vars.restart).toNat ≤
      (if e.isClearRequest opts then 1 else 0) + (pending opts s.vars.restart).toNat := by
  cases e with
  | write name v =>
      injection h with h
      subst h
      rw [clearsIn, Nat.zero_add]
      cases hpending : pending opts (s.vars.write name v).restart with
      | false => exact Nat.zero_le _
      | true =>
          rcases pending_write hpending with hrequest | hold
          · simp [Event.isClearRequest, hrequest]
          · simp [hold]
  | powerOn on =>
      obtain ⟨started, hstart, -, hreads⟩ := powerOn_step h
      have hpaid := (clears_add_pending_le opts on.dev on.settable s.vars.restart
        (part_of_trace on _)).1
      rw [← (start_eq_some hstart).2] at hpaid
      have hpending : pending opts t.vars.restart =
          pending opts (stored opts s.vars.restart (on.part started.trace)) := by
        have hread := hreads tpmClear (by simp [boardObjects, smRoot])
        rw [pending, pending]
        exact congrArg (· != 0) hread
      rw [clearsIn, hstart, Option.elim_some, hpending]
      exact hpaid.trans (Nat.le_add_left _ _)

/-- Over all runs, with any writes in any order, any device and power lost at any access, the TPM
is cleared no more often than somebody has asked for it; a request that is still there at the end
has not been counted. Kind: P -/
theorem clears_le_requests (hrun : (board opts cfg platform fuel).run s es = some u) :
    (board opts cfg platform fuel).tally (clearsIn opts platform fuel) s es +
        (pending opts u.vars.restart).toNat ≤
      es.countP (Event.isClearRequest opts) + (pending opts s.vars.restart).toNat := by
  rw [← Machine.tally_eq_countP _ (Event.isClearRequest opts) hrun]
  exact Machine.tally_add_potential_le _ (fun _ => True) (fun _ _ _ _ _ => trivial) _ _
    (fun state => (pending opts state.vars.restart).toNat) (fun _ _ _ _ hstep => clears_step hstep)
    trivial hrun

/-- One request, power lost while it is served, and two more starts: one clear at most. Kind: C -/
theorem clears_le_requests_sample :
    ∃ u, (board .fourOctets builtConfig ⟨true, true⟩ 1).run newBoard
        [.powerOn (sampleStart true none),
          .write (optText "tpm_clear") (some ⟨true, false, le32 1⟩),
          .powerOn (sampleStart false (some 60)), .powerOn (sampleStart true none),
          .powerOn (sampleStart false none)] = some u ∧
      (board .fourOctets builtConfig ⟨true, true⟩ 1).tally
        (clearsIn .fourOctets ⟨true, true⟩ 1) newBoard
        [.powerOn (sampleStart true none),
          .write (optText "tpm_clear") (some ⟨true, false, le32 1⟩),
          .powerOn (sampleStart false (some 60)), .powerOn (sampleStart true none),
          .powerOn (sampleStart false none)] ≤ 1 := by
  obtain ⟨u, hrun⟩ := exists_sampleRun
    [.powerOn (sampleStart true none),
      .write (optText "tpm_clear") (some ⟨true, false, le32 1⟩),
      .powerOn (sampleStart false (some 60)), .powerOn (sampleStart true none),
      .powerOn (sampleStart false none)] (by simp [sampleStart])
  have hbound := clears_le_requests hrun
  have hrequests : (pending .fourOctets newBoard.vars.restart).toNat = 0 := rfl
  have hread : OptionBackend.fourOctets.read (some ⟨true, false, le32 1⟩) 0 = 1 :=
    OptionBackend.fourOctets.read_le32 rfl 0
  refine ⟨u, hrun, ?_⟩
  simp only [List.countP_cons, List.countP_nil, Event.isClearRequest, isClearWrite,
    beq_self_eq_true, Bool.true_and, hread, hrequests] at hbound
  exact (Nat.le_add_right _ _).trans hbound

variable (opts) in
/-- What the strap of the board lacks: one reset, if the CPU has not what the setting asks for.
Kind: D -/
def strapDebt (platform : Platform) (state : BoardState) : Bool :=
  platform.htOrMcSupported &&
    state.strap.softResetData.getLsbD 0 != smtUnwanted opts state.vars.restart

/-- One step: a reset is paid for by a change of the setting, or by the loss of the strap.
Kind: L -/
theorem resets_step {e : Event cfg} (hs : s.strap.Sound)
    (h : (board opts cfg platform fuel).step s e = some t) :
    resetsIn opts platform fuel s e + (strapDebt opts platform t).toNat ≤
      (if e.isStrapChange then 1 else 0) + (strapDebt opts platform s).toNat := by
  cases e with
  | write name v =>
      injection h with h
      subst h
      rw [resetsIn, Nat.zero_add]
      by_cases hname : name = optText "hyper_threading"
      · simp only [Event.isStrapChange, hname, beq_self_eq_true, if_true]
        exact (Bool.toNat_le _).trans (Nat.le_add_right _ _)
      · simp only [strapDebt, smtUnwanted, getUintOption_write_of_ne hname]
        exact Nat.le_add_left _ _
  | powerOn on =>
      obtain ⟨started, hstart, hstrap, hreads⟩ := powerOn_step h
      have hup := (start_eq_some hstart).1
      -- the setting is what it was before the start
      have hsmt : smtUnwanted opts t.vars.restart = smtUnwanted opts s.vars.restart := by
        have hread := hreads hyperThreading (by simp [boardObjects, smRoot])
        have hpart := part_of_trace on started.trace
        rw [(start_eq_some hstart).2] at hread hpart
        exact congrArg (· == 0) (hread.trans
          (getUintOption_stored opts on.dev on.settable hpart optText_hyperThreading_ne 1))
      -- and the strap is what it asks for, so nothing is lacking
      have hpaid : strapDebt opts platform t = false := by
        rw [strapDebt, hstrap, hsmt]
        cases hht : platform.htOrMcSupported with
        | false => rfl
        | true => rw [hup.strap hht, bne_self_eq_false, Bool.and_false]
      rw [resetsIn, hstart, Option.elim_some, hpaid, hup.resets]
      cases hcold : on.cold with
      | true =>
          simp only [Event.isStrapChange, hcold, if_true]
          exact (Bool.toNat_le _).trans (Nat.le_add_right _ _)
      | false =>
          simp only [Event.isStrapChange, hcold, hs.reset_eq, strapDebt]
          simp

/-- Over all runs the bootblock resets the board no more often than the setting of the strap was
written or the strap was lost in a cold start: there is no loop of resets. Kind: P -/
theorem resets_le_changes (hs : s.strap.Sound)
    (hrun : (board opts cfg platform fuel).run s es = some u) :
    (board opts cfg platform fuel).tally (resetsIn opts platform fuel) s es +
        (strapDebt opts platform u).toNat ≤
      es.countP Event.isStrapChange + (strapDebt opts platform s).toNat := by
  rw [← Machine.tally_eq_countP _ Event.isStrapChange hrun]
  exact Machine.tally_add_potential_le _ (fun state => state.strap.Sound)
    (fun _ _ _ hsound hstep => sound_step hsound hstep) _ _
    (fun state => (strapDebt opts platform state).toNat)
    (fun _ _ _ hsound hstep => resets_step hsound hstep) hs hrun

/-- A cold start, SMT switched off, and two warm starts: two resets at most. Kind: C -/
theorem resets_le_changes_sample :
    ∃ u, (board .fourOctets builtConfig ⟨true, true⟩ 1).run newBoard
        [.powerOn (sampleStart true none),
          .write (optText "hyper_threading") (some ⟨true, false, le32 0⟩),
          .powerOn (sampleStart false none), .powerOn (sampleStart false none)] = some u ∧
      (board .fourOctets builtConfig ⟨true, true⟩ 1).tally
        (resetsIn .fourOctets ⟨true, true⟩ 1) newBoard
        [.powerOn (sampleStart true none),
          .write (optText "hyper_threading") (some ⟨true, false, le32 0⟩),
          .powerOn (sampleStart false none), .powerOn (sampleStart false none)] ≤ 2 := by
  obtain ⟨u, hrun⟩ := exists_sampleRun
    [.powerOn (sampleStart true none),
      .write (optText "hyper_threading") (some ⟨true, false, le32 0⟩),
      .powerOn (sampleStart false none), .powerOn (sampleStart false none)] (by simp [sampleStart])
  have hbound := resets_le_changes Strap.sound_cold hrun
  have hdebt : (strapDebt .fourOctets ⟨true, true⟩ newBoard).toNat = 0 := rfl
  refine ⟨u, hrun, ?_⟩
  simp only [List.countP_cons, List.countP_nil, Event.isStrapChange, sampleStart, beq_self_eq_true,
    hdebt] at hbound
  exact (Nat.le_add_right _ _).trans hbound

end

end NucBios.Board
