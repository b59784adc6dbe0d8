import NucBios.Setup.Menu

/-!
# The options over many boots

One boot of the firmware: volatile variables are gone and locks are off, coreboot and the drivers
that start early may write any variable, the setup menu goes through its option records, and after
that anybody may write any variable that is not locked: the user in the menu, the operating system,
the BMC. The firmware may be another one in the next boot, with other options and other defaults.

`createdVariables_eq` says what the menu leaves for one boot: every variable as it was, and for
every option without one the default of the first option of that name. Two things follow over
all runs.

* `settings_survive`: what somebody has set stays until somebody sets it again;
* `readOnly_frozen`: as long as every boot takes the lock in time, the variable of a read-only
  option keeps the default of the firmware that created it, whatever is written after that and
  whatever later firmware has for a default.

The menu asks for a lock only if there is a variable policy, and goes on without it if the policy
does not take it; `Boot.Freezes` has what a boot must be like, and `Boot.get_of_unlocked` says that
without the lock the last who writes decides.
-/

namespace NucBios.Setup

open NucBios.Lib NucBios.Uefi

/-! ### One boot -/

/-- The requests of all records of a HOB. Kind: D -/
def hobRequests (fw : Firmware) (hob : ℕ → UInt8) : List Request :=
  match readForm hob with
  | .error _ => []
  | .ok form => (formItems form).filterMap (CfrItem.request? fw)

/-- Requests, one after the other. Kind: D -/
def produceAll (services : Services) : List Request → Variables → Except Stop Variables
  | [], vars => .ok vars
  | request :: requests, vars =>
      (produceVariable services request vars).bind (produceAll services requests)

lemma produceAll_append (services : Services) (requests requests' : List Request)
    (vars : Variables) :
    produceAll services (requests ++ requests') vars =
      (produceAll services requests vars).bind (produceAll services requests') := by
  induction requests generalizing vars with
  | nil => rfl
  | cons request requests ih =>
      rw [List.cons_append, produceAll, produceAll]
      cases produceVariable services request vars with
      | error stop => rfl
      | ok vars' => exact ih vars'

variable {fw : Firmware}

lemma items_vars {items : List CfrItem} {m m' : Menu} (hok : processItems fw items m = .ok m') :
    produceAll fw.toServices (items.filterMap (CfrItem.request? fw)) m.vars = .ok m'.vars := by
  induction items generalizing m with
  | nil =>
      injection hok with hok
      rw [hok]
      rfl
  | cons item items ih =>
      obtain ⟨m₁, hitem, hitems⟩ := bind_eq_ok.mp hok
      have hvars := (item_emits hitem).vars
      rw [List.filterMap_cons]
      cases hrequest : item.request? fw with
      | none =>
          rw [hrequest] at hvars
          have hsame : m₁.vars = m.vars := hvars
          exact hsame ▸ ih hitems
      | some request =>
          rw [hrequest] at hvars
          simp only [Stores] at hvars
          simp only [produceAll, hvars, Except.bind, ih hitems]

/-- What the menu does to the variables is what the requests of its records do. Kind: L -/
theorem hobs_vars {hobs : List (ℕ → UInt8)} {m m' : Menu}
    (hok : processHobs fw hobs m = .ok m') :
    produceAll fw.toServices (hobs.flatMap (hobRequests fw)) m.vars = .ok m'.vars := by
  induction hobs generalizing m with
  | nil =>
      injection hok with hok
      rw [hok]
      rfl
  | cons hob hobs ih =>
      obtain ⟨form, hread, -⟩ := bind_eq_ok.mp hok
      obtain ⟨m₁, hform, hrest⟩ := (processHobs_cons hread).mp hok
      obtain ⟨m₂, hitems, rfl⟩ := processForm_eq_ok.mp hform
      have hfirst : produceAll fw.toServices (hobRequests fw hob) m.vars = .ok m₂.vars := by
        rw [hobRequests, hread]
        exact items_vars hitems
      rw [List.flatMap_cons, produceAll_append, hfirst]
      exact ih (m := m₂.emit [.subtitle (fw.token fw.emptyString) 0]) hrest

/-- What requests make of the variables: what is there stays, what is missing is created by the
first request for it, and what a read-only option asks for is locked. Kind: D -/
structure ProducedAll (services : Services) (requests : List Request) (vars vars' : Variables) :
    Prop where
  get : ∀ name, vars'.get name =
    (vars.get name).or ((requests.find? fun r => r.name = name).map Request.initial)
  lock : ∀ name, vars'.locked name =
    (vars.locked name || requests.any fun r => r.name = name && r.readOnly && services.canLock name)

/-- By induction on the requests. Kind: L -/
theorem producedAll_of_eq_ok {services : Services} {requests : List Request}
    {vars vars' : Variables} (h : produceAll services requests vars = .ok vars') :
    ProducedAll services requests vars vars' := by
  induction requests generalizing vars with
  | nil =>
      injection h with h
      subst h
      exact ⟨fun name => by simp, fun name => by simp⟩
  | cons request requests ih =>
      obtain ⟨vars₁, hfirst, hrest⟩ := bind_eq_ok.mp h
      have hstep := produced_of_eq_ok hfirst
      have hrun := ih hrest
      refine ⟨fun name => ?_, fun name => ?_⟩
      · rw [hrun.get, List.find?_cons]
        by_cases hname : request.name = name
        · -- the request's own variable is there from now on
          subst hname
          cases hget : vars.get request.name with
          | none => simp [hstep.created hget]
          | some v => simp [hstep.kept _ v hget]
        · rw [hstep.other name (Ne.symm hname)]
          simp [hname]
      · rw [hrun.lock, hstep.lock, List.any_cons, Bool.or_assoc]
        by_cases hname : request.name = name
        · subst hname
          simp
        · simp [hname, Ne.symm hname]

/-- The variables once the menu is there. Kind: P -/
theorem createdVariables_eq {hobs : List (ℕ → UInt8)} {vars : Variables} {m : Menu}
    (hok : cfrCreateRuntimeComponents fw hobs vars = .ok m) :
    ProducedAll fw.toServices (hobs.flatMap (hobRequests fw)) vars m.vars :=
  producedAll_of_eq_ok (hobs_vars hok)

/-! ### Many boots -/

/-- A firmware, the option records it finds, and what is written before the menu is made and after.
Kind: D -/
structure Boot where
  fw : Firmware
  hobs : List (ℕ → UInt8)
  early : List (Text × Option Variable)
  writes : List (Text × Option Variable)

/-- The requests of a boot. Kind: D -/
def Boot.requests (boot : Boot) : List Request := boot.hobs.flatMap (hobRequests boot.fw)

/-- One boot, from the variables the one before has left. Kind: D -/
def Boot.run (boot : Boot) (vars : Variables) : Except Stop Variables :=
  (cfrCreateRuntimeComponents boot.fw boot.hobs (vars.restart.writeAll boot.early)).map fun m =>
    m.vars.writeAll boot.writes

/-- Boots, one after the other. Kind: D -/
def runBoots : List Boot → Variables → Except Stop Variables
  | [], vars => .ok vars
  | boot :: boots, vars => (boot.run vars).bind (runBoots boots)

/-- A firmware whose records are proper boots, whatever the variables are. Kind: P -/
theorem Boot.run_ok {boot : Boot} {forms : List (FormOption × List CfrItem)}
    (hwritten : List.Forall₂ Written boot.hobs forms)
    (hproper : ∀ form ∈ forms, ∀ item ∈ formItems form, item.Proper boot.fw) (vars : Variables) :
    ∃ vars', boot.run vars = .ok vars' := by
  have hread : List.Forall₂ (fun hob form => readForm hob = .ok form) boot.hobs forms :=
    hwritten.imp fun hob form h => h.read
  obtain ⟨m, hok⟩ := hobs_ok
    (m := ⟨[], vars.restart.writeAll boot.early, [.label labelStart]⟩) hread hproper
    (vars.sound_writeAll_restart boot.early)
  exact ⟨_, by rw [Boot.run, cfrCreateRuntimeComponents, hok]; rfl⟩

lemma Variables.restart_get (vars : Variables) (name : Text) :
    vars.restart.get name = (vars.get name).filter (·.nonVolatile) := rfl

lemma Variables.get_restart {vars : Variables} {name : Text} {v : Variable}
    (h : vars.get name = some v) (hv : v.nonVolatile) : vars.restart.get name = some v := by
  rw [Variables.restart_get, h, Option.filter_some_pos hv]

/-- One boot: a variable that is there, not volatile and not written before the menu is there in the
menu. Kind: L -/
theorem Boot.created_get {boot : Boot} {vars : Variables} {m : Menu} {name : Text} {v : Variable}
    (hok : cfrCreateRuntimeComponents boot.fw boot.hobs (vars.restart.writeAll boot.early) = .ok m)
    (hearly : ∀ w ∈ boot.early, w.1 ≠ name) (h : vars.get name = some v) (hv : v.nonVolatile) :
    m.vars.get name = some v := by
  rw [(createdVariables_eq hok).get, Variables.get_writeAll_of_ne hearly,
    Variables.get_restart h hv, Option.some_or]

/-- Whatever firmware boots, whatever its options and defaults: a setting that is not volatile
stays until its variable is written. Kind: P -/
theorem settings_survive {boots : List Boot} {vars vars' : Variables} {name : Text} {v : Variable}
    (hok : runBoots boots vars = .ok vars') (h : vars.get name = some v) (hv : v.nonVolatile)
    (hwrites : ∀ boot ∈ boots, ∀ w ∈ boot.early ++ boot.writes, w.1 ≠ name) :
    vars'.get name = some v := by
  induction boots generalizing vars with
  | nil =>
      injection hok with hok
      rwa [← hok]
  | cons boot boots ih =>
      obtain ⟨vars₁, hboot, hrest⟩ := bind_eq_ok.mp hok
      obtain ⟨m, hmenu, rfl⟩ := map_eq_ok.mp hboot
      obtain ⟨hearly, hlate⟩ := List.forall_mem_append.mp (hwrites boot List.mem_cons_self)
      apply ih hrest _ fun b hb => hwrites b (List.mem_cons_of_mem _ hb)
      rw [Variables.get_writeAll_of_ne hlate]
      exact boot.created_get hmenu hearly h hv

/-- A form with one switch `a`, its default and its flags. Kind: D -/
def switchForm (defaultValue flags : UInt32) : FormOption × List CfrItem :=
  (⟨⟨1, 0, 0⟩, ⟨[0x46, 0], 2⟩, none⟩,
    [.numeric { sampleOption .bool 2 0 0x61 none [] with
      defaultValue, header := ⟨2, 0, flags⟩ }])

/-- A boot with such a form. Kind: D -/
def switchBoot (defaultValue flags : UInt32) (early writes : List (Text × Option Variable)) :
    Boot :=
  ⟨sampleFirmware, [memoryOf (formOctets (switchForm defaultValue flags))], early, writes⟩

lemma written_switchForm (defaultValue flags : UInt32) :
    Written (memoryOf (formOctets (switchForm defaultValue flags)))
      (switchForm defaultValue flags) := by
  apply written_memoryOf
  · simp [OptionHeader.Fits, switchForm]
  · rw [switchForm, List.forall_mem_singleton]
    exact ⟨by simp [OptionHeader.Fits], .inr rfl⟩
  · simp [formOctets, switchForm, FormOption.front, CfrItem.encode, NumericOption.fields,
      sampleOption, VarBinary.size, encodeOptional, encodeHelpDep, optionHeaderSize,
      numericHeaderSize, varBinaryHeader]

lemma switchBoot_ok (defaultValue flags : UInt32) (early writes : List (Text × Option Variable))
    (vars : Variables) :
    ∃ vars', (switchBoot defaultValue flags early writes).run vars = .ok vars' := by
  refine Boot.run_ok (.cons (written_switchForm defaultValue flags) .nil) ?_ vars
  simp only [List.forall_mem_singleton, formItems, switchForm, List.forall_mem_cons]
  refine ⟨by simp [CfrItem.Proper, VarBinary.IsText], ?_⟩
  exact sampleOption_proper .bool 2 0 (by decide) none fun _ h => absurd h List.not_mem_nil

/-- A setting made before two boots with other defaults, and with writes to another variable.
Kind: C -/
theorem settings_survive_sample :
    ∃ vars', runBoots [switchBoot 0 0 [([0x63], none)] [([0x62], none)], switchBoot 1 0 [] []]
        ⟨Function.update (fun _ => none) [0x61] (some ⟨true, false, [7]⟩), fun _ => false⟩ =
          .ok vars' ∧
      vars'.get [0x61] = some ⟨true, false, [7]⟩ := by
  obtain ⟨vars₁, h₁⟩ := switchBoot_ok 0 0 [([0x63], none)] [([0x62], none)]
    ⟨Function.update (fun _ => none) [0x61] (some ⟨true, false, [7]⟩), fun _ => false⟩
  obtain ⟨vars₂, h₂⟩ := switchBoot_ok 1 0 [] [] vars₁
  have hok : runBoots [switchBoot 0 0 [([0x63], none)] [([0x62], none)], switchBoot 1 0 [] []] _ =
      .ok vars₂ :=
    bind_eq_ok.mpr ⟨vars₁, h₁, bind_eq_ok.mpr ⟨vars₂, h₂, rfl⟩⟩
  exact ⟨vars₂, hok, settings_survive hok (by simp) rfl (by decide)⟩

/-! ### Read-only options -/

/-- The lock the menu takes for a read-only option. Kind: D -/
def Boot.locks (boot : Boot) (name : Text) : Bool :=
  boot.requests.any fun r => r.name = name && r.readOnly && boot.fw.canLock name

/-- What a boot must be like to keep the variable of a read-only option. Kind: D -/
structure Boot.Freezes (boot : Boot) (name : Text) : Prop where
  /-- Nobody writes it before the menu has locked it. -/
  early : ∀ w ∈ boot.early, w.1 ≠ name
  /-- The firmware has the option, and has it read-only. -/
  option : ∃ request ∈ boot.requests, request.name = name ∧ request.readOnly
  /-- There is a variable policy, and it takes the lock. -/
  policy : ∃ registers ∈ boot.fw.variablePolicy, registers name = true

lemma Boot.Freezes.locks {boot : Boot} {name : Text} (h : boot.Freezes name) :
    boot.locks name = true := by
  obtain ⟨request, hmem, hname, hreadOnly⟩ := h.option
  obtain ⟨registers, hpolicy, hregisters⟩ := h.policy
  have hcan : boot.fw.canLock name = true := by
    rw [Services.canLock, Option.mem_def.mp hpolicy]
    exact hregisters
  rw [Boot.locks, List.any_eq_true]
  exact ⟨request, hmem, by simp [hname, hreadOnly, hcan]⟩

/-- After the menu a variable is locked if the menu has asked for it. Kind: L -/
theorem Boot.locked_eq {boot : Boot} {vars : Variables} {m : Menu}
    (hok : cfrCreateRuntimeComponents boot.fw boot.hobs (vars.restart.writeAll boot.early) = .ok m)
    (name : Text) : m.vars.locked name = boot.locks name := by
  rw [(createdVariables_eq hok).lock, Variables.locked_writeAll]
  exact Bool.false_or _

/-- Without the lock, whoever writes last decides. Kind: L -/
theorem Boot.get_of_unlocked {boot : Boot} {vars vars' : Variables} {name : Text}
    {v : Option Variable} (hok : boot.run vars = .ok vars') (hlock : boot.locks name = false)
    (hlast : [(name, v)] <:+ boot.writes) : vars'.get name = v := by
  obtain ⟨m, hmenu, rfl⟩ := map_eq_ok.mp hok
  obtain ⟨writes, hwrites⟩ := hlast
  rw [← hwrites, Variables.writeAll, List.foldl_append]
  apply Variables.get_write_of_unlocked
  rw [← Variables.writeAll, Variables.locked_writeAll, Boot.locked_eq hmenu, hlock]

lemma readOnly_kept {boots : List Boot} {vars vars' : Variables} {name : Text} {v : Variable}
    (hfreezes : ∀ boot ∈ boots, boot.Freezes name) (hok : runBoots boots vars = .ok vars')
    (h : vars.get name = some v) (hv : v.nonVolatile) : vars'.get name = some v := by
  induction boots generalizing vars with
  | nil =>
      injection hok with hok
      rwa [← hok]
  | cons boot boots ih =>
      obtain ⟨vars₁, hboot, hrest⟩ := bind_eq_ok.mp hok
      obtain ⟨m, hmenu, rfl⟩ := map_eq_ok.mp hboot
      have hboot := hfreezes boot List.mem_cons_self
      apply ih (fun b hb => hfreezes b (List.mem_cons_of_mem _ hb)) hrest
      rw [Variables.get_writeAll_of_locked ((Boot.locked_eq hmenu name).trans hboot.locks)]
      exact boot.created_get hmenu hboot.early h hv

/-- A read-only option has the value of the first firmware that has it, for good: over all boots in
which the option is there and read-only, the variable policy takes its lock and nobody writes its
variable before that, the variable is what the first boot's option asked for, whatever is written
later in these boots and whatever default later firmware has. Kind: P -/
theorem readOnly_frozen {boot : Boot} {boots : List Boot} {vars vars' : Variables} {name : Text}
    {first : Request} (hnew : vars.get name = none)
    (hfirst : boot.requests.find? (fun r => r.name = name) = some first)
    (hkept : first.initial.nonVolatile) (hfreezes : ∀ b ∈ boot :: boots, b.Freezes name)
    (hok : runBoots (boot :: boots) vars = .ok vars') :
    vars'.get name = some first.initial := by
  obtain ⟨vars₁, hboot, hrest⟩ := bind_eq_ok.mp hok
  obtain ⟨m, hmenu, rfl⟩ := map_eq_ok.mp hboot
  have hboot := hfreezes boot List.mem_cons_self
  have hcreated : m.vars.get name = some first.initial := by
    have hrequests : boot.hobs.flatMap (hobRequests boot.fw) = boot.requests := rfl
    have hrestart : vars.restart.get name = none := by
      rw [Variables.restart_get, hnew, Option.filter_none]
    rw [(createdVariables_eq hmenu).get, Variables.get_writeAll_of_ne hboot.early, hrestart,
      Option.none_or, hrequests, hfirst, Option.map_some]
  apply readOnly_kept (fun b hb => hfreezes b (List.mem_cons_of_mem _ hb)) hrest _ hkept
  rwa [Variables.get_writeAll_of_locked ((Boot.locked_eq hmenu name).trans hboot.locks)]

lemma switchBoot_requests (defaultValue flags : UInt32)
    (early writes : List (Text × Option Variable)) :
    (switchBoot defaultValue flags early writes).requests =
      [OptionHeader.request ⟨2, 0, flags⟩ [0x61] (le32 defaultValue)] := by
  have hread := (written_switchForm defaultValue flags).read
  rw [Boot.requests, switchBoot, List.flatMap_singleton, hobRequests, hread]
  rfl

lemma switchBoot_freezes (defaultValue : UInt32) {early : List (Text × Option Variable)}
    (hearly : ∀ w ∈ early, w.1 ≠ [0x61]) (writes : List (Text × Option Variable)) :
    (switchBoot defaultValue flagReadOnly early writes).Freezes [0x61] where
  early := hearly
  option := by
    refine ⟨OptionHeader.request ⟨2, 0, flagReadOnly⟩ [0x61] (le32 defaultValue), ?_, rfl, ?_⟩
    · rw [switchBoot_requests]
      exact List.mem_singleton_self _
    · exact (by decide : OptionHeader.has ⟨2, 0, flagReadOnly⟩ flagReadOnly = true)
  policy := ⟨_, rfl, rfl⟩

/-- A read-only switch with default one, somebody who tries to delete its variable, and a firmware
with default zero: the variable is one. If the first boot has no variable policy, it is deleted.
Kind: C -/
theorem readOnly_frozen_sample :
    (∃ vars', runBoots [switchBoot 1 flagReadOnly [([0x62], none)] [([0x61], none)],
          switchBoot 0 flagReadOnly [] []] noVariables = .ok vars' ∧
        vars'.get [0x61] = some ⟨true, false, le32 1⟩) ∧
      ∀ vars', Boot.run { switchBoot 1 flagReadOnly [] [([0x61], none)] with
          fw := { sampleFirmware with variablePolicy := none } } noVariables = .ok vars' →
        vars'.get [0x61] = none := by
  obtain ⟨vars₁, h₁⟩ := switchBoot_ok 1 flagReadOnly [([0x62], none)] [([0x61], none)] noVariables
  obtain ⟨vars₂, h₂⟩ := switchBoot_ok 0 flagReadOnly [] [] vars₁
  have hok : runBoots [switchBoot 1 flagReadOnly [([0x62], none)] [([0x61], none)],
      switchBoot 0 flagReadOnly [] []] noVariables = .ok vars₂ :=
    bind_eq_ok.mpr ⟨vars₁, h₁, bind_eq_ok.mpr ⟨vars₂, h₂, rfl⟩⟩
  have hfirst : (switchBoot 1 flagReadOnly [([0x62], none)] [([0x61], none)]).requests.find?
      (fun r => r.name = [0x61]) =
        some (OptionHeader.request ⟨2, 0, flagReadOnly⟩ [0x61] (le32 1)) := by
    rw [switchBoot_requests]
    rfl
  refine ⟨⟨vars₂, hok, readOnly_frozen rfl hfirst ?_ ?_ hok⟩, fun vars' hrun => ?_⟩
  · decide
  · rw [List.forall_mem_cons, List.forall_mem_singleton]
    exact ⟨switchBoot_freezes 1 (by decide) _, switchBoot_freezes 0 (by decide) _⟩
  · refine Boot.get_of_unlocked hrun ?_ List.suffix_rfl
    simp [Boot.locks, Services.canLock]

end NucBios.Setup
