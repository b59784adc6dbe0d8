import NucBios.Lib.Machine
import NucBios.Uefi.DevicePath

/-!
# The boot override: `HandleBootOverride` against a BMC that others write to

The host reads the ComputerSystem resource once a boot, matches the override it finds there against
its boot options, clears the override with a `PATCH`, and only when the BMC accepted the clear
stages `BootNext` and resets. The read and the clear are two requests; between them, and at any
other time, an operator may stage something else.

* `findBootOverrideOption`, `handleBootOverride` — the driver's functions;
* `exchange` — the machine of the two parties: operator stagings, the `GET`, the `PATCH` taking
  effect, its reply (which may be lost or wrong in the failing direction), clears that take effect
  after the host gave up on them, power cycles. The host's moves are the pieces of
  `handleBootOverride` (`handleBootOverride_eq`);
* `override_one_shot` — every reset is paid for by a staging of its own, and goes to the first
  option of the class that was read;
* `cleared_is_applied` — the override a successful clear removed is the one applied, unless
  something was staged in the window between the read and the clear; `staging_lost_in_window` shows
  that window.
-/

namespace NucBios.Redfish

open NucBios.Uefi NucBios.Lib

/-! ### Matching boot options -/

/-- Source: `NucRedfishSyncDxe.c` `OptionHasNode`. Kind: D -/
def optionHasNode (option : LoadOption) (type subType : UInt8) : Bool :=
  match option.filePath with
  | none => false
  | some nodes => nodes.any fun n => n.type == type && n.subType == subType

/-- The loop of `OptionIsNetworkBoot`; a USB node ends it. Kind: D -/
def networkBootLoop : Bool → List DevicePathNode → Bool
  | hasMac, [] => hasMac
  | hasMac, n :: ns =>
      if n.type ≠ messagingDevicePath then
        networkBootLoop hasMac ns
      else if n.subType = msgUsbDp then
        false
      else
        networkBootLoop (if n.subType = msgMacAddrDp then true else hasMac) ns

/-- Source: `NucRedfishSyncDxe.c` `OptionIsNetworkBoot`. Kind: D -/
def optionIsNetworkBoot (option : LoadOption) : Bool :=
  match option.filePath with
  | none => false
  | some nodes => networkBootLoop false nodes

/-- Source: `NucRedfishSyncDxe.c` `OptionIsDiskBoot`. Kind: D -/
def optionIsDiskBoot (option : LoadOption) : Bool :=
  match option.filePath with
  | none => false
  | some nodes =>
      if optionHasNode option mediaDevicePath mediaHarddriveDp then
        true
      else
        nodes.any fun n => n.type == messagingDevicePath &&
          [msgNvmeNamespaceDp, msgSataDp, msgAtapiDp, msgScsiDp, msgEmmcDp, msgSdDp,
            msgUfsDp].contains n.subType

/-- A `CHAR8` string without its NUL. -/
abbrev Text := List UInt8

/-- The test of the matching loop; for a target it does not know `Found` stays `FALSE`.
Source: `NucRedfishSyncDxe.c` `FindBootOverrideOption`
Kind: D -/
def optionMatches (target : Text) (option : LoadOption) : Bool :=
  if target = ascii "BiosSetup" then
    option.attributes &&& loadOptionCategory == loadOptionCategoryApp
  else if target = ascii "Pxe" then
    optionIsNetworkBoot option
  else if target = ascii "Hdd" then
    optionIsDiskBoot option
  else
    false

/-- The index of the match, `none` for `EFI_NOT_FOUND`. `options` is what
`EfiBootManagerGetLoadOptions` returns, an empty list standing for `NULL` too.
Source: `NucRedfishSyncDxe.c` `FindBootOverrideOption`
Kind: D -/
def findBootOverrideOption (target : Option Text) (options : List LoadOption) : Option ℕ :=
  match target with
  | none => none
  | some t =>
      if t = ascii "None" then
        none
      else
        options.findIdx? (optionMatches t)

/-! ### `HandleBootOverride` -/

/-- The `Boot` object of the ComputerSystem resource: the two properties as strings, `none` for a
property that is missing or no string. Kind: D -/
structure Override where
  target : Option Text
  enabled : Option Text
  deriving DecidableEq, Repr

/-- The option a request asks for: only `"Once"` is honoured. Kind: D -/
def requestedOption (request : Override) (options : List LoadOption) : Option LoadOption :=
  if request.enabled = some (ascii "Once") then
    (findBootOverrideOption request.target options).bind fun i => options[i]?
  else
    none

/-- How `HandleBootOverride` ends. Kind: D -/
inductive HostEnd where
  /-- Nothing to do. -/
  | quiet
  /-- The clear was not accepted. -/
  | notCleared
  /-- `SetVariable` failed. -/
  | notStaged
  /-- `BootNext` staged, cold reset. -/
  | reset (bootNext : UInt16)
  deriving DecidableEq, Repr

/-- From the reply to the clear on: `ApplyMatchedOption`, unless the clear failed. Kind: D -/
def afterClear (option : LoadOption) (patch setVariable : EfiStatus) : HostEnd :=
  if efiError patch then
    .notCleared
  else if efiError setVariable then
    .notStaged
  else
    .reset option.optionNumber

/-- The function: `payload` is the `Boot` object of the response, `none` when there is none.
Source: `NucRedfishSyncDxe.c` `HandleBootOverride`
Kind: D -/
def handleBootOverride (payload : Option Override) (options : List LoadOption)
    (patch setVariable : EfiStatus) : HostEnd :=
  match payload with
  | none => .quiet
  | some request =>
      if request.enabled ≠ some (ascii "Once") then
        .quiet
      else
        match findBootOverrideOption request.target options with
        | none => .quiet
        | some i =>
            match options[i]? with
            | none => .quiet
            | some option =>
                if efiError patch then
                  .notCleared
                else if efiError setVariable then
                  .notStaged
                else
                  .reset option.optionNumber

/-- The function in the two pieces that the exchange interleaves with others. Kind: L -/
theorem handleBootOverride_eq (payload : Option Override) (options : List LoadOption)
    (patch setVariable : EfiStatus) :
    handleBootOverride payload options patch setVariable =
      ((payload.bind fun request => requestedOption request options).elim .quiet
        fun option => afterClear option patch setVariable) := by
  rcases payload with _ | request
  · rfl
  unfold handleBootOverride requestedOption
  rw [Option.bind_some]
  by_cases honce : request.enabled = some (ascii "Once")
  swap
  · simp [honce]
  simp only [honce, ne_eq, not_true_eq_false, if_false, if_true]
  rcases findBootOverrideOption request.target options with _ | i
  · rfl
  · simp only [Option.bind_some]
    rcases options[i]? with _ | option
    · rfl
    · rfl

/-! ### Boot classes -/

/-- The boot classes a target can name. Kind: D -/
inductive BootClass where
  | biosSetup
  | pxe
  | hdd
  deriving DecidableEq, Repr

/-- The class a target names. Kind: D -/
def BootClass.ofTarget (t : Text) : Option BootClass :=
  if t = ascii "BiosSetup" then some .biosSetup
  else if t = ascii "Pxe" then some .pxe
  else if t = ascii "Hdd" then some .hdd
  else none

/-- The options of a class. Kind: D -/
def BootClass.contains : BootClass → LoadOption → Bool
  | .biosSetup, o => o.attributes &&& loadOptionCategory == loadOptionCategoryApp
  | .pxe, o => optionIsNetworkBoot o
  | .hdd, o => optionIsDiskBoot o

/-- The loop's test is membership in the class the target names. Kind: L -/
theorem optionMatches_eq (t : Text) (o : LoadOption) :
    optionMatches t o = (BootClass.ofTarget t).elim false fun c => c.contains o := by
  unfold optionMatches BootClass.ofTarget
  split_ifs <;> rfl

/-- The lowest-index option of a class. Kind: D -/
def IsFirstOfClass (c : BootClass) (options : List LoadOption) (o : LoadOption) : Prop :=
  ∃ i : ℕ, options[i]? = some o ∧ c.contains o = true ∧
    ∀ j < i, ∀ o', options[j]? = some o' → c.contains o' = false

/-- **What is requested.** A request yields an option exactly when it says `"Once"` and its target
names a class, and then the first option of that class.
Source: `NucRedfishSyncDxe.c` `FindBootOverrideOption`, `HandleBootOverride`
Kind: P -/
theorem requestedOption_eq_some {request : Override} {options : List LoadOption} {o : LoadOption}
    (h : requestedOption request options = some o) :
    request.enabled = some (ascii "Once") ∧ ∃ t c, request.target = some t ∧
      BootClass.ofTarget t = some c ∧ IsFirstOfClass c options o := by
  unfold requestedOption at h
  split_ifs at h with honce
  refine ⟨honce, ?_⟩
  obtain ⟨i, hfind, hi⟩ := Option.bind_eq_some_iff.mp h
  unfold findBootOverrideOption at hfind
  split at hfind
  · cases hfind
  rename_i t htarget
  split_ifs at hfind
  rw [List.findIdx?_eq_some_iff_getElem] at hfind
  obtain ⟨hlt, hmatch, hleft⟩ := hfind
  rw [List.getElem?_eq_getElem hlt, Option.some.injEq] at hi
  rw [hi, optionMatches_eq] at hmatch
  rcases hc : BootClass.ofTarget t with _ | c
  · rw [hc] at hmatch
    cases hmatch
  rw [hc] at hmatch
  refine ⟨t, c, htarget, hc, i, by rw [List.getElem?_eq_getElem hlt, hi], hmatch, ?_⟩
  intro j hj o' ho'
  obtain ⟨hjlt, rfl⟩ := List.getElem?_eq_some_iff.mp ho'
  have hno := hleft j hj
  rw [optionMatches_eq, hc] at hno
  exact Bool.not_eq_true _ ▸ hno

/-! ### The exchange -/

/-- What a matched request carries until the reset. `stagedSince` is a record kept for the
statements: what operators staged after the read, until the clear took effect.
Kind: D -/
structure Pending where
  request : Override
  options : List LoadOption
  option : LoadOption
  stagedSince : List Override
  deriving DecidableEq, Repr

/-- Where the host is in its boot. Kind: D -/
inductive Phase where
  /-- Before the `GET`. -/
  | booting
  /-- A match; the clear has been sent and is not in effect. -/
  | matched (p : Pending)
  /-- The clear is in effect, and removed this; the host has no reply yet. -/
  | cleared (p : Pending) (removed : Override)
  /-- Nothing more to come in this boot. -/
  | done
  deriving DecidableEq, Repr

/-- A cold reset, with what led to it. Kind: D -/
structure ResetRecord where
  pending : Pending
  removed : Override
  bootNext : UInt16
  deriving DecidableEq, Repr

/-- Both parties. `inFlight` counts clears the host gave up on that may still reach the BMC.
Kind: D -/
structure World where
  bmc : Override
  phase : Phase
  inFlight : ℕ
  resets : List ResetRecord
  deriving DecidableEq, Repr

/-- What can happen. Kind: D -/
inductive ExchangeEvent where
  /-- An operator stages an override. -/
  | stage (o : Override)
  /-- The host's `GET`, and whether its answer arrives. -/
  | get (delivered : Bool) (options : List LoadOption)
  /-- The clear takes effect. -/
  | patchEffect
  /-- The host learns the result of the clear, and goes on with it. -/
  | patchReply (patch setVariable : EfiStatus)
  /-- A clear the host gave up on takes effect. -/
  | lateEffect
  | powerCycle

/-- `{"Boot":{"BootSourceOverrideEnabled":"Disabled"}}` on the BMC. Kind: D -/
def Override.clear (o : Override) : Override := { o with enabled := some (ascii "Disabled") }

/-- A staging while the clear is under way. Kind: D -/
def Phase.note (o : Override) : Phase → Phase
  | .matched p => .matched { p with stagedSince := p.stagedSince ++ [o] }
  | phase => phase

/-- The host on the answer of the `GET`. Kind: D -/
def Phase.onGet (delivered : Bool) (request : Override) (options : List LoadOption) : Phase :=
  if delivered then
    match requestedOption request options with
    | none => .done
    | some option => .matched ⟨request, options, option, []⟩
  else
    .done

/-- The host and the BMC.
Source: `NucRedfishSyncDxe.c` `NucRedfishSync`, `HandleBootOverride`
Kind: D -/
def exchange : Machine World ExchangeEvent where
  step w
    | .stage o => some { w with bmc := o, phase := w.phase.note o }
    | .get delivered options =>
        match w.phase with
        | .booting => some { w with phase := .onGet delivered w.bmc options }
        | _ => none
    | .patchEffect =>
        match w.phase with
        | .matched p => some { w with bmc := w.bmc.clear, phase := .cleared p w.bmc }
        | _ => none
    | .patchReply patch setVariable =>
        match w.phase with
        | .cleared p removed =>
            match afterClear p.option patch setVariable with
            | .reset bootNext =>
                some { w with phase := .booting, resets := w.resets ++ [⟨p, removed, bootNext⟩] }
            | _ => some { w with phase := .done }
        | .matched _ =>
            -- a clear reported successful did take effect
            if efiError patch then
              some { w with phase := .done, inFlight := w.inFlight + 1 }
            else
              none
        | _ => none
    | .lateEffect =>
        match w.inFlight with
        | 0 => none
        | n + 1 => some { w with bmc := w.bmc.clear, inFlight := n }
    | .powerCycle =>
        match w.phase with
        | .matched _ => some { w with phase := .booting, inFlight := w.inFlight + 1 }
        | _ => some { w with phase := .booting }

/-- A BMC, and a host about to boot. Kind: D -/
def World.start (bmc : Override) : World := ⟨bmc, .booting, 0, []⟩

/-- What one event can do. Kind: D -/
inductive ExchangeStep (w : World) : ExchangeEvent → World → Prop where
  | stage (o : Override) : ExchangeStep w (.stage o) { w with bmc := o, phase := w.phase.note o }
  | get (d : Bool) (options : List LoadOption) (hphase : w.phase = .booting) :
      ExchangeStep w (.get d options) { w with phase := .onGet d w.bmc options }
  | patchEffect (p : Pending) (hphase : w.phase = .matched p) :
      ExchangeStep w .patchEffect { w with bmc := w.bmc.clear, phase := .cleared p w.bmc }
  | reset (p : Pending) (removed : Override) (patch setVariable : EfiStatus)
      (hphase : w.phase = .cleared p removed) (hpatch : efiError patch = false)
      (hset : efiError setVariable = false) :
      ExchangeStep w (.patchReply patch setVariable)
        { w with phase := .booting, resets := w.resets ++ [⟨p, removed, p.option.optionNumber⟩] }
  | giveUp (patch setVariable : EfiStatus) (n : ℕ) :
      ExchangeStep w (.patchReply patch setVariable) { w with phase := .done, inFlight := n }
  | lateEffect (n : ℕ) : ExchangeStep w .lateEffect { w with bmc := w.bmc.clear, inFlight := n }
  | powerCycle (n : ℕ) : ExchangeStep w .powerCycle { w with phase := .booting, inFlight := n }

lemma exchangeStep_of_step {w t : World} {e : ExchangeEvent} (h : exchange.step w e = some t) :
    ExchangeStep w e t := by
  cases e with
  | stage o =>
      obtain rfl := Option.some.inj h
      exact .stage o
  | get d options =>
      simp only [exchange] at h
      split at h
      · rename_i hphase
        obtain rfl := Option.some.inj h
        exact .get d options hphase
      · cases h
  | patchEffect =>
      simp only [exchange] at h
      split at h
      · rename_i p hphase
        obtain rfl := Option.some.inj h
        exact .patchEffect p hphase
      · cases h
  | patchReply patch setVariable =>
      simp only [exchange, afterClear] at h
      split at h
      · rename_i p removed hphase
        split_ifs at h with hpatch hset
        · obtain rfl := Option.some.inj h
          exact .giveUp patch setVariable w.inFlight
        · obtain rfl := Option.some.inj h
          exact .giveUp patch setVariable w.inFlight
        · obtain rfl := Option.some.inj h
          exact .reset p removed patch setVariable hphase (by simpa using hpatch)
            (by simpa using hset)
      · split_ifs at h
        obtain rfl := Option.some.inj h
        exact .giveUp patch setVariable (w.inFlight + 1)
      · cases h
  | lateEffect =>
      simp only [exchange] at h
      split at h
      · cases h
      · rename_i n hn
        obtain rfl := Option.some.inj h
        exact .lateEffect n
  | powerCycle =>
      simp only [exchange] at h
      split at h
      · obtain rfl := Option.some.inj h
        exact .powerCycle (w.inFlight + 1)
      · obtain rfl := Option.some.inj h
        exact .powerCycle w.inFlight

/-! ### One-shot -/

/-- The BMC holds an override to be honoured. Kind: D -/
def Override.isOnce (o : Override) : Bool := o.enabled == some (ascii "Once")

@[simp] theorem Override.isOnce_clear (o : Override) : o.clear.isOnce = false := by
  have hne : (some (ascii "Disabled") == some (ascii "Once")) = false := by decide
  exact hne

/-- The overrides a phase and a BMC can still turn into resets: a request that was read and not
given up on, and one on the BMC that no clear of this boot will remove unread.
Kind: D -/
def Phase.outstanding (bmc : Override) : Phase → ℕ
  | .matched _ => 1
  | .cleared _ _ => 1 + bmc.isOnce.toNat
  | _ => bmc.isOnce.toNat

@[simp] theorem Phase.outstanding_booting (bmc : Override) :
    Phase.booting.outstanding bmc = bmc.isOnce.toNat := rfl

@[simp] theorem Phase.outstanding_matched (bmc : Override) (p : Pending) :
    (Phase.matched p).outstanding bmc = 1 := rfl

@[simp] theorem Phase.outstanding_cleared (bmc : Override) (p : Pending) (removed : Override) :
    (Phase.cleared p removed).outstanding bmc = 1 + bmc.isOnce.toNat := rfl

@[simp] theorem Phase.outstanding_done (bmc : Override) :
    Phase.done.outstanding bmc = bmc.isOnce.toNat := rfl

/-- Resets done, and those still outstanding. Kind: D -/
def World.account (w : World) : ℕ := w.resets.length + w.phase.outstanding w.bmc

/-- A staging of `"Once"`. Kind: D -/
def ExchangeEvent.isOnceStaging : ExchangeEvent → Bool
  | .stage o => o.isOnce
  | _ => false

lemma Phase.isOnce_le_outstanding (bmc : Override) (phase : Phase) :
    bmc.isOnce.toNat ≤ phase.outstanding bmc := by
  cases phase with
  | booting => exact le_rfl
  | matched p => exact Bool.toNat_le _
  | cleared p removed => exact Nat.le_add_left _ _
  | done => exact le_rfl

lemma Phase.outstanding_note_le (bmc o : Override) (phase : Phase) :
    (phase.note o).outstanding o ≤ o.isOnce.toNat + phase.outstanding bmc := by
  cases phase with
  | booting => exact Nat.le_add_right _ _
  | matched p => exact Nat.le_add_left _ _
  | cleared p removed =>
      show 1 + o.isOnce.toNat ≤ o.isOnce.toNat + (1 + bmc.isOnce.toNat)
      omega
  | done => exact Nat.le_add_right _ _

lemma Phase.outstanding_clear_le (bmc : Override) (phase : Phase) :
    phase.outstanding bmc.clear ≤ phase.outstanding bmc := by
  cases phase with
  | booting => simp
  | matched p => exact le_rfl
  | cleared p removed => simp
  | done => simp

/-- Reading turns an override on the BMC into a request, and makes none out of nothing. Kind: L -/
lemma Phase.outstanding_onGet_le (d : Bool) (bmc : Override) (options : List LoadOption) :
    (Phase.onGet d bmc options).outstanding bmc ≤ bmc.isOnce.toNat := by
  unfold Phase.onGet
  split_ifs
  · split
    · exact le_rfl
    · rename_i option hrequested
      have honce := (requestedOption_eq_some hrequested).1
      simp [Override.isOnce, honce]
  · exact le_rfl

/-- **The step.** Only a staging of `"Once"` adds to the account, and only one. Kind: L -/
theorem account_step {w t : World} {e : ExchangeEvent} (h : ExchangeStep w e t) :
    t.account ≤ (if e.isOnceStaging then 1 else 0) + w.account := by
  unfold World.account
  cases h with
  | stage o =>
      have hnote := Phase.outstanding_note_le w.bmc o w.phase
      have hone : o.isOnce.toNat = if (ExchangeEvent.stage o).isOnceStaging then 1 else 0 := by
        rw [ExchangeEvent.isOnceStaging]
        cases o.isOnce <;> rfl
      simp only
      omega
  | get d options hphase =>
      have hget := Phase.outstanding_onGet_le d w.bmc options
      have hle := w.phase.isOnce_le_outstanding w.bmc
      simp only
      omega
  | patchEffect p hphase =>
      simp [hphase]
  | reset p removed patch setVariable hphase hpatch hset =>
      simp only [hphase, List.length_append, List.length_singleton, Phase.outstanding_booting,
        Phase.outstanding_cleared]
      omega
  | giveUp patch setVariable n =>
      have hle := w.phase.isOnce_le_outstanding w.bmc
      simp only [Phase.outstanding_done]
      omega
  | lateEffect n =>
      have hle := Phase.outstanding_clear_le w.bmc w.phase
      simp only
      omega
  | powerCycle n =>
      have hle := w.phase.isOnce_le_outstanding w.bmc
      simp only [Phase.outstanding_booting]
      omega

/-- What is known of a request under way: it was read as `"Once"`, of a known class, and matched the
first option of it. Kind: D -/
def Pending.Sound (p : Pending) : Prop := requestedOption p.request p.options = some p.option

/-- Requests under way are sound, past ones were, and each reset went to the option of its request.
Kind: D -/
structure World.Sound (w : World) : Prop where
  matched : ∀ p, w.phase = .matched p → p.Sound
  cleared : ∀ p removed, w.phase = .cleared p removed → p.Sound
  resets : ∀ r ∈ w.resets, r.pending.Sound ∧ r.bootNext = r.pending.option.optionNumber

lemma Phase.onGet_eq_matched {d : Bool} {bmc : Override} {options : List LoadOption} {p : Pending}
    (h : Phase.onGet d bmc options = .matched p) :
    p.request = bmc ∧ p.stagedSince = [] ∧ p.Sound := by
  unfold Phase.onGet at h
  split_ifs at h
  split at h
  · cases h
  · rename_i option hrequested
    obtain rfl := Phase.matched.inj h
    exact ⟨rfl, rfl, hrequested⟩

lemma Phase.onGet_ne_cleared (d : Bool) (bmc : Override) (options : List LoadOption) (p : Pending)
    (removed : Override) : Phase.onGet d bmc options ≠ .cleared p removed := by
  unfold Phase.onGet
  split_ifs
  · split <;> simp
  · simp

lemma Phase.note_eq_matched {o : Override} {phase : Phase} {p : Pending}
    (h : phase.note o = .matched p) :
    ∃ p', phase = .matched p' ∧ p = { p' with stagedSince := p'.stagedSince ++ [o] } := by
  cases phase with
  | matched p' => exact ⟨p', rfl, (Phase.matched.inj h).symm⟩
  | booting => cases h
  | cleared p' removed => cases h
  | done => cases h

lemma Phase.note_eq_cleared {o removed : Override} {phase : Phase} {p : Pending}
    (h : phase.note o = .cleared p removed) : phase = .cleared p removed := by
  cases phase with
  | matched p' => cases h
  | booting => cases h
  | cleared p' removed' => exact h
  | done => cases h

/-- Soundness is kept. Kind: L -/
theorem sound_step {w t : World} {e : ExchangeEvent} (h : ExchangeStep w e t) (hw : w.Sound) :
    t.Sound := by
  cases h with
  | stage o =>
      refine ⟨fun p hp => ?_, fun p removed hp => ?_, hw.resets⟩
      · obtain ⟨p', hp', rfl⟩ := Phase.note_eq_matched hp
        exact hw.matched p' hp'
      · exact hw.cleared p removed (Phase.note_eq_cleared hp)
  | get d options hphase =>
      refine ⟨fun p hp => (Phase.onGet_eq_matched hp).2.2, fun p removed hp => ?_, hw.resets⟩
      exact absurd hp (Phase.onGet_ne_cleared _ _ _ _ _)
  | patchEffect p hphase =>
      refine ⟨fun p' hp' => (nomatch hp'), fun p' removed hp' => ?_, hw.resets⟩
      obtain ⟨rfl, -⟩ := Phase.cleared.inj hp'
      exact hw.matched p hphase
  | reset p removed patch setVariable hphase hpatch hset =>
      refine ⟨fun p' hp' => (nomatch hp'), fun p' removed' hp' => (nomatch hp'), fun r hr => ?_⟩
      rcases List.mem_append.mp hr with hr | hr
      · exact hw.resets r hr
      · rw [List.mem_singleton.mp hr]
        exact ⟨hw.cleared p removed hphase, rfl⟩
  | giveUp patch setVariable n =>
      exact ⟨fun p' hp' => (nomatch hp'), fun p' removed' hp' => (nomatch hp'), hw.resets⟩
  | lateEffect n => exact ⟨hw.matched, hw.cleared, hw.resets⟩
  | powerCycle n =>
      exact ⟨fun p' hp' => (nomatch hp'), fun p' removed' hp' => (nomatch hp'), hw.resets⟩

/-- Soundness along runs from a host about to boot. Kind: L -/
theorem sound_of_run {bmc : Override} {es : List ExchangeEvent} {u : World}
    (h : exchange.run (.start bmc) es = some u) : u.Sound := by
  have hstart : (World.start bmc).Sound :=
    ⟨fun p hp => (nomatch hp), fun p removed hp => (nomatch hp), fun r hr => (nomatch hr)⟩
  exact exchange.invariant_of_run World.Sound
    (fun s e t hs hstep => sound_step (exchangeStep_of_step hstep) hs) hstart h

/-- **The override is one-shot.** From a BMC with nothing to be honoured, over any interleaving of
operator stagings, boots, lost and late requests: the resets number at most the stagings of
`"Once"`; and each came from a request read as `"Once"`, whose target names a class, and went to the
first boot option of that class.
Source: `NucRedfishSyncDxe.c` `HandleBootOverride`
Kind: P -/
theorem override_one_shot {bmc : Override} (hbmc : bmc.enabled ≠ some (ascii "Once"))
    {es : List ExchangeEvent} {u : World} (h : exchange.run (.start bmc) es = some u) :
    u.resets.length ≤ es.countP ExchangeEvent.isOnceStaging ∧
    ∀ r ∈ u.resets, r.pending.request.enabled = some (ascii "Once") ∧
      ∃ t c o, r.pending.request.target = some t ∧ BootClass.ofTarget t = some c ∧
        IsFirstOfClass c r.pending.options o ∧ r.bootNext = o.optionNumber := by
  constructor
  · have hbound := exchange.tally_add_potential_le (fun _ => True) (fun _ _ _ _ _ => trivial)
      (fun _ _ => 0) (fun _ e => if e.isOnceStaging then 1 else 0) World.account
      (fun s e t _ ht => by
        rw [Nat.zero_add]
        exact account_step (exchangeStep_of_step ht)) trivial h
    have hstart : (World.start bmc).account = 0 := by
      simp [World.account, World.start, Override.isOnce, hbmc]
    have hresets : u.resets.length ≤ u.account := Nat.le_add_right _ _
    rw [Machine.tally_zero, exchange.tally_eq_countP _ h, hstart] at hbound
    omega
  · intro r hr
    obtain ⟨hsound, hnext⟩ := (sound_of_run h).resets r hr
    obtain ⟨honce, t, c, htarget, hclass, hfirst⟩ := requestedOption_eq_some hsound
    exact ⟨honce, t, c, r.pending.option, htarget, hclass, hfirst, hnext⟩

/-- A network boot option, and one on a disk. Kind: D -/
def sampleOptions : List LoadOption :=
  [⟨1, 1, some [⟨messagingDevicePath, msgNvmeNamespaceDp⟩]⟩,
    ⟨3, 1, some [⟨messagingDevicePath, msgMacAddrDp⟩]⟩]

def onceOverride (target : String) : Override := ⟨some (ascii target), some (ascii "Once")⟩

/-- The request `"Pxe"` once it has been read and matched. Kind: D -/
def pxePending : Pending :=
  ⟨onceOverride "Pxe", sampleOptions, ⟨3, 1, some [⟨messagingDevicePath, msgMacAddrDp⟩]⟩, []⟩

/-- The world once `"Pxe"` has been staged, read and cleared. Kind: D -/
def pxeCleared : World :=
  ⟨(onceOverride "Pxe").clear, .cleared pxePending (onceOverride "Pxe"), 0, []⟩

lemma run_pxeCleared :
    exchange.run (.start ⟨none, none⟩)
      [.stage (onceOverride "Pxe"), .get true sampleOptions, .patchEffect] = some pxeCleared := by
  decide +kernel

/-- One staging, a reset, and a boot that finds nothing to honour. Kind: C -/
theorem override_one_shot_pxe :
    [(⟨pxePending, onceOverride "Pxe", 3⟩ : ResetRecord)].length ≤
      [ExchangeEvent.stage (onceOverride "Pxe"), .get true sampleOptions, .patchEffect,
        .patchReply efiSuccess efiSuccess, .get true sampleOptions].countP
        ExchangeEvent.isOnceStaging :=
  (override_one_shot (by decide) (show exchange.run (.start ⟨none, none⟩) _ =
    some ⟨(onceOverride "Pxe").clear, .done, 0, [⟨pxePending, onceOverride "Pxe", 3⟩]⟩ by
      decide +kernel)).1

/-! ### What a clear removes -/

/-- The last write to the override since the read, or else what was read. Kind: D -/
def Pending.lastWritten (p : Pending) : Override := p.stagedSince.getLast?.getD p.request

/-- The target on the BMC, or removed from it, is that of the last write. Kind: D -/
structure World.Traced (w : World) : Prop where
  matched : ∀ p, w.phase = .matched p → w.bmc.target = p.lastWritten.target
  cleared : ∀ p removed, w.phase = .cleared p removed → removed.target = p.lastWritten.target

lemma traced_step {w t : World} {e : ExchangeEvent} (h : ExchangeStep w e t) (hw : w.Traced) :
    t.Traced := by
  cases h with
  | stage o =>
      refine ⟨fun p hp => ?_, fun p removed hp => hw.cleared p removed (Phase.note_eq_cleared hp)⟩
      obtain ⟨p', -, rfl⟩ := Phase.note_eq_matched hp
      simp [Pending.lastWritten]
  | get d options hphase =>
      refine ⟨fun p hp => ?_, fun p removed hp => absurd hp (Phase.onGet_ne_cleared _ _ _ _ _)⟩
      obtain ⟨hrequest, hnone, -⟩ := Phase.onGet_eq_matched hp
      rw [Pending.lastWritten, hnone, hrequest]
      rfl
  | patchEffect p hphase =>
      refine ⟨fun p' hp' => (nomatch hp'), fun p' removed hp' => ?_⟩
      obtain ⟨rfl, rfl⟩ := Phase.cleared.inj hp'
      exact hw.matched p hphase
  | reset p removed patch setVariable hphase hpatch hset =>
      exact ⟨fun p' hp' => (nomatch hp'), fun p' removed' hp' => (nomatch hp')⟩
  | giveUp patch setVariable n =>
      exact ⟨fun p' hp' => (nomatch hp'), fun p' removed' hp' => (nomatch hp')⟩
  | lateEffect n => exact ⟨hw.matched, hw.cleared⟩
  | powerCycle n =>
      exact ⟨fun p' hp' => (nomatch hp'), fun p' removed' hp' => (nomatch hp')⟩

lemma traced_of_run {bmc : Override} {es : List ExchangeEvent} {u : World}
    (h : exchange.run (.start bmc) es = some u) : u.Traced := by
  have hstart : (World.start bmc).Traced :=
    ⟨fun p hp => (nomatch hp), fun p removed hp => (nomatch hp)⟩
  exact exchange.invariant_of_run World.Traced
    (fun s e t hs hstep => traced_step (exchangeStep_of_step hstep) hs) hstart h

/-- **What a successful clear removed.** Whenever a clear is in effect and its success reaches the
host, with `SetVariable` succeeding, the host stages in `BootNext` the first option of the class of
the target it read; and the override removed from the BMC has that target too, unless something was
staged between the read and the clear: then it is the last such staging that is gone.
Source: `NucRedfishSyncDxe.c` `HandleBootOverride`
Kind: P -/
theorem cleared_is_applied {bmc removed : Override} {es : List ExchangeEvent} {u : World}
    {p : Pending} {patch setVariable : EfiStatus} (h : exchange.run (.start bmc) es = some u)
    (hphase : u.phase = .cleared p removed) (hpatch : efiError patch = false)
    (hset : efiError setVariable = false) :
    (∃ t c o, p.request.target = some t ∧ BootClass.ofTarget t = some c ∧
      IsFirstOfClass c p.options o ∧
      exchange.step u (.patchReply patch setVariable) =
        some { u with phase := .booting, resets := u.resets ++ [⟨p, removed, o.optionNumber⟩] }) ∧
    removed.target = (p.stagedSince.getLast?.getD p.request).target := by
  have hsound := (sound_of_run h).cleared p removed hphase
  obtain ⟨-, t, c, htarget, hclass, hfirst⟩ := requestedOption_eq_some hsound
  refine ⟨⟨t, c, p.option, htarget, hclass, hfirst, ?_⟩,
    (traced_of_run h).cleared p removed hphase⟩
  simp only [exchange, hphase, afterClear, hpatch, hset, Bool.false_eq_true, if_false]

/-- With nothing staged in between, the removed override is the one applied. Kind: C -/
theorem cleared_is_applied_pxe :
    (onceOverride "Pxe").target =
      (pxePending.stagedSince.getLast?.getD pxePending.request).target :=
  (cleared_is_applied run_pxeCleared rfl efiError_efiSuccess efiError_efiSuccess).2

/-- An operator replaces `"Pxe"` by `"Hdd"` between the read and the clear: the clear removes
`"Hdd"`, and the host boots `"Pxe"`.
Kind: C -/
theorem staging_lost_in_window :
    (exchange.run (.start ⟨none, none⟩)
      [.stage (onceOverride "Pxe"), .get true sampleOptions, .stage (onceOverride "Hdd"),
        .patchEffect, .patchReply efiSuccess efiSuccess]).map (fun u => (u.bmc, u.resets)) =
    some ((onceOverride "Hdd").clear,
      [⟨{ pxePending with stagedSince := [onceOverride "Hdd"] }, onceOverride "Hdd", 3⟩]) := by
  decide +kernel

end NucBios.Redfish
