import NucBios.Usb.AcmBinding

/-!
# What a start of the CDC-ACM driver holds, and what a stop takes back

A stop undoes in two calls what a start did. Any call on the way may fail. "Balanced" is an equation
between ledgers.

* `start_cases` — the three ways a start ends: nothing is held, everything is held, or the child
  handle is left behind;
* `stop_started`, `stop_refused` — the two calls of a stop lead back to the ledger before the start,
  and a stop that is refused leads back to the one after it;
* `balanced_iff` — a start is balanced unless a call fails after the child handle was made and its
  removal is refused: the clean-up does not look at the status of the removal and frees the device
  SerialIo lives in.
-/

namespace NucBios.Usb

open Uefi

/-! ### Stop -/

/-- The answers of a stop. Kind: D -/
structure StopCalls where
  /-- SerialIo of the child is opened `GET_PROTOCOL`. -/
  openSerialIo : EfiStatus
  uninstalled : EfiStatus
  /-- The calls that put things back when the removal is refused. -/
  openedByChild : EfiStatus
  eventCreated : EfiStatus
  timerSet : EfiStatus

namespace Ledger

/-- Source: `SerialIo.c` `UsbCdcAcmUninstallSerialIo`. Kind: D -/
def usbCdcAcmUninstallSerialIo (s : StopCalls) (dev : AcmChild) (child : Handle) (l : Ledger) :
    EfiStatus × Ledger :=
  -- the timer is cancelled and the event closed, if there is one
  let quiet := (l.setPoll child none).closeByChild dev child
  if efiError s.uninstalled then
    let reopened := if efiError s.openedByChild then quiet else quiet.openByChild dev child
    (s.uninstalled,
      if efiError s.eventCreated then reopened
      else reopened.setPoll child (some (!efiError s.timerSet)))
  else
    (efiSuccess, quiet.uninstall s.uninstalled child)

/-- Source: `UsbCdcAcmDxe.c` `UsbCdcAcmDriverStop`. Kind: D -/
def usbCdcAcmDriverStop (s : StopCalls) (driver controller : Handle) (children : List Handle)
    (l : Ledger) : EfiStatus × Ledger :=
  match children with
  | [] =>
      (if l.claims controller = some driver then efiSuccess else efiNotFound,
        l.closeByDriver driver controller)
  | child :: _ =>
      if efiError s.openSerialIo then (s.openSerialIo, l)
      else
        match l.serialIo child with
        | none => (efiUnsupported, l)
        | some dev =>
            let r := usbCdcAcmUninstallSerialIo s dev child l
            if efiError r.1 then r else (efiSuccess, r.2.closeByDriver driver dev.dataHandle)

/-! ### The child -/

/-- Nothing is known of the handle: it is a new one. Kind: D -/
structure Fresh (l : Ledger) (child : Handle) : Prop where
  byChild : ∀ h agent, l.byChild (h, agent, child) = false
  serialIo : l.serialIo child = none
  poll : l.poll child = none

lemma Fresh.claim {l : Ledger} {child : Handle} (h : l.Fresh child) (driver claimed : Handle) :
    (l.claim driver claimed).Fresh child :=
  ⟨h.byChild, h.serialIo, h.poll⟩

/-- SerialIo on the child, the child tied to its controller, and the poll timer armed. Kind: D -/
def withChild (l : Ledger) (dev : AcmChild) (child : Handle) : Ledger :=
  ((l.install dev child).openByChild dev child).setPoll child (some true)

lemma closeByChild_openByChild {l : Ledger} {dev : AcmChild} {child : Handle}
    (h : l.byChild (dev.controllerHandle, dev.driverBindingHandle, child) = false) :
    (l.openByChild dev child).closeByChild dev child = l := by
  unfold openByChild closeByChild
  simp only [Function.update_idem]
  rw [← h, Function.update_eq_self]

@[simp] theorem setPoll_setPoll (l : Ledger) (child : Handle) (e e' : Option Bool) :
    (l.setPoll child e).setPoll child e' = l.setPoll child e' := by
  simp [setPoll]

lemma setPoll_none {l : Ledger} {child : Handle} (h : l.poll child = none) :
    l.setPoll child none = l := by
  unfold setPoll
  rw [← h, Function.update_eq_self]

lemma uninstall_install {l : Ledger} {dev : AcmChild} {child : Handle} {status : EfiStatus}
    (h : l.serialIo child = none) (hstatus : efiError status = false) :
    (l.install dev child).uninstall status child = l := by
  unfold install uninstall
  rw [if_neg (by simp [hstatus])]
  simp only [Function.update_idem]
  rw [← h, Function.update_eq_self]

end Ledger

/-- The child handle is made. Kind: D -/
def StartCalls.makesChild (c : StartCalls) : Bool :=
  !efiError c.parentPath && c.pathAppended && !efiError c.interfacesInstalled

/-- A call after that fails. Kind: D -/
def StartCalls.failsLate (c : StartCalls) : Bool :=
  efiError c.openedByChild || efiError c.eventCreated || efiError c.timerSet

namespace Ledger

/-- The installation leaves nothing behind, or everything, or it fails late and what is left is up
to the removal of the child.
Kind: L -/
theorem usbCdcAcmInstallSerialIo_cases {c : StartCalls} {l : Ledger}
    (hfresh : l.Fresh c.childHandle) (dev : AcmChild) :
    (c.makesChild = false ∧ ∃ status, l.usbCdcAcmInstallSerialIo c dev = (.error status, l)) ∨
    (c.makesChild = true ∧ c.failsLate = true ∧
      ∃ status, l.usbCdcAcmInstallSerialIo c dev =
        (.error status, (l.install dev c.childHandle).uninstall c.uninstalled c.childHandle)) ∨
    (c.makesChild = true ∧ c.failsLate = false ∧
      l.usbCdcAcmInstallSerialIo c dev = (.ok (), l.withChild dev c.childHandle)) := by
  unfold usbCdcAcmInstallSerialIo StartCalls.makesChild StartCalls.failsLate
  rcases efiError c.parentPath with _ | _
  case true => exact .inl ⟨rfl, c.parentPath, rfl⟩
  rcases c.pathAppended with _ | _
  case false => exact .inl ⟨rfl, efiOutOfResources, rfl⟩
  rcases efiError c.interfacesInstalled with _ | _
  case true => exact .inl ⟨rfl, c.interfacesInstalled, rfl⟩
  refine .inr ?_
  have hclose : ((l.install dev c.childHandle).openByChild dev c.childHandle).closeByChild dev
      c.childHandle = l.install dev c.childHandle :=
    closeByChild_openByChild (hfresh.byChild _ _)
  rcases efiError c.openedByChild with _ | _
  case true => exact .inl ⟨rfl, rfl, c.openedByChild, rfl⟩
  rcases efiError c.eventCreated with _ | _
  case true =>
    refine .inl ⟨rfl, rfl, c.eventCreated, ?_⟩
    simp [hclose]
  rcases efiError c.timerSet with _ | _
  case true =>
    refine .inl ⟨rfl, rfl, c.timerSet, ?_⟩
    have hpoll : ((l.install dev c.childHandle).openByChild dev c.childHandle).setPoll c.childHandle
        none = (l.install dev c.childHandle).openByChild dev c.childHandle :=
      setPoll_none hfresh.poll
    simp [hpoll, hclose]
  refine .inr ⟨rfl, rfl, ?_⟩
  simp [withChild]

/-! ### How a start ends -/

/-- A start makes the child handle, then a call fails, and the removal of the child is refused.
Kind: D -/
structure LeavesChild (l : Ledger) (bus : UsbBus) (c : StartCalls) (controller : Handle) :
    Prop where
  data : ∃ data, l.Finds bus c controller data ∧
    (resolveBulkEndpoints (bus.interface data)).isOk = true
  resolve : efiError c.resolve = false
  scratch : c.scratchAllocated = true
  child : c.makesChild = true
  late : c.failsLate = true
  refused : efiError c.uninstalled = true

/-- What a start that succeeds holds: the control and the data interface `BY_DRIVER`, the child tied
to the controller, SerialIo on the child, the timer armed.
Kind: D -/
def started (l : Ledger) (dev : AcmChild) (child : Handle) : Ledger :=
  ((l.claim dev.driverBindingHandle dev.controllerHandle).claim dev.driverBindingHandle
    dev.dataHandle).withChild dev child

/-- A start fails and holds nothing, or fails and leaves the child behind, or succeeds and holds
everything.
Kind: L -/
theorem start_cases {bus : UsbBus} {c : StartCalls} {l : Ledger} (hfresh : l.Fresh c.childHandle)
    (driver controller : Handle) :
    (¬ l.LeavesChild bus c controller ∧
      ∃ status, l.usbCdcAcmDriverStart bus c driver controller = (.error status, l)) ∨
    (l.LeavesChild bus c controller ∧ ∃ status dev,
      l.usbCdcAcmDriverStart bus c driver controller =
        (.error status, l.install dev c.childHandle)) ∨
    (¬ l.LeavesChild bus c controller ∧ ∃ acm : Started, l.claims controller = none ∧
      l.claims acm.dataHandle = none ∧ acm.dataHandle ≠ controller ∧
      l.usbCdcAcmDriverStart bus c driver controller =
        (.ok acm, l.started ⟨controller, acm.dataHandle, driver⟩ c.childHandle)) := by
  by_cases hfinds : ∃ data, l.Finds bus c controller data
  case neg =>
    refine .inl ⟨fun h => ?_, start_of_not_finds (not_exists.mp hfinds) driver⟩
    obtain ⟨data, hdata, -⟩ := h.data
    exact hfinds ⟨data, hdata⟩
  obtain ⟨data, hfound⟩ := hfinds
  obtain ⟨interface, hinterface⟩ := hfound.interface
  rw [hfound.start_eq hinterface driver]
  rcases hresolve : efiError c.resolve with _ | _
  case true => exact .inl ⟨fun h => by simpa [hresolve] using h.resolve, c.resolve, rfl⟩
  rw [if_neg Bool.false_ne_true]
  rcases hbulk : resolveBulkEndpoints (bus.interface data) with status | endpoints
  case error =>
    refine .inl ⟨fun h => ?_, status, rfl⟩
    obtain ⟨data', hfound', hok⟩ := h.data
    obtain rfl := Option.some.inj (hfound.candidate.symm.trans hfound'.candidate)
    rw [hbulk] at hok
    cases hok
  dsimp only
  rcases hscratch : c.scratchAllocated with _ | _
  case false =>
    exact .inl ⟨fun h => by simpa [hscratch] using h.scratch, efiOutOfResources, rfl⟩
  rw [Bool.not_true, if_neg Bool.false_ne_true]
  have hfresh' : ((l.claim driver controller).claim driver data).Fresh c.childHandle :=
    (hfresh.claim ..).claim ..
  obtain ⟨hchild, status, hinstall⟩ | ⟨hchild, hlate, status, hinstall⟩ | ⟨-, hlate, hinstall⟩ :=
    usbCdcAcmInstallSerialIo_cases hfresh' ⟨controller, data, driver⟩
  · rw [hinstall]
    exact .inl ⟨fun h => by simpa [hchild] using h.child, status, rfl⟩
  · rcases hrefused : efiError c.uninstalled with _ | _
    · rw [hinstall, uninstall_install hfresh'.serialIo hrefused]
      exact .inl ⟨fun h => by simpa [hrefused] using h.refused, status, rfl⟩
    · rw [hinstall, uninstall, hrefused, if_pos rfl]
      exact .inr (.inl ⟨⟨⟨data, hfound, by rw [hbulk]; rfl⟩, hresolve, hscratch, hchild, hlate,
        hrefused⟩, status, ⟨controller, data, driver⟩, rfl⟩)
  · rw [hinstall]
    exact .inr (.inr ⟨fun h => by simpa [hlate] using h.late, _, hfound.unclaimed, hfound.free,
      hfound.ne, rfl⟩)

/-! ### How a stop ends -/

/-- Quieting the child leaves SerialIo on it, and nothing else. Kind: L -/
theorem quiet_withChild {l : Ledger} {dev : AcmChild} {child : Handle} (hfresh : l.Fresh child) :
    ((l.withChild dev child).setPoll child none).closeByChild dev child = l.install dev child := by
  have hpoll : ((l.install dev child).openByChild dev child).setPoll child none =
      (l.install dev child).openByChild dev child := setPoll_none hfresh.poll
  rw [withChild, setPoll_setPoll, hpoll]
  exact closeByChild_openByChild (hfresh.byChild _ _)

@[simp] theorem serialIo_started (l : Ledger) (dev : AcmChild) (child : Handle) :
    (l.started dev child).serialIo child = some dev :=
  Function.update_self ..

section Stop

variable {l : Ledger} {driver controller data child : Handle} (hfresh : l.Fresh child)
  (hcontroller : l.claims controller = none) (hdata : l.claims data = none)
  (hne : data ≠ controller) {s : StopCalls} (hopen : efiError s.openSerialIo = false)

include hfresh hopen

/-- A stop whose removal of the child is refused, and which can put things back, changes nothing.
Kind: L -/
theorem stop_refused (hrefused : efiError s.uninstalled = true)
    (hreopen : efiError s.openedByChild = false) (hevent : efiError s.eventCreated = false)
    (htimer : efiError s.timerSet = false) :
    (l.started ⟨controller, data, driver⟩ child).usbCdcAcmDriverStop s driver controller [child] =
      (s.uninstalled, l.started ⟨controller, data, driver⟩ child) := by
  have hfresh' : ((l.claim driver controller).claim driver data).Fresh child :=
    (hfresh.claim ..).claim ..
  simp only [usbCdcAcmDriverStop, hopen, Bool.false_eq_true, if_false, serialIo_started,
    usbCdcAcmUninstallSerialIo, hrefused, if_true, hreopen, hevent, htimer, Bool.not_false]
  rw [started, quiet_withChild hfresh', withChild]

include hcontroller hdata hne

/-- A stop with the child, then one without children, leads back to the ledger before the start.
Kind: L -/
theorem stop_started (huninstalled : efiError s.uninstalled = false) :
    ∃ stopped, (l.started ⟨controller, data, driver⟩ child).usbCdcAcmDriverStop s driver controller
        [child] = (efiSuccess, stopped) ∧
      stopped.usbCdcAcmDriverStop s driver controller [] = (efiSuccess, l) := by
  have hfresh' : ((l.claim driver controller).claim driver data).Fresh child :=
    (hfresh.claim ..).claim ..
  have hnone := claims_claim_of_ne hne hdata driver
  refine ⟨l.claim driver controller, ?_, ?_⟩
  · simp only [usbCdcAcmDriverStop, hopen, Bool.false_eq_true, if_false, serialIo_started,
      usbCdcAcmUninstallSerialIo, huninstalled, efiError_efiSuccess]
    rw [started, quiet_withChild hfresh', uninstall_install hfresh'.serialIo huninstalled,
      closeByDriver_claim hnone]
  · have hheld : (l.claim driver controller).claims controller = some driver :=
      Function.update_self ..
    simp only [usbCdcAcmDriverStop, closeByDriver_claim hcontroller, if_pos hheld]

end Stop

/-! ### Balance -/

/-- Every start holds all or nothing, and a stop that follows takes it back, or leaves it if
refused.
Kind: D -/
structure Balanced (l : Ledger) (bus : UsbBus) (c : StartCalls) (driver controller : Handle) :
    Prop where
  start : (∃ status, l.usbCdcAcmDriverStart bus c driver controller = (.error status, l)) ∨
    ∃ acm : Started, l.claims controller = none ∧ l.claims acm.dataHandle = none ∧
      acm.dataHandle ≠ controller ∧
      l.usbCdcAcmDriverStart bus c driver controller =
        (.ok acm, l.started ⟨controller, acm.dataHandle, driver⟩ c.childHandle)
  stop : ∀ acm after, l.usbCdcAcmDriverStart bus c driver controller = (.ok acm, after) →
    ∀ s : StopCalls, efiError s.openSerialIo = false → efiError s.uninstalled = false →
    ∃ stopped, after.usbCdcAcmDriverStop s driver controller [c.childHandle] =
        (efiSuccess, stopped) ∧
      stopped.usbCdcAcmDriverStop s driver controller [] = (efiSuccess, l)
  refused : ∀ acm after, l.usbCdcAcmDriverStart bus c driver controller = (.ok acm, after) →
    ∀ s : StopCalls, efiError s.openSerialIo = false → efiError s.uninstalled = true →
    efiError s.openedByChild = false → efiError s.eventCreated = false →
    efiError s.timerSet = false →
    after.usbCdcAcmDriverStop s driver controller [c.childHandle] = (s.uninstalled, after)

/-- **When a start is balanced.** Whatever handles there are, whoever has claimed them and whichever
calls fail: a start, and the stops after it, are balanced exactly when the start does not leave the
child behind, that is, unless a call fails after the child handle was made and its removal is
refused.
Kind: P -/
theorem balanced_iff {bus : UsbBus} {c : StartCalls} {l : Ledger} (hfresh : l.Fresh c.childHandle)
    (driver controller : Handle) :
    l.Balanced bus c driver controller ↔ ¬ l.LeavesChild bus c controller := by
  obtain ⟨hnot, status, hstart⟩ | ⟨hleaves, status, dev, hstart⟩ |
    ⟨hnot, acm, hcontroller, hdata, hne, hstart⟩ := start_cases hfresh driver controller
  · refine ⟨fun _ => hnot, fun _ => ⟨.inl ⟨status, hstart⟩, ?_, ?_⟩⟩
    · intro acm' after hafter
      rw [hstart] at hafter
      cases hafter
    · intro acm' after hafter
      rw [hstart] at hafter
      cases hafter
  · refine ⟨fun h => ?_, fun hnot => absurd hleaves hnot⟩
    -- The ledger has SerialIo on the child, which it did not have before.
    have hleft : l.install dev c.childHandle ≠ l := by
      intro heq
      have hchild := congrArg (fun l => l.serialIo c.childHandle) heq
      simp [install, hfresh.serialIo] at hchild
    obtain ⟨status', hstart'⟩ | ⟨acm, -, -, -, hstart'⟩ := h.start
    · rw [hstart, Prod.mk.injEq] at hstart'
      exact absurd hstart'.2 hleft
    · rw [hstart] at hstart'
      cases hstart'
  · refine ⟨fun _ => hnot, fun _ => ⟨.inr ⟨acm, hcontroller, hdata, hne, hstart⟩, ?_, ?_⟩⟩
    · intro acm' after hafter s hopen huninstalled
      rw [hstart, Prod.mk.injEq] at hafter
      rw [← hafter.2]
      exact stop_started hfresh hcontroller hdata hne hopen huninstalled
    · intro acm' after hafter s hopen hrefused hreopen hevent htimer
      rw [hstart, Prod.mk.injEq] at hafter
      rw [← hafter.2]
      exact stop_refused hfresh hopen hrefused hreopen hevent htimer

lemma fresh_empty (child : Handle) : empty.Fresh child := ⟨fun _ _ => rfl, rfl, rfl⟩

/-- On the gadget with every call granted the start succeeds, and is balanced. Kind: C -/
theorem balanced_granted :
    empty.Fresh grantedCalls.childHandle ∧
      (empty.usbCdcAcmDriverStart (compositeBus [1, 2, 3, 4]) grantedCalls 10 1).1.isOk = true ∧
      empty.Balanced (compositeBus [1, 2, 3, 4]) grantedCalls 10 1 := by
  refine ⟨fresh_empty _, rfl, (balanced_iff (fresh_empty _) 10 1).mpr ?_⟩
  intro h
  exact absurd h.late (by decide)

/-- The child cannot be tied to its controller, and the removal of its interfaces is refused.
Kind: D -/
def refusedCalls : StartCalls :=
  { grantedCalls with openedByChild := efiOutOfResources, uninstalled := efiAccessDenied }

/-- The start fails, and leaves SerialIo of the device it frees on the child handle. Kind: C -/
theorem start_leaves_child :
    (empty.usbCdcAcmDriverStart (compositeBus [1, 2, 3, 4]) refusedCalls 10 1).1 =
        .error efiOutOfResources ∧
      (empty.usbCdcAcmDriverStart (compositeBus [1, 2, 3, 4]) refusedCalls 10 1).2.serialIo 20 =
        some ⟨1, 2, 10⟩ ∧
      empty.serialIo 20 = none ∧
      ¬ empty.Balanced (compositeBus [1, 2, 3, 4]) refusedCalls 10 1 := by
  have hfailed : (empty.usbCdcAcmDriverStart (compositeBus [1, 2, 3, 4]) refusedCalls 10 1).1 =
      .error efiOutOfResources := rfl
  have hleft : (empty.usbCdcAcmDriverStart (compositeBus [1, 2, 3, 4]) refusedCalls 10 1).2.serialIo
      20 = some ⟨1, 2, 10⟩ := by decide +kernel
  refine ⟨hfailed, hleft, rfl, fun h => ?_⟩
  obtain ⟨status, hstart⟩ | ⟨acm, -, -, -, hstart⟩ := h.start
  · rw [hstart] at hleft
    cases hleft
  · rw [hstart] at hfailed
    cases hfailed

end Ledger

end NucBios.Usb
