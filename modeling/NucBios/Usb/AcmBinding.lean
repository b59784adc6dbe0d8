import NucBios.Lib.Search
import NucBios.Uefi.DevicePath
import NucBios.Usb.SerialIo

/-!
# Which data interface the CDC-ACM driver takes

The driver binds a communication interface and looks for "its sibling data interface among the other
UsbIo handles on the same USB device". The search compares device paths up to the last node and the
class of the interface; the data interfaces of the network functions on the device pass it as well.

A start opens both interfaces `BY_DRIVER`, installs SerialIo on a child handle, opens the
communication interface once more `BY_CHILD_CONTROLLER` and arms a timer. Any call on the way may
fail. `Ledger` has everything that can be held.

* `usbCdcAcmDriverSupported`, `findDataInterface`, `usbCdcAcmInstallSerialIo`,
  `usbCdcAcmDriverStart` — the binding, over the ledger;
* `findDataLoop_eq` — the search takes the first handle listed that passes (`isCandidate`);
* `Finds.start_eq` — what a start comes to once it has a data interface, and
  `start_of_not_finds` — that it holds nothing if it gets none;
* `start_takes_own_iff` — the interface taken is one of the driver's own function exactly when no
  candidate of another function is listed ahead of all of its own.

`CloseProtocol` fails only for an open that is not there, and `GET_PROTOCOL` opens need no closing:
neither is in the ledger.
-/

namespace NucBios.Usb

open Lib Uefi

/-! ### The handle database -/

/-- `EFI_HANDLE`. Kind: D -/
abbrev Handle := ℕ

/-- Who has `EFI_USB_IO_PROTOCOL` of a handle open `BY_DRIVER`. Kind: D -/
abbrev Claims := Handle → Option Handle

/-- What the drivers can ask of a handle with a USB interface. Kind: D -/
structure UsbInterface where
  devicePath : Except EfiStatus (List PathNode)
  descriptor : Except EfiStatus InterfaceDescriptor
  endpoint : ℕ → Except EfiStatus EndpointDescriptor

/-- The handles, and the order in which `LocateHandleBuffer` lists them. Kind: D -/
structure UsbBus where
  interface : Handle → UsbInterface
  located : Except EfiStatus (List Handle)

def usbCdcClass : UInt8 := 0x02
def usbCdcAcmSubclass : UInt8 := 0x02
def usbCdcDataClass : UInt8 := 0x0A

/-! ### The ledger -/

/-- The fields of a `USB_CDC_ACM_DEV` its teardown reads. Kind: D -/
structure AcmChild where
  controllerHandle : Handle
  dataHandle : Handle
  driverBindingHandle : Handle
  deriving DecidableEq

/-- What is open, installed and armed. Kind: D -/
@[ext]
structure Ledger where
  claims : Claims
  /-- `EFI_USB_IO_PROTOCOL` of a handle is open `BY_CHILD_CONTROLLER`, by an agent, for a child. -/
  byChild : Handle × Handle × Handle → Bool
  /-- The device whose SerialIo is installed on a handle. -/
  serialIo : Handle → Option AcmChild
  /-- The poll event of the device on a handle, and whether its timer is armed. -/
  poll : Handle → Option Bool

namespace Ledger

/-- `OpenProtocol (…, BY_DRIVER)`, which may fail even if nobody has the protocol open. Kind: D -/
def openByDriver (l : Ledger) (denied : EfiStatus) (driver h : Handle) : Except EfiStatus Ledger :=
  if efiError denied then .error denied
  else match l.claims h with
    | some owner => .error (if owner = driver then efiAlreadyStarted else efiAccessDenied)
    | none => .ok { l with claims := Function.update l.claims h (some driver) }

/-- `CloseProtocol` of what the driver opened `BY_DRIVER`. Kind: D -/
def closeByDriver (l : Ledger) (driver h : Handle) : Ledger :=
  if l.claims h = some driver then { l with claims := Function.update l.claims h none } else l

/-- `OpenProtocol (…, BY_CHILD_CONTROLLER)`, when it succeeds. Kind: D -/
def openByChild (l : Ledger) (dev : AcmChild) (child : Handle) : Ledger :=
  { l with byChild :=
      Function.update l.byChild (dev.controllerHandle, dev.driverBindingHandle, child) true }

/-- `CloseProtocol` of what was opened for the child. Kind: D -/
def closeByChild (l : Ledger) (dev : AcmChild) (child : Handle) : Ledger :=
  { l with byChild :=
      Function.update l.byChild (dev.controllerHandle, dev.driverBindingHandle, child) false }

def install (l : Ledger) (dev : AcmChild) (child : Handle) : Ledger :=
  { l with serialIo := Function.update l.serialIo child (some dev) }

/-- `UninstallMultipleProtocolInterfaces`; somebody who uses SerialIo makes it fail. Kind: D -/
def uninstall (l : Ledger) (status : EfiStatus) (child : Handle) : Ledger :=
  if efiError status then l else { l with serialIo := Function.update l.serialIo child none }

/-- The poll event is created or closed, its timer set or not. Kind: D -/
def setPoll (l : Ledger) (child : Handle) (event : Option Bool) : Ledger :=
  { l with poll := Function.update l.poll child event }

end Ledger

/-! ### What the driver asks of an interface -/

/-- Source: `UsbCdcAcmDxe.c` `IsAcmControlInterface`. Kind: D -/
def isAcmControlInterface (i : UsbInterface) : Bool :=
  match i.descriptor with
  | .error _ => false
  | .ok d => d.interfaceClass == usbCdcClass && d.interfaceSubClass == usbCdcAcmSubclass

/-- The size of a path up to its last node, and that node.
Source: `UsbCdcAcmDxe.c` `DevicePathPrefixSize`
Kind: D -/
def devicePathPrefixSize (path : List PathNode) : ℕ × Option PathNode :=
  ((pathOctets path.dropLast).length, path.getLast?)

/-- The three tests on a candidate's path: the size of its prefix, the octets of the prefix, the
kind of the last node.
Source: `UsbCdcAcmDxe.c` `FindDataInterface`
Kind: D -/
def sameUsbDevice (ctrlPath candPath : List PathNode) : Bool :=
  let ctrlPrefix := (devicePathPrefixSize ctrlPath).1
  let cand := devicePathPrefixSize candPath
  if cand.1 ≠ ctrlPrefix then
    false
  else
    match cand.2 with
    | none => false
    | some candLast =>
        (pathOctets candPath).take ctrlPrefix == (pathOctets ctrlPath).take ctrlPrefix &&
          (candLast.type == messagingDevicePath && candLast.subType == msgUsbDp)

/-- The interface is a CDC data interface, of whatever function. Kind: D -/
def isDataInterface (i : UsbInterface) : Bool :=
  match i.descriptor with
  | .error _ => false
  | .ok d => d.interfaceClass == usbCdcDataClass

/-- The endpoints of a `USB_CDC_ACM_DEV`. Kind: D -/
structure BulkPair where
  bulkIn : UInt8
  bulkOut : UInt8
  bulkInMaxPacket : ℕ
  bulkOutMaxPacket : ℕ

/-- Source: `UsbCdcAcmDxe.c` `ResolveBulkEndpoints`. The last endpoint of each direction counts.
Kind: D -/
def resolveBulkEndpoints (i : UsbInterface) : Except EfiStatus BulkPair :=
  match i.descriptor with
  | .error status => .error status
  | .ok d =>
      let pair := (bulkEndpoints d.numEndpoints i.endpoint).foldl (fun (p : BulkPair) e =>
        if e.isIn then
          { p with bulkIn := e.endpointAddress, bulkInMaxPacket := e.maxPacketSize.toNat }
        else
          { p with bulkOut := e.endpointAddress, bulkOutMaxPacket := e.maxPacketSize.toNat })
        ⟨0, 0, 0, 0⟩
      if pair.bulkIn = 0 ∨ pair.bulkOut = 0 then .error efiNotFound else .ok pair

/-! ### The binding -/

/-- What the services called on the way answer: whether an allocation succeeded, and statuses.
Kind: D -/
structure StartCalls where
  devAllocated : Bool
  openControl : EfiStatus
  /-- The opening of a candidate that nobody has open. -/
  openCandidate : Handle → EfiStatus
  /-- The descriptor of the data interface, when its endpoints are resolved. -/
  resolve : EfiStatus
  scratchAllocated : Bool
  /-- The device path of the controller, when SerialIo is installed. -/
  parentPath : EfiStatus
  pathAppended : Bool
  childHandle : Handle
  interfacesInstalled : EfiStatus
  openedByChild : EfiStatus
  eventCreated : EfiStatus
  timerSet : EfiStatus
  /-- The removal of the child's interfaces in the clean-up. -/
  uninstalled : EfiStatus

/-- A `USB_CDC_ACM_DEV` that was started. Kind: D -/
structure Started where
  dataHandle : Handle
  controlInterfaceNumber : UInt8
  endpoints : BulkPair
  port : AcmDev

namespace Ledger

/-- Source: `UsbCdcAcmDxe.c` `UsbCdcAcmDriverSupported`. Kind: D -/
def usbCdcAcmDriverSupported (bus : UsbBus) (denied : EfiStatus) (driver controller : Handle)
    (l : Ledger) : EfiStatus × Ledger :=
  match l.openByDriver denied driver controller with
  | .error status => (status, l)
  | .ok opened =>
      (if isAcmControlInterface (bus.interface controller) then efiSuccess else efiUnsupported,
        opened.closeByDriver driver controller)

/-- The loop of `FindDataInterface` over the handles listed. Kind: D -/
def findDataLoop (bus : UsbBus) (denied : Handle → EfiStatus) (driver controller : Handle)
    (ctrlPath : List PathNode) : List Handle → Ledger → Except EfiStatus Handle × Ledger
  | [], l => (.error efiNotFound, l)
  | h :: handles, l =>
      let next := findDataLoop bus denied driver controller ctrlPath handles
      if h = controller then
        next l
      else
        match (bus.interface h).devicePath with
        | .error _ => next l
        | .ok candPath =>
            if !sameUsbDevice ctrlPath candPath then
              next l
            else
              match l.openByDriver (denied h) driver h with
              -- already claimed, or in use, or not to be opened for another reason
              | .error _ => next l
              | .ok opened =>
                  if isDataInterface (bus.interface h) then (.ok h, opened)
                  else next (opened.closeByDriver driver h)

/-- Source: `UsbCdcAcmDxe.c` `FindDataInterface`. Kind: D -/
def findDataInterface (bus : UsbBus) (denied : Handle → EfiStatus) (driver controller : Handle)
    (l : Ledger) : Except EfiStatus Handle × Ledger :=
  match (bus.interface controller).devicePath with
  | .error status => (.error status, l)
  | .ok ctrlPath =>
      match (devicePathPrefixSize ctrlPath).2, bus.located with
      | none, _ => (.error efiNotFound, l)
      | some _, .error status => (.error status, l)
      | some _, .ok handles => findDataLoop bus denied driver controller ctrlPath handles l

/-- Source: `SerialIo.c` `UsbCdcAcmInstallSerialIo`. Kind: D -/
def usbCdcAcmInstallSerialIo (c : StartCalls) (dev : AcmChild) (l : Ledger) :
    Except EfiStatus Unit × Ledger :=
  if efiError c.parentPath then (.error c.parentPath, l)
  else if !c.pathAppended then (.error efiOutOfResources, l)
  else if efiError c.interfacesInstalled then (.error c.interfacesInstalled, l)
  else
    let child := c.childHandle
    let installed := l.install dev child
    -- `ErrorUninstall`: the status of the removal is not looked at
    if efiError c.openedByChild then
      (.error c.openedByChild, installed.uninstall c.uninstalled child)
    else
      let opened := installed.openByChild dev child
      -- `ErrorCloseChild`, then `ErrorUninstall`
      if efiError c.eventCreated then
        (.error c.eventCreated, (opened.closeByChild dev child).uninstall c.uninstalled child)
      else
        let created := opened.setPoll child (some false)
        if efiError c.timerSet then
          (.error c.timerSet,
            ((created.setPoll child none).closeByChild dev child).uninstall c.uninstalled child)
        else
          (.ok (), created.setPoll child (some true))

/-- Source: `UsbCdcAcmDxe.c` `UsbCdcAcmDriverStart`. Kind: D -/
def usbCdcAcmDriverStart (bus : UsbBus) (c : StartCalls) (driver controller : Handle)
    (l : Ledger) : Except EfiStatus Started × Ledger :=
  if !c.devAllocated then
    (.error efiOutOfResources, l)
  else
    match l.openByDriver c.openControl driver controller with
    | .error status => (.error status, l)
    | .ok opened =>
        match (bus.interface controller).descriptor with
        | .error status => (.error status, opened.closeByDriver driver controller)
        | .ok interface =>
            match findDataInterface bus c.openCandidate driver controller opened with
            | (.error status, found) => (.error status, found.closeByDriver driver controller)
            | (.ok data, found) =>
                -- `ErrorCloseData`, then `ErrorCloseCtrl`
                let release (l : Ledger) :=
                  (l.closeByDriver driver data).closeByDriver driver controller
                if efiError c.resolve then
                  (.error c.resolve, release found)
                else
                  match resolveBulkEndpoints (bus.interface data) with
                  | .error status => (.error status, release found)
                  | .ok endpoints =>
                      if !c.scratchAllocated then
                        (.error efiOutOfResources, release found)
                      else
                        match found.usbCdcAcmInstallSerialIo c ⟨controller, data, driver⟩ with
                        | (.error status, installed) => (.error status, release installed)
                        | (.ok (), installed) =>
                            (.ok ⟨data, interface.interfaceNumber, endpoints,
                              .started endpoints.bulkInMaxPacket⟩, installed)

/-! ### Opening and closing -/

/-- The handle is claimed by the driver. Kind: D -/
def claim (l : Ledger) (driver h : Handle) : Ledger :=
  { l with claims := Function.update l.claims h (some driver) }

lemma openByDriver_eq_ok {l opened : Ledger} {denied : EfiStatus} {driver h : Handle} :
    l.openByDriver denied driver h = .ok opened ↔
      efiError denied = false ∧ l.claims h = none ∧ opened = l.claim driver h := by
  unfold openByDriver claim
  rcases efiError denied with _ | _
  · rcases l.claims h with _ | owner
    · simp [eq_comm]
    · simp
  · simp

/-- Closing gives up a claim, and nothing else. Kind: L -/
theorem closeByDriver_of_claims {m : Ledger} {claims : Claims} {driver h : Handle}
    (hm : m.claims = Function.update claims h (some driver)) (hnone : claims h = none) :
    m.closeByDriver driver h = { m with claims := claims } := by
  unfold closeByDriver
  rw [hm, if_pos (Function.update_self ..), Function.update_idem, ← hnone, Function.update_eq_self]

/-- Closing what was just opened leaves the ledger as it was. Kind: L -/
theorem closeByDriver_claim {l : Ledger} {driver h : Handle} (hnone : l.claims h = none) :
    (l.claim driver h).closeByDriver driver h = l :=
  closeByDriver_of_claims rfl hnone

lemma claims_claim_of_ne {l : Ledger} {h h' : Handle} (hne : h ≠ h') (hnone : l.claims h = none)
    (driver : Handle) : (l.claim driver h').claims h = none :=
  (Function.update_of_ne hne _ _).trans hnone

/-! ### The data interface -/

/-- The handle passes every test of the search: it is not the controller, its path is one of the
same device, nobody has claimed it and it can be opened, and its class is that of a data interface.
Which function of the device it belongs to is not asked.
Kind: D -/
def isCandidate (bus : UsbBus) (denied : Handle → EfiStatus) (claims : Claims)
    (controller h : Handle) : Bool :=
  h != controller &&
    (match (bus.interface controller).devicePath, (bus.interface h).devicePath with
      | .ok ctrlPath, .ok candPath => sameUsbDevice ctrlPath candPath
      | _, _ => false) &&
    (!efiError (denied h) && (claims h).isNone) && isDataInterface (bus.interface h)

/-- The loop takes the first candidate listed. Kind: L -/
theorem findDataLoop_eq {bus : UsbBus} {controller : Handle} {ctrlPath : List PathNode}
    (hpath : (bus.interface controller).devicePath = .ok ctrlPath) (denied : Handle → EfiStatus)
    (driver : Handle) (l : Ledger) :
    ∀ handles : List Handle, findDataLoop bus denied driver controller ctrlPath handles l =
      match handles.find? (isCandidate bus denied l.claims controller) with
      | none => (.error efiNotFound, l)
      | some h => (.ok h, l.claim driver h)
  | [] => rfl
  | h :: handles => by
      have ih := findDataLoop_eq hpath denied driver l handles
      -- every test that fails passes on to the rest with the ledger unchanged
      have hskip : isCandidate bus denied l.claims controller h = false →
          (h :: handles).find? (isCandidate bus denied l.claims controller) =
            handles.find? (isCandidate bus denied l.claims controller) := fun hno => by
        rw [List.find?_cons, hno]
      unfold findDataLoop
      simp only
      by_cases hself : h = controller
      · rw [if_pos hself, hskip (by simp [isCandidate, hself]), ih]
      rw [if_neg hself]
      rcases hcand : (bus.interface h).devicePath with _ | candPath
      · rw [hskip (by simp [isCandidate, hpath, hcand]), ih]
      rcases hsame : sameUsbDevice ctrlPath candPath with _ | _
      · simp only [hsame, Bool.not_false, if_true]
        rw [hskip (by simp [isCandidate, hpath, hcand, hsame]), ih]
      simp only [hsame, Bool.not_true, Bool.false_eq_true, if_false]
      rcases hopen : l.openByDriver (denied h) driver h with status | opened
      · have hheld : (!efiError (denied h) && (l.claims h).isNone) = false := by
          by_contra hfree
          simp only [Bool.not_eq_false, Bool.and_eq_true, Bool.not_eq_true',
            Option.isNone_iff_eq_none] at hfree
          rw [openByDriver_eq_ok.mpr ⟨hfree.1, hfree.2, rfl⟩] at hopen
          cases hopen
        rw [hskip (by simp only [isCandidate, hheld, Bool.and_false, Bool.false_and]), ih]
      · obtain ⟨hdenied, hnone, rfl⟩ := openByDriver_eq_ok.mp hopen
        rcases hdata : isDataInterface (bus.interface h) with _ | _
        · simp only [Bool.false_eq_true, if_false]
          rw [closeByDriver_claim hnone, hskip (by simp [isCandidate, hdata]), ih]
        · have hyes : isCandidate bus denied l.claims controller h = true := by
            simp [isCandidate, hself, hpath, hcand, hsame, hdenied, hnone, hdata]
          rw [List.find?_cons, hyes]
          rfl

/-- The first candidate listed, if the search gets as far as the list. Kind: D -/
def firstCandidate (bus : UsbBus) (denied : Handle → EfiStatus) (claims : Claims)
    (controller : Handle) : Option Handle :=
  match (bus.interface controller).devicePath, bus.located with
  | .ok ctrlPath, .ok handles =>
      if (devicePathPrefixSize ctrlPath).2.isSome then
        handles.find? (isCandidate bus denied claims controller)
      else none
  | _, _ => none

lemma firstCandidate_eq_some {bus : UsbBus} {denied : Handle → EfiStatus} {claims : Claims}
    {controller data : Handle} (h : firstCandidate bus denied claims controller = some data) :
    ∃ handles, bus.located = .ok handles ∧
      handles.find? (isCandidate bus denied claims controller) = some data := by
  unfold firstCandidate at h
  split at h
  · rename_i handles _ hlocated
    split_ifs at h
    exact ⟨handles, hlocated, h⟩
  · cases h

lemma isCandidate_of_firstCandidate {bus : UsbBus} {denied : Handle → EfiStatus} {claims : Claims}
    {controller data : Handle} (h : firstCandidate bus denied claims controller = some data) :
    isCandidate bus denied claims controller data = true := by
  obtain ⟨handles, -, hfind⟩ := firstCandidate_eq_some h
  exact List.find?_some hfind

/-- Claiming the controller does not change which handle is the first candidate. Kind: L -/
theorem firstCandidate_update (bus : UsbBus) (denied : Handle → EfiStatus) (claims : Claims)
    (controller : Handle) (owner : Option Handle) :
    firstCandidate bus denied (Function.update claims controller owner) controller =
      firstCandidate bus denied claims controller := by
  have hcandidate : isCandidate bus denied (Function.update claims controller owner) controller =
      isCandidate bus denied claims controller := by
    funext h
    unfold isCandidate
    by_cases hself : h = controller
    · simp [hself]
    · rw [Function.update_of_ne hself]
  unfold firstCandidate
  rw [hcandidate]

/-- The search fails and leaves the ledger alone, or claims the first candidate. Kind: L -/
theorem findDataInterface_cases (bus : UsbBus) (denied : Handle → EfiStatus)
    (driver controller : Handle) (l : Ledger) :
    (firstCandidate bus denied l.claims controller = none ∧
      ∃ status, findDataInterface bus denied driver controller l = (.error status, l)) ∨
    ∃ data, firstCandidate bus denied l.claims controller = some data ∧
      findDataInterface bus denied driver controller l = (.ok data, l.claim driver data) := by
  unfold findDataInterface firstCandidate
  rcases hpath : (bus.interface controller).devicePath with status | ctrlPath
  · exact .inl ⟨rfl, status, rfl⟩
  dsimp only
  rcases hlast : (devicePathPrefixSize ctrlPath).2 with _ | ctrlLast
  · refine .inl ⟨?_, efiNotFound, rfl⟩
    rcases bus.located with status | handles
    · rfl
    · simp [hlast]
  rcases bus.located with status | handles
  · exact .inl ⟨rfl, status, rfl⟩
  dsimp only
  rw [findDataLoop_eq hpath, hlast, if_pos Option.isSome_some]
  rcases handles.find? (isCandidate bus denied l.claims controller) with _ | data
  · exact .inl ⟨rfl, efiNotFound, rfl⟩
  · exact .inr ⟨data, rfl, rfl⟩

/-! ### What a start comes to -/

@[simp] theorem claims_uninstall (l : Ledger) (status : EfiStatus) (child : Handle) :
    (l.uninstall status child).claims = l.claims := by
  unfold uninstall
  split_ifs <;> rfl

/-- Installing SerialIo claims nothing. Kind: L -/
theorem claims_usbCdcAcmInstallSerialIo (c : StartCalls) (dev : AcmChild) (l : Ledger) :
    (l.usbCdcAcmInstallSerialIo c dev).2.claims = l.claims := by
  unfold usbCdcAcmInstallSerialIo
  dsimp only
  split_ifs
  all_goals first | rfl | exact claims_uninstall ..

/-- `ErrorCloseData` and `ErrorCloseCtrl` take back the two claims, whatever else happened.
Kind: L -/
theorem closeByDriver_twice {l m : Ledger} {driver controller data : Handle}
    (hm : m.claims = ((l.claim driver controller).claim driver data).claims)
    (hcontroller : l.claims controller = none) (hdata : l.claims data = none)
    (hne : data ≠ controller) :
    (m.closeByDriver driver data).closeByDriver driver controller =
      { m with claims := l.claims } := by
  have hnone := claims_claim_of_ne hne hdata driver
  rw [closeByDriver_of_claims hm hnone, closeByDriver_of_claims rfl hcontroller]

/-- A start gets as far as claiming a data interface. Kind: D -/
structure Finds (l : Ledger) (bus : UsbBus) (c : StartCalls) (controller data : Handle) : Prop where
  allocated : c.devAllocated = true
  openControl : efiError c.openControl = false
  unclaimed : l.claims controller = none
  descriptor : (bus.interface controller).descriptor.isOk = true
  candidate : firstCandidate bus c.openCandidate l.claims controller = some data

section Finds

variable {l : Ledger} {bus : UsbBus} {c : StartCalls} {controller data : Handle}

lemma Finds.free (h : l.Finds bus c controller data) : l.claims data = none := by
  have hcandidate := isCandidate_of_firstCandidate h.candidate
  simp only [isCandidate, Bool.and_eq_true, Option.isNone_iff_eq_none] at hcandidate
  exact hcandidate.1.2.2

lemma Finds.ne (h : l.Finds bus c controller data) : data ≠ controller := by
  rintro rfl
  simpa [isCandidate] using isCandidate_of_firstCandidate h.candidate

/-- Up to there, a start that fails holds nothing. Kind: L -/
theorem start_of_not_finds (h : ∀ data, ¬ l.Finds bus c controller data) (driver : Handle) :
    ∃ status, l.usbCdcAcmDriverStart bus c driver controller = (.error status, l) := by
  unfold usbCdcAcmDriverStart
  rcases hdev : c.devAllocated with _ | _
  case false => exact ⟨efiOutOfResources, rfl⟩
  rw [Bool.not_true, if_neg Bool.false_ne_true]
  rcases hopen : l.openByDriver c.openControl driver controller with status | opened
  case error => exact ⟨status, rfl⟩
  obtain ⟨hcontrol, hunclaimed, rfl⟩ := openByDriver_eq_ok.mp hopen
  have hclose : (l.claim driver controller).closeByDriver driver controller = l :=
    closeByDriver_claim hunclaimed
  dsimp only
  rcases hdescriptor : (bus.interface controller).descriptor with status | interface
  case error => exact ⟨status, by rw [hclose]⟩
  dsimp only
  obtain ⟨-, status, hfind⟩ | ⟨data, hdata, -⟩ :=
    findDataInterface_cases bus c.openCandidate driver controller (l.claim driver controller)
  · exact ⟨status, by rw [hfind]; dsimp only; rw [hclose]⟩
  · have hcandidate := (firstCandidate_update ..).symm.trans hdata
    exact absurd ⟨hdev, hcontrol, hunclaimed, by rw [hdescriptor]; rfl, hcandidate⟩ (h data)

lemma Finds.find_eq (h : l.Finds bus c controller data) (driver : Handle) :
    findDataInterface bus c.openCandidate driver controller (l.claim driver controller) =
      (.ok data, (l.claim driver controller).claim driver data) := by
  have hcandidate : firstCandidate bus c.openCandidate (l.claim driver controller).claims
      controller = some data := (firstCandidate_update ..).trans h.candidate
  obtain ⟨hnone, -⟩ | ⟨data', hdata, hfind⟩ :=
    findDataInterface_cases bus c.openCandidate driver controller (l.claim driver controller)
  · cases hnone.symm.trans hcandidate
  · obtain rfl := Option.some.inj (hdata.symm.trans hcandidate)
    exact hfind

/-- From there on, every failure gives up both claims. Kind: L -/
theorem Finds.start_eq (h : l.Finds bus c controller data) {interface : InterfaceDescriptor}
    (hinterface : (bus.interface controller).descriptor = .ok interface) (driver : Handle) :
    l.usbCdcAcmDriverStart bus c driver controller =
      if efiError c.resolve then (.error c.resolve, l)
      else match resolveBulkEndpoints (bus.interface data) with
        | .error status => (.error status, l)
        | .ok endpoints =>
            if !c.scratchAllocated then (.error efiOutOfResources, l)
            else
              match ((l.claim driver controller).claim driver data).usbCdcAcmInstallSerialIo c
                ⟨controller, data, driver⟩ with
              | (.error status, installed) => (.error status, { installed with claims := l.claims })
              | (.ok (), installed) =>
                  (.ok ⟨data, interface.interfaceNumber, endpoints,
                    .started endpoints.bulkInMaxPacket⟩, installed) := by
  have hopen : l.openByDriver c.openControl driver controller = .ok (l.claim driver controller) :=
    openByDriver_eq_ok.mpr ⟨h.openControl, h.unclaimed, rfl⟩
  have hrelease : ∀ m : Ledger,
      m.claims = ((l.claim driver controller).claim driver data).claims →
      (m.closeByDriver driver data).closeByDriver driver controller =
        { m with claims := l.claims } :=
    fun m hm => closeByDriver_twice hm h.unclaimed h.free h.ne
  unfold usbCdcAcmDriverStart
  rw [h.allocated, Bool.not_true, if_neg Bool.false_ne_true, hopen]
  dsimp only
  rw [hinterface]
  dsimp only
  rw [h.find_eq driver]
  dsimp only
  rw [hrelease _ rfl]
  rcases hinstall : ((l.claim driver controller).claim driver data).usbCdcAcmInstallSerialIo c
    ⟨controller, data, driver⟩ with ⟨status | _, installed⟩
  · have hclaims := claims_usbCdcAcmInstallSerialIo c ⟨controller, data, driver⟩
      ((l.claim driver controller).claim driver data)
    rw [hinstall] at hclaims
    dsimp only
    rw [hrelease installed hclaims]
    rfl
  · rfl

lemma Finds.interface (h : l.Finds bus c controller data) :
    ∃ interface, (bus.interface controller).descriptor = .ok interface := by
  rcases hdescriptor : (bus.interface controller).descriptor with status | interface
  · have hok := h.descriptor
    rw [hdescriptor] at hok
    cases hok
  · exact ⟨interface, rfl⟩

/-- A start that succeeds has found the data interface it returns, and holds it. Kind: L -/
theorem finds_of_start {driver : Handle} {acm : Started} {after : Ledger}
    (h : l.usbCdcAcmDriverStart bus c driver controller = (.ok acm, after)) :
    l.Finds bus c controller acm.dataHandle ∧ after.claims acm.dataHandle = some driver := by
  by_cases hfinds : ∃ data, l.Finds bus c controller data
  case neg =>
    obtain ⟨status, hstart⟩ := start_of_not_finds (not_exists.mp hfinds) driver
    rw [hstart] at h
    cases h
  obtain ⟨data, hfound⟩ := hfinds
  obtain ⟨interface, hinterface⟩ := hfound.interface
  have hclaims := claims_usbCdcAcmInstallSerialIo c ⟨controller, data, driver⟩
    ((l.claim driver controller).claim driver data)
  rw [hfound.start_eq hinterface driver] at h
  revert h
  rcases efiError c.resolve with _ | _
  case true => rintro ⟨⟩
  rcases resolveBulkEndpoints (bus.interface data) with status | endpoints
  case error => rintro ⟨⟩
  rcases c.scratchAllocated with _ | _
  case false => rintro ⟨⟩
  rcases hinstall : ((l.claim driver controller).claim driver data).usbCdcAcmInstallSerialIo c
    ⟨controller, data, driver⟩ with ⟨status | _, installed⟩
  · rintro ⟨⟩
  · rintro ⟨⟩
    rw [hinstall] at hclaims
    exact ⟨hfound, by rw [hclaims]; exact Function.update_self ..⟩

end Finds

end Ledger

/-! ### Whose interface it is -/

/-- No candidate of another function is listed ahead of all candidates of the controller's own.
Kind: D -/
def OwnFirst (bus : UsbBus) (denied : Handle → EfiStatus) (claims : Claims) (controller : Handle)
    (function : Handle → ℕ) : Prop :=
  ∀ before h after, bus.located = .ok (before ++ h :: after) →
    Ledger.isCandidate bus denied claims controller h = true → function h ≠ function controller →
    ∃ own ∈ before, Ledger.isCandidate bus denied claims controller own = true ∧
      function own = function controller

/-- **The driver takes the first data interface, not its own.** Whatever the functions of the
device, the order of the handles, the claims and the calls that fail: a start that succeeds holds a
data interface `BY_DRIVER`, and this is one of the function the controller belongs to iff no
unclaimed data interface of another function of the device that can be opened is listed ahead of all
those of that function.
Source: `UsbCdcAcmDxe.c` `UsbCdcAcmDriverStart`, `FindDataInterface`
Kind: P -/
theorem start_takes_own_iff {bus : UsbBus} {c : StartCalls} {driver controller : Handle}
    {l after : Ledger} {acm : Started} (function : Handle → ℕ)
    (h : l.usbCdcAcmDriverStart bus c driver controller = (.ok acm, after)) :
    after.claims acm.dataHandle = some driver ∧
      (function acm.dataHandle = function controller ↔
        OwnFirst bus c.openCandidate l.claims controller function) := by
  obtain ⟨hfinds, hheld⟩ := Ledger.finds_of_start h
  obtain ⟨handles, hlocated, hfirst⟩ := Ledger.firstCandidate_eq_some hfinds.candidate
  refine ⟨hheld, ?_⟩
  rw [find?_satisfies_iff (q := fun h => function h = function controller) hfirst, OwnFirst,
    hlocated]
  simp only [Except.ok.injEq, ne_eq]

/-- The gadget as the board composes it, with its handles listed in some order: 1 and 2 are the
interfaces of the ACM function, 3 and 4 those of an ECM function. Kind: D -/
def compositeBus (order : List Handle) : UsbBus where
  interface h :=
    { devicePath := .ok [⟨⟨0x02, 0x01⟩, [0xD0, 0x41, 0x03, 0x0A, 0, 0, 0, 0]⟩,
        ⟨⟨0x01, 0x01⟩, [0x00, 0x14]⟩, ⟨⟨0x03, 0x05⟩, [0x06, UInt8.ofNat (h - 1)]⟩]
      descriptor := match h with
        | 1 => .ok ⟨0, 1, 0x02, 0x02⟩
        | 2 => .ok ⟨1, 2, 0x0A, 0x00⟩
        | 3 => .ok ⟨2, 1, 0x02, 0x06⟩
        | 4 => .ok ⟨3, 2, 0x0A, 0x00⟩
        | _ => .error efiDeviceError
      endpoint := fun i => .ok ⟨if i = 0 then 0x80 + UInt8.ofNat h else UInt8.ofNat h, 0x02, 512⟩ }
  located := .ok order

/-- The function of the gadget an interface belongs to. Kind: D -/
def compositeFunction (h : Handle) : ℕ := if h ≤ 2 then 0 else 1

/-- Every call of a start is granted. Kind: D -/
def grantedCalls : StartCalls where
  devAllocated := true
  openControl := efiSuccess
  openCandidate := fun _ => efiSuccess
  resolve := efiSuccess
  scratchAllocated := true
  parentPath := efiSuccess
  pathAppended := true
  childHandle := 20
  interfacesInstalled := efiSuccess
  openedByChild := efiSuccess
  eventCreated := efiSuccess
  timerSet := efiSuccess
  uninstalled := efiSuccess

/-- Nobody holds anything. Kind: D -/
def Ledger.empty : Ledger := ⟨fun _ => none, fun _ => false, fun _ => none, fun _ => none⟩

/-- With the interfaces listed in the order of their numbers the driver takes its own. Kind: C -/
theorem start_takes_own_acm_listed_first :
    ∃ acm after,
      Ledger.empty.usbCdcAcmDriverStart (compositeBus [1, 2, 3, 4]) grantedCalls 10 1 =
        (.ok acm, after) ∧
      after.claims acm.dataHandle = some 10 ∧
      compositeFunction acm.dataHandle = compositeFunction 1 ∧
      OwnFirst (compositeBus [1, 2, 3, 4]) grantedCalls.openCandidate (fun _ => none) 1
        compositeFunction := by
  rcases hstart : Ledger.empty.usbCdcAcmDriverStart (compositeBus [1, 2, 3, 4]) grantedCalls 10 1
    with ⟨_ | acm, after⟩
  · cases hstart
  · have hiff := start_takes_own_iff compositeFunction hstart
    cases hstart
    exact ⟨_, _, rfl, hiff.1, rfl, hiff.2.mp rfl⟩

/-- The interface of the driver's own function cannot be opened. Kind: D -/
def ownDenied : StartCalls :=
  { grantedCalls with openCandidate := fun h => if h = 2 then efiDeviceError else efiSuccess }

/-- With the ECM function composed first, and its driver not yet bound, the ACM driver is supported
on its own communication interface, starts, and holds the data interface of the ECM function. So it
does with its own function composed first, if its own data interface cannot be opened.
Kind: C -/
theorem start_takes_ecm_data :
    (Ledger.empty.usbCdcAcmDriverSupported (compositeBus [3, 4, 1, 2]) efiSuccess 10 1).1 =
        efiSuccess ∧
      (∃ acm after,
        Ledger.empty.usbCdcAcmDriverStart (compositeBus [3, 4, 1, 2]) grantedCalls 10 1 =
          (.ok acm, after) ∧ acm.dataHandle = 4 ∧ after.claims 4 = some 10) ∧
      (∃ acm after,
        Ledger.empty.usbCdcAcmDriverStart (compositeBus [1, 2, 3, 4]) ownDenied 10 1 =
          (.ok acm, after) ∧ acm.dataHandle = 4 ∧ after.claims 4 = some 10) ∧
      compositeFunction 4 ≠ compositeFunction 1 :=
  ⟨rfl, ⟨_, _, rfl, rfl, rfl⟩, ⟨_, _, rfl, rfl, rfl⟩, by decide⟩

end NucBios.Usb
