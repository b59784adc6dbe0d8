import NucBios.Boot.NetworkOptions
import NucBios.Ethernet.StaticApply
import NucBios.Lib.Machine

/-!
# Which NIC the driver claims

`EthConfigDxe` is notified whenever `Ip4Dxe` binds a NIC. The notifications queue up; the callback
takes handles off the queue until `LocateHandle` has no more, and claims the first NIC that has a
MAC node and no USB node in its path: it publishes its formset under that path and applies `EthCfg`
to that NIC. The USB NIC is the link the BMC is reached over and must be left alone.

`notifications` is the machine of both sides: NICs turn up at any time, and the callback runs at any
time and gets through any part of the queue. `claimed_once` is what every run of it comes to:

* handles are taken in the order in which they were notified, none twice and none left out;
* the first of them that is eligible is claimed, and no other ever is;
* the formset is published at most once, under the path of that NIC, and the IPv4 configuration of
  no other NIC is touched.

Writing the MAC address of the claimed NIC into the variable (`SeedMacAddress`) is left out: the
field is report-only.
-/

namespace NucBios.Ethernet

open Lib Uefi Boot

/-! ### The classification -/

/-- `HasMac` and `OverUsb`.
Source: `EthConfigDxe.c` `ClassifyNicDevicePath`
Kind: D -/
def classifyNicDevicePath (path : List PathNode) : Bool × Bool :=
  path.foldl (fun found n =>
    if n.type ≠ messagingDevicePath then found
    else if n.subType = msgUsbDp then (found.1, true)
    else if n.subType = msgMacAddrDp then (true, found.2)
    else found) (false, false)

/-- The flags say which nodes the path has. Kind: L -/
theorem classifyNicDevicePath_eq (path : List PathNode) :
    classifyNicDevicePath path = (pathHas msgMacAddrDp path, pathHas msgUsbDp path) := by
  rw [classifyNicDevicePath, foldl_found, Bool.false_or, Bool.false_or]

/-! ### Publishing -/

/-- `gNucEthConfigFormSetGuid`, as it lies in memory. Kind: D -/
def nucEthConfigFormSetGuid : List UInt8 :=
  [0x01, 0x20, 0x7e, 0x96, 0xc5, 0x25, 0x1e, 0x4d, 0xbf, 0x24, 0xb4, 0x22, 0xd8, 0x81, 0xa1, 0xa9]

def hardwareDevicePath : UInt8 := 0x01
def hwVendorDp : UInt8 := 0x04

/-- The node that tells the page from the NIC. Kind: D -/
def vendorNode : PathNode :=
  { type := hardwareDevicePath, subType := hwVendorDp, data := nucEthConfigFormSetGuid }

/-- The answers `PublishFormset` gets. Kind: D -/
structure PublishAnswers where
  /-- `AppendDevicePathNode` finds memory. -/
  appended : Bool
  install : EfiStatus
  /-- `HiiAddPackages` returns a handle. -/
  hiiHandle : Bool

/-- The path the formset is published under; without an HII handle the path is taken back.
Source: `EthConfigDxe.c` `PublishFormset`
Kind: D -/
def publishFormset (a : PublishAnswers) (nicDevicePath : List PathNode) : Option (List PathNode) :=
  if !a.appended then none
  else if efiError a.install then none
  else if !a.hiiHandle then none
  else some (nicDevicePath ++ [vendorNode])

lemma publishFormset_eq_some {a : PublishAnswers} {path child : List PathNode}
    (h : publishFormset a path = some child) : child = path ++ [vendorNode] := by
  unfold publishFormset at h
  split_ifs at h
  exact (Option.some.inj h).symm

/-! ### The callback -/

/-- A NIC that was bound: its handle and device path, and the answers the driver gets should it
claim the NIC.
Kind: D -/
structure NicNotice where
  handle : ℕ
  /-- `DevicePathFromHandle`, `none` for `NULL`. -/
  devicePath : Option (List PathNode)
  publish : PublishAnswers
  ethCfg : VariableRead
  handleProtocol : EfiStatus
  apply : StaticAnswers

/-- The driver and the NICs. `located` and `claims` are an account of the handles that were taken
off the queue and of those that were claimed.
Kind: D -/
structure NicWorld where
  /-- Notified, and not yet located. -/
  queue : List NicNotice
  nicClaimed : Bool
  /-- The paths under which the formset is published. -/
  formsets : List (List PathNode)
  nics : ℕ → NicConfig
  located : List NicNotice
  claims : List NicNotice

section Driver

variable (lib : NetLib) (ip4Cfg2 : Ip4Config2)

/-- `ApplyConfig`. Kind: D -/
def NicNotice.applyTo (n : NicNotice) (nics : ℕ → NicConfig) : ℕ → NicConfig :=
  Function.update nics n.handle
    (applyConfig lib ip4Cfg2 n.ethCfg n.handleProtocol n.apply (nics n.handle))

/-- One round of the loop, behind `LocateHandle`. Kind: D -/
def handleLocated (w : NicWorld) (n : NicNotice) : NicWorld :=
  let w := { w with located := w.located ++ [n] }
  if w.nicClaimed then w
  else match n.devicePath with
    | none => w
    | some path =>
        let (hasMac, overUsb) := classifyNicDevicePath path
        if overUsb || !hasMac then w
        else { w with
          nicClaimed := true
          formsets := w.formsets ++ (publishFormset n.publish path).toList
          nics := n.applyTo lib ip4Cfg2 w.nics
          claims := w.claims ++ [n] }

/-- The callback, when `LocateHandle` fails after `located` handles: because the queue is empty, or
for any other reason.
Source: `EthConfigDxe.c` `OnIp4Config2Installed`
Kind: D -/
def onIp4Config2Installed (located : ℕ) (w : NicWorld) : NicWorld :=
  (w.queue.take located).foldl (handleLocated lib ip4Cfg2)
    { w with queue := w.queue.drop located }

inductive NicEvent where
  /-- `Ip4Dxe` installs the protocol on a NIC. -/
  | installed (n : NicNotice)
  /-- The callback runs. -/
  | notified (located : ℕ)

/-- NICs and driver, in any order. Kind: D -/
def notifications : Machine NicWorld NicEvent where
  step w e :=
    match e with
    | .installed n => some { w with queue := w.queue ++ [n] }
    | .notified located => some (onIp4Config2Installed lib ip4Cfg2 located w)

end Driver

/-- The driver as it is loaded. Kind: D -/
def NicWorld.loaded (nics : ℕ → NicConfig) : NicWorld where
  queue := []
  nicClaimed := false
  formsets := []
  nics := nics
  located := []
  claims := []

/-! ### What a run comes to -/

/-- The NIC has a MAC node and no USB node in its path. Kind: D -/
def NicNotice.eligible (n : NicNotice) : Bool :=
  n.devicePath.any fun path => pathHas msgMacAddrDp path && !pathHas msgUsbDp path

/-- The formset of a NIC that is claimed. Kind: D -/
def NicNotice.formset (n : NicNotice) : Option (List PathNode) :=
  n.devicePath.bind (publishFormset n.publish)

/-- The NICs bound in a run, in order. Kind: D -/
def NicEvent.notice : NicEvent → Option NicNotice
  | .installed n => some n
  | .notified _ => none

section Run

variable {lib : NetLib} {ip4Cfg2 : Ip4Config2} {w : NicWorld} {nics : ℕ → NicConfig}

/-- Everything is as the first eligible handle taken off the queue makes it. Kind: D -/
structure NicWorld.Sound (lib : NetLib) (ip4Cfg2 : Ip4Config2) (nics : ℕ → NicConfig)
    (w : NicWorld) : Prop where
  claims : w.claims = (w.located.find? NicNotice.eligible).toList
  latch : w.nicClaimed = !w.claims.isEmpty
  formsets : w.formsets = w.claims.filterMap NicNotice.formset
  nics : w.nics = w.claims.foldl (fun nics n => n.applyTo lib ip4Cfg2 nics) nics

/-- One more handle is claimed if it is the first that is eligible. Kind: L -/
theorem find?_concat_eligible (located : List NicNotice) (n : NicNotice) :
    (located ++ [n]).find? NicNotice.eligible =
      (located.find? NicNotice.eligible).or (if n.eligible then some n else none) := by
  rw [List.find?_append, List.find?_singleton]

/-- What a round of the loop does: claim the handle, or note it. Kind: L -/
theorem handleLocated_cases (lib : NetLib) (ip4Cfg2 : Ip4Config2) (w : NicWorld) (n : NicNotice) :
    (w.nicClaimed = false ∧ n.eligible = true ∧
      handleLocated lib ip4Cfg2 w n = { w with
        located := w.located ++ [n]
        nicClaimed := true
        formsets := w.formsets ++ n.formset.toList
        nics := n.applyTo lib ip4Cfg2 w.nics
        claims := w.claims ++ [n] }) ∨
    ((w.nicClaimed = true ∨ n.eligible = false) ∧
      handleLocated lib ip4Cfg2 w n = { w with located := w.located ++ [n] }) := by
  unfold handleLocated NicNotice.eligible NicNotice.formset
  rcases hclaimed : w.nicClaimed with _ | _
  case true => exact Or.inr ⟨Or.inl rfl, rfl⟩
  rcases hpath : n.devicePath with _ | path
  case none => exact Or.inr ⟨Or.inr rfl, rfl⟩
  simp only [classifyNicDevicePath_eq]
  rcases husb : pathHas msgUsbDp path with _ | _
  case true => exact Or.inr ⟨Or.inr (by simp [husb]), by simp⟩
  rcases hmac : pathHas msgMacAddrDp path with _ | _
  case false => exact Or.inr ⟨Or.inr (by simp [hmac]), by simp⟩
  exact Or.inl ⟨trivial, by simp [husb, hmac], by simp⟩

/-- The step. Kind: L -/
theorem NicWorld.Sound.handleLocated (h : w.Sound lib ip4Cfg2 nics) (n : NicNotice) :
    (handleLocated lib ip4Cfg2 w n).Sound lib ip4Cfg2 nics := by
  obtain ⟨hclaimed, heligible, hrun⟩ | ⟨hskip, hrun⟩ :=
    handleLocated_cases lib ip4Cfg2 w n
  · have hnone : w.claims = [] := by
      have hlatch := h.latch
      rw [hclaimed] at hlatch
      simpa using hlatch
    have hfind : w.located.find? NicNotice.eligible = none := by
      have hclaims := h.claims
      rw [hnone] at hclaims
      simpa using hclaims.symm
    rw [hrun]
    refine ⟨?_, ?_, ?_, ?_⟩
    · simp [hnone, hfind, heligible]
    · simp
    · dsimp only
      rw [h.formsets, List.filterMap_append, List.filterMap_cons, List.filterMap_nil]
      cases n.formset <;> rfl
    · dsimp only
      rw [h.nics, List.foldl_concat]
  · rw [hrun]
    refine ⟨?_, h.latch, h.formsets, h.nics⟩
    dsimp only
    rw [h.claims, find?_concat_eligible]
    rcases hskip with hclaimed | hnot
    · -- Someone was claimed before, and stays the first.
      have hlatch := h.latch
      rw [hclaimed, h.claims] at hlatch
      rcases hfind : w.located.find? NicNotice.eligible with _ | m
      · simp [hfind] at hlatch
      · rfl
    · simp [hnot]

/-- All rounds of one callback. Kind: L -/
theorem NicWorld.Sound.foldl_handleLocated :
    ∀ (batch : List NicNotice) {w : NicWorld}, w.Sound lib ip4Cfg2 nics →
      (batch.foldl (Ethernet.handleLocated lib ip4Cfg2) w).Sound lib ip4Cfg2 nics
  | [], _, h => h
  | n :: batch, _, h => foldl_handleLocated batch (h.handleLocated n)

lemma located_handleLocated (lib : NetLib) (ip4Cfg2 : Ip4Config2) (w : NicWorld) (n : NicNotice) :
    (handleLocated lib ip4Cfg2 w n).located = w.located ++ [n] ∧
      (handleLocated lib ip4Cfg2 w n).queue = w.queue := by
  obtain ⟨-, -, hrun⟩ | ⟨-, hrun⟩ := handleLocated_cases lib ip4Cfg2 w n
  · rw [hrun]
    exact ⟨rfl, rfl⟩
  · rw [hrun]
    exact ⟨rfl, rfl⟩

/-- The loop notes every handle it takes off the queue. Kind: L -/
theorem located_foldl_handleLocated (lib : NetLib) (ip4Cfg2 : Ip4Config2) :
    ∀ (batch : List NicNotice) (w : NicWorld),
    (batch.foldl (handleLocated lib ip4Cfg2) w).located = w.located ++ batch ∧
      (batch.foldl (handleLocated lib ip4Cfg2) w).queue = w.queue
  | [], w => ⟨(List.append_nil _).symm, rfl⟩
  | n :: batch, w => by
      obtain ⟨hlocated, hqueue⟩ :=
        located_foldl_handleLocated lib ip4Cfg2 batch (handleLocated lib ip4Cfg2 w n)
      obtain ⟨hn, hq⟩ := located_handleLocated lib ip4Cfg2 w n
      rw [List.foldl_cons, hlocated, hqueue, hn, hq, List.append_assoc]
      exact ⟨rfl, rfl⟩

/-- No event loses a notification or reorders them. Kind: L -/
theorem located_append_queue_step {t : NicWorld} {e : NicEvent}
    (h : (notifications lib ip4Cfg2).step w e = some t) :
    t.located ++ t.queue = w.located ++ w.queue ++ e.notice.toList := by
  rcases e with n | located
  · cases h
    simp [NicEvent.notice]
  · cases h
    obtain ⟨hlocated, hqueue⟩ := located_foldl_handleLocated lib ip4Cfg2
      (w.queue.take located) { w with queue := w.queue.drop located }
    simp [onIp4Config2Installed, hlocated, hqueue, NicEvent.notice]

theorem located_append_queue_run {t : NicWorld} {es : List NicEvent}
    (h : (notifications lib ip4Cfg2).run w es = some t) :
    t.located ++ t.queue = w.located ++ w.queue ++ es.filterMap NicEvent.notice := by
  induction es generalizing w with
  | nil =>
      cases h
      simp
  | cons e es ih =>
      obtain ⟨u, hu, hrun⟩ := (Machine.run_cons_eq_some _).mp h
      rw [ih hrun, located_append_queue_step hu, List.append_assoc, List.filterMap_cons]
      cases e.notice <;> rfl

theorem NicWorld.Sound.step {t : NicWorld} {e : NicEvent} (h : w.Sound lib ip4Cfg2 nics)
    (hstep : (notifications lib ip4Cfg2).step w e = some t) : t.Sound lib ip4Cfg2 nics := by
  rcases e with n | located
  · cases hstep
    exact ⟨h.claims, h.latch, h.formsets, h.nics⟩
  · cases hstep
    refine NicWorld.Sound.foldl_handleLocated _ ?_
    exact ⟨h.claims, h.latch, h.formsets, h.nics⟩

/-- What a run of the driver comes to. Kind: D -/
structure ClaimedOnce (lib : NetLib) (ip4Cfg2 : Ip4Config2) (nics : ℕ → NicConfig)
    (es : List NicEvent) (w : NicWorld) : Prop where
  /-- The handles are taken in the order of the notifications. -/
  order : w.located ++ w.queue = es.filterMap NicEvent.notice
  /-- The first eligible handle is claimed, and no other. -/
  claims : w.claims = (w.located.find? NicNotice.eligible).toList
  not_usb : ∀ n ∈ w.claims, ∃ path, n.devicePath = some path ∧
    classifyNicDevicePath path = (true, false)
  /-- The formset is published at most once, under the path of the NIC that is claimed. -/
  formsets : w.formsets.length ≤ 1 ∧ ∀ child ∈ w.formsets, ∃ n ∈ w.claims, ∃ path,
    n.devicePath = some path ∧ child = path ++ [vendorNode]
  /-- `EthCfg` is applied once, to the NIC that is claimed. -/
  applied : ∀ n ∈ w.claims, w.nics = n.applyTo lib ip4Cfg2 nics
  untouched : ∀ handle, (∀ n ∈ w.claims, n.handle ≠ handle) → w.nics handle = nics handle

lemma eligible_eq_true {n : NicNotice} :
    n.eligible = true ↔ ∃ path, n.devicePath = some path ∧
      classifyNicDevicePath path = (true, false) := by
  unfold NicNotice.eligible
  rcases n.devicePath with _ | path
  · simp
  · simp [classifyNicDevicePath_eq]

/-- **One NIC is claimed.** In every run, from the loading of the driver on, the first eligible NIC
that the driver gets to is the one it publishes on and configures, and it does so once.
Kind: P -/
theorem claimed_once {es : List NicEvent}
    (hrun : (notifications lib ip4Cfg2).run (.loaded nics) es = some w) :
    ClaimedOnce lib ip4Cfg2 nics es w := by
  have hloaded : (NicWorld.loaded nics).Sound lib ip4Cfg2 nics := ⟨rfl, rfl, rfl, rfl⟩
  have h : w.Sound lib ip4Cfg2 nics :=
    Machine.invariant_of_run _ (NicWorld.Sound lib ip4Cfg2 nics)
      (fun _ _ _ h hstep => h.step hstep) hloaded hrun
  have horder : w.located ++ w.queue = es.filterMap NicEvent.notice := located_append_queue_run hrun
  rcases hfind : w.located.find? NicNotice.eligible with _ | n
  · have hclaims : w.claims = [] := by rw [h.claims, hfind]; rfl
    have hformsets : w.formsets = [] := by rw [h.formsets, hclaims]; rfl
    have hnics : w.nics = nics := by rw [h.nics, hclaims]; rfl
    refine ⟨horder, h.claims, ?_, ?_, ?_, fun handle _ => by rw [hnics]⟩
    · rw [hclaims]
      exact List.forall_mem_nil _
    · rw [hformsets]
      exact ⟨Nat.zero_le _, List.forall_mem_nil _⟩
    · rw [hclaims]
      exact List.forall_mem_nil _
  · have hclaims : w.claims = [n] := by rw [h.claims, hfind]; rfl
    have hformsets : w.formsets = n.formset.toList := by
      rw [h.formsets, hclaims, List.filterMap_cons]
      cases n.formset <;> rfl
    have hnics : w.nics = n.applyTo lib ip4Cfg2 nics := by rw [h.nics, hclaims]; rfl
    refine ⟨horder, h.claims, ?_, ⟨?_, ?_⟩, ?_, ?_⟩
    · rw [hclaims, List.forall_mem_singleton]
      exact eligible_eq_true.mp (List.find?_some hfind)
    · rw [hformsets, Option.length_toList]
      split_ifs <;> decide
    · rw [hformsets, hclaims]
      intro child hchild
      obtain ⟨path, hpath, hpublish⟩ := Option.bind_eq_some_iff.mp (Option.mem_toList.mp hchild)
      exact ⟨n, List.mem_singleton_self n, path, hpath, publishFormset_eq_some hpublish⟩
    · rw [hclaims, List.forall_mem_singleton]
      exact hnics
    · intro handle hother
      rw [hclaims, List.forall_mem_singleton] at hother
      rw [hnics, NicNotice.applyTo, Function.update_of_ne hother.symm]

end Run

end NucBios.Ethernet
