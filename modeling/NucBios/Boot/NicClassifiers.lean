import NucBios.Ethernet.NicClaim
import NucBios.Redfish.BootOverride

/-!
# Four classifiers of one device path

Four pieces of code look at a device path and ask whether it leads to a network card that is not the
BMC's USB gadget: the Redfish driver when it honours a `"Pxe"` override, the boot manager when it
enumerates options, the platform code when it prunes them, and `EthConfigDxe` when it picks the card
to configure. They were written separately, one of them with an early return.

* `optionIsNetworkBoot_iff`, and the lemmas of the other three: each comes down to a MAC node and no
  USB node;
* `classifiers_agree`: so they agree on every path, an override never selects what the others would
  have removed, and the card that is configured is the first of that class.
-/

namespace NucBios.Boot

open Uefi Redfish Ethernet Lib

/-! ### The early return -/

lemma pathHas_cons (subType : UInt8) (n : PathNode) (path : List PathNode) :
    pathHas subType (n :: path) =
      (decide (n.type = messagingDevicePath ∧ n.subType = subType) || pathHas subType path) := rfl

/-- The loop that stops at a USB node finds what the loops that go on find. Kind: L -/
theorem networkBootLoop_eq : ∀ (path : List PathNode) (hasMac : Bool),
    networkBootLoop hasMac (path.map PathNode.toDevicePathNode) =
      ((hasMac || pathHas msgMacAddrDp path) && !pathHas msgUsbDp path)
  | [], hasMac => by simp [networkBootLoop, pathHas]
  | n :: path, hasMac => by
      rw [List.map_cons, networkBootLoop, pathHas_cons, pathHas_cons, networkBootLoop_eq path,
        networkBootLoop_eq path]
      by_cases htype : n.type = messagingDevicePath
      · rw [if_neg (not_not.mpr htype)]
        by_cases husb : n.subType = msgUsbDp
        · simp [htype, husb]
        · by_cases hmac : n.subType = msgMacAddrDp
          · simp [hmac, htype, msgMacAddrDp, msgUsbDp]
          · simp [husb, hmac]
      · simp [htype]

/-! ### One option, as the drivers see it -/

/-- A boot option with the attributes the Redfish driver reads and the fields the platform code
reads.
Kind: D -/
structure SharedOption where
  attributes : UInt32
  boot : BootOption

/-- The option as `FindBootOverrideOption` sees it. Kind: D -/
def SharedOption.load (o : SharedOption) : LoadOption where
  optionNumber := o.boot.optionNumber
  attributes := o.attributes
  filePath := o.boot.filePath.map (List.map PathNode.toDevicePathNode)

theorem optionIsNetworkBoot_eq (o : SharedOption) :
    optionIsNetworkBoot o.load = (o.boot.hasNode msgMacAddrDp && !o.boot.hasNode msgUsbDp) := by
  unfold optionIsNetworkBoot SharedOption.load BootOption.hasNode
  rcases o.boot.filePath with _ | path
  · rfl
  · exact networkBootLoop_eq path false

/-- A MAC node and no USB node. Kind: L -/
theorem optionIsNetworkBoot_iff (o : SharedOption) :
    optionIsNetworkBoot o.load = true ↔
      o.boot.hasNode msgMacAddrDp = true ∧ o.boot.hasNode msgUsbDp = false := by
  rw [optionIsNetworkBoot_eq, Bool.and_eq_true, Bool.not_eq_true']

/-! ### Agreement -/

/-- The four answers to one path. Kind: D -/
structure PathAgreement (o : SharedOption) (path : List PathNode) : Prop where
  enumerator : optionIsNetworkBoot o.load = true ↔
    pathHas msgMacAddrDp path = true ∧ bmIsUsbNicDevicePath (some path) = false
  ethConfig : optionIsNetworkBoot o.load = true ↔ classifyNicDevicePath path = (true, false)
  pruner : optionIsNetworkBoot o.load = true ↔
    (classify o.boot).macOf.isSome = true ∧ (classify o.boot).overUsb = false

theorem pathAgreement {o : SharedOption} {path : List PathNode}
    (hpath : o.boot.filePath = some path) : PathAgreement o path := by
  have hmac : o.boot.hasNode msgMacAddrDp = pathHas msgMacAddrDp path := by
    rw [BootOption.hasNode, hpath, Option.any_some]
  have husb : o.boot.hasNode msgUsbDp = pathHas msgUsbDp path := by
    rw [BootOption.hasNode, hpath, Option.any_some]
  have hbm : bmIsUsbNicDevicePath (some path) =
      (pathHas msgMacAddrDp path && pathHas msgUsbDp path) := by
    rw [← hpath, bmIsUsbNicDevicePath_eq, hmac, husb]
  refine ⟨?_, ?_, ?_⟩
  · rw [optionIsNetworkBoot_iff, hmac, husb, hbm]
    constructor
    · rintro ⟨hm, hu⟩
      simp [hm, hu]
    · rintro ⟨hm, hu⟩
      rw [hm, Bool.true_and] at hu
      exact ⟨hm, hu⟩
  · rw [optionIsNetworkBoot_iff, hmac, husb, classifyNicDevicePath_eq, Prod.mk.injEq]
  · rw [optionIsNetworkBoot_iff, classify_macOf_isSome, classify_overUsb]

/-! ### What an override selects -/

/-- The pruner deletes the option at an index, and logs it as a USB host interface. Kind: D -/
def DeletedAsUsb (options : List BootOption) (i : ℕ) : Prop :=
  ∃ o, options[i]? = some o ∧ outcomeAt options i o = .deleted ∧ (classify o).overUsb = true

/-- What a `"Pxe"` override selects. Kind: D -/
structure PxeSelection (options : List SharedOption) (i : ℕ) (o : SharedOption) : Prop where
  selected : options[i]? = some o
  enumerated : bmIsUsbNicDevicePath o.boot.filePath = false
  spared : ¬ DeletedAsUsb (options.map SharedOption.boot) i

theorem pxeSelection {options : List SharedOption} {i : ℕ}
    (h : findBootOverrideOption (some (ascii "Pxe")) (options.map SharedOption.load) = some i) :
    ∃ o, PxeSelection options i o := by
  have hfind : (options.map SharedOption.load).findIdx? (optionMatches (ascii "Pxe")) = some i := by
    rwa [findBootOverrideOption, if_neg (by decide)] at h
  obtain ⟨hlt, hmatch, -⟩ := List.findIdx?_eq_some_iff_getElem.mp hfind
  rw [List.length_map] at hlt
  rw [List.getElem_map, optionMatches, if_neg (by decide), if_pos rfl,
    optionIsNetworkBoot_iff] at hmatch
  obtain ⟨-, husb⟩ := hmatch
  have ho : options[i]? = some options[i] := List.getElem?_eq_getElem hlt
  refine ⟨options[i], ho, ?_, ?_⟩
  · rw [bmIsUsbNicDevicePath_eq, husb, Bool.and_false]
  · rintro ⟨o, hboot, -, hover⟩
    rw [List.getElem?_map, ho, Option.map_some, Option.some.injEq] at hboot
    rw [← hboot, classify_overUsb, husb] at hover
    cases hover

/-! ### The four together -/

/-- **One class of network cards.** The four classifiers agree on every path; the option a `"Pxe"`
override selects was neither skipped at enumeration nor deleted as a USB interface; and whatever is
notified, `EthConfigDxe` claims one card at most, the first it gets to of the class, and never one
over USB.
Kind: P -/
theorem classifiers_agree :
    (∀ (o : SharedOption) (path : List PathNode), o.boot.filePath = some path →
      PathAgreement o path) ∧
    (∀ (options : List SharedOption) (i : ℕ),
      findBootOverrideOption (some (ascii "Pxe")) (options.map SharedOption.load) = some i →
      ∃ o, PxeSelection options i o) ∧
    ∀ (lib : NetLib) (ip4Cfg2 : Ip4Config2) (nics : ℕ → NicConfig) (es : List NicEvent),
      ∃ w, (notifications lib ip4Cfg2).run (.loaded nics) es = some w ∧
        ClaimedOnce lib ip4Cfg2 nics es w := by
  refine ⟨fun o path => pathAgreement, fun options i => pxeSelection, ?_⟩
  intro lib ip4Cfg2 nics es
  have htotal : ∀ w e, ∃ t, (notifications lib ip4Cfg2).step w e = some t := by
    rintro w (n | located)
    · exact ⟨_, rfl⟩
    · exact ⟨_, rfl⟩
  obtain ⟨w, hrun⟩ := Machine.exists_run_of_total _ htotal (.loaded nics) es
  exact ⟨w, hrun, claimed_once hrun⟩

/-- The USB gadget, and behind it the onboard card. -/
def sampleOptions : List SharedOption :=
  let usbNode : PathNode := { type := messagingDevicePath, subType := msgUsbDp, data := [0, 0] }
  let mac : PathNode := { type := messagingDevicePath, subType := msgMacAddrDp, data := [] }
  [⟨0, ⟨0, some [usbNode, mac], none, true⟩⟩, ⟨0, ⟨1, some [mac], none, true⟩⟩]

/-- An override passes over the gadget. Kind: C -/
theorem classifiers_agree_onboard :
    findBootOverrideOption (some (ascii "Pxe")) (sampleOptions.map SharedOption.load) = some 1 ∧
      ∃ o, PxeSelection sampleOptions 1 o :=
  ⟨by decide +kernel, classifiers_agree.2.1 sampleOptions 1 (by decide +kernel)⟩

end NucBios.Boot
