import Mathlib.Data.List.DropRight
import NucBios.Uefi.DevicePath

/-!
# Pruning the network boot options

After the boot manager has refreshed its options, `PruneAutoCreatedNetworkBootOptions` deletes the
ones over USB and the duplicates of a network card, and renames what is left. It classifies the
first sixteen options, then decides about each by comparing it with all the others.

* `pruneAutoCreatedNetworkBootOptions` — for each option, what is done with it;
  `calls_eq_remaining`: where no two options share a number, the calls it makes leave exactly the
  options it spares;
* `prune_keeps_one_per_mac` — the comparison is a ranking, so one option of each card survives;
* `prune_spares_written_iff` — "anything an OS installer or an operator wrote is left alone": when;
* `prune_clears_usb_iff` — "the host interface goes entirely": when.
-/

namespace NucBios.Boot

open Uefi

/-! ### The options -/

/-- The fields of `EFI_BOOT_MANAGER_LOAD_OPTION` that matter here; the path and the description may
be `NULL`.
Kind: D -/
structure BootOption where
  optionNumber : UInt16
  filePath : Option (List PathNode)
  description : Option (List UInt16)
  /-- The boot manager made the option, and marked it so. -/
  autoCreated : Bool
  deriving DecidableEq, Repr

/-- Some node of the path is a messaging node of the sub-type. Kind: D -/
def pathHas (subType : UInt8) (path : List PathNode) : Bool :=
  path.any fun n => n.type = messagingDevicePath ∧ n.subType = subType

/-- The option has a path, and such a node in it. Kind: D -/
def BootOption.hasNode (o : BootOption) (subType : UInt8) : Bool := o.filePath.any (pathHas subType)

/-- `MacOf`, `HasIp4` and `OverUsb` of an option. Kind: D -/
structure NetClass where
  macOf : Option (List UInt8)
  hasIp4 : Bool
  overUsb : Bool
  deriving DecidableEq, Repr

/-- The `EFI_MAC_ADDRESS` of a MAC node: the 32 octets behind its header, wherever the node ends.
Kind: D -/
def macAddressAt (node : PathNode) (rest : List PathNode) : List UInt8 :=
  (node.data ++ pathOctets rest ++ endNodeOctets).take 32

/-- One node of the classification. Kind: D -/
def classifyNode (c : NetClass) (node : PathNode) (rest : List PathNode) : NetClass :=
  if node.type ≠ messagingDevicePath then c
  else if node.subType = msgUsbDp then { c with overUsb := true }
  else if node.subType = msgIpv4Dp then { c with hasIp4 := true }
  else if node.subType = msgMacAddrDp then { c with macOf := some (macAddressAt node rest) }
  else c

def classifyPath : NetClass → List PathNode → NetClass
  | c, [] => c
  | c, node :: rest => classifyPath (classifyNode c node rest) rest

/-- The first loop of the function, for one option. Kind: D -/
def classify (o : BootOption) : NetClass :=
  match o.filePath with
  | none => ⟨none, false, false⟩
  | some path => classifyPath ⟨none, false, false⟩ path

/-- `ARRAY_SIZE (MacOf)`. Kind: D -/
def maxClassified : ℕ := 16

/-- The arrays `MacOf`, `HasIp4` and `OverUsb`. Kind: D -/
def classes (options : List BootOption) : List NetClass := (options.take maxClassified).map classify

/-- `Drop`, after the loop over the others. Kind: D -/
def isDropped (cs : List NetClass) (c : NetClass) (index : ℕ) : Bool :=
  c.overUsb || cs.zipIdx.any fun (d, other) =>
    if other = index ∨ d.macOf = none ∨ d.overUsb = true then false
    else if d.macOf ≠ c.macOf then false
    else if d.hasIp4 && !c.hasIp4 then true
    else d.hasIp4 == c.hasIp4 && decide (other < index)

def isDigit (c : UInt16) : Bool := 0x30 ≤ c && c ≤ 0x39

/-- The description without the trailing `" <n>"`, if it has one behind a non-empty name. Kind: D -/
def stripDisambiguator (desc : List UInt16) : Option (List UInt16) :=
  let shortened := desc.rdropWhile isDigit
  if 1 < shortened.length ∧ shortened.length < desc.length ∧ shortened.getLast? = some 0x20 then
    some shortened.dropLast
  else
    none

/-- What is done with an option. Kind: D -/
inductive Outcome
  | kept
  | deleted
  | renamed (description : List UInt16)
  deriving DecidableEq, Repr

/-- The second loop of the function, for the option at an index; nothing is done with those past the
clamp. Kind: D -/
def outcomeAt (options : List BootOption) (index : ℕ) (o : BootOption) : Outcome :=
  if maxClassified ≤ index then .kept
  else
    let c := classify o
    -- not a network option at all
    if c.macOf = none then .kept
    else if isDropped (classes options) c index then .deleted
    else
      match o.description.bind stripDisambiguator with
      | none => .kept
      | some description => .renamed description

/-- Source: `PlatformBootManager.c` `PruneAutoCreatedNetworkBootOptions`. Kind: D -/
def pruneAutoCreatedNetworkBootOptions (options : List BootOption) : List (BootOption × Outcome) :=
  options.zipIdx.map fun (o, index) => (o, outcomeAt options index o)

/-- Source: `BmBoot.c` `BmIsUsbNicDevicePath`. Kind: D -/
def bmIsUsbNicDevicePath : Option (List PathNode) → Bool
  | none => false
  | some path =>
      let found := path.foldl (fun (found : Bool × Bool) n =>
        if n.type ≠ messagingDevicePath then found
        else if n.subType = msgUsbDp then (found.1, true)
        else if n.subType = msgMacAddrDp then (true, found.2)
        else found) (false, false)
      found.1 && found.2

/-! ### What the classification finds -/

/-- Each flag is set iff it was, or a node of its kind comes. Kind: L -/
theorem classifyPath_flags :
    ∀ (path : List PathNode) (c : NetClass),
      (classifyPath c path).overUsb = (c.overUsb || pathHas msgUsbDp path) ∧
      (classifyPath c path).hasIp4 = (c.hasIp4 || pathHas msgIpv4Dp path) ∧
      (classifyPath c path).macOf.isSome = (c.macOf.isSome || pathHas msgMacAddrDp path)
  | [], c => by simp [classifyPath, pathHas]
  | node :: rest, c => by
      obtain ⟨husb, hip4, hmac⟩ := classifyPath_flags rest (classifyNode c node rest)
      rw [classifyPath, husb, hip4, hmac]
      simp only [pathHas, List.any_cons, ← Bool.or_assoc]
      unfold classifyNode
      by_cases htype : node.type = messagingDevicePath
      · rw [if_neg (not_not.mpr htype)]
        split_ifs with h1 h2 h3
        · simp [htype, h1, msgUsbDp, msgIpv4Dp, msgMacAddrDp]
        · simp [htype, h2, msgUsbDp, msgIpv4Dp, msgMacAddrDp]
        · simp [htype, h3, msgUsbDp, msgIpv4Dp, msgMacAddrDp]
        · simp [htype, h1, h2, h3]
      · simp [htype]

/-- The flags of an option say which nodes its path has. Kind: L -/
theorem classify_flags (o : BootOption) :
    (classify o).overUsb = o.hasNode msgUsbDp ∧ (classify o).hasIp4 = o.hasNode msgIpv4Dp ∧
      (classify o).macOf.isSome = o.hasNode msgMacAddrDp := by
  unfold BootOption.hasNode classify
  cases o.filePath with
  | none => exact ⟨rfl, rfl, rfl⟩
  | some path => exact classifyPath_flags path _

lemma classify_overUsb (o : BootOption) : (classify o).overUsb = o.hasNode msgUsbDp :=
  (classify_flags o).1

lemma classify_hasIp4 (o : BootOption) : (classify o).hasIp4 = o.hasNode msgIpv4Dp :=
  (classify_flags o).2.1

lemma classify_macOf_isSome (o : BootOption) :
    (classify o).macOf.isSome = o.hasNode msgMacAddrDp :=
  (classify_flags o).2.2

/-- A MAC node. Kind: D -/
def IsMacNode (node : PathNode) : Prop :=
  node.type = messagingDevicePath ∧ node.subType = msgMacAddrDp

/-- The last MAC node of a path has the address. Kind: D -/
def LastMac (path : List PathNode) (mac : List UInt8) : Prop :=
  ∃ before node rest, path = before ++ node :: rest ∧ IsMacNode node ∧
    pathHas msgMacAddrDp rest = false ∧ mac = macAddressAt node rest

/-- The option is for the network card with that address. Kind: D -/
def BootOption.HasMac (o : BootOption) (mac : List UInt8) : Prop :=
  ∃ path, o.filePath = some path ∧ LastMac path mac

lemma lastMac_cons {node : PathNode} {rest : List PathNode} {mac : List UInt8} :
    LastMac (node :: rest) mac ↔ LastMac rest mac ∨
      IsMacNode node ∧ pathHas msgMacAddrDp rest = false ∧ mac = macAddressAt node rest := by
  constructor
  · rintro ⟨before, last, after, hpath, hlast⟩
    rcases List.cons_eq_append_iff.mp hpath with ⟨-, hself⟩ | ⟨before', -, hrest⟩
    · injection hself with hnode hrest
      subst hnode hrest
      exact .inr hlast
    · exact .inl ⟨before', last, after, hrest, hlast⟩
  · rintro (⟨before, last, after, rfl, hlast⟩ | hlast)
    · exact ⟨node :: before, last, after, rfl, hlast⟩
    · exact ⟨[], node, rest, rfl, hlast⟩

lemma classifyNode_macOf (c : NetClass) (node : PathNode) (rest : List PathNode) :
    (IsMacNode node → (classifyNode c node rest).macOf = some (macAddressAt node rest)) ∧
      (¬ IsMacNode node → (classifyNode c node rest).macOf = c.macOf) := by
  unfold classifyNode IsMacNode
  split_ifs with htype husb hip4 hmac
  · exact ⟨fun h => absurd h.1 htype, fun _ => rfl⟩
  · exact ⟨fun h => absurd (husb.symm.trans h.2) (by decide), fun _ => rfl⟩
  · exact ⟨fun h => absurd (hip4.symm.trans h.2) (by decide), fun _ => rfl⟩
  · exact ⟨fun _ => rfl, fun h => absurd ⟨not_not.mp htype, hmac⟩ h⟩
  · exact ⟨fun h => absurd h.2 hmac, fun _ => rfl⟩

/-- The address that is found is that of the last MAC node, or the one there was before. Kind: L -/
theorem classifyPath_macOf {mac : List UInt8} : ∀ (path : List PathNode) (c : NetClass),
    (classifyPath c path).macOf = some mac ↔
      LastMac path mac ∨ pathHas msgMacAddrDp path = false ∧ c.macOf = some mac
  | [], c => by simp [classifyPath, LastMac, pathHas]
  | node :: rest, c => by
      have hhas : pathHas msgMacAddrDp (node :: rest) = false ↔
          ¬ IsMacNode node ∧ pathHas msgMacAddrDp rest = false := by
        simp [pathHas, IsMacNode]
      obtain ⟨hmac, hother⟩ := classifyNode_macOf c node rest
      rw [classifyPath, classifyPath_macOf rest, lastMac_cons, hhas]
      by_cases hnode : IsMacNode node
      · simp only [hmac hnode, hnode, Option.some.injEq, true_and, not_true_eq_false, false_and,
          or_false, @eq_comm _ mac]
      · simp [hother hnode, hnode]

/-- The address of an option is that of the last MAC node of its path. Kind: L -/
theorem classify_macOf_eq_some {o : BootOption} {mac : List UInt8} :
    (classify o).macOf = some mac ↔ o.HasMac mac := by
  unfold classify BootOption.HasMac
  cases o.filePath with
  | none => simp
  | some path => simp [classifyPath_macOf]

/-- The pair of flags two of the drivers keep while they walk a path: a MAC node, a USB node.
Kind: L -/
theorem foldl_found : ∀ (path : List PathNode) (found : Bool × Bool),
    path.foldl (fun (found : Bool × Bool) n =>
      if n.type ≠ messagingDevicePath then found
      else if n.subType = msgUsbDp then (found.1, true)
      else if n.subType = msgMacAddrDp then (true, found.2)
      else found) found =
    (found.1 || pathHas msgMacAddrDp path, found.2 || pathHas msgUsbDp path)
  | [], found => by simp [pathHas]
  | n :: path, found => by
      rw [List.foldl_cons, foldl_found path]
      simp only [pathHas, List.any_cons, ← Bool.or_assoc]
      by_cases htype : n.type = messagingDevicePath
      · rw [if_neg (not_not.mpr htype)]
        split_ifs with h1 h2
        · simp [htype, h1, msgUsbDp, msgMacAddrDp]
        · simp [htype, h2, msgUsbDp, msgMacAddrDp]
        · simp [htype, h1, h2]
      · simp [htype]

/-- The two patches recognise a host interface by the same two nodes. Kind: L -/
theorem bmIsUsbNicDevicePath_eq (o : BootOption) :
    bmIsUsbNicDevicePath o.filePath = (o.hasNode msgMacAddrDp && o.hasNode msgUsbDp) := by
  simp only [BootOption.hasNode]
  cases o.filePath with
  | none => rfl
  | some path =>
      rw [bmIsUsbNicDevicePath, foldl_found]
      simp

lemma rdropWhile_append_of_all {desc digits : List UInt16} (h : digits.all isDigit = true) :
    (desc ++ digits).rdropWhile isDigit = desc.rdropWhile isDigit := by
  rw [List.rdropWhile, List.reverse_append, List.dropWhile_append_of_pos, List.rdropWhile]
  intro c hc
  exact List.all_eq_true.mp h c (List.mem_reverse.mp hc)

/-- A description is shortened iff it ends in a blank and digits, behind a non-empty name.
Kind: L -/
theorem stripDisambiguator_eq_some_iff {desc name : List UInt16} :
    stripDisambiguator desc = some name ↔
      name ≠ [] ∧ ∃ digits, digits ≠ [] ∧ digits.all isDigit = true ∧
        desc = name ++ 0x20 :: digits := by
  constructor
  · intro h
    set digits := desc.rtakeWhile isDigit
    have hdesc : desc.rdropWhile isDigit ++ digits = desc := List.rdropWhile_append_rtakeWhile ..
    have hdigits : digits.all isDigit = true :=
      List.all_eq_true.mpr fun c hc => List.mem_rtakeWhile_imp hc
    unfold stripDisambiguator at h
    simp only at h
    split_ifs at h with hcond
    · obtain ⟨hlong, hshorter, hlast⟩ := hcond
      cases h
      have hblank : desc.rdropWhile isDigit = (desc.rdropWhile isDigit).dropLast ++ [0x20] :=
        (List.dropLast_append_getLast? _ hlast).symm
      refine ⟨?_, digits, ?_, hdigits, ?_⟩
      · intro hnil
        rw [hblank, hnil] at hlong
        simp at hlong
      · intro hnil
        rw [hnil, List.append_nil] at hdesc
        rw [hdesc] at hshorter
        exact lt_irrefl _ hshorter
      · rw [List.append_cons, ← hblank, hdesc]
  · rintro ⟨hname, digits, hne, hdigits, rfl⟩
    have hshort : (name ++ 0x20 :: digits).rdropWhile isDigit = name ++ [0x20] := by
      rw [List.append_cons, rdropWhile_append_of_all hdigits,
        List.rdropWhile_concat_neg _ _ _ (by decide)]
    have hlen : 0 < name.length := List.length_pos_iff.mpr hname
    have hdig : 0 < digits.length := List.length_pos_iff.mpr hne
    unfold stripDisambiguator
    simp only [hshort]
    rw [if_pos ⟨by simp [hlen], by simp [hdig], by simp⟩, List.dropLast_concat]

/-! ### The ranking -/

/-- The option at an index is classified, is for the network card with that address, and not over
USB. Kind: D -/
def CarriesAt (options : List BootOption) (mac : List UInt8) (i : ℕ) : Prop :=
  i < maxClassified ∧ ∃ o, options[i]? = some o ∧ o.HasMac mac ∧ o.hasNode msgUsbDp = false

/-- The option at an index has an IPv4 node. Kind: D -/
def hasIp4At (options : List BootOption) (i : ℕ) : Bool :=
  options[i]?.any fun o => o.hasNode msgIpv4Dp

/-- Another option for the card is preferred to the one at an index: one with an IPv4 node to one
without, else the one listed first. Kind: D -/
def OutrankedAt (options : List BootOption) (mac : List UInt8) (i : ℕ) : Prop :=
  ∃ j, CarriesAt options mac j ∧
    (hasIp4At options j = true ∧ hasIp4At options i = false ∨
      hasIp4At options j = hasIp4At options i ∧ j < i)

/-- The option at an index is not deleted. Kind: D -/
def Survives (options : List BootOption) (i : ℕ) : Prop :=
  ∃ o out, (pruneAutoCreatedNetworkBootOptions options)[i]? = some (o, out) ∧ out ≠ .deleted

lemma prune_getElem? (options : List BootOption) (i : ℕ) :
    (pruneAutoCreatedNetworkBootOptions options)[i]? =
      options[i]?.map fun o => (o, outcomeAt options i o) := by
  simp [pruneAutoCreatedNetworkBootOptions, List.getElem?_map, List.getElem?_zipIdx,
    Function.comp_def]

lemma classes_getElem?_eq_some {options : List BootOption} {i : ℕ} {c : NetClass} :
    (classes options)[i]? = some c ↔
      i < maxClassified ∧ ∃ o, options[i]? = some o ∧ classify o = c := by
  rw [classes, List.getElem?_map, List.getElem?_take]
  split_ifs with hi
  · simp [hi]
  · simp [hi]

/-- An option for a card is dropped iff it is over USB or another option for the card, not over USB,
is preferred. Kind: L -/
theorem isDropped_iff {cs : List NetClass} {c : NetClass} {i : ℕ} {mac : List UInt8}
    (hc : cs[i]? = some c) (hmac : c.macOf = some mac) :
    isDropped cs c i = true ↔ c.overUsb = true ∨
      ∃ j d, cs[j]? = some d ∧ d.macOf = some mac ∧ d.overUsb = false ∧
        (d.hasIp4 = true ∧ c.hasIp4 = false ∨ d.hasIp4 = c.hasIp4 ∧ j < i) := by
  unfold isDropped
  rw [Bool.or_eq_true, List.any_eq_true]
  refine or_congr_right ?_
  constructor
  · rintro ⟨⟨d, j⟩, hd, hbeats⟩
    rw [List.mk_mem_zipIdx_iff_getElem?] at hd
    simp only at hbeats
    split_ifs at hbeats with hskip hother hip4
    · simp only [not_or, Bool.not_eq_true] at hskip
      refine ⟨j, d, hd, (not_not.mp hother).trans hmac, hskip.2.2, .inl ?_⟩
      simpa using hip4
    · simp only [not_or, Bool.not_eq_true] at hskip
      refine ⟨j, d, hd, (not_not.mp hother).trans hmac, hskip.2.2, .inr ?_⟩
      simpa using hbeats
  · rintro ⟨j, d, hd, hdmac, husb, hbeats⟩
    -- an option does not beat itself
    have hne : j ≠ i := by
      rintro rfl
      rw [hc, Option.some.injEq] at hd
      subst hd
      obtain ⟨h1, h2⟩ | ⟨-, h⟩ := hbeats
      · rw [h1] at h2
        cases h2
      · exact lt_irrefl _ h
    refine ⟨(d, j), List.mk_mem_zipIdx_iff_getElem?.mpr hd, ?_⟩
    simp only [hne, hdmac, husb, hmac, reduceCtorEq, Bool.false_eq_true, or_self, if_false, ne_eq,
      not_true_eq_false]
    obtain ⟨h1, h2⟩ | ⟨h1, h2⟩ := hbeats
    · simp [h1, h2]
    · simp [h1, h2]

/-- Which of the options for a card are deleted. Kind: L -/
theorem outcomeAt_eq_deleted_iff {options : List BootOption} {i : ℕ} {o : BootOption}
    {mac : List UInt8} (hi : i < maxClassified) (ho : options[i]? = some o)
    (hmac : o.HasMac mac) :
    outcomeAt options i o = .deleted ↔
      o.hasNode msgUsbDp = true ∨ OutrankedAt options mac i := by
  rw [← classify_macOf_eq_some] at hmac
  have hdrop := isDropped_iff (classes_getElem?_eq_some.mpr ⟨hi, o, ho, rfl⟩) hmac
  have houtcome : outcomeAt options i o = .deleted ↔
      isDropped (classes options) (classify o) i = true := by
    unfold outcomeAt
    rw [if_neg (not_le.mpr hi)]
    simp only [hmac, reduceCtorEq, if_false]
    split_ifs with h
    · simp [h]
    · simp only [h]
      split <;> simp
  rw [houtcome, hdrop, classify_overUsb]
  refine or_congr_right ?_
  have hip4 : hasIp4At options i = (classify o).hasIp4 := by
    simp [hasIp4At, ho, classify_hasIp4]
  constructor
  · rintro ⟨j, d, hd, hdmac, husb, hbeats⟩
    obtain ⟨hj, p, hp, rfl⟩ := classes_getElem?_eq_some.mp hd
    rw [classify_overUsb] at husb
    refine ⟨j, ⟨hj, p, hp, classify_macOf_eq_some.mp hdmac, husb⟩, ?_⟩
    rw [hip4]
    simpa [hasIp4At, hp, classify_hasIp4] using hbeats
  · rintro ⟨j, ⟨hj, p, hp, hdmac, husb⟩, hbeats⟩
    rw [← classify_overUsb] at husb
    refine ⟨j, classify p, classes_getElem?_eq_some.mpr ⟨hj, p, hp, rfl⟩,
      classify_macOf_eq_some.mpr hdmac, husb, ?_⟩
    rw [hip4] at hbeats
    simpa [hasIp4At, hp, classify_hasIp4] using hbeats

lemma survives_iff {options : List BootOption} {mac : List UInt8} {i : ℕ}
    (h : CarriesAt options mac i) : Survives options i ↔ ¬ OutrankedAt options mac i := by
  obtain ⟨hi, o, ho, hmac, husb⟩ := h
  have hdeleted := outcomeAt_eq_deleted_iff hi ho hmac
  simp only [husb, Bool.false_eq_true, false_or] at hdeleted
  rw [← hdeleted, Survives]
  simp [prune_getElem?, ho]

/-- Options with an IPv4 node first, then by index. Kind: D -/
def rank (options : List BootOption) (i : ℕ) : ℕ :=
  if hasIp4At options i then i else maxClassified + i

/-- Being preferred is having a lower rank: the pairwise comparison is an order. Kind: L -/
theorem outrankedAt_iff_rank {options : List BootOption} {mac : List UInt8} {i : ℕ}
    (hi : i < maxClassified) :
    OutrankedAt options mac i ↔ ∃ j, CarriesAt options mac j ∧ rank options j < rank options i := by
  refine exists_congr fun j => and_congr_right fun hj => ?_
  have hjlt : j < maxClassified := hj.1
  unfold rank
  cases hasIp4At options i <;> cases hasIp4At options j <;> simp <;> omega

/-- The option for a card that is listed first among those with an IPv4 node, or, where none has
one, first of all.
Kind: D -/
structure Preferred (options : List BootOption) (mac : List UInt8) (i : ℕ) : Prop where
  carries : CarriesAt options mac i
  lowest_of_ip4 : (∃ j, CarriesAt options mac j ∧ hasIp4At options j = true) →
    hasIp4At options i = true ∧ ∀ j, CarriesAt options mac j → hasIp4At options j = true → i ≤ j
  lowest_of_none : (∀ j, CarriesAt options mac j → hasIp4At options j = false) →
    ∀ j, CarriesAt options mac j → i ≤ j

/-- The one of lowest rank is the preferred one. Kind: L -/
theorem preferred_of_rank_le {options : List BootOption} {mac : List UInt8} {i : ℕ}
    (hi : CarriesAt options mac i)
    (hmin : ∀ j, CarriesAt options mac j → rank options i ≤ rank options j) :
    Preferred options mac i := by
  refine ⟨hi, ?_, ?_⟩
  · rintro ⟨k, hk, hkip4⟩
    have hiip4 : hasIp4At options i = true := by
      have hle := hmin k hk
      have hklt : k < maxClassified := hk.1
      by_contra hno
      simp only [rank, hkip4, if_true, if_neg hno] at hle
      omega
    refine ⟨hiip4, fun j hj hjip4 => ?_⟩
    simpa [rank, hiip4, hjip4] using hmin j hj
  · intro hnone j hj
    simpa [rank, hnone i hi, hnone j hj] using hmin j hj

/-- **One option of each network card survives.** Among the first sixteen options: for every address
that an option without a USB node carries, exactly one such option is not deleted, and it is the
first listed of those with an IPv4 node if there is one, else the first listed; every option with a
MAC and a USB node is deleted; and no option at all without a MAC node is touched.
Source: `PlatformBootManager.c` `PruneAutoCreatedNetworkBootOptions`
Kind: P -/
theorem prune_keeps_one_per_mac (options : List BootOption) :
    (∀ mac, (∃ i, CarriesAt options mac i) →
      ∃ i, Preferred options mac i ∧ ∀ j, CarriesAt options mac j → (Survives options j ↔ j = i)) ∧
    (∀ (i : ℕ) (o : BootOption), i < min options.length 16 → options[i]? = some o →
      o.hasNode msgMacAddrDp = true → o.hasNode msgUsbDp = true →
      (pruneAutoCreatedNetworkBootOptions options)[i]? = some (o, .deleted)) ∧
    ∀ (i : ℕ) (o : BootOption), options[i]? = some o → o.hasNode msgMacAddrDp = false →
      (pruneAutoCreatedNetworkBootOptions options)[i]? = some (o, .kept) := by
  refine ⟨?_, ?_, ?_⟩
  · rintro mac ⟨i₀, hi₀⟩
    obtain ⟨i, hi, hmin⟩ :=
      (measure (rank options)).wf.has_min {i | CarriesAt options mac i} ⟨i₀, hi₀⟩
    have hle : ∀ j, CarriesAt options mac j → rank options i ≤ rank options j :=
      fun j hj => not_lt.mp (hmin j hj)
    refine ⟨i, preferred_of_rank_le hi hle, fun j hj => ?_⟩
    rw [survives_iff hj, outrankedAt_iff_rank hj.1]
    constructor
    · intro hbest
      -- two of the same rank have the same index
      have hsame : rank options i = rank options j :=
        le_antisymm (hle j hj) (not_lt.mp fun hlt => hbest ⟨i, hi, hlt⟩)
      have hilt : i < maxClassified := hi.1
      have hjlt : j < maxClassified := hj.1
      unfold rank at hsame
      split_ifs at hsame <;> omega
    · rintro rfl ⟨k, hk, hlt⟩
      exact hmin k hk hlt
  · intro i o hi ho hmac husb
    rw [← classify_macOf_isSome] at hmac
    obtain ⟨mac, hmac⟩ := Option.isSome_iff_exists.mp hmac
    have hlt : i < maxClassified := lt_of_lt_of_le hi (min_le_right _ _)
    rw [prune_getElem?, ho, Option.map_some,
      (outcomeAt_eq_deleted_iff hlt ho (classify_macOf_eq_some.mp hmac)).mpr (.inl husb)]
  · intro i o ho hmac
    rw [← classify_macOf_isSome, Option.isSome_eq_false_iff, Option.isNone_iff_eq_none] at hmac
    rw [prune_getElem?, ho, Option.map_some, outcomeAt]
    simp [hmac]

/-! ### Options others wrote -/

/-- The description ends in a blank and digits, behind a non-empty name. Kind: D -/
def Disambiguated (desc : List UInt16) : Prop :=
  ∃ name digits, name ≠ [] ∧ digits ≠ [] ∧ digits.all isDigit = true ∧ desc = name ++ 0x20 :: digits

lemma stripDisambiguator_eq_none_iff {desc : List UInt16} :
    stripDisambiguator desc = none ↔ ¬ Disambiguated desc := by
  rw [Option.eq_none_iff_forall_ne_some, Disambiguated, not_exists]
  refine forall_congr' fun name => ?_
  rw [ne_eq, stripDisambiguator_eq_some_iff, not_iff_not, exists_and_left]

/-- Which options are left alone. Kind: L -/
theorem outcomeAt_eq_kept_iff {options : List BootOption} {i : ℕ} {o : BootOption}
    (ho : options[i]? = some o) :
    outcomeAt options i o = .kept ↔
      (i < maxClassified → ∀ mac, o.HasMac mac →
        o.hasNode msgUsbDp = false ∧ ¬ OutrankedAt options mac i ∧
          ∀ desc ∈ o.description, ¬ Disambiguated desc) := by
  simp only [← classify_macOf_eq_some]
  by_cases hi : i < maxClassified
  · rcases hmac : (classify o).macOf with _ | mac
    · simp [outcomeAt, hmac]
    · have hdeleted := outcomeAt_eq_deleted_iff hi ho (classify_macOf_eq_some.mp hmac)
      have hname : (∀ desc ∈ o.description, ¬ Disambiguated desc) ↔
          o.description.bind stripDisambiguator = none := by
        simp only [Option.bind_eq_none_iff, stripDisambiguator_eq_none_iff, Option.mem_def]
      simp only [hi, true_imp_iff, Option.some.injEq, forall_eq', hname]
      rw [← Bool.not_eq_true, ← and_assoc, ← not_or, ← hdeleted]
      unfold outcomeAt
      simp only [not_le.mpr hi, if_false, hmac, reduceCtorEq]
      split_ifs
      · simp
      · rcases o.description.bind stripDisambiguator with _ | description <;> simp
  · simp [outcomeAt, not_lt.mp hi, hi]

/-- **What an operator wrote is left alone, unless it looks like a duplicate.** Every option that
the boot manager did not create keeps its variable and its description iff each of those among the
first sixteen that has a MAC node has no USB node, has no preferred option for the same card beside
it, and has a description that does not end in a blank and a number.
Source: `PlatformBootManager.c` `PruneAutoCreatedNetworkBootOptions`
Kind: P -/
theorem prune_spares_written_iff (options : List BootOption) :
    (∀ (i : ℕ) (o : BootOption), options[i]? = some o → o.autoCreated = false →
      (pruneAutoCreatedNetworkBootOptions options)[i]? = some (o, .kept)) ↔
    ∀ (i : ℕ) (o : BootOption), i < 16 → options[i]? = some o → o.autoCreated = false →
      ∀ mac, o.HasMac mac →
        o.hasNode msgUsbDp = false ∧ ¬ OutrankedAt options mac i ∧
          ∀ desc ∈ o.description, ¬ Disambiguated desc := by
  have hpoint : ∀ (i : ℕ) (o : BootOption), options[i]? = some o →
      ((pruneAutoCreatedNetworkBootOptions options)[i]? = some (o, .kept) ↔
        outcomeAt options i o = .kept) := by
    intro i o ho
    simp [prune_getElem?, ho]
  constructor
  · intro hspared i o hi ho hwritten
    exact (outcomeAt_eq_kept_iff ho).mp ((hpoint i o ho).mp (hspared i o ho hwritten)) hi
  · intro hall i o ho hwritten
    exact (hpoint i o ho).mpr ((outcomeAt_eq_kept_iff ho).mpr fun hi => hall i o hi ho hwritten)

/-- A MAC node as the network drivers build it: the address, padded to 32 octets, and the interface
type. Kind: D -/
def macNode (address : List UInt8) : PathNode :=
  ⟨⟨messagingDevicePath, msgMacAddrDp⟩, address ++ List.replicate (32 - address.length) 0 ++ [0x01]⟩

/-- The onboard card's bootable option, made by the boot manager, and two options an operator wrote:
one for the same card, one for another. Kind: D -/
def provisionedOptions : List BootOption :=
  [⟨0, some [⟨⟨0x01, 0x01⟩, [0x00, 0x19]⟩, macNode [0xB8, 0xAE, 0xED, 0x7E, 0x3F, 0x6E],
      ⟨⟨messagingDevicePath, msgIpv4Dp⟩, []⟩], some (ucs2 "PXEv4 (MAC:B8AEED7E3F6E)"), true⟩,
    ⟨1, some [⟨⟨0x01, 0x01⟩, [0x00, 0x19]⟩, macNode [0xB8, 0xAE, 0xED, 0x7E, 0x3F, 0x6E]],
      some (ucs2 "Provisioning"), false⟩,
    ⟨2, some [⟨⟨0x01, 0x01⟩, [0x00, 0x1C]⟩, macNode [0x00, 0x1B, 0x21, 0x00, 0x00, 0x01]],
      some (ucs2 "Site 2"), false⟩]

/-- Of the two the first is deleted and the second renamed. Kind: C -/
theorem prune_deletes_and_renames_written :
    (pruneAutoCreatedNetworkBootOptions provisionedOptions).map
        (fun p => (p.1.optionNumber, p.1.autoCreated, p.2)) =
      [(0, true, .kept), (1, false, .deleted), (2, false, .renamed (ucs2 "Site"))] := by
  decide +kernel

/-! ### What remains -/

/-- The option after what is done with it. Kind: D -/
def Outcome.apply (o : BootOption) : Outcome → Option BootOption
  | .kept => some o
  | .deleted => none
  | .renamed description => some { o with description := some description }

/-- The options after the pruning. Kind: D -/
def remaining (options : List BootOption) : List BootOption :=
  (pruneAutoCreatedNetworkBootOptions options).filterMap fun p => p.2.apply p.1

/-- What remains is an option of before, not deleted and with its path. Kind: L -/
theorem mem_remaining {options : List BootOption} {o' : BootOption} (h : o' ∈ remaining options) :
    ∃ (i : ℕ) (o : BootOption), options[i]? = some o ∧ outcomeAt options i o ≠ .deleted ∧
      o'.filePath = o.filePath := by
  obtain ⟨⟨o, out⟩, hmem, happly⟩ := List.mem_filterMap.mp h
  obtain ⟨i, hi⟩ := List.mem_iff_getElem?.mp hmem
  rw [prune_getElem?, Option.map_eq_some_iff] at hi
  obtain ⟨o, ho, heq⟩ := hi
  cases heq
  refine ⟨i, o, ho, ?_⟩
  cases hout : outcomeAt options i o with
  | kept =>
      simp only [hout, Outcome.apply, Option.some.injEq] at happly
      exact ⟨nofun, by rw [happly]⟩
  | deleted => simp [hout, Outcome.apply] at happly
  | renamed description =>
      simp only [hout, Outcome.apply, Option.some.injEq] at happly
      exact ⟨nofun, by rw [← happly]⟩

/-- **The host interface goes, if it is among the first sixteen options.** No option that remains
has both a MAC and a USB node iff none behind the sixteenth had.
Source: `PlatformBootManager.c` `PruneAutoCreatedNetworkBootOptions`
Kind: P -/
theorem prune_clears_usb_iff (options : List BootOption) :
    (∀ o ∈ remaining options, bmIsUsbNicDevicePath o.filePath = false) ↔
      ∀ (i : ℕ) (o : BootOption), 16 ≤ i → options[i]? = some o →
        bmIsUsbNicDevicePath o.filePath = false := by
  constructor
  · intro hclear i o hi ho
    have hkept : outcomeAt options i o = .kept := if_pos hi
    refine hclear o (List.mem_filterMap.mpr ⟨(o, .kept), ?_, rfl⟩)
    refine List.mem_of_getElem? (i := i) ?_
    rw [prune_getElem?, ho, Option.map_some, hkept]
  · intro hbehind o' ho'
    obtain ⟨i, o, ho, hout, hpath⟩ := mem_remaining ho'
    rw [hpath]
    by_cases hi : i < maxClassified
    · by_contra hnic
      rw [Bool.not_eq_false, bmIsUsbNicDevicePath_eq, Bool.and_eq_true, ← classify_macOf_isSome,
        Option.isSome_iff_exists] at hnic
      obtain ⟨⟨mac, hmac⟩, husb⟩ := hnic
      exact hout ((outcomeAt_eq_deleted_iff hi ho (classify_macOf_eq_some.mp hmac)).mpr (.inl husb))
    · exact hbehind i o (not_lt.mp hi) ho

/-- Sixteen options for disks, and the host interface behind them. Kind: D -/
def crowdedOptions : List BootOption :=
  (List.range 16).map (fun n => ⟨UInt16.ofNat n,
    some [⟨⟨0x01, 0x01⟩, [0x00, 0x17]⟩, ⟨⟨messagingDevicePath, msgSataDp⟩, [UInt8.ofNat n]⟩],
    some (ucs2 "Disk"), false⟩) ++
  [⟨16, some [⟨⟨0x01, 0x01⟩, [0x00, 0x14]⟩, ⟨⟨messagingDevicePath, msgUsbDp⟩, [0x06, 0x00]⟩,
      macNode [0xDA, 0xA7, 0x62, 0x23, 0x3E, 0xF5]], some (ucs2 "PXEv4 (MAC:DAA762233EF5)"), true⟩]

/-- The host interface remains. Kind: C -/
theorem prune_leaves_usb_behind_clamp :
    ∃ o ∈ remaining crowdedOptions, o.optionNumber = 16 ∧
      bmIsUsbNicDevicePath o.filePath = true := by
  decide +kernel

/-! ### The variables -/

/-- The two services of the boot manager that are called. Kind: D -/
inductive BootCall
  | deleteLoadOptionVariable (optionNumber : UInt16)
  | loadOptionToVariable (o : BootOption)

/-- What a call does to the `Boot####` variables, in the order of `BootOrder`. Kind: D -/
def BootCall.apply (vars : List BootOption) : BootCall → List BootOption
  | .deleteLoadOptionVariable n => vars.filter fun v => v.optionNumber ≠ n
  | .loadOptionToVariable o => vars.map fun v => if v.optionNumber = o.optionNumber then o else v

/-- The calls made for an option. Kind: D -/
def Outcome.calls (o : BootOption) : Outcome → List BootCall
  | .kept => []
  | .deleted => [.deleteLoadOptionVariable o.optionNumber]
  | .renamed description => [.loadOptionToVariable { o with description := some description }]

lemma foldl_apply_append (calls : List BootCall) (vars vars' : List BootOption) :
    calls.foldl BootCall.apply (vars ++ vars') =
      calls.foldl BootCall.apply vars ++ calls.foldl BootCall.apply vars' := by
  induction calls generalizing vars vars' with
  | nil => rfl
  | cons c calls ih =>
      have happend : BootCall.apply (vars ++ vars') c =
          BootCall.apply vars c ++ BootCall.apply vars' c := by
        cases c with
        | deleteLoadOptionVariable n => exact List.filter_append _ _
        | loadOptionToVariable o => exact List.map_append
      rw [List.foldl_cons, List.foldl_cons, List.foldl_cons, happend, ih]

/-- The calls for an option leave other options' variables alone. Kind: L -/
theorem foldl_calls_of_fresh {vars : List BootOption} {o : BootOption} (out : Outcome)
    (h : ∀ v ∈ vars, v.optionNumber ≠ o.optionNumber) :
    (out.calls o).foldl BootCall.apply vars = vars := by
  cases out with
  | kept => rfl
  | deleted => exact List.filter_eq_self.mpr fun v hv => by simpa using h v hv
  | renamed description =>
      refine (List.map_congr_left fun v hv => ?_).trans (List.map_id vars)
      exact if_neg (h v hv)

lemma foldl_calls_self (o : BootOption) (out : Outcome) :
    (out.calls o).foldl BootCall.apply [o] = (out.apply o).toList := by
  cases out <;> simp [Outcome.calls, Outcome.apply, BootCall.apply]

lemma apply_optionNumber {o o' : BootOption} {out : Outcome} (h : out.apply o = some o') :
    o'.optionNumber = o.optionNumber := by
  cases out with
  | kept =>
      cases h
      rfl
  | deleted => cases h
  | renamed description =>
      cases h
      rfl

/-- The calls for the options one after the other; `done` is what is left of those before.
Kind: L -/
theorem foldl_flatMap_calls :
    ∀ (pairs : List (BootOption × Outcome)) (done : List BootOption),
      (pairs.map fun p => p.1.optionNumber).Nodup →
      (∀ v ∈ done, ∀ p ∈ pairs, v.optionNumber ≠ p.1.optionNumber) →
      (pairs.flatMap fun p => p.2.calls p.1).foldl BootCall.apply (done ++ pairs.map Prod.fst) =
        done ++ pairs.filterMap fun p => p.2.apply p.1
  | [], done, _, _ => by simp
  | (o, out) :: pairs, done, hnodup, hdone => by
      rw [List.map_cons, List.nodup_cons, List.mem_map, not_exists] at hnodup
      have hrest : ∀ v ∈ pairs.map Prod.fst, v.optionNumber ≠ o.optionNumber := by
        intro v hv
        obtain ⟨p, hp, rfl⟩ := List.mem_map.mp hv
        exact fun heq => hnodup.1 p ⟨hp, heq⟩
      have hstep : (out.calls o).foldl BootCall.apply (done ++ o :: pairs.map Prod.fst) =
          (done ++ (out.apply o).toList) ++ pairs.map Prod.fst := by
        rw [← List.singleton_append, foldl_apply_append, foldl_apply_append,
          foldl_calls_of_fresh out fun v hv => hdone v hv (o, out) List.mem_cons_self,
          foldl_calls_self, foldl_calls_of_fresh out hrest, List.append_assoc]
      have hdone' : ∀ v ∈ done ++ (out.apply o).toList, ∀ p ∈ pairs,
          v.optionNumber ≠ p.1.optionNumber := by
        intro v hv p hp
        obtain hv | hv := List.mem_append.mp hv
        · exact hdone v hv p (List.mem_cons_of_mem _ hp)
        · rw [apply_optionNumber (Option.mem_toList.mp hv)]
          exact fun heq => hnodup.1 p ⟨hp, heq.symm⟩
      rw [List.flatMap_cons, List.foldl_append, List.map_cons, hstep,
        foldl_flatMap_calls pairs _ hnodup.2 hdone']
      cases h : out.apply o <;> simp [h]

/-- Where each number is listed once, the calls leave exactly the options that are spared.
Kind: P -/
theorem calls_eq_remaining {options : List BootOption}
    (h : (options.map BootOption.optionNumber).Nodup) :
    ((pruneAutoCreatedNetworkBootOptions options).flatMap fun p => p.2.calls p.1).foldl
      BootCall.apply options = remaining options := by
  have hfst : (pruneAutoCreatedNetworkBootOptions options).map Prod.fst = options := by
    simp [pruneAutoCreatedNetworkBootOptions, List.map_map, Function.comp_def]
  have hnumbers : ((pruneAutoCreatedNetworkBootOptions options).map
      fun p => p.1.optionNumber).Nodup := by
    rw [← hfst, List.map_map] at h
    exact h
  have hcalls := foldl_flatMap_calls _ [] hnumbers nofun
  rw [List.nil_append, List.nil_append, hfst] at hcalls
  exact hcalls

end NucBios.Boot
