import NucBios.Ethernet.Sync

/-!
# Two laws of the EthernetInterface driver: present or absent, and there and back

* The present/absent law (`Follows`): a property that is present is the value of its questions
  afterwards, one that is absent leaves them alone. The two array properties miss it in opposite
  ways, because the C structure cannot tell an absent array from an empty one: an absent
  `IPv4StaticAddresses` clears, an empty `StaticNameServers` does not. `consume_follows_iff` says
  exactly when the law holds all the same.
* The round trip: consuming what `buildEthernetInterfacePayload` reports. The report has no place
  for a netmask or a gateway without an address, nor for a second name server without a first;
  `consume_payload_eq_iff` says that nothing else is lost (strings that are not ASCII apart).
-/

namespace NucBios.Ethernet

open Lib Uefi

/-! ### Present or absent -/

/-- The present/absent law. Kind: D -/
structure Follows (member : Json) (before after : EthCfg) : Prop where
  present : Reflects member after
  noDhcp : dhcpFlag member = none → after.dhcpEnabled = before.dhcpEnabled
  noAddresses : member.field (ascii "IPv4StaticAddresses") = none →
    ∀ q : StringQuestion, q.entryKey.isSome = true → after.string q = before.string q
  noServers : member.field (ascii "StaticNameServers") = none →
    ∀ q : StringQuestion, q.entryKey = none → after.string q = before.string q

/-- Where the law holds: a property whose value the C structure does not carry finds its questions
as it would leave them. Kind: D -/
structure Carried (member : Json) (cfg : EthCfg) : Prop where
  /-- An absent array reads as an empty one. -/
  absent : member.field (ascii "IPv4StaticAddresses") = none → cfg.NoAddress
  /-- An empty array reads as an absent one. -/
  emptied : nameServers member = some [] → cfg.NoServer
  /-- Only an object or an array is loaded, and only its ASCII strings. -/
  entry : ∀ entries ∈ staticAddresses member, ∀ entry ∈ entries.head?,
    AsciiEntry entry ∧ (jsonLoadString entry = none → cfg.NoAddress)

/-- An absent `IPv4StaticAddresses` clears its questions. Kind: L -/
theorem address_of_absent {member : Json} {before after : EthCfg} (h : Consumes member before after)
    (habsent : member.field (ascii "IPv4StaticAddresses") = none) {q : StringQuestion}
    (hq : q.entryKey.isSome = true) : after.string q = [] := by
  obtain ⟨key, hkey⟩ := Option.isSome_iff_exists.mp hq
  have hnone : staticAddresses member = none := by rw [staticAddresses, habsent, Option.bind_none]
  rw [h.address q key hkey, hnone]
  rfl

/-- An absent `StaticNameServers` leaves its questions alone. Kind: L -/
theorem server_of_absent {member : Json} {before after : EthCfg} (h : Consumes member before after)
    (habsent : member.field (ascii "StaticNameServers") = none) {q : StringQuestion}
    (hq : q.entryKey = none) : after.string q = before.string q := by
  have hnone : nameServers member = none := by rw [nameServers, habsent, Option.bind_none]
  cases q with
  | address | subnetMask | gateway => cases hq
  | dns1 =>
      rw [h.dns1, hnone]
      rfl
  | dns2 =>
      rw [h.dns2, hnone]
      rfl

lemma follows_iff {member : Json} {before after : EthCfg} (h : Consumes member before after) :
    Follows member before after ↔ Carried member before := by
  constructor
  · intro hlaw
    obtain ⟨hemptied, hentry⟩ := (reflects_iff h).mp hlaw.present
    refine ⟨fun habsent => ?_, hemptied, hentry⟩
    have hold : ∀ q : StringQuestion, q.entryKey.isSome = true → before.string q = [] := by
      intro q hq
      rw [← hlaw.noAddresses habsent q hq, address_of_absent h habsent hq]
    exact ⟨hold _ rfl, hold _ rfl, hold _ rfl⟩
  · intro hcarried
    refine ⟨(reflects_iff h).mpr ⟨hcarried.emptied, hcarried.entry⟩, ?_, ?_, ?_⟩
    · intro hnone
      rw [h.dhcpEnabled, hnone, Option.getD_none]
    · intro habsent q hq
      obtain ⟨haddress, hmask, hgateway⟩ := hcarried.absent habsent
      rw [address_of_absent h habsent hq]
      cases q with
      | address => exact haddress.symm
      | subnetMask => exact hmask.symm
      | gateway => exact hgateway.symm
      | dns1 | dns2 => cases hq
    · exact fun habsent q hq => server_of_absent h habsent hq

/-- **The present/absent law, exactly.** With a new ETag and every question taking its value, the
law holds of a member and the questions before it if and only if the C structure carries what the
law needs.
Source: `EthernetInterfaceCommon.c` `RedfishConsumeResourceCommon`, `ConsumeStaticAddresses`
Kind: P -/
theorem consume_follows_iff {converter : Converter} {a : ApplyAnswers} {stored : Option ℕ}
    {member : Json} {etag : ℕ} {cs : EthernetInterfaceCs} (ha : a.clean = true)
    (hcs : converter.toStructure member = .ok cs) (hetag : checkEtag stored etag = false)
    (cfg : EthCfg) :
    Follows member cfg (consumeResourceCommon converter a stored member etag cfg).2 ↔
      Carried member cfg := by
  rw [consumeResourceCommon_of_differs hcs hetag]
  exact follows_iff (consumes_of_clean ha hcs cfg)

/-- A static configuration with one name server. Kind: D -/
def staticCfg : EthCfg where
  dhcpEnabled := false
  string
    | .address => ascii "10.0.0.2"
    | .subnetMask => ascii "255.255.255.0"
    | .gateway => ascii "10.0.0.1"
    | .dns1 => ascii "9.9.9.9"
    | .dns2 => []

/-- The questions after a member is consumed into `cfg`, nothing failing. Kind: D -/
def afterConsuming (member : Json) (cfg : EthCfg) : EthCfg :=
  (consumeResourceCommon plainConverter (answers efiSuccess) none member 1 cfg).2

/-- A member that names a new address and a second name server. Kind: D -/
def renumbered : Json :=
  .obj [(ascii "IPv4StaticAddresses", .arr [.obj [(ascii "Address", .str (ascii "10.0.0.3")),
      (ascii "SubnetMask", .str (ascii "255.255.255.0")), (ascii "Gateway", .null)]]),
    (ascii "StaticNameServers", .arr [.str (ascii "9.9.9.9"), .str (ascii "1.1.1.1")])]

/-- The flag is absent and stays, the address moves, the gateway is cleared by `null`. Kind: C -/
theorem consume_follows_renumbered :
    Follows renumbered staticCfg (afterConsuming renumbered staticCfg) := by
  refine (consume_follows_iff (by decide) rfl rfl staticCfg).mpr ⟨fun h => ?_, fun h => ?_, ?_⟩
  · cases h
  · cases h
  · rintro entries ⟨⟩ entry ⟨⟩
    exact ⟨by decide +kernel, fun h => nomatch h⟩

/-- The host has a static address: a member without `IPv4StaticAddresses` clears it. It has a name
server: a member with an empty `StaticNameServers` leaves it. Kind: C -/
theorem absent_clears_empty_keeps :
    ¬ Follows (memberOf false [ascii "9.9.9.9"]) staticCfg
      (afterConsuming (memberOf false [ascii "9.9.9.9"]) staticCfg) ∧
    ¬ Follows (.obj [(ascii "StaticNameServers", .arr [])]) staticCfg
      (afterConsuming (.obj [(ascii "StaticNameServers", .arr [])]) staticCfg) := by
  constructor
  · intro h
    have haddress := h.noAddresses rfl .address rfl
    exact absurd haddress (by decide +kernel)
  · intro h
    have hserver := (h.present.2.2 [] rfl).1
    exact absurd hserver (by decide +kernel)

/-! ### There and back -/

/-- The string can be sent: it is not empty, and it is ASCII. Kind: D -/
def Sendable (s : List UInt8) : Prop := s ≠ [] ∧ s.all (· < 0x80) = true

instance : DecidablePred Sendable := fun _ => inferInstanceAs (Decidable (_ ∧ _))

/-- What of a question goes into the payload. Kind: L -/
theorem sent_eq {r : PropertyReads} (hr : ∀ q, r.readable q = true) (cfg : EthCfg)
    (q : StringQuestion) :
    (fetchStringProperty r cfg q).bind jsonValueInitAsciiString =
      if Sendable (cfg.string q) then some (.str (cfg.string q)) else none := by
  rw [fetchStringProperty, if_pos (hr _)]
  rcases cfg.string q with _ | ⟨c, s⟩
  · simp [collapse, Sendable]
  · simp [collapse, Sendable, jsonValueInitAsciiString]

section Payload

variable {r : PropertyReads} (hr : ∀ q, r.readable q = true) (resourceId : Option (List UInt8))
  (cfg : EthCfg)

include hr

lemma dhcpFlag_payload :
    dhcpFlag (buildEthernetInterfacePayload r resourceId cfg) = some cfg.dhcpEnabled := by
  have hflag : (buildEthernetInterfacePayload r resourceId cfg).field (ascii "DHCPv4") =
      some (.obj [(ascii "DHCPEnabled", .bool cfg.dhcpEnabled)]) := by
    simp only [buildEthernetInterfacePayload, hr, if_true, Json.field]
    rw [Json.lookup_append, Json.lookup_append]
    rfl
  rw [dhcpFlag, hflag]
  rfl

lemma nameServers_payload :
    nameServers (buildEthernetInterfacePayload r resourceId cfg) =
      some (([cfg.string .dns1, cfg.string .dns2].filter fun s => Sendable s).map Json.str) := by
  have hsent : ∀ q : StringQuestion,
      (fetchStringProperty r cfg q).toList.filterMap jsonValueInitAsciiString =
        ([cfg.string q].filter fun s => Sendable s).map Json.str := by
    intro q
    have hq := sent_eq hr cfg q
    rcases hfetch : fetchStringProperty r cfg q with _ | s
    · rw [hfetch, Option.bind_none] at hq
      by_cases hs : Sendable (cfg.string q)
      · rw [if_pos hs] at hq
        cases hq
      · simp [hs]
    · rw [hfetch, Option.bind_some] at hq
      by_cases hs : Sendable (cfg.string q)
      · simp [hq, hs]
      · simp [hq, hs]
  have hfield : (buildEthernetInterfacePayload r resourceId cfg).field
      (ascii "StaticNameServers") = some (.arr (((fetchStringProperty r cfg .dns1).toList ++
        (fetchStringProperty r cfg .dns2).toList).filterMap jsonValueInitAsciiString)) := by
    simp only [buildEthernetInterfacePayload, Json.field]
    rw [Json.lookup_append]
    rfl
  rw [nameServers, hfield, List.filterMap_append, hsent, hsent, ← List.map_append,
    ← List.filter_append]
  rfl

/-- The entry the payload has for a configured address. Kind: D -/
def reportedEntry (r : PropertyReads) (cfg : EthCfg) : Json :=
  .obj (optionalString (ascii "Address") (fetchStringProperty r cfg .address) ++
    optionalString (ascii "SubnetMask") (fetchStringProperty r cfg .subnetMask) ++
    optionalString (ascii "Gateway") (fetchStringProperty r cfg .gateway))

lemma staticAddresses_payload :
    staticAddresses (buildEthernetInterfacePayload r resourceId cfg) =
      some (if cfg.string .address = [] then [] else [reportedEntry r cfg]) := by
  have hfetch : fetchStringProperty r cfg .address =
      if cfg.string .address = [] then none else some (cfg.string .address) := by
    rw [fetchStringProperty, if_pos (hr _)]
    rcases cfg.string .address with _ | ⟨c, s⟩ <;> rfl
  have hfield : (buildEthernetInterfacePayload r resourceId cfg).field
      (ascii "IPv4StaticAddresses") =
        some (.arr (if cfg.string .address = [] then [] else [reportedEntry r cfg])) := by
    simp only [buildEthernetInterfacePayload, Json.field, reportedEntry, hfetch]
    rw [Json.lookup_append]
    split_ifs <;> rfl
  rw [staticAddresses, hfield]
  rfl

omit hr in
lemma lookup_optionalString (key key' : List UInt8) (value : Option (List UInt8)) :
    Json.lookup key (optionalString key' value) =
      if key' = key then value.bind jsonValueInitAsciiString else none := by
  unfold optionalString Json.lookup
  rcases value.bind jsonValueInitAsciiString with _ | s
  · simp
  · by_cases h : key' = key <;> simp [h]

/-- The entry holds the three strings that can be sent, each under its key. Kind: L -/
theorem field_reportedEntry {q : StringQuestion} {key : List UInt8} (hkey : q.entryKey = some key) :
    (reportedEntry r cfg).field key =
      if Sendable (cfg.string q) then some (.str (cfg.string q)) else none := by
  have hne : ascii "Address" ≠ ascii "SubnetMask" ∧ ascii "Address" ≠ ascii "Gateway" ∧
      ascii "SubnetMask" ≠ ascii "Gateway" := by decide
  obtain ⟨hne₁, hne₂, hne₃⟩ := hne
  rw [← sent_eq hr]
  unfold reportedEntry Json.field
  simp only [Json.lookup_append, lookup_optionalString]
  cases q with
  | dns1 | dns2 => cases hkey
  | address | subnetMask | gateway =>
      cases hkey
      simp [hne₁, hne₂, hne₃, hne₁.symm, hne₂.symm, hne₃.symm]

lemma consumedAddress_payload {q : StringQuestion} {key : List UInt8}
    (hkey : q.entryKey = some key) :
    consumedAddress (if cfg.string .address = [] then [] else [reportedEntry r cfg]) key
      (cfg.string q) = cfg.string q ↔
      (cfg.string .address = [] → cfg.string q = []) ∧ (cfg.string q).all (· < 0x80) = true := by
  have hmember : (jsonObjectAsciiMember (reportedEntry r cfg) key).getD [] =
      if (cfg.string q).all (· < 0x80) then cfg.string q else [] := by
    rw [jsonObjectAsciiMember, field_reportedEntry hr cfg hkey]
    by_cases hs : Sendable (cfg.string q)
    · simp [hs, hs.2, jsonValueGetAsciiString]
    · rw [if_neg hs, Option.bind_none, Option.getD_none]
      split_ifs with hascii
      · by_contra hne
        exact hs ⟨fun h => hne h.symm, hascii⟩
      · rfl
  by_cases haddress : cfg.string .address = []
  · simp only [haddress, if_true, consumedAddress, List.head?_nil, true_implies]
    constructor
    · intro h
      rw [← h]
      exact ⟨rfl, rfl⟩
    · exact fun h => h.1.symm
  · have hload : jsonLoadString (reportedEntry r cfg) = some (reportedEntry r cfg) := rfl
    simp only [haddress, if_false, consumedAddress, List.head?_cons, hload, hmember,
      false_implies, true_and]
    split_ifs with hascii
    · simp [hascii]
    · refine ⟨fun h => ?_, fun h => absurd h hascii⟩
      rw [← h] at hascii
      exact absurd rfl hascii

omit hr in
/-- Two name servers are read back as they were exactly if the second can only be sent behind a
first, and nothing but an empty second is left out behind a first. Kind: L -/
theorem consumedServer_payload (dns1 dns2 : List UInt8) :
    (consumedServer (([dns1, dns2].filter fun s => Sendable s).map Json.str) 0 dns1 = dns1 ∧
      consumedServer (([dns1, dns2].filter fun s => Sendable s).map Json.str) 1 dns2 = dns2) ↔
      (Sendable dns2 → Sendable dns1) ∧ (Sendable dns1 → dns2.all (· < 0x80) = true) := by
  by_cases h1 : Sendable dns1
  · by_cases h2 : Sendable dns2
    · simp [h1, h2, consumedServer, itemString, stringOf, h2.2]
    · have hempty : dns2.all (· < 0x80) = true ↔ [] = dns2 := by
        constructor
        · intro hascii
          by_contra hne
          exact h2 ⟨fun h => hne h.symm, hascii⟩
        · rintro rfl
          rfl
      rw [hempty]
      simp [h1, h2, consumedServer, itemString, stringOf]
  · by_cases h2 : Sendable dns2
    · have hne : dns2 ≠ dns1 := by
        rintro rfl
        exact h1 h2
      simp [h1, h2, hne, consumedServer, itemString, stringOf]
    · simp [h1, h2, consumedServer]

end Payload

/-- The settings the payload has room for. Kind: D -/
structure Reportable (cfg : EthCfg) : Prop where
  /-- The address entry carries ASCII strings. -/
  ascii : ∀ q : StringQuestion, q.entryKey.isSome = true → (cfg.string q).all (· < 0x80) = true
  /-- There is an entry only for an address. -/
  address : cfg.string .address = [] → cfg.NoAddress
  /-- The first name server in the list is the first question's. -/
  first : Sendable (cfg.string .dns2) → Sendable (cfg.string .dns1)
  /-- Behind it only an empty second is left out. -/
  second : Sendable (cfg.string .dns1) → (cfg.string .dns2).all (· < 0x80) = true

/-- **There and back.** With a new ETag, every question readable and taking its value, consuming the
payload just built leaves every question as it was if and only if the payload has room for them.
Source: `EthernetInterfaceCommon.c` `BuildEthernetInterfacePayload`, `RedfishConsumeResourceCommon`
Kind: P -/
theorem consume_payload_eq_iff {converter : Converter} {a : ApplyAnswers} {stored : Option ℕ}
    {etag : ℕ} {cs : EthernetInterfaceCs} {r : PropertyReads} (hr : ∀ q, r.readable q = true)
    (resourceId : Option (List UInt8)) (cfg : EthCfg) (ha : a.clean = true)
    (hcs : converter.toStructure (buildEthernetInterfacePayload r resourceId cfg) = .ok cs)
    (hetag : checkEtag stored etag = false) :
    (consumeResourceCommon converter a stored (buildEthernetInterfacePayload r resourceId cfg) etag
      cfg).2 = cfg ↔ Reportable cfg := by
  rw [consumeResourceCommon_of_differs hcs hetag]
  have h := consumes_of_clean ha hcs cfg
  set after := consumeNameServers a cs (consumeStaticAddresses a cs (consumeDhcpEnabled a cs cfg))
  have hdhcp : after.dhcpEnabled = cfg.dhcpEnabled := by
    rw [h.dhcpEnabled, dhcpFlag_payload hr, Option.getD_some]
  have haddress : ∀ q key, q.entryKey = some key → (after.string q = cfg.string q ↔
      (cfg.string .address = [] → cfg.string q = []) ∧
        (cfg.string q).all (· < 0x80) = true) := by
    intro q key hkey
    rw [h.address q key hkey, staticAddresses_payload hr, Option.getD_some,
      consumedAddress_payload hr cfg hkey]
  have hservers : (after.string .dns1 = cfg.string .dns1 ∧
      after.string .dns2 = cfg.string .dns2) ↔ (Sendable (cfg.string .dns2) →
        Sendable (cfg.string .dns1)) ∧
        (Sendable (cfg.string .dns1) → (cfg.string .dns2).all (· < 0x80) = true) := by
    rw [h.dns1, h.dns2, nameServers_payload hr, Option.getD_some, consumedServer_payload]
  constructor
  · intro heq
    have hq : ∀ q key, q.entryKey = some key → (cfg.string .address = [] → cfg.string q = []) ∧
        (cfg.string q).all (· < 0x80) = true :=
      fun q key hkey => (haddress q key hkey).mp (by rw [heq])
    obtain ⟨hfirst, hsecond⟩ := hservers.mp (by rw [heq]; exact ⟨rfl, rfl⟩)
    refine ⟨fun q hkey => ?_, fun hempty => ?_, hfirst, hsecond⟩
    · obtain ⟨key, hkey⟩ := Option.isSome_iff_exists.mp hkey
      exact (hq q key hkey).2
    · exact ⟨hempty, (hq .subnetMask _ rfl).1 hempty, (hq .gateway _ rfl).1 hempty⟩
  · intro hroom
    obtain ⟨hdns1, hdns2⟩ := hservers.mpr ⟨hroom.first, hroom.second⟩
    have hstring : ∀ q key, q.entryKey = some key → (cfg.string .address = [] →
        cfg.string q = []) → after.string q = cfg.string q :=
      fun q key hkey hempty =>
        (haddress q key hkey).mpr ⟨hempty, hroom.ascii q (by rw [hkey]; rfl)⟩
    refine EthCfg.ext hdhcp (funext fun q => ?_)
    cases q with
    | address => exact hstring _ _ rfl id
    | subnetMask => exact hstring _ _ rfl fun hempty => (hroom.address hempty).2.1
    | gateway => exact hstring _ _ rfl fun hempty => (hroom.address hempty).2.2
    | dns1 => exact hdns1
    | dns2 => exact hdns2

/-- Every question can be read, and there is no MAC address. Kind: D -/
def allReadable : PropertyReads := ⟨fun _ => true, none⟩

theorem consume_payload_eq_static :
    afterConsuming (buildEthernetInterfacePayload allReadable none staticCfg) staticCfg =
      staticCfg :=
  (consume_payload_eq_iff (fun _ => rfl) none staticCfg (by decide) rfl rfl).mpr
    ⟨fun q _ => by cases q <;> decide, (fun h => nomatch h), fun _ => by decide, fun _ => rfl⟩

/-- Of a netmask without an address nothing comes back, and a second name server without a first
comes back as the first. Kind: C -/
theorem payload_drops_and_repacks :
    (let cfg : EthCfg := ⟨true, fun q => if q = .subnetMask then ascii "255.255.255.0" else []⟩
     afterConsuming (buildEthernetInterfacePayload allReadable none cfg) cfg ≠ cfg) ∧
    (let cfg : EthCfg := ⟨true, fun q => if q = .dns2 then ascii "1.1.1.1" else []⟩
     afterConsuming (buildEthernetInterfacePayload allReadable none cfg) cfg ≠ cfg) := by
  constructor
  · intro cfg h
    have hmask := congrFun (congrArg EthCfg.string h) .subnetMask
    exact absurd hmask (by decide +kernel)
  · intro cfg h
    have hfirst := congrFun (congrArg EthCfg.string h) .dns1
    exact absurd hfirst (by decide +kernel)

end NucBios.Ethernet
