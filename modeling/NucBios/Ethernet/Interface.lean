import NucBios.Lib.Json
import NucBios.Uefi.Base

/-!
# The EthernetInterface feature driver: from the BMC's member to the EthCfg questions and back

`RedfishEthernetInterfaceDxe` keeps two descriptions of the onboard NIC's IPv4 policy in step: the
JSON member `/Systems/1/EthernetInterfaces/{id}` on the BMC, and the HII questions behind the
`EthCfg` variable. `consumeResourceCommon` carries the member over to the questions,
`buildEthernetInterfacePayload` renders the questions for a PATCH of the member.

The member is turned into a C structure by a converter of `RedfishClientPkg`, which is not part of
this package; `Converter` is such a converter with the properties its users rely on.

* `Consumes member before after`: each question after a member was consumed, as a function of the
  member and of the question before (`consumes_of_clean`).
* `Reflects member cfg`: every managed property the member has is what the questions say.
  `reflects_iff` says when consuming establishes this, `reflects_consume` that it does for the
  members the C structure can express (`Expressible`).
-/

namespace NucBios.Ethernet

open Lib Uefi

/-! ### The questions -/

/-- The string questions, by configure language: `IPv4StaticAddresses/[1]/Address`,
`…/SubnetMask`, `…/Gateway`, `StaticNameServers/[1]`, `StaticNameServers/[2]`.
Source: `EthernetInterfaceCommon.c` `ETH_LANG_ADDRESS` … `ETH_LANG_DNS2`
Kind: D -/
inductive StringQuestion where
  | address
  | subnetMask
  | gateway
  | dns1
  | dns2
  deriving DecidableEq, Repr

/-- The questions a member is consumed into. Kind: D -/
inductive Question where
  | dhcpEnabled
  | string (q : StringQuestion)
  deriving DecidableEq, Repr

def Question.all : List Question :=
  [.dhcpEnabled, .string .address, .string .subnetMask, .string .gateway, .string .dns1,
    .string .dns2]

lemma Question.mem_all : ∀ q : Question, q ∈ Question.all
  | .dhcpEnabled => by decide
  | .string q => by cases q <;> decide

/-- What the `EthCfg` variable holds. Kind: D -/
@[ext]
structure EthCfg where
  dhcpEnabled : Bool
  string : StringQuestion → List UInt8

def EthCfg.setString (cfg : EthCfg) (q : StringQuestion) (value : List UInt8) : EthCfg :=
  { cfg with string := Function.update cfg.string q value }

@[simp] theorem dhcpEnabled_setString (cfg : EthCfg) (q : StringQuestion) (value : List UInt8) :
    (cfg.setString q value).dhcpEnabled = cfg.dhcpEnabled := rfl

@[simp] theorem string_setString (cfg : EthCfg) (q q' : StringQuestion) (value : List UInt8) :
    (cfg.setString q value).string q' = if q' = q then value else cfg.string q' := by
  simp [EthCfg.setString, Function.update_apply]

/-! ### The C structure -/

/-- An element of the link `IPv4StaticAddresses`. `jsonText` is the value the text spells.
Kind: D -/
structure CsElement where
  /-- `Header->ResourceType == RedfishCS_Type_JSON`. -/
  isJson : Bool
  jsonText : Option Json

/-- The fields of `EFI_REDFISH_ETHERNETINTERFACE_V1_8_0_CS` the driver reads. A `NULL`
`StaticNameServers` is the empty list; an entry's string may be `NULL` too.
Kind: D -/
structure EthernetInterfaceCs where
  /-- `DHCPv4`, and in it `DHCPEnabled`. -/
  dhcpv4 : Option (Option Bool)
  ipv4StaticAddresses : List CsElement
  staticNameServers : List (Option (List UInt8))

def boolOf : Json → Option Bool
  | .bool b => some b
  | _ => none

def stringOf : Json → Option (List UInt8)
  | .str s => some s
  | _ => none

def itemsOf : Json → Option (List Json)
  | .arr items => some items
  | _ => none

/-- `DHCPv4/DHCPEnabled`, if the member has it. Kind: D -/
def dhcpFlag (member : Json) : Option Bool :=
  ((member.field (ascii "DHCPv4")).bind (Json.field (ascii "DHCPEnabled"))).bind boolOf

/-- `IPv4StaticAddresses`, if the member has it. Kind: D -/
def staticAddresses (member : Json) : Option (List Json) :=
  (member.field (ascii "IPv4StaticAddresses")).bind itemsOf

/-- `StaticNameServers`, if the member has it. Kind: D -/
def nameServers (member : Json) : Option (List Json) :=
  (member.field (ascii "StaticNameServers")).bind itemsOf

/-- A converter from JSON to the C structure, with the behaviour the driver relies on: an absent
and an empty `IPv4StaticAddresses` both give an empty link, an absent and an empty
`StaticNameServers` both give `NULL`.
Kind: D -/
structure Converter where
  toStructure : Json → Except EfiStatus EthernetInterfaceCs
  dhcpv4 : ∀ {member cs}, toStructure member = .ok cs → cs.dhcpv4.join = dhcpFlag member
  ipv4StaticAddresses : ∀ {member cs}, toStructure member = .ok cs →
    cs.ipv4StaticAddresses = ((staticAddresses member).getD []).map fun item => ⟨true, some item⟩
  staticNameServers : ∀ {member cs}, toStructure member = .ok cs →
    cs.staticNameServers = ((nameServers member).getD []).map stringOf

/-! ### Consuming -/

/-- How the platform takes a setting: whether the question is published on this build, and what
the apply returns. A setting whose apply fails is not changed.
Kind: D -/
structure ApplyAnswers where
  published : Question → Bool
  apply : Question → EfiStatus

/-- The question takes its value. Kind: D -/
def ApplyAnswers.takes (a : ApplyAnswers) (q : Question) : Bool :=
  a.published q && !efiError (a.apply q)

/-- Every question takes its value. Kind: D -/
def ApplyAnswers.clean (a : ApplyAnswers) : Bool := Question.all.all a.takes

lemma takes_of_clean {a : ApplyAnswers} (h : a.clean = true) (q : Question) :
    a.takes q = true :=
  List.all_eq_true.mp h q q.mem_all

/-- Source: `EthernetInterfaceCommon.c` `ConsumeStringProperty`
Kind: D -/
def consumeStringProperty (a : ApplyAnswers) (q : StringQuestion) (value : Option (List UInt8))
    (cfg : EthCfg) : EthCfg :=
  if a.takes (.string q) then cfg.setString q (value.getD []) else cfg

/-- `JsonLoadString (…, 0, …)`: a text is loaded only if it is an object or an array. Kind: D -/
def jsonLoadString : Json → Option Json
  | .obj members => some (.obj members)
  | .arr items => some (.arr items)
  | _ => none

/-- `JsonValueGetAsciiString`: the string, if it is one and is ASCII. Kind: D -/
def jsonValueGetAsciiString : Json → Option (List UInt8)
  | .str s => if s.all (· < 0x80) then some s else none
  | _ => none

/-- Source: `EthernetInterfaceCommon.c` `JsonObjectAsciiMember`
Kind: D -/
def jsonObjectAsciiMember (object : Json) (key : List UInt8) : Option (List UInt8) :=
  (object.field key).bind jsonValueGetAsciiString

/-- The three questions an address entry feeds, in the order they are consumed. Kind: D -/
def consumeAddress (a : ApplyAnswers) (value : List UInt8 → Option (List UInt8)) (cfg : EthCfg) :
    EthCfg :=
  consumeStringProperty a .gateway (value (ascii "Gateway"))
    (consumeStringProperty a .subnetMask (value (ascii "SubnetMask"))
      (consumeStringProperty a .address (value (ascii "Address")) cfg))

/-- Source: `EthernetInterfaceCommon.c` `ConsumeStaticAddresses`
Kind: D -/
def consumeStaticAddresses (a : ApplyAnswers) (cs : EthernetInterfaceCs) (cfg : EthCfg) : EthCfg :=
  match cs.ipv4StaticAddresses with
  | [] => consumeAddress a (fun _ => none) cfg
  | header :: _ =>
      if header.isJson then
        match header.jsonText.bind jsonLoadString with
        | none => cfg
        | some element => consumeAddress a (jsonObjectAsciiMember element) cfg
      else cfg

/-- The flag, when neither `DHCPv4` nor `DHCPEnabled` is `NULL`. Kind: D -/
def consumeDhcpEnabled (a : ApplyAnswers) (cs : EthernetInterfaceCs) (cfg : EthCfg) : EthCfg :=
  match cs.dhcpv4.join with
  | some b => if a.takes .dhcpEnabled then { cfg with dhcpEnabled := b } else cfg
  | none => cfg

/-- The first two name servers; fewer clear the remainder, none at all clears nothing. Kind: D -/
def consumeNameServers (a : ApplyAnswers) (cs : EthernetInterfaceCs) (cfg : EthCfg) : EthCfg :=
  match cs.staticNameServers with
  | [] => cfg
  | server :: rest =>
      consumeStringProperty a .dns2 (rest.head?.bind id) (consumeStringProperty a .dns1 server cfg)

/-- `CheckEtag`: the ETag is the one stored. Kind: D -/
def checkEtag (stored : Option ℕ) (etag : ℕ) : Bool := stored == some etag

/-- Source: `EthernetInterfaceCommon.c` `RedfishConsumeResourceCommon`
Kind: D -/
def consumeResourceCommon (converter : Converter) (a : ApplyAnswers) (stored : Option ℕ)
    (member : Json) (etag : ℕ) (cfg : EthCfg) : EfiStatus × EthCfg :=
  match converter.toStructure member with
  | .error status => (status, cfg)
  | .ok cs =>
      if checkEtag stored etag then (efiSuccess, cfg)
      else
        -- A failed apply is logged and forgotten: the function succeeds all the same.
        (efiSuccess, consumeNameServers a cs
          (consumeStaticAddresses a cs (consumeDhcpEnabled a cs cfg)))

/-- With an ETag that differs from the stored one, the three properties are consumed. Kind: L -/
theorem consumeResourceCommon_of_differs {converter : Converter} {a : ApplyAnswers}
    {stored : Option ℕ} {member : Json} {etag : ℕ} {cs : EthernetInterfaceCs}
    (hcs : converter.toStructure member = .ok cs) (hetag : checkEtag stored etag = false)
    (cfg : EthCfg) :
    (consumeResourceCommon converter a stored member etag cfg).2 =
      consumeNameServers a cs (consumeStaticAddresses a cs (consumeDhcpEnabled a cs cfg)) := by
  simp [consumeResourceCommon, hcs, hetag]

/-! ### What consuming is for -/

/-- The string at a key of an entry, empty when there is none. Kind: D -/
def entryString (entry : Option Json) (key : List UInt8) : List UInt8 :=
  ((entry.bind (Json.field key)).bind stringOf).getD []

def itemString (item : Option Json) : List UInt8 := (item.bind stringOf).getD []

/-- The questions say what the member says: each managed property the member has is the value of
the questions it feeds, a missing entry reading as an empty string.
Kind: D -/
def Reflects (member : Json) (cfg : EthCfg) : Prop :=
  (∀ b ∈ dhcpFlag member, cfg.dhcpEnabled = b) ∧
  (∀ entries ∈ staticAddresses member,
    cfg.string .address = entryString entries.head? (ascii "Address") ∧
    cfg.string .subnetMask = entryString entries.head? (ascii "SubnetMask") ∧
    cfg.string .gateway = entryString entries.head? (ascii "Gateway")) ∧
  ∀ servers ∈ nameServers member,
    cfg.string .dns1 = itemString servers.head? ∧ cfg.string .dns2 = itemString servers.tail.head?

instance (member : Json) (cfg : EthCfg) : Decidable (Reflects member cfg) :=
  inferInstanceAs (Decidable (_ ∧ _ ∧ _))

/-- Every string among the members of the entry is ASCII. Kind: D -/
def AsciiEntry (entry : Json) : Prop :=
  ∀ key ∈ [ascii "Address", ascii "SubnetMask", ascii "Gateway"],
    ∀ s ∈ (entry.field key).bind stringOf, s.all (· < 0x80) = true

instance : DecidablePred AsciiEntry := fun _ =>
  inferInstanceAs (Decidable (∀ _ ∈ _, ∀ _ ∈ _, _))

/-- What the C structure and the JSON library can carry: a list of name servers that is present is
not empty, and a first address entry is an object (or array) with ASCII strings.
Kind: D -/
def Expressible (member : Json) : Prop :=
  (∀ servers ∈ nameServers member, servers.isEmpty = false) ∧
  ∀ entries ∈ staticAddresses member, ∀ entry ∈ entries.head?,
    (jsonLoadString entry).isSome = true ∧ AsciiEntry entry

instance : DecidablePred Expressible := fun _ => inferInstanceAs (Decidable (_ ∧ _))

lemma consumeStringProperty_of_clean {a : ApplyAnswers} (h : a.clean = true)
    (q : StringQuestion) (value : Option (List UInt8)) (cfg : EthCfg) :
    consumeStringProperty a q value cfg = cfg.setString q (value.getD []) := by
  rw [consumeStringProperty, if_pos (takes_of_clean h _)]

lemma jsonLoadString_eq_some {json : Json} (h : (jsonLoadString json).isSome = true) :
    jsonLoadString json = some json := by
  cases json with
  | obj | arr => rfl
  | null | bool | num | str => cases h

/-- A string member is read as it stands exactly if it is ASCII. Kind: L -/
theorem jsonObjectAsciiMember_getD_iff {entry : Json} {key : List UInt8} :
    (jsonObjectAsciiMember entry key).getD [] = entryString (some entry) key ↔
      ∀ s ∈ (entry.field key).bind stringOf, s.all (· < 0x80) = true := by
  unfold jsonObjectAsciiMember entryString
  rw [Option.bind_some]
  rcases entry.field key with _ | value
  · simp
  cases value with
  | null | bool | num | arr | obj => simp [jsonValueGetAsciiString, stringOf]
  | str s =>
      simp only [Option.bind_some, jsonValueGetAsciiString, stringOf, Option.mem_some_iff,
        forall_eq', Option.getD_some]
      split_ifs with hs
      · simp [hs]
      · refine ⟨?_, fun h => absurd h hs⟩
        rintro rfl
        exact absurd rfl hs

/-! ### One question at a time -/

/-- The member of an address entry that feeds the question, if it is fed by one. Kind: D -/
def StringQuestion.entryKey : StringQuestion → Option (List UInt8)
  | .address => some (ascii "Address")
  | .subnetMask => some (ascii "SubnetMask")
  | .gateway => some (ascii "Gateway")
  | .dns1 | .dns2 => none

/-- The value of an address question after a list of entries is consumed. An entry that cannot be
loaded leaves the question as it was. Kind: D -/
def consumedAddress (entries : List Json) (key old : List UInt8) : List UInt8 :=
  match entries.head? with
  | none => []
  | some entry =>
      match jsonLoadString entry with
      | none => old
      | some element => (jsonObjectAsciiMember element key).getD []

/-- The value of a name server question, by its position in the list. Kind: D -/
def consumedServer (servers : List Json) (i : ℕ) (old : List UInt8) : List UInt8 :=
  if servers.isEmpty then old else itemString servers[i]?

/-- An address question ends as the entry says exactly if the string is ASCII and, where the entry
cannot be loaded, the question was empty before. Kind: L -/
theorem consumedAddress_eq_entryString_iff {entries : List Json} {key old : List UInt8} :
    consumedAddress entries key old = entryString entries.head? key ↔
      ∀ entry ∈ entries.head?, (∀ s ∈ (entry.field key).bind stringOf, s.all (· < 0x80) = true) ∧
        (jsonLoadString entry = none → old = []) := by
  unfold consumedAddress
  rcases entries.head? with _ | entry
  · simp [entryString]
  simp only [Option.mem_some_iff, forall_eq']
  rcases hload : jsonLoadString entry with _ | element
  · have hfield : entry.field key = none := by
      cases entry with
      | obj | arr => cases hload
      | null | bool | num | str => rfl
    simp [entryString, hfield]
  · have hsame : element = entry :=
      Option.some.inj (hload.symm.trans (jsonLoadString_eq_some (by rw [hload]; rfl)))
    simp [hsame, jsonObjectAsciiMember_getD_iff]

section Clean

variable {converter : Converter} {a : ApplyAnswers} {member : Json} {cs : EthernetInterfaceCs}
  (ha : a.clean = true) (hcs : converter.toStructure member = .ok cs) (cfg : EthCfg)

include ha hcs

lemma consumeDhcpEnabled_of_clean :
    consumeDhcpEnabled a cs cfg =
      { cfg with dhcpEnabled := (dhcpFlag member).getD cfg.dhcpEnabled } := by
  rw [consumeDhcpEnabled, converter.dhcpv4 hcs]
  cases dhcpFlag member with
  | none => rfl
  | some b => exact if_pos (takes_of_clean ha _)

/-- The address questions are set from the first entry, and cleared without one, also if the member
does not have the property at all; the other questions stay. Kind: L -/
theorem consumeStaticAddresses_of_clean :
    (consumeStaticAddresses a cs cfg).dhcpEnabled = cfg.dhcpEnabled ∧
      ∀ q, (consumeStaticAddresses a cs cfg).string q = q.entryKey.elim (cfg.string q) fun key =>
        consumedAddress ((staticAddresses member).getD []) key (cfg.string q) := by
  rw [consumeStaticAddresses, converter.ipv4StaticAddresses hcs]
  rcases (staticAddresses member).getD [] with _ | ⟨entry, rest⟩
  · refine ⟨by simp [consumeAddress, consumeStringProperty_of_clean ha], fun q => ?_⟩
    cases q <;> simp [consumeAddress, consumeStringProperty_of_clean ha,
      StringQuestion.entryKey, consumedAddress]
  rcases hload : jsonLoadString entry with _ | element
  · refine ⟨by simp [hload], fun q => ?_⟩
    cases q <;> simp [hload, StringQuestion.entryKey, consumedAddress]
  · refine ⟨by simp [hload, consumeAddress, consumeStringProperty_of_clean ha], fun q => ?_⟩
    cases q <;> simp [hload, consumeAddress, consumeStringProperty_of_clean ha,
      StringQuestion.entryKey, consumedAddress]

/-- The name server questions are set from the first two entries, and stay without any. Kind: L -/
theorem consumeNameServers_of_clean :
    (consumeNameServers a cs cfg).dhcpEnabled = cfg.dhcpEnabled ∧
      (consumeNameServers a cs cfg).string .dns1 =
        consumedServer ((nameServers member).getD []) 0 (cfg.string .dns1) ∧
      (consumeNameServers a cs cfg).string .dns2 =
        consumedServer ((nameServers member).getD []) 1 (cfg.string .dns2) ∧
      ∀ q, q.entryKey.isSome = true → (consumeNameServers a cs cfg).string q = cfg.string q := by
  rw [consumeNameServers, converter.staticNameServers hcs]
  rcases (nameServers member).getD [] with _ | ⟨server, rest⟩
  · exact ⟨rfl, rfl, rfl, fun _ _ => rfl⟩
  · refine ⟨by simp [consumeStringProperty_of_clean ha], ?_, ?_, fun q hq => ?_⟩
    · simp [consumeStringProperty_of_clean ha, consumedServer, itemString]
    · rcases rest with _ | ⟨second, rest⟩ <;>
        simp [consumeStringProperty_of_clean ha, consumedServer, itemString]
    · cases q with
      | dns1 | dns2 => cases hq
      | address | subnetMask | gateway => simp [consumeStringProperty_of_clean ha]

end Clean

/-- Each question after a member is consumed into `before`, every question taking its value.
Kind: D -/
structure Consumes (member : Json) (before after : EthCfg) : Prop where
  dhcpEnabled : after.dhcpEnabled = (dhcpFlag member).getD before.dhcpEnabled
  address : ∀ q key, q.entryKey = some key →
    after.string q = consumedAddress ((staticAddresses member).getD []) key (before.string q)
  dns1 : after.string .dns1 =
    consumedServer ((nameServers member).getD []) 0 (before.string .dns1)
  dns2 : after.string .dns2 =
    consumedServer ((nameServers member).getD []) 1 (before.string .dns2)

lemma consumes_of_clean {converter : Converter} {a : ApplyAnswers} {member : Json}
    {cs : EthernetInterfaceCs} (ha : a.clean = true) (hcs : converter.toStructure member = .ok cs)
    (cfg : EthCfg) :
    Consumes member cfg (consumeNameServers a cs
      (consumeStaticAddresses a cs (consumeDhcpEnabled a cs cfg))) := by
  have hdhcp := consumeDhcpEnabled_of_clean ha hcs cfg
  obtain ⟨haddress, hstring⟩ :=
    consumeStaticAddresses_of_clean ha hcs (consumeDhcpEnabled a cs cfg)
  obtain ⟨hservers, hdns1, hdns2, hother⟩ :=
    consumeNameServers_of_clean ha hcs (consumeStaticAddresses a cs (consumeDhcpEnabled a cs cfg))
  constructor
  · rw [hservers, haddress, hdhcp]
  · intro q key hkey
    rw [hother q (by rw [hkey]; rfl), hstring, hkey, hdhcp]
    rfl
  · rw [hdns1, hstring, hdhcp]
    rfl
  · rw [hdns2, hstring, hdhcp]
    rfl

/-- No address question holds anything. Kind: D -/
def EthCfg.NoAddress (cfg : EthCfg) : Prop :=
  cfg.string .address = [] ∧ cfg.string .subnetMask = [] ∧ cfg.string .gateway = []

/-- No name server question holds anything. Kind: D -/
def EthCfg.NoServer (cfg : EthCfg) : Prop := cfg.string .dns1 = [] ∧ cfg.string .dns2 = []

instance : DecidablePred EthCfg.NoAddress := fun _ => inferInstanceAs (Decidable (_ ∧ _ ∧ _))

instance : DecidablePred EthCfg.NoServer := fun _ => inferInstanceAs (Decidable (_ ∧ _))

/-- **When consuming does what it is for.** A list of name servers that is present and empty, and a
first address entry that cannot be loaded, leave their questions as they were, and a string that
is not ASCII clears its question. Kind: P -/
theorem reflects_iff {member : Json} {before after : EthCfg} (h : Consumes member before after) :
    Reflects member after ↔
      (nameServers member = some [] → before.NoServer) ∧
      ∀ entries ∈ staticAddresses member, ∀ entry ∈ entries.head?,
        AsciiEntry entry ∧ (jsonLoadString entry = none → before.NoAddress) := by
  have hdhcp : ∀ b ∈ dhcpFlag member, after.dhcpEnabled = b := by
    intro b hb
    rw [h.dhcpEnabled, Option.mem_def.mp hb, Option.getD_some]
  have haddresses : ∀ entries ∈ staticAddresses member,
      (after.string .address = entryString entries.head? (ascii "Address") ∧
        after.string .subnetMask = entryString entries.head? (ascii "SubnetMask") ∧
        after.string .gateway = entryString entries.head? (ascii "Gateway")) ↔
      ∀ entry ∈ entries.head?,
        AsciiEntry entry ∧ (jsonLoadString entry = none → before.NoAddress) := by
    intro entries hentries
    rw [h.address .address _ rfl, h.address .subnetMask _ rfl, h.address .gateway _ rfl,
      Option.mem_def.mp hentries, Option.getD_some]
    simp only [consumedAddress_eq_entryString_iff]
    rcases entries.head? with _ | entry
    · simp
    · simp only [Option.mem_some_iff, forall_eq', AsciiEntry, List.mem_cons, List.not_mem_nil,
        or_false, forall_eq_or_imp, forall_eq, EthCfg.NoAddress]
      constructor
      · rintro ⟨⟨hascii₁, hold₁⟩, ⟨hascii₂, hold₂⟩, hascii₃, hold₃⟩
        exact ⟨⟨hascii₁, hascii₂, hascii₃⟩, fun hnone => ⟨hold₁ hnone, hold₂ hnone, hold₃ hnone⟩⟩
      · rintro ⟨⟨hascii₁, hascii₂, hascii₃⟩, hold⟩
        exact ⟨⟨hascii₁, fun hnone => (hold hnone).1⟩, ⟨hascii₂, fun hnone => (hold hnone).2.1⟩,
          hascii₃, fun hnone => (hold hnone).2.2⟩
  have hservers : ∀ servers ∈ nameServers member,
      (after.string .dns1 = itemString servers.head? ∧
        after.string .dns2 = itemString servers.tail.head?) ↔
      (servers = [] → before.NoServer) := by
    intro servers hservers
    rw [h.dns1, h.dns2, Option.mem_def.mp hservers, Option.getD_some]
    rcases servers with _ | ⟨server, rest⟩
    · simp [consumedServer, itemString, EthCfg.NoServer]
    · rcases rest with _ | ⟨second, rest⟩ <;> simp [consumedServer, itemString]
  unfold Reflects
  rw [and_iff_right hdhcp, and_comm]
  refine and_congr ?_ (forall₂_congr haddresses)
  refine (forall₂_congr hservers).trans ⟨fun h hnil => h [] hnil rfl, ?_⟩
  rintro h servers hmem rfl
  exact h hmem

/-- **Consuming does what it is for**: when every question takes its value, a member the structure
can express is what the questions say afterwards.
Kind: P -/
theorem reflects_consume {converter : Converter} {a : ApplyAnswers} {member : Json}
    {cs : EthernetInterfaceCs} (ha : a.clean = true) (hcs : converter.toStructure member = .ok cs)
    (cfg : EthCfg) (hmember : Expressible member) :
    Reflects member (consumeNameServers a cs
      (consumeStaticAddresses a cs (consumeDhcpEnabled a cs cfg))) := by
  refine (reflects_iff (consumes_of_clean ha hcs cfg)).mpr ⟨fun hnil => ?_, ?_⟩
  · exact absurd (hmember.1 [] hnil) (by decide)
  · intro entries hentries entry hentry
    obtain ⟨hload, hascii⟩ := hmember.2 entries hentries entry hentry
    refine ⟨hascii, fun hnone => ?_⟩
    rw [hnone] at hload
    cases hload

/-! ### Building the payload -/

/-- What `GetProperty…Value` can read. The MAC address is a read-only question of its own.
Kind: D -/
structure PropertyReads where
  readable : Question → Bool
  macAddress : Option (List UInt8)

/-- Empty strings collapse to `NULL`.
Source: `EthernetInterfaceCommon.c` `FetchStringProperty`
Kind: D -/
def collapse : Option (List UInt8) → Option (List UInt8)
  | some [] => none
  | value => value

@[inherit_doc collapse]
def fetchStringProperty (r : PropertyReads) (cfg : EthCfg) (q : StringQuestion) :
    Option (List UInt8) :=
  collapse (if r.readable (.string q) then some (cfg.string q) else none)

/-- `JsonValueInitAsciiString`: `NULL` unless the string is ASCII. Kind: D -/
def jsonValueInitAsciiString (s : List UInt8) : Option Json :=
  if s.all (· < 0x80) then some (.str s) else none

/-- A member that is set only if there is something to set it to; `JsonObjectSetValue` does nothing
with a `NULL` value. Kind: D -/
def optionalString (key : List UInt8) (value : Option (List UInt8)) : List (List UInt8 × Json) :=
  (value.bind jsonValueInitAsciiString).toList.map fun s => (key, s)

/-- Source: `EthernetInterfaceCommon.c` `BuildEthernetInterfacePayload`
Kind: D -/
def buildEthernetInterfacePayload (r : PropertyReads) (resourceId : Option (List UInt8))
    (cfg : EthCfg) : Json :=
  let identity := match resourceId with
    | none => []
    | some resourceId =>
        (ascii "@odata.type", .str (ascii "#EthernetInterface.v1_8_0.EthernetInterface")) ::
          optionalString (ascii "Id") (some resourceId) ++
          [(ascii "Name", .str (ascii "Ethernet Interface"))]
  let dhcp :=
    if r.readable .dhcpEnabled then
      [(ascii "DHCPv4", .obj [(ascii "DHCPEnabled", .bool cfg.dhcpEnabled)])]
    else []
  -- One entry when an address is configured, and an empty array otherwise.
  let addresses := match fetchStringProperty r cfg .address with
    | none => []
    | some address =>
        [.obj (optionalString (ascii "Address") (some address) ++
          optionalString (ascii "SubnetMask") (fetchStringProperty r cfg .subnetMask) ++
          optionalString (ascii "Gateway") (fetchStringProperty r cfg .gateway))]
  let servers :=
    (fetchStringProperty r cfg .dns1).toList ++ (fetchStringProperty r cfg .dns2).toList
  .obj (identity ++ optionalString (ascii "MACAddress") (collapse r.macAddress) ++ dhcp ++
    [(ascii "IPv4StaticAddresses", .arr addresses),
      (ascii "StaticNameServers", .arr (servers.filterMap jsonValueInitAsciiString))])

end NucBios.Ethernet
