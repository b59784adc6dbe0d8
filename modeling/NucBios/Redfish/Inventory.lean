import NucBios.Redfish.Drives
import NucBios.Redfish.Smbios

/-!
# The bodies that report the host, its memory and its drives

Three of the four inventory requests. Each body starts with members that are always there and goes
on with one append per field, skipped when there is nothing to say; the buffer is fixed, and an
append that does not fit would be dropped without a trace. None is: with every character escaped and
every number at its longest, the three bodies have at most 719, 1015 and 719 octets.

* `Faithful` says what is asked of a body; `faithful_of_bound` reduces it to a length and to what is
  found under each key.
* `inventory_bodies_faithful`: every host, every memory module and every drive the collectors can
  come up with. The host's UUID counts as said only when it is marked valid:
  `stale_uuid_not_reported` is a table that leaves a UUID in the record without the mark.
-/

namespace NucBios.Redfish

open Lib Uefi

/-! ### What is asked of a body -/

/-- What a record has to say: strings, numbers, and numbers that stand in an array by themselves,
each with the key it is reported under.
Kind: D -/
structure Fields where
  strings : List (List UInt8 × List UInt8)
  numbers : List (List UInt8 × ℕ)
  arrays : List (List UInt8 × ℕ)

/-- Everything that is not empty is among the members, control characters turned into spaces.
Kind: D -/
structure Fields.ReportedIn (f : Fields) (members : List (List UInt8 × Json)) : Prop where
  strings : ∀ s ∈ f.strings, s.2 ≠ [] → Json.lookup s.1 members = some (.str (s.2.map blank))
  numbers : ∀ n ∈ f.numbers, n.2 ≠ 0 → (Json.lookup n.1 members).bind Json.nat = some n.2
  arrays : ∀ n ∈ f.arrays, n.2 ≠ 0 →
    ∃ v, Json.lookup n.1 members = some (.arr [v]) ∧ v.nat = some n.2

/-- The body, built by appending `texts` to `front`, is complete and faithful. Kind: D -/
structure Faithful (f : Fields) (front : List UInt8) (texts : List (List UInt8))
    (body : List UInt8) : Prop where
  built : body = texts.foldl (asciiStrCatS nucRedfishJsonMax) front
  /-- No concatenation fails. -/
  allFit : AllFit nucRedfishJsonMax front texts
  short : body.length < nucRedfishJsonMax
  reported : ∃ members, Json.decode body = some (.obj members) ∧ f.ReportedIn members

section Faithful

variable {f : Fields} {front body : List UInt8} {first : Json.Member} {firsts : List Json.Member}
  {appends : List Append}

variable (hfront : front = 0x7B :: (first.written ++ Json.writtenAll firsts))
  (hbound : front.length + ((appends.map Append.bound).sum + 1) < nucRedfishJsonMax)
  (hbody : body = (Append.allTexts appends).foldl (asciiStrCatS nucRedfishJsonMax) front)

include hbound in
lemma fits_of_bound :
    front.length + (Append.allTexts appends).flatten.length < nucRedfishJsonMax := by
  have hlen := Append.length_flatten_allTexts_le appends
  omega

include hfront hbound hbody in
lemma decode_of_bound : Json.decode body =
    some (.obj ((first :: (firsts ++ Append.allMembers appends)).map Json.Member.pair)) := by
  obtain ⟨hfold, hdecode⟩ := Append.foldl_allTexts hfront (fits_of_bound hbound)
  rw [hbody, hfold, hdecode]

include hfront hbound hbody in
/-- With room for everything, it remains to see what is found under the keys. Kind: L -/
theorem faithful_of_bound (hreported : f.ReportedIn
      ((first :: (firsts ++ Append.allMembers appends)).map Json.Member.pair)) :
    Faithful f front (Append.allTexts appends) body := by
  have hfits := fits_of_bound hbound
  refine ⟨hbody, allFit_of_lt hfits, ?_, _, decode_of_bound hfront hbound hbody, hreported⟩
  rw [hbody, (Append.foldl_allTexts hfront hfits).1, List.length_append]
  exact hfits

variable (hkeys : ((first :: firsts).map Json.Member.key ++ appends.map Append.key).Nodup)

include hkeys

lemma lookup_string {name value : List UInt8} {hname : ∀ c ∈ name, Json.Plain c}
    {hvalue : value.length < nucRedfishStrMax} {bound : ℕ}
    {hbound : name.length + (value.flatMap escapeOctet).length + 6 ≤ bound}
    (ha : Append.string name hname value hvalue bound hbound ∈ appends) (hne : value ≠ []) :
    Json.lookup name ((first :: (firsts ++ Append.allMembers appends)).map Json.Member.pair) =
      some (.str (value.map blank)) :=
  (Append.lookup_string_eq hkeys ha).trans (if_neg hne)

lemma lookup_printed {present : Prop} [Decidable present] {text : List UInt8} {m : Json.Member}
    {bound : ℕ} {htext : present → text = 0x2C :: m.written}
    {hbound : present → text.length ≤ bound}
    (ha : Append.printed present text m bound htext hbound ∈ appends) (hpresent : present) :
    Json.lookup m.key ((first :: (firsts ++ Append.allMembers appends)).map Json.Member.pair) =
      some m.value := by
  have h := Append.lookup_key hkeys ha
  simpa [Append.printed, hpresent] using h

lemma lookup_number {name : List UInt8} {hname : ∀ c ∈ name, Json.Plain c}
    {hlen : name.length ≤ 17} {value : UInt32} {hvalue : value.toNat < 2 ^ 31}
    (ha : Append.number name hname hlen value hvalue ∈ appends) (hne : value.toNat ≠ 0) :
    (Json.lookup name ((first :: (firsts ++ Append.allMembers appends)).map
      Json.Member.pair)).bind Json.nat = some value.toNat := by
  have hvalue' : value ≠ 0 := fun h => hne (by rw [h]; rfl)
  have h := lookup_printed hkeys ha hvalue'
  rw [show name = (numberMember name hname value).key from rfl, h]
  exact nat_num_decimal (toNat_lt_ten_pow value)

end Faithful

/-! ### The host -/

def nucRedfishBootProgress : List UInt8 := ascii "SystemHardwareInitializationComplete"

/-- `BootProgress` leads, so the object is never empty. Kind: D -/
def systemFront : List UInt8 :=
  asciiSPrint nucRedfishJsonMax
    (ascii "\x7b\"BootProgress\":\x7b\"LastState\":\"" ++ nucRedfishBootProgress ++ ascii "\"\x7d")

/-- The text of the body. Kind: D -/
def systemBody (inventory : HostInventory) : List UInt8 :=
  let body := systemFront
  let body := appendJsonString body nucRedfishJsonMax (ascii "BiosVersion")
    inventory.biosVersion.text
  let body := appendJsonString body nucRedfishJsonMax (ascii "Manufacturer")
    inventory.manufacturer.text
  let body := appendJsonString body nucRedfishJsonMax (ascii "Model") inventory.model.text
  let body := appendJsonString body nucRedfishJsonMax (ascii "SerialNumber")
    inventory.serialNumber.text
  let body :=
    if inventory.uuidValid then
      appendJsonString body nucRedfishJsonMax (ascii "UUID") inventory.uuid.text
    else body
  asciiStrCatS nucRedfishJsonMax body (ascii "\x7d")

/-- Source: `NucRedfishInventory.c` `NucRedfishBuildSystemPatch`
Kind: D -/
def buildSystemPatch (inventory : HostInventory) (allocated : Bool) :
    Except EfiStatus (List UInt8) :=
  if allocated then .ok (systemBody inventory) else .error efiOutOfResources

def bootProgressMember : Json.Member :=
  .ofObj (ascii "BootProgress") (by decide +kernel)
    (stringMember (ascii "LastState") (by decide +kernel) nucRedfishBootProgress) []

/-- The UUID, if it is valid. Kind: D -/
def HostInventory.validUuid (inventory : HostInventory) : List UInt8 :=
  if inventory.uuidValid then inventory.uuid.text else []

lemma length_validUuid_lt (inventory : HostInventory) : inventory.validUuid.length < 37 := by
  unfold HostInventory.validUuid
  split_ifs
  · exact inventory.uuid.fits
  · decide

def systemAppends (inventory : HostInventory) : List Append :=
  [.field (ascii "BiosVersion") (by decide +kernel) inventory.biosVersion,
    .field (ascii "Manufacturer") plain_manufacturer inventory.manufacturer,
    .field (ascii "Model") plain_model inventory.model,
    .field (ascii "SerialNumber") plain_serialNumber inventory.serialNumber,
    .string (ascii "UUID") (by decide +kernel) inventory.validUuid
      ((length_validUuid_lt inventory).trans (by decide)) 82 (by
        have hlen := length_validUuid_lt inventory
        have hescape := length_flatMap_escapeOctet_le inventory.validUuid
        have hname : (ascii "UUID").length = 4 := by decide +kernel
        omega)]

/-- What the record of the host has to say. Kind: D -/
def HostInventory.fields (inventory : HostInventory) : Fields where
  strings :=
    [(ascii "BiosVersion", inventory.biosVersion.text),
      (ascii "Manufacturer", inventory.manufacturer.text), (ascii "Model", inventory.model.text),
      (ascii "SerialNumber", inventory.serialNumber.text), (ascii "UUID", inventory.validUuid)]
  numbers := []
  arrays := []

lemma systemBody_eq (inventory : HostInventory) : systemBody inventory =
    (Append.allTexts (systemAppends inventory)).foldl (asciiStrCatS nucRedfishJsonMax)
      systemFront := by
  rw [Append.foldl_allTexts_eq]
  simp only [systemAppends, List.foldl_cons, List.foldl_nil, Append.foldl_field,
    Append.foldl_string, systemBody, HostInventory.validUuid]
  split_ifs <;> rfl

/-- Everything in the record of the host is reported. Kind: P -/
theorem system_faithful (inventory : HostInventory) :
    Faithful inventory.fields systemFront (Append.allTexts (systemAppends inventory))
      (systemBody inventory) := by
  have hfront : systemFront = 0x7B :: (bootProgressMember.written ++ Json.writtenAll []) := by
    decide +kernel
  have hbounds : (systemAppends inventory).map Append.bound =
      [(ascii "BiosVersion").length + 132, (ascii "Manufacturer").length + 132,
        (ascii "Model").length + 132, (ascii "SerialNumber").length + 132, 82] := rfl
  have hkeys : ([bootProgressMember].map Json.Member.key ++
      (systemAppends inventory).map Append.key).Nodup :=
    show [ascii "BootProgress", ascii "BiosVersion", ascii "Manufacturer", ascii "Model",
      ascii "SerialNumber", ascii "UUID"].Nodup by decide +kernel
  refine faithful_of_bound hfront (by rw [hbounds]; decide +kernel) (systemBody_eq inventory)
    ⟨?_, List.forall_mem_nil _, List.forall_mem_nil _⟩
  simp only [HostInventory.fields, List.forall_mem_cons]
  exact ⟨lookup_string hkeys (List.mem_of_getElem? (i := 0) rfl),
    lookup_string hkeys (List.mem_of_getElem? (i := 1) rfl),
    lookup_string hkeys (List.mem_of_getElem? (i := 2) rfl),
    lookup_string hkeys (List.mem_of_getElem? (i := 3) rfl),
    lookup_string hkeys (List.mem_of_getElem? (i := 4) rfl), List.forall_mem_nil _⟩

/-! ### Memory modules -/

/-- `@odata.type` leads, so the object is never empty. Kind: D -/
def memoryFront : List UInt8 :=
  asciiSPrint nucRedfishJsonMax
    (ascii "\x7b\"@odata.type\":\"#Memory.v1_7_1.Memory\"" ++
      ascii ",\"Status\":\x7b\"State\":\"Enabled\",\"Health\":\"OK\"\x7d" ++
      ascii ",\"MemoryType\":\"DRAM\"")

/-- `CHAR8 Speeds[48]` Kind: D -/
def speedsText (ratedSpeedMhz : UInt32) : List UInt8 :=
  asciiSPrint 48 (ascii ",\"AllowedSpeedsMHz\":[" ++ signedDecimal32 ratedSpeedMhz ++ ascii "]")

/-- The text of the body. Kind: D -/
def memoryBody (m : MemoryModule) : List UInt8 :=
  let body := memoryFront
  let body := appendJsonString body nucRedfishJsonMax (ascii "DeviceLocator") m.deviceLocator.text
  let body := appendJsonString body nucRedfishJsonMax (ascii "Name") m.deviceLocator.text
  let body := appendJsonString body nucRedfishJsonMax (ascii "Manufacturer") m.manufacturer.text
  let body := appendJsonString body nucRedfishJsonMax (ascii "SerialNumber") m.serialNumber.text
  let body := appendJsonString body nucRedfishJsonMax (ascii "PartNumber") m.partNumber.text
  let body :=
    match m.memoryDeviceType with
    | none => body
    | some t => appendJsonString body nucRedfishJsonMax (ascii "MemoryDeviceType") t.text
  let body :=
    match m.baseModuleType with
    | none => body
    | some t => appendJsonString body nucRedfishJsonMax (ascii "BaseModuleType") t.text
  let body := appendJsonNumber body nucRedfishJsonMax (ascii "CapacityMiB") m.capacityMiB
  let body := appendJsonNumber body nucRedfishJsonMax (ascii "OperatingSpeedMhz")
    m.operatingSpeedMhz
  let body := appendJsonNumber body nucRedfishJsonMax (ascii "DataWidthBits")
    m.dataWidthBits.toUInt32
  let body := appendJsonNumber body nucRedfishJsonMax (ascii "BusWidthBits")
    m.busWidthBits.toUInt32
  let body :=
    if m.ratedSpeedMhz ≠ 0 then asciiStrCatS nucRedfishJsonMax body (speedsText m.ratedSpeedMhz)
    else body
  asciiStrCatS nucRedfishJsonMax body (ascii "\x7d")

/-- Source: `NucRedfishInventory.c` `NucRedfishBuildMemoryPost`
Kind: D -/
def buildMemoryPost (m : MemoryModule) (allocated : Bool) : Except EfiStatus (List UInt8) :=
  if allocated then .ok (memoryBody m) else .error efiOutOfResources

def memoryFirst : Json.Member := odataTypeMember (ascii "#Memory.v1_7_1.Memory")

def memoryFirsts : List Json.Member :=
  [statusMember, stringMember (ascii "MemoryType") (by decide +kernel) (ascii "DRAM")]

lemma decimal32_ne_nil (n : UInt32) : decimal32 n ≠ [] := by
  unfold decimal32 decimal
  split_ifs <;> simp

lemma spells_decimal_singleton (n : UInt32) :
    Json.Spells (0x5B :: decimal32 n ++ [0x5D]) (.arr [.num (decimal32 n)]) := by
  have hspells : Json.Spells (decimal32 n) (.num (decimal32 n)) :=
    spells_decimal (by decide) (toNat_lt_ten_pow n)
  have hdigit : ∀ c ∈ decimal32 n, Json.isDigit c = true := fun _ hc => isDigit_of_mem_decimal hc
  rcases hdigits : decimal32 n with _ | ⟨c, digits⟩
  · exact absurd hdigits (decimal32_ne_nil n)
  · rw [hdigits] at hspells hdigit
    have hc := hdigit c List.mem_cons_self
    refine Json.spells_singleton ?_ ?_ hspells
    · rw [Bool.eq_false_iff]
      intro hspace
      simp only [Json.isSpace, Bool.or_eq_true, beq_iff_eq] at hspace
      rcases hspace with ((rfl | rfl) | rfl) | rfl <;> cases hc
    · rintro rfl
      cases hc

/-- `"AllowedSpeedsMHz":[%d]` Kind: D -/
def speedsMember (ratedSpeedMhz : UInt32) : Json.Member where
  key := ascii "AllowedSpeedsMHz"
  text := 0x5B :: decimal32 ratedSpeedMhz ++ [0x5D]
  value := .arr [.num (decimal32 ratedSpeedMhz)]
  plain := by decide +kernel
  spells := spells_decimal_singleton ratedSpeedMhz

lemma length_speedsMember_le (ratedSpeedMhz : UInt32) :
    (0x2C :: (speedsMember ratedSpeedMhz).written).length ≤ 32 := by
  have hdigits : (decimal32 ratedSpeedMhz).length ≤ 10 := length_decimal_le 10 _
  have hname : (ascii "AllowedSpeedsMHz").length = 16 := by decide +kernel
  simp only [Json.Member.written, speedsMember, List.length_cons, List.length_append, hname,
    List.length_nil]
  omega

lemma speedsText_eq {ratedSpeedMhz : UInt32} (h : ratedSpeedMhz.toNat < 2 ^ 31) :
    speedsText ratedSpeedMhz = 0x2C :: (speedsMember ratedSpeedMhz).written := by
  have hlen := length_speedsMember_le ratedSpeedMhz
  have htext : ascii ",\"AllowedSpeedsMHz\":[" ++ decimal32 ratedSpeedMhz ++ ascii "]" =
      0x2C :: (speedsMember ratedSpeedMhz).written := by
    simp [ascii, Json.Member.written, speedsMember]
  rw [speedsText, signedDecimal32_eq h, htext, asciiSPrint_of_lt (by omega)]

/-- The word for the type, if there is one. Kind: D -/
def MemoryModule.deviceTypeText (m : MemoryModule) : List UInt8 :=
  m.memoryDeviceType.elim [] MemoryDeviceType.text

@[inherit_doc MemoryModule.deviceTypeText]
def MemoryModule.baseTypeText (m : MemoryModule) : List UInt8 :=
  m.baseModuleType.elim [] BaseModuleType.text

/-- The words are short, and nothing in them is escaped. Kind: L -/
theorem length_typeText_le (m : MemoryModule) :
    (m.deviceTypeText.length ≤ 12 ∧ (m.deviceTypeText.flatMap escapeOctet).length ≤ 12) ∧
      m.baseTypeText.length ≤ 7 ∧ (m.baseTypeText.flatMap escapeOctet).length ≤ 7 := by
  have hdevice : ∀ t : MemoryDeviceType,
      t.text.length ≤ 12 ∧ (t.text.flatMap escapeOctet).length ≤ 12 := by
    intro t
    cases t <;> decide +kernel
  have hbase : ∀ t : BaseModuleType,
      t.text.length ≤ 7 ∧ (t.text.flatMap escapeOctet).length ≤ 7 := by
    intro t
    cases t <;> decide +kernel
  unfold MemoryModule.deviceTypeText MemoryModule.baseTypeText
  refine ⟨?_, ?_⟩
  · rcases m.memoryDeviceType with _ | t
    · decide
    · exact hdevice t
  · rcases m.baseModuleType with _ | t
    · decide
    · exact hbase t

def memoryAppends (m : MemoryModule) : List Append :=
  [.field (ascii "DeviceLocator") (by decide +kernel) m.deviceLocator,
    .field (ascii "Name") plain_name m.deviceLocator,
    .field (ascii "Manufacturer") plain_manufacturer m.manufacturer,
    .field (ascii "SerialNumber") plain_serialNumber m.serialNumber,
    .field (ascii "PartNumber") plain_partNumber m.partNumber,
    .string (ascii "MemoryDeviceType") (by decide +kernel) m.deviceTypeText
      ((length_typeText_le m).1.1.trans_lt (by decide)) ((ascii "MemoryDeviceType").length + 18)
      (Nat.add_le_add_left (Nat.add_le_add_right (length_typeText_le m).1.2 6) _),
    .string (ascii "BaseModuleType") (by decide +kernel) m.baseTypeText
      ((length_typeText_le m).2.1.trans_lt (by decide)) ((ascii "BaseModuleType").length + 13)
      (Nat.add_le_add_left (Nat.add_le_add_right (length_typeText_le m).2.2 6) _),
    .number (ascii "CapacityMiB") (by decide +kernel) (by decide +kernel) m.capacityMiB
      m.capacityMiB_lt,
    .number (ascii "OperatingSpeedMhz") (by decide +kernel) (by decide +kernel)
      m.operatingSpeedMhz m.operatingSpeedMhz_lt,
    .number (ascii "DataWidthBits") (by decide +kernel) (by decide +kernel)
      m.dataWidthBits.toUInt32 (toNat_toUInt32_lt _),
    .number (ascii "BusWidthBits") (by decide +kernel) (by decide +kernel)
      m.busWidthBits.toUInt32 (toNat_toUInt32_lt _),
    .printed (m.ratedSpeedMhz ≠ 0) (speedsText m.ratedSpeedMhz) (speedsMember m.ratedSpeedMhz) 32
      (fun _ => speedsText_eq m.ratedSpeedMhz_lt)
      (fun _ => speedsText_eq m.ratedSpeedMhz_lt ▸ length_speedsMember_le m.ratedSpeedMhz)]

/-- What the record of a module has to say. The bank locator is not reported. Kind: D -/
def MemoryModule.fields (m : MemoryModule) : Fields where
  strings :=
    [(ascii "DeviceLocator", m.deviceLocator.text), (ascii "Name", m.deviceLocator.text),
      (ascii "Manufacturer", m.manufacturer.text), (ascii "SerialNumber", m.serialNumber.text),
      (ascii "PartNumber", m.partNumber.text), (ascii "MemoryDeviceType", m.deviceTypeText),
      (ascii "BaseModuleType", m.baseTypeText)]
  numbers :=
    [(ascii "CapacityMiB", m.capacityMiB.toNat),
      (ascii "OperatingSpeedMhz", m.operatingSpeedMhz.toNat),
      (ascii "DataWidthBits", m.dataWidthBits.toNat), (ascii "BusWidthBits", m.busWidthBits.toNat)]
  arrays := [(ascii "AllowedSpeedsMHz", m.ratedSpeedMhz.toNat)]

lemma memoryBody_eq (m : MemoryModule) : memoryBody m =
    (Append.allTexts (memoryAppends m)).foldl (asciiStrCatS nucRedfishJsonMax) memoryFront := by
  rw [Append.foldl_allTexts_eq]
  simp only [memoryAppends, List.foldl_cons, List.foldl_nil, Append.foldl_field,
    Append.foldl_string, Append.foldl_number, Append.foldl_printed, memoryBody,
    MemoryModule.deviceTypeText, MemoryModule.baseTypeText]
  rcases m.memoryDeviceType with _ | _ <;> rcases m.baseModuleType with _ | _ <;>
    simp only [Option.elim_none, Option.elim_some, appendJsonString_nil]

lemma memoryFront_eq : memoryFront =
    0x7B :: (memoryFirst.written ++
      Json.writtenAll memoryFirsts) := by
  decide +kernel

/-- The tightest of the three. Kind: L -/
theorem memory_fits (m : MemoryModule) :
    memoryFront.length + (((memoryAppends m).map Append.bound).sum + 1) < nucRedfishJsonMax := by
  have hbounds : (memoryAppends m).map Append.bound =
      [(ascii "DeviceLocator").length + 132, (ascii "Name").length + 132,
        (ascii "Manufacturer").length + 132, (ascii "SerialNumber").length + 132,
        (ascii "PartNumber").length + 132, (ascii "MemoryDeviceType").length + 18,
        (ascii "BaseModuleType").length + 13, (ascii "CapacityMiB").length + 14,
        (ascii "OperatingSpeedMhz").length + 14, (ascii "DataWidthBits").length + 14,
        (ascii "BusWidthBits").length + 14, 32] := rfl
  rw [hbounds]
  decide +kernel

lemma nodup_memoryKeys (m : MemoryModule) :
    ((memoryFirst :: memoryFirsts).map Json.Member.key ++
      (memoryAppends m).map Append.key).Nodup :=
  show [ascii "@odata.type", ascii "Status", ascii "MemoryType", ascii "DeviceLocator",
    ascii "Name", ascii "Manufacturer", ascii "SerialNumber", ascii "PartNumber",
    ascii "MemoryDeviceType", ascii "BaseModuleType", ascii "CapacityMiB",
    ascii "OperatingSpeedMhz", ascii "DataWidthBits", ascii "BusWidthBits",
    ascii "AllowedSpeedsMHz"].Nodup by decide +kernel

/-- Everything in the record of a module is reported. Kind: P -/
theorem memory_faithful (m : MemoryModule) :
    Faithful m.fields memoryFront (Append.allTexts (memoryAppends m)) (memoryBody m) := by
  have hkeys := nodup_memoryKeys m
  refine faithful_of_bound memoryFront_eq (memory_fits m) (memoryBody_eq m) ⟨?_, ?_, ?_⟩
  · simp only [MemoryModule.fields, List.forall_mem_cons]
    exact ⟨lookup_string hkeys (List.mem_of_getElem? (i := 0) rfl),
      lookup_string hkeys (List.mem_of_getElem? (i := 1) rfl),
      lookup_string hkeys (List.mem_of_getElem? (i := 2) rfl),
      lookup_string hkeys (List.mem_of_getElem? (i := 3) rfl),
      lookup_string hkeys (List.mem_of_getElem? (i := 4) rfl),
      lookup_string hkeys (List.mem_of_getElem? (i := 5) rfl),
      lookup_string hkeys (List.mem_of_getElem? (i := 6) rfl), List.forall_mem_nil _⟩
  · simp only [MemoryModule.fields, List.forall_mem_cons]
    exact ⟨lookup_number hkeys (List.mem_of_getElem? (i := 7) rfl),
      lookup_number hkeys (List.mem_of_getElem? (i := 8) rfl),
      lookup_number hkeys (List.mem_of_getElem? (i := 9) rfl),
      lookup_number hkeys (List.mem_of_getElem? (i := 10) rfl), List.forall_mem_nil _⟩
  · simp only [MemoryModule.fields, List.forall_mem_cons]
    refine ⟨fun hne => ⟨_, lookup_printed hkeys (List.mem_of_getElem? (i := 11) rfl) ?_, ?_⟩,
      List.forall_mem_nil _⟩
    · exact fun h => hne (by rw [h]; rfl)
    · exact nat_num_decimal (toNat_lt_ten_pow _)

/-! ### Drives -/

def driveFront : List UInt8 :=
  asciiSPrint nucRedfishJsonMax
    (ascii "\x7b\"@odata.type\":\"#Drive.v1_4_0.Drive\"" ++
      ascii ",\"Status\":\x7b\"State\":\"Enabled\",\"Health\":\"OK\"\x7d")

/-- `CHAR8 Capacity[48]` Kind: D -/
def capacityText (capacityBytes : UInt64) : List UInt8 :=
  asciiSPrint 48 (ascii ",\"CapacityBytes\":" ++ signedDecimal64 capacityBytes)

/-- The text of the body. Kind: D -/
def driveBody (d : Drive) : List UInt8 :=
  let body := driveFront
  let body := appendJsonString body nucRedfishJsonMax (ascii "Name") d.model.text
  let body := appendJsonString body nucRedfishJsonMax (ascii "Model") d.model.text
  let body := appendJsonString body nucRedfishJsonMax (ascii "SerialNumber") d.serialNumber.text
  let body := appendJsonString body nucRedfishJsonMax (ascii "Revision") d.revision.text
  -- `AppendJsonString` takes a null pointer for an empty string.
  let body := appendJsonString body nucRedfishJsonMax (ascii "Protocol")
    (d.protocol.elim [] DriveProtocol.text)
  let body :=
    match d.mediaType with
    | none => body
    | some t => appendJsonString body nucRedfishJsonMax (ascii "MediaType") t.text
  let body :=
    if d.capacityBytes ≠ 0 then asciiStrCatS nucRedfishJsonMax body (capacityText d.capacityBytes)
    else body
  asciiStrCatS nucRedfishJsonMax body (ascii "\x7d")

/-- Source: `NucRedfishInventory.c` `NucRedfishBuildDrivePost`
Kind: D -/
def buildDrivePost (d : Drive) (allocated : Bool) : Except EfiStatus (List UInt8) :=
  if allocated then .ok (driveBody d) else .error efiOutOfResources

def driveFirst : Json.Member := odataTypeMember (ascii "#Drive.v1_4_0.Drive")

/-- `"CapacityBytes":%ld` Kind: D -/
def capacityMember (capacityBytes : UInt64) : Json.Member where
  key := ascii "CapacityBytes"
  text := signedDecimal64 capacityBytes
  value := .num (signedDecimal64 capacityBytes)
  plain := by decide +kernel
  spells := spells_signedDecimal64 capacityBytes

lemma length_capacityMember_le (capacityBytes : UInt64) :
    (0x2C :: (capacityMember capacityBytes).written).length ≤ 37 := by
  have hdigits := length_signedDecimal64_le capacityBytes
  have hname : (ascii "CapacityBytes").length = 13 := by decide +kernel
  simp only [Json.Member.written, capacityMember, List.length_cons, List.length_append, hname]
  omega

lemma capacityText_eq (capacityBytes : UInt64) :
    capacityText capacityBytes = 0x2C :: (capacityMember capacityBytes).written := by
  have hlen := length_capacityMember_le capacityBytes
  have htext : ascii ",\"CapacityBytes\":" ++ signedDecimal64 capacityBytes =
      0x2C :: (capacityMember capacityBytes).written := by
    simp [ascii, Json.Member.written, capacityMember]
  rw [capacityText, htext, asciiSPrint_of_lt (by omega)]

/-- Below `2 ^ 63`, the capacity is printed as it is. Kind: L -/
theorem nat_capacityMember {capacityBytes : UInt64} (h : capacityBytes.toNat < 2 ^ 63) :
    (capacityMember capacityBytes).value.nat = some capacityBytes.toNat := by
  have hsigned : signedDecimal64 capacityBytes = decimal 19 capacityBytes.toNat := if_pos h
  show (Json.num (signedDecimal64 capacityBytes)).nat = _
  rw [hsigned]
  exact nat_num_decimal (h.trans (by decide))

/-- The word for the protocol, if there is one. Kind: D -/
def Drive.protocolText (d : Drive) : List UInt8 := d.protocol.elim [] DriveProtocol.text

@[inherit_doc Drive.protocolText]
def Drive.mediaTypeText (d : Drive) : List UInt8 := d.mediaType.elim [] MediaType.text

lemma length_driveText_le (d : Drive) : d.protocolText.length ≤ 4 ∧ d.mediaTypeText.length ≤ 4 := by
  unfold Drive.protocolText Drive.mediaTypeText
  refine ⟨?_, ?_⟩
  · rcases d.protocol with _ | t
    · decide
    · cases t <;> decide +kernel
  · rcases d.mediaType with _ | t
    · decide
    · cases t <;> decide +kernel

/-- A word of up to four characters. Kind: D -/
def Append.word (name : List UInt8) (hname : ∀ c ∈ name, Json.Plain c) (value : List UInt8)
    (hvalue : value.length ≤ 4) : Append :=
  .string name hname value (hvalue.trans_lt (by decide)) (name.length + 14) <| by
    have hescape := length_flatMap_escapeOctet_le value
    omega

def driveAppends (d : Drive) : List Append :=
  [.field (ascii "Name") plain_name d.model.toCString,
    .field (ascii "Model") plain_model d.model.toCString,
    .field (ascii "SerialNumber") plain_serialNumber d.serialNumber.toCString,
    .field (ascii "Revision") (by decide +kernel) d.revision.toCString,
    .word (ascii "Protocol") (by decide +kernel) d.protocolText (length_driveText_le d).1,
    .word (ascii "MediaType") (by decide +kernel) d.mediaTypeText (length_driveText_le d).2,
    .printed (d.capacityBytes ≠ 0) (capacityText d.capacityBytes)
      (capacityMember d.capacityBytes) 37 (fun _ => capacityText_eq d.capacityBytes)
      (fun _ => capacityText_eq d.capacityBytes ▸ length_capacityMember_le d.capacityBytes)]

/-- What the record of a drive has to say. Kind: D -/
def Drive.fields (d : Drive) : Fields where
  strings :=
    [(ascii "Name", d.model.text), (ascii "Model", d.model.text),
      (ascii "SerialNumber", d.serialNumber.text), (ascii "Revision", d.revision.text),
      (ascii "Protocol", d.protocolText), (ascii "MediaType", d.mediaTypeText)]
  numbers := [(ascii "CapacityBytes", d.capacityBytes.toNat)]
  arrays := []

lemma driveBody_eq (d : Drive) : driveBody d =
    (Append.allTexts (driveAppends d)).foldl (asciiStrCatS nucRedfishJsonMax) driveFront := by
  rw [Append.foldl_allTexts_eq]
  simp only [driveAppends, Append.word, List.foldl_cons, List.foldl_nil, Append.foldl_field,
    Append.foldl_string, Append.foldl_printed, CharArray.text_toCString, driveBody,
    Drive.protocolText, Drive.mediaTypeText]
  rcases d.mediaType with _ | _ <;>
    simp only [Option.elim_none, Option.elim_some, appendJsonString_nil]

lemma driveFront_eq : driveFront =
    0x7B :: (driveFirst.written ++ Json.writtenAll [statusMember]) := by
  decide +kernel

lemma nodup_driveKeys (d : Drive) : ((driveFirst :: [statusMember]).map Json.Member.key ++
    (driveAppends d).map Append.key).Nodup :=
  show [ascii "@odata.type", ascii "Status", ascii "Name", ascii "Model", ascii "SerialNumber",
    ascii "Revision", ascii "Protocol", ascii "MediaType", ascii "CapacityBytes"].Nodup by
    decide +kernel

lemma drive_fits (d : Drive) : driveFront.length +
    (((driveAppends d).map Append.bound).sum + 1) < nucRedfishJsonMax := by
  have hbounds : (driveAppends d).map Append.bound =
      [(ascii "Name").length + 132, (ascii "Model").length + 132,
        (ascii "SerialNumber").length + 132, (ascii "Revision").length + 132,
        (ascii "Protocol").length + 14, (ascii "MediaType").length + 14, 37] := rfl
  rw [hbounds]
  decide +kernel

/-- Everything in the record of a drive is reported. Kind: P -/
theorem drive_faithful {d : Drive} (hcap : d.capacityBytes.toNat < 2 ^ 63) :
    Faithful d.fields driveFront (Append.allTexts (driveAppends d)) (driveBody d) := by
  have hkeys := nodup_driveKeys d
  refine faithful_of_bound driveFront_eq (drive_fits d) (driveBody_eq d)
    ⟨?_, ?_, List.forall_mem_nil _⟩
  · simp only [Drive.fields, List.forall_mem_cons]
    exact ⟨lookup_string hkeys (List.mem_of_getElem? (i := 0) rfl),
      lookup_string hkeys (List.mem_of_getElem? (i := 1) rfl),
      lookup_string hkeys (List.mem_of_getElem? (i := 2) rfl),
      lookup_string hkeys (List.mem_of_getElem? (i := 3) rfl),
      lookup_string hkeys (List.mem_of_getElem? (i := 4) rfl),
      lookup_string hkeys (List.mem_of_getElem? (i := 5) rfl), List.forall_mem_nil _⟩
  · simp only [Drive.fields, List.forall_mem_cons]
    refine ⟨fun hne => ?_, List.forall_mem_nil _⟩
    have hpresent : d.capacityBytes ≠ 0 := fun h => hne (by rw [h]; rfl)
    have h := lookup_printed hkeys (List.mem_of_getElem? (i := 6) rfl) hpresent
    exact (congrArg (Option.bind · Json.nat) h).trans (nat_capacityMember hcap)

/-! ### All three -/

/-- **The bodies of the host, of a memory module and of a drive are complete and faithful**, for
every record the collectors can produce and, of a drive, every capacity below `2 ^ 63`. Of the host,
the UUID is said when it is marked valid. They are what the driver sends, if there is memory for it.
Kind: C -/
theorem inventory_bodies_faithful (inventory : HostInventory) (m : MemoryModule) (d : Drive)
    (hcap : d.capacityBytes.toNat < 2 ^ 63) :
    (buildSystemPatch inventory true = .ok (systemBody inventory) ∧
        Faithful inventory.fields systemFront (Append.allTexts (systemAppends inventory))
          (systemBody inventory)) ∧
      (buildMemoryPost m true = .ok (memoryBody m) ∧
        Faithful m.fields memoryFront (Append.allTexts (memoryAppends m)) (memoryBody m)) ∧
      buildDrivePost d true = .ok (driveBody d) ∧
        Faithful d.fields driveFront (Append.allTexts (driveAppends d)) (driveBody d) :=
  ⟨⟨rfl, system_faithful inventory⟩, ⟨rfl, memory_faithful m⟩, rfl, drive_faithful hcap⟩

/-- A record of the host with the given octet throughout its UUID, but for the first. Kind: D -/
def systemRecord (octet : UInt8) : SmbiosRecord :=
  .systemInformation {
    strings := [⟨ascii "Intel \"NUC\"", by decide +kernel, by decide +kernel⟩]
    manufacturer := 1, productName := 0, serialNumber := 0
    uuid := fun i => if i.val = 0 then 0 else octet }

/-- A socket with a module of 8 GiB. Kind: D -/
def dimm : SmbiosType17 where
  strings := [⟨ascii "SODIMM0", by decide +kernel, by decide +kernel⟩]
  length := 34
  totalWidth := 64
  dataWidth := 64
  size := 8192
  formFactor := 0x0D
  deviceLocator := 1
  bankLocator := 0
  memoryType := 0x18
  speed := 1600
  manufacturer := 0
  serialNumber := 0
  partNumber := 0
  extendedSize := 0
  configuredMemoryClockSpeed := 1333

theorem inventory_bodies_faithful_collected :
    let host := [systemRecord 7].foldl HostInventory.take HostInventory.zero
    let m := (memoryModule dimm).get (by decide +kernel)
    let d := ((bayDisk efiSuccess).candidate driverQueries).get (by decide +kernel)
    d.capacityBytes.toNat < 2 ^ 63 ∧
      (buildSystemPatch host true = .ok (systemBody host) ∧
        Faithful host.fields systemFront (Append.allTexts (systemAppends host))
          (systemBody host)) ∧
      (buildMemoryPost m true = .ok (memoryBody m) ∧
        Faithful m.fields memoryFront (Append.allTexts (memoryAppends m)) (memoryBody m)) ∧
      buildDrivePost d true = .ok (driveBody d) ∧
        Faithful d.fields driveFront (Append.allTexts (driveAppends d)) (driveBody d) :=
  ⟨by decide +kernel, inventory_bodies_faithful _ _ _ (by decide +kernel)⟩

/-- Two records of the host, the second without a UUID: the first one's stays in the record, no
longer valid, and is not reported.
Kind: C -/
theorem stale_uuid_not_reported :
    let table := [systemRecord 7, systemRecord 0]
    let host := table.foldl HostInventory.take HostInventory.zero
    collectInventory efiSuccess table = .ok host ∧
      host.uuid.text = ascii "07070700-0707-0707-0707-070707070707" ∧
      (Json.decode (systemBody host)).map (fun v => (v.field (ascii "UUID")).isNone) =
        some true := by
  refine ⟨rfl, ?_, ?_⟩ <;> decide +kernel

end NucBios.Redfish
