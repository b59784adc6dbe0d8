import NucBios.Redfish.Body

/-!
# What the host knows about itself: the SMBIOS table

`NucRedfishInventory.c` reads the host's identity, its memory modules and its processors from the
SMBIOS table. A table is a list of records; of each record the fields these collectors read are
kept, and the strings behind its formatted area. A field that names a string holds its number,
counted from one.

What the collectors return are records of fixed-size buffers. The invariants of those records (a
string leaves room for its terminator; a number is small enough for `%d` to print it unsigned) are
fields of their types, so the collectors below are at the same time the proof that they hold.

* `smbiosGetString_eq`: the walk over the strings is indexing.
* `collectLoop_eq`: memory modules and processors are collected by one loop, which keeps the
  populated records in table order and stops at the limit.
-/

namespace NucBios.Redfish

open Lib Uefi

/-! ### Strings -/

/-- A string of a record. The list of strings ends at the first empty one, so none of them is.
Kind: D -/
structure SmbiosString where
  text : List UInt8
  nonempty : text ≠ []
  noNul : NoNul text

/-- The walk, `current` being the number of the string it stands at. Kind: D -/
def stringWalk (index : UInt8) : UInt8 → List SmbiosString → Option SmbiosString
  | _, [] => none
  | current, s :: strings =>
      if current = index then some s else stringWalk index (current + 1) strings

/-- Source: `NucRedfishInventory.c` `SmbiosGetString`
Kind: D -/
def smbiosGetString (strings : List SmbiosString) (index : UInt8) : Option SmbiosString :=
  if index = 0 then none else stringWalk index 1 strings

/-- The counter is a `UINT8`, and does not wrap before it reaches the number asked for. Kind: L -/
theorem counter_succ {current index : UInt8} (hle : current ≤ index) (hne : current ≠ index) :
    current + 1 ≤ index ∧ (index - current).toNat = (index - (current + 1)).toNat + 1 := by
  have hlt : current.toNat < index.toNat := lt_of_le_of_ne hle fun h => hne (UInt8.toNat_inj.mp h)
  have hindex := index.toNat_lt
  have hnext : (current + 1).toNat = current.toNat + 1 := by
    rw [UInt8.toNat_add]
    exact Nat.mod_eq_of_lt (show current.toNat + 1 < 256 by omega)
  have hle' : current + 1 ≤ index := UInt8.le_iff_toNat_le.mpr (by omega)
  refine ⟨hle', ?_⟩
  rw [UInt8.toNat_sub_of_le _ _ hle, UInt8.toNat_sub_of_le _ _ hle', hnext]
  omega

/-- The walk over the strings is indexing. Kind: L -/
theorem stringWalk_eq {index : UInt8} : ∀ (strings : List SmbiosString) {current : UInt8},
    current ≤ index → stringWalk index current strings = strings[(index - current).toNat]?
  | [], _, _ => rfl
  | s :: strings, current, hle => by
      unfold stringWalk
      split_ifs with heq
      · rw [heq, UInt8.sub_self]
        rfl
      · obtain ⟨hle', hsucc⟩ := counter_succ hle heq
        rw [stringWalk_eq strings hle', hsucc, List.getElem?_cons_succ]

lemma one_le_of_ne_zero {index : UInt8} (h : index ≠ 0) : (1 : UInt8) ≤ index := by
  have hne : index.toNat ≠ 0 := fun h0 => h (UInt8.toNat_inj.mp h0)
  exact UInt8.le_iff_toNat_le.mpr (Nat.one_le_iff_ne_zero.mpr hne)

lemma smbiosGetString_eq (strings : List SmbiosString) {index : UInt8} (h : index ≠ 0) :
    smbiosGetString strings index = strings[index.toNat - 1]? := by
  have hpos := one_le_of_ne_zero h
  rw [smbiosGetString, if_neg h, stringWalk_eq strings hpos, UInt8.toNat_sub_of_le _ _ hpos]
  rfl

lemma smbiosGetString_eq_some_iff {strings : List SmbiosString} {index : UInt8} {s : SmbiosString} :
    smbiosGetString strings index = some s ↔
      index ≠ 0 ∧ strings[index.toNat - 1]? = some s := by
  by_cases hzero : index = 0
  · simp [smbiosGetString, hzero]
  · rw [smbiosGetString_eq strings hzero]
    exact (and_iff_right hzero).symm

lemma smbiosGetString_eq_none_iff {strings : List SmbiosString} {index : UInt8} :
    smbiosGetString strings index = none ↔ index = 0 ∨ strings.length < index.toNat := by
  by_cases hzero : index = 0
  · simp [smbiosGetString, hzero]
  · have hone : 1 ≤ index.toNat := UInt8.le_iff_toNat_le.mp (one_le_of_ne_zero hzero)
    rw [smbiosGetString_eq strings hzero, List.getElem?_eq_none_iff, or_iff_right hzero]
    omega

/-- Source: `NucRedfishInventory.c` `CopyInventoryString`
Kind: D -/
def copyInventoryString (source : Option SmbiosString) (destSize : ℕ) (hsize : 0 < destSize) :
    CString destSize where
  text :=
    match source with
    | none => []
    | some s => s.text.take (if destSize ≤ s.text.length then destSize - 1 else s.text.length)
  fits := by
    cases source with
    | none => exact hsize
    | some s =>
        simp only [List.length_take]
        split_ifs <;> omega
  noNul := by
    cases source with
    | none => exact List.forall_mem_nil _
    | some s => exact s.noNul.take _

/-- A field of the record as the collectors copy it. Kind: D -/
def inventoryString (strings : List SmbiosString) (index : UInt8) : CString nucRedfishStrMax :=
  copyInventoryString (smbiosGetString strings index) nucRedfishStrMax nucRedfishStrMax_pos

/-! ### The table -/

/-- `SMBIOS_TABLE_TYPE0` Kind: D -/
structure SmbiosType0 where
  strings : List SmbiosString
  biosVersion : UInt8

/-- `SMBIOS_TABLE_TYPE1` Kind: D -/
structure SmbiosType1 where
  strings : List SmbiosString
  manufacturer : UInt8
  productName : UInt8
  serialNumber : UInt8
  uuid : Fin 16 → UInt8

/-- `SMBIOS_TABLE_TYPE4`. The fields behind `length` hold whatever follows the record.
Kind: D -/
structure SmbiosType4 where
  strings : List SmbiosString
  length : UInt8
  socket : UInt8
  processorType : UInt8
  processorManufacturer : UInt8
  processorId : UInt64
  processorVersion : UInt8
  maxSpeed : UInt16
  currentSpeed : UInt16
  status : UInt8
  serialNumber : UInt8
  partNumber : UInt8
  coreCount : UInt8
  enabledCoreCount : UInt8
  threadCount : UInt8
  coreCount2 : UInt16
  enabledCoreCount2 : UInt16
  threadCount2 : UInt16

/-- `SMBIOS_TABLE_TYPE17`. The fields behind `length` hold whatever follows the record.
Kind: D -/
structure SmbiosType17 where
  strings : List SmbiosString
  length : UInt8
  totalWidth : UInt16
  dataWidth : UInt16
  size : UInt16
  formFactor : UInt8
  deviceLocator : UInt8
  bankLocator : UInt8
  memoryType : UInt8
  speed : UInt16
  manufacturer : UInt8
  serialNumber : UInt8
  partNumber : UInt8
  extendedSize : UInt32
  configuredMemoryClockSpeed : UInt16

inductive SmbiosRecord where
  | biosInformation (t : SmbiosType0)
  | systemInformation (t : SmbiosType1)
  | processorInformation (t : SmbiosType4)
  | memoryDevice (t : SmbiosType17)
  | other

def SmbiosRecord.type4 : SmbiosRecord → Option SmbiosType4
  | .processorInformation t => some t
  | _ => none

def SmbiosRecord.type17 : SmbiosRecord → Option SmbiosType17
  | .memoryDevice t => some t
  | _ => none

/-! ### The host -/

/-- Source: `NucRedfishSyncDxe.h` `NUC_REDFISH_HOST_INVENTORY`
Kind: D -/
structure HostInventory where
  biosVersion : CString nucRedfishStrMax
  manufacturer : CString nucRedfishStrMax
  model : CString nucRedfishStrMax
  serialNumber : CString nucRedfishStrMax
  uuid : CString 37
  uuidValid : Bool

/-- What `ZeroMem` leaves. Kind: D -/
def HostInventory.zero : HostInventory where
  biosVersion := .empty _ nucRedfishStrMax_pos
  manufacturer := .empty _ nucRedfishStrMax_pos
  model := .empty _ nucRedfishStrMax_pos
  serialNumber := .empty _ nucRedfishStrMax_pos
  uuid := .empty _ (by decide)
  uuidValid := false

/-- `%02x` of some of the octets. Kind: D -/
def uuidOctets (uuid : Fin 16 → UInt8) (indices : List (Fin 16)) : List UInt8 :=
  indices.flatMap fun i => hexadecimal .upper 2 (uuid i).toNat

/-- The format of `RenderSmbiosUuid`: the first three fields are little-endian. Kind: D -/
def uuidText (uuid : Fin 16 → UInt8) : List UInt8 :=
  uuidOctets uuid [3, 2, 1, 0] ++ ascii "-" ++ uuidOctets uuid [5, 4] ++ ascii "-" ++
    uuidOctets uuid [7, 6] ++ ascii "-" ++ uuidOctets uuid [8, 9] ++ ascii "-" ++
    uuidOctets uuid [10, 11, 12, 13, 14, 15]

lemma noNul_uuidOctets (uuid : Fin 16 → UInt8) (indices : List (Fin 16)) :
    NoNul (uuidOctets uuid indices) := by
  intro c hc
  obtain ⟨i, -, hc⟩ := List.mem_flatMap.mp hc
  exact noNul_hexadecimal _ _ _ c hc

lemma noNul_uuidText (uuid : Fin 16 → UInt8) : NoNul (uuidText uuid) := by
  have hdash : NoNul (ascii "-") := by
    unfold NoNul
    decide +kernel
  simp only [uuidText, noNul_append, noNul_uuidOctets, hdash, and_self]

/-- The text written, if the field is neither all zeros nor all ones.
Source: `NucRedfishInventory.c` `RenderSmbiosUuid`
Kind: D -/
def renderSmbiosUuid (uuid : Fin 16 → UInt8) : Option (CString 37) :=
  let or := (List.ofFn uuid).foldl (· ||| ·) 0x00
  let and := (List.ofFn uuid).foldl (· &&& ·) 0xFF
  if or = 0x00 ∨ and = 0xFF then none
  else some ⟨asciiSPrint 37 (uuidText uuid), length_asciiSPrint_lt (by decide) _,
    (noNul_uuidText uuid).take _⟩

/-- One record of the table. Kind: D -/
def HostInventory.take (inventory : HostInventory) : SmbiosRecord → HostInventory
  | .biosInformation t =>
      { inventory with biosVersion := inventoryString t.strings t.biosVersion }
  | .systemInformation t =>
      let rendered := renderSmbiosUuid t.uuid
      { inventory with
        manufacturer := inventoryString t.strings t.manufacturer
        model := inventoryString t.strings t.productName
        serialNumber := inventoryString t.strings t.serialNumber
        -- A UUID that is not rendered leaves the buffer as it is.
        uuid := rendered.getD inventory.uuid
        uuidValid := rendered.isSome }
  | _ => inventory

/-- Source: `NucRedfishInventory.c` `NucRedfishCollectInventory`, with what `LocateProtocol`
answers
Kind: D -/
def collectInventory (located : EfiStatus) (table : List SmbiosRecord) :
    Except EfiStatus HostInventory :=
  if efiError located then .error efiNotFound
  else .ok (table.foldl HostInventory.take HostInventory.zero)

/-! ### The loop of the two collectors -/

section Collect

variable {τ β : Type} (ofKind : SmbiosRecord → Option τ) (report : τ → Option β) (max : ℕ)

/-- The loop over the table: records of another kind and records with nothing to report are passed
over, and the first record of the kind behind a full array ends it.
Kind: D -/
def collectLoop : List SmbiosRecord → List β → List β
  | [], found => found
  | record :: table, found =>
      match ofKind record with
      | none => collectLoop table found
      | some t =>
          if max ≤ found.length then found
          else
            match report t with
            | none => collectLoop table found
            | some reported => collectLoop table (found ++ [reported])

/-- The records to report, in table order. Kind: D -/
def reportable (table : List SmbiosRecord) : List β :=
  (table.filterMap ofKind).filterMap report

/-- **The loop finds the first records to report.** Kind: P -/
theorem collectLoop_eq : ∀ (table : List SmbiosRecord) {found : List β}, found.length ≤ max →
    collectLoop ofKind report max table found =
      found ++ (reportable ofKind report table).take (max - found.length)
  | [], found, _ => by simp [collectLoop, reportable]
  | record :: table, found, hle => by
      have ih : ∀ {found : List β}, found.length ≤ max → _ := collectLoop_eq table
      unfold collectLoop reportable
      rcases hkind : ofKind record with _ | t
      · rw [List.filterMap_cons_none hkind]
        exact ih hle
      · rw [List.filterMap_cons_some hkind]
        simp only
        by_cases hfull : max ≤ found.length
        · rw [if_pos hfull, Nat.sub_eq_zero_of_le hfull, List.take_zero, List.append_nil]
        · rw [if_neg hfull]
          rcases hreport : report t with _ | reported
          · rw [List.filterMap_cons_none hreport]
            exact ih hle
          · have hroom : max - found.length = max - (found.length + 1) + 1 := by omega
            have hlen : (found ++ [reported]).length = found.length + 1 := List.length_append
            rw [List.filterMap_cons_some hreport, hroom, List.take_succ_cons]
            simp only
            rw [ih (by omega), hlen, List.append_assoc, List.singleton_append]
            rfl

/-- The collectors' frame around the loop. Kind: D -/
def collectRecords (located : EfiStatus) (table : List SmbiosRecord) : Except EfiStatus (List β) :=
  if max = 0 then .error efiInvalidParameter
  else if efiError located then .error efiNotFound
  else .ok (collectLoop ofKind report max table [])

lemma collectRecords_eq {located : EfiStatus} (hmax : max ≠ 0) (hlocated : efiError located = false)
    (table : List SmbiosRecord) : collectRecords ofKind report max located table =
      .ok ((reportable ofKind report table).take max) := by
  rw [collectRecords, if_neg hmax, hlocated, if_neg Bool.false_ne_true,
    collectLoop_eq _ _ _ _ (Nat.zero_le _)]
  rfl

end Collect

/-! ### Memory modules -/

/-- The values of `MemoryDeviceType` the driver reports. Kind: D -/
inductive MemoryDeviceType where
  | sdram | ddr | ddr2 | ddr3 | ddr4 | lpddr | lpddr2 | lpddr3 | lpddr4

def MemoryDeviceType.text : MemoryDeviceType → List UInt8
  | .sdram => ascii "SDRAM"
  | .ddr => ascii "DDR"
  | .ddr2 => ascii "DDR2"
  | .ddr3 => ascii "DDR3"
  | .ddr4 => ascii "DDR4"
  | .lpddr => ascii "LPDDR_SDRAM"
  | .lpddr2 => ascii "LPDDR2_SDRAM"
  | .lpddr3 => ascii "LPDDR3_SDRAM"
  | .lpddr4 => ascii "LPDDR4_SDRAM"

/-- By the values SMBIOS gives `MemoryType`.
Source: `NucRedfishInventory.c` `RedfishMemoryDeviceType`
Kind: D -/
def redfishMemoryDeviceType (smbiosMemoryType : UInt8) : Option MemoryDeviceType :=
  match smbiosMemoryType with
  | 0x0F => some .sdram
  | 0x12 => some .ddr
  | 0x13 => some .ddr2
  | 0x18 => some .ddr3
  | 0x1A => some .ddr4
  | 0x1B => some .lpddr
  | 0x1C => some .lpddr2
  | 0x1D => some .lpddr3
  | 0x1E => some .lpddr4
  | _ => none

/-- The values of `BaseModuleType` the driver reports. Kind: D -/
inductive BaseModuleType where
  | soDimm | udimm | rdimm | lrdimm

def BaseModuleType.text : BaseModuleType → List UInt8
  | .soDimm => ascii "SO_DIMM"
  | .udimm => ascii "UDIMM"
  | .rdimm => ascii "RDIMM"
  | .lrdimm => ascii "LRDIMM"

/-- By the values SMBIOS gives `FormFactor`.
Source: `NucRedfishInventory.c` `RedfishBaseModuleType`
Kind: D -/
def redfishBaseModuleType (formFactor : UInt8) : Option BaseModuleType :=
  match formFactor with
  | 0x0D => some .soDimm
  | 0x09 => some .udimm
  | 0x0C => some .rdimm
  | 0x0F => some .lrdimm
  | _ => none

/-- Source: `NucRedfishInventory.c` `RedfishMemoryCapacityMiB`
Kind: D -/
def redfishMemoryCapacityMiB (t : SmbiosType17) : UInt32 :=
  if t.size = 0 ∨ t.size = 0xFFFF then 0
  else if t.size = 0x7FFF then
    -- `ExtendedSize` ends at offset 32.
    if t.length.toNat < 28 + 4 then 0 else t.extendedSize &&& 0x7FFFFFFF
  else if t.size &&& 0x8000 ≠ 0 then (t.size &&& 0x7FFF).toUInt32 / 1024
  else t.size.toUInt32

lemma toNat_toUInt32_lt (n : UInt16) : n.toUInt32.toNat < 2 ^ 31 :=
  n.toNat_lt.trans (by decide)

lemma redfishMemoryCapacityMiB_lt (t : SmbiosType17) :
    (redfishMemoryCapacityMiB t).toNat < 2 ^ 31 := by
  unfold redfishMemoryCapacityMiB
  split_ifs
  · decide
  · decide
  · rw [UInt32.toNat_and]
    exact Nat.lt_succ_of_le Nat.and_le_right
  · rw [UInt32.toNat_div]
    exact (Nat.div_le_self _ _).trans_lt (toNat_toUInt32_lt _)
  · exact toNat_toUInt32_lt _

/-- A populated socket, as the collector leaves it: the numbers are below `2 ^ 31`.
Source: `NucRedfishSyncDxe.h` `NUC_REDFISH_MEMORY_MODULE`
Kind: D -/
structure MemoryModule where
  deviceLocator : CString nucRedfishStrMax
  bankLocator : CString nucRedfishStrMax
  manufacturer : CString nucRedfishStrMax
  serialNumber : CString nucRedfishStrMax
  partNumber : CString nucRedfishStrMax
  memoryDeviceType : Option MemoryDeviceType
  baseModuleType : Option BaseModuleType
  capacityMiB : UInt32
  operatingSpeedMhz : UInt32
  ratedSpeedMhz : UInt32
  dataWidthBits : UInt16
  busWidthBits : UInt16
  capacityMiB_lt : capacityMiB.toNat < 2 ^ 31
  operatingSpeedMhz_lt : operatingSpeedMhz.toNat < 2 ^ 31
  ratedSpeedMhz_lt : ratedSpeedMhz.toNat < 2 ^ 31

/-- The speed the module runs at. A record too short for the configured speed, or one that leaves
it open, has the rated one.
Kind: D -/
def operatingSpeed (t : SmbiosType17) : UInt16 :=
  -- `ConfiguredMemoryClockSpeed` ends at offset 34.
  let configured := if 32 + 2 ≤ t.length.toNat then t.configuredMemoryClockSpeed else 0
  if configured = 0 then t.speed else configured

/-- The module in a socket, if there is one. Kind: D -/
def memoryModule (t : SmbiosType17) : Option MemoryModule :=
  if redfishMemoryCapacityMiB t = 0 then none
  else some {
    deviceLocator := inventoryString t.strings t.deviceLocator
    bankLocator := inventoryString t.strings t.bankLocator
    manufacturer := inventoryString t.strings t.manufacturer
    serialNumber := inventoryString t.strings t.serialNumber
    partNumber := inventoryString t.strings t.partNumber
    memoryDeviceType := redfishMemoryDeviceType t.memoryType
    baseModuleType := redfishBaseModuleType t.formFactor
    capacityMiB := redfishMemoryCapacityMiB t
    operatingSpeedMhz := (operatingSpeed t).toUInt32
    ratedSpeedMhz := t.speed.toUInt32
    dataWidthBits := t.dataWidth
    busWidthBits := t.totalWidth
    capacityMiB_lt := redfishMemoryCapacityMiB_lt t
    operatingSpeedMhz_lt := toNat_toUInt32_lt _
    ratedSpeedMhz_lt := toNat_toUInt32_lt _ }

/-- Source: `NucRedfishInventory.c` `NucRedfishCollectMemory`
Kind: D -/
def collectMemory (located : EfiStatus) (table : List SmbiosRecord) (max : ℕ) :
    Except EfiStatus (List MemoryModule) :=
  collectRecords SmbiosRecord.type17 memoryModule max located table

/-! ### Processors -/

/-- The values of `ProcessorType` the driver reports. Kind: D -/
inductive ProcessorType where
  | cpu | dsp | gpu

def ProcessorType.text : ProcessorType → List UInt8
  | .cpu => ascii "CPU"
  | .dsp => ascii "DSP"
  | .gpu => ascii "GPU"

/-- By the values SMBIOS gives `ProcessorType`.
Source: `NucRedfishInventory.c` `RedfishProcessorType`
Kind: D -/
def redfishProcessorType (smbiosProcessorType : UInt8) : Option ProcessorType :=
  match smbiosProcessorType with
  | 0x03 => some .cpu
  | 0x05 => some .dsp
  | 0x06 => some .gpu
  | _ => none

/-- Source: `NucRedfishInventory.c` `ProcessorCount`
Kind: D -/
def processorCount (narrow : UInt8) (wide : UInt16) (wideValid : Bool) : UInt16 :=
  if narrow = 0xFF ∧ wideValid then wide else narrow.toUInt16

/-- A populated socket, as the collector leaves it: the numbers are below `2 ^ 31`, and the
identification registers are plain text.
Source: `NucRedfishSyncDxe.h` `NUC_REDFISH_PROCESSOR`
Kind: D -/
structure Processor where
  socket : CString nucRedfishStrMax
  manufacturer : CString nucRedfishStrMax
  model : CString nucRedfishStrMax
  serialNumber : CString nucRedfishStrMax
  partNumber : CString nucRedfishStrMax
  idRegisters : CString 19
  processorType : Option ProcessorType
  maxSpeedMhz : UInt32
  operatingSpeedMhz : UInt32
  totalCores : UInt32
  totalEnabledCores : UInt32
  totalThreads : UInt32
  enabled : Bool
  plain_idRegisters : ∀ c ∈ idRegisters.text, Json.Plain c
  maxSpeedMhz_lt : maxSpeedMhz.toNat < 2 ^ 31
  operatingSpeedMhz_lt : operatingSpeedMhz.toNat < 2 ^ 31
  totalCores_lt : totalCores.toNat < 2 ^ 31
  totalEnabledCores_lt : totalEnabledCores.toNat < 2 ^ 31
  totalThreads_lt : totalThreads.toNat < 2 ^ 31

lemma plain_of_mem_hexadecimal {width n : ℕ} {c : UInt8} (h : c ∈ hexadecimal .upper width n) :
    Json.Plain c := by
  obtain ⟨d, hd, rfl⟩ := mem_hexadecimal h
  exact (by decide : ∀ d < 16, Json.Plain (HexCase.upper.digit d)) d hd

/-- The identification registers, printed unless they are zero. Kind: D -/
def idRegistersText (processorId : UInt64) : List UInt8 :=
  if processorId ≠ 0 then
    asciiSPrint 19 (ascii "0x" ++ hexadecimal .upper 16 processorId.toNat)
  else []

lemma plain_idRegistersText (processorId : UInt64) :
    ∀ c ∈ idRegistersText processorId, Json.Plain c := by
  unfold idRegistersText
  split_ifs
  · intro c hc
    rcases List.mem_append.mp (List.mem_of_mem_take hc) with h | h
    · exact (by decide +kernel : ∀ c ∈ ascii "0x", Json.Plain c) c h
    · exact plain_of_mem_hexadecimal h
  · exact List.forall_mem_nil _

lemma noNul_of_plain {s : List UInt8} (h : ∀ c ∈ s, Json.Plain c) : NoNul s := by
  rintro _ hc rfl
  exact absurd (h 0 hc) (by decide)

lemma length_idRegistersText_lt (processorId : UInt64) :
    (idRegistersText processorId).length < 19 := by
  unfold idRegistersText
  split_ifs
  · exact length_asciiSPrint_lt (by decide) _
  · decide

/-- The processor in a socket, if there is one. Kind: D -/
def processor (t : SmbiosType4) : Option Processor :=
  if t.status &&& 0x40 = 0 then none
  else
    -- `PartNumber`, `ThreadCount` and `ThreadCount2` end at offsets 35, 38 and 48.
    let guarded (index : UInt8) : CString nucRedfishStrMax :=
      if 34 + 1 ≤ t.length.toNat then inventoryString t.strings index
      else .empty _ nucRedfishStrMax_pos
    let hasCounts : Bool := 37 + 1 ≤ t.length.toNat
    let hasWideCounts : Bool := 46 + 2 ≤ t.length.toNat
    let count (narrow : UInt8) (wide : UInt16) :=
      if hasCounts then processorCount narrow wide hasWideCounts else 0
    some {
      socket := inventoryString t.strings t.socket
      manufacturer := inventoryString t.strings t.processorManufacturer
      model := inventoryString t.strings t.processorVersion
      serialNumber := guarded t.serialNumber
      partNumber := guarded t.partNumber
      idRegisters := ⟨idRegistersText t.processorId, length_idRegistersText_lt _,
        noNul_of_plain (plain_idRegistersText _)⟩
      processorType := redfishProcessorType t.processorType
      maxSpeedMhz := t.maxSpeed.toUInt32
      operatingSpeedMhz := t.currentSpeed.toUInt32
      totalCores := (count t.coreCount t.coreCount2).toUInt32
      totalEnabledCores := (count t.enabledCoreCount t.enabledCoreCount2).toUInt32
      totalThreads := (count t.threadCount t.threadCount2).toUInt32
      enabled := t.status &&& 0x07 = 1
      plain_idRegisters := plain_idRegistersText _
      maxSpeedMhz_lt := toNat_toUInt32_lt _
      operatingSpeedMhz_lt := toNat_toUInt32_lt _
      totalCores_lt := toNat_toUInt32_lt _
      totalEnabledCores_lt := toNat_toUInt32_lt _
      totalThreads_lt := toNat_toUInt32_lt _ }

/-- Source: `NucRedfishInventory.c` `NucRedfishCollectProcessors`
Kind: D -/
def collectProcessors (located : EfiStatus) (table : List SmbiosRecord) (max : ℕ) :
    Except EfiStatus (List Processor) :=
  collectRecords SmbiosRecord.type4 processor max located table

end NucBios.Redfish
