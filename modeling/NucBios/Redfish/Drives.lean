import NucBios.Lib.Collect
import NucBios.Redfish.Body

/-!
# The local drives

`NucRedfishCollectDrives` goes over the handles with a `DiskInfo` protocol and fills an array of
records. The record of a candidate is written into the next free slot *before* it is known whether
the candidate is kept: identification may fail half-way, find nothing, or find a drive that is in
the array already. The model keeps the whole array and, of every string buffer, the octets behind
the terminator as well, so that leftovers of a rejected candidate would show.

* `collectDrivesLoop_eq`: the loop, slot by slot, is the loop of `Lib.Collect` over the candidates,
  each identified into a blank record.
* `collectDrives_eq_dedup`: what is returned is the first drives of the list of candidates without
  its later duplicates, and blank slots.
-/

namespace NucBios.Redfish

open Lib Uefi

/-! ### Identify strings -/

section Identify

variable {size : ℕ} (dest : List UInt8) (source : List UInt8) (swapPairs : Bool)

/-- The copying loop. ATA's swap of the octets of each word is undone. Kind: D -/
def identifyCopied (size : ℕ) : List UInt8 :=
  (List.range (min source.length (size - 1))).map fun index =>
    source.getD (if swapPairs then index ^^^ 1 else index) 0

/-- How much remains without the padding behind: spaces, and NULs of a device that pads with them.
Kind: D -/
def trimmedLength (copied : List UInt8) : ℕ := (copied.reverse.dropWhile (· ≤ 0x20)).length

/-- The buffer before the padding in front is removed. Kind: D -/
def identifyTerminated : List UInt8 :=
  let copied := identifyCopied source swapPairs dest.length
  (copied ++ dest.drop copied.length).set (trimmedLength copied) 0

/-- The buffer in the end. `CopyMem` moves the string, with its terminator, over the spaces.
Kind: D -/
def identifyOctets : List UInt8 :=
  let length := trimmedLength (identifyCopied source swapPairs dest.length)
  let dest := identifyTerminated dest source swapPairs
  let start := (dest.takeWhile (· = 0x20)).length
  if 0 < start then (dest.drop start).take (length - start + 1) ++ dest.drop (length - start + 1)
  else dest

lemma trimmedLength_le (copied : List UInt8) : trimmedLength copied ≤ copied.length := by
  have h := (List.dropWhile_suffix (l := copied.reverse) fun c => decide (c ≤ 0x20)).length_le
  rwa [List.length_reverse] at h

lemma length_identifyCopied_lt (h : 0 < size) :
    (identifyCopied source swapPairs size).length < size := by
  rw [identifyCopied, List.length_map, List.length_range]
  omega

variable {dest}

lemma length_identifyTerminated (h : 0 < dest.length) :
    (identifyTerminated dest source swapPairs).length = dest.length := by
  have hlt := length_identifyCopied_lt source swapPairs h
  rw [identifyTerminated, List.length_set, List.length_append, List.length_drop]
  omega

/-- The terminator stands behind what remains. Kind: L -/
theorem getElem?_identifyTerminated (h : 0 < dest.length) :
    (identifyTerminated dest source swapPairs)[trimmedLength
      (identifyCopied source swapPairs dest.length)]? = some 0 := by
  have hlt := length_identifyCopied_lt source swapPairs h
  have hle := trimmedLength_le (identifyCopied source swapPairs dest.length)
  rw [identifyTerminated, List.getElem?_set_self]
  rw [List.length_append, List.length_drop]
  omega

/-- The terminator is not a space, so the search for the first character stops there at the latest.
Kind: L -/
theorem start_le {s : List UInt8} {n : ℕ} (h : s[n]? = some 0) :
    (s.takeWhile (· = 0x20)).length ≤ n := by
  by_contra hlt
  obtain ⟨rest, hrest⟩ := List.takeWhile_prefix (l := s) fun c => decide (c = 0x20)
  rw [← hrest, List.getElem?_append_left (Nat.lt_of_not_le hlt)] at h
  have hspace := List.all_eq_true.mp List.all_takeWhile 0 (List.mem_of_getElem? h)
  exact absurd (of_decide_eq_true hspace) (by decide)

lemma length_identifyOctets (h : 0 < dest.length) :
    (identifyOctets dest source swapPairs).length = dest.length := by
  have hlen := length_identifyTerminated source swapPairs h
  have hstart := start_le (getElem?_identifyTerminated source swapPairs h)
  have htrim := trimmedLength_le (identifyCopied source swapPairs dest.length)
  have hcopied := length_identifyCopied_lt source swapPairs h
  unfold identifyOctets
  simp only
  split_ifs
  · rw [List.length_append, List.length_take, List.length_drop, List.length_drop, hlen]
    omega
  · exact hlen

/-- The string moved to the front keeps its terminator. Kind: L -/
theorem zero_mem_moved {s : List UInt8} {start n : ℕ} (h : s[n]? = some 0) (hle : start ≤ n) :
    0 ∈ (s.drop start).take (n - start + 1) := by
  refine List.mem_of_getElem? (i := n - start) ?_
  rw [List.getElem?_take_of_lt (Nat.lt_succ_self _), List.getElem?_drop, Nat.add_sub_cancel' hle]
  exact h

lemma zero_mem_identifyOctets (h : 0 < dest.length) :
    0 ∈ identifyOctets dest source swapPairs := by
  have hget := getElem?_identifyTerminated source swapPairs h
  unfold identifyOctets
  simp only
  split_ifs
  · exact List.mem_append_left _ (zero_mem_moved hget (start_le hget))
  · exact List.mem_of_getElem? hget

/-- Source: `NucRedfishInventory.c` `CopyIdentifyString`
Kind: D -/
def copyIdentifyString (dest : CharArray size) (source : List UInt8) (swapPairs : Bool) :
    CharArray size where
  octets := identifyOctets dest.octets source swapPairs
  length_octets :=
    (length_identifyOctets _ _ (List.length_pos_of_mem dest.terminated)).trans dest.length_octets
  terminated := zero_mem_identifyOctets _ _ (List.length_pos_of_mem dest.terminated)

end Identify

/-- ATA's model name, its octets swapped by word and padded on both sides. Kind: L -/
example : (copyIdentifyString (CharArray.zero 12 (by decide)) (ascii "D si1k  ") true).text =
    ascii "Disk1" := by
  decide +kernel

/-! ### Drives -/

inductive DriveProtocol where
  | nvme | sata
  deriving DecidableEq

def DriveProtocol.text : DriveProtocol → List UInt8
  | .nvme => ascii "NVMe"
  | .sata => ascii "SATA"

inductive MediaType where
  | ssd | hdd
  deriving DecidableEq

def MediaType.text : MediaType → List UInt8
  | .ssd => ascii "SSD"
  | .hdd => ascii "HDD"

/-- Source: `NucRedfishSyncDxe.h` `NUC_REDFISH_DRIVE`
Kind: D -/
structure Drive where
  model : CharArray nucRedfishStrMax
  serialNumber : CharArray nucRedfishStrMax
  revision : CharArray nucRedfishStrMax
  protocol : Option DriveProtocol
  mediaType : Option MediaType
  capacityBytes : UInt64
  deriving DecidableEq

/-- What `ZeroMem` leaves. Kind: D -/
def Drive.zero : Drive where
  model := .zero _ nucRedfishStrMax_pos
  serialNumber := .zero _ nucRedfishStrMax_pos
  revision := .zero _ nucRedfishStrMax_pos
  protocol := none
  mediaType := none
  capacityBytes := 0

/-- The comparison of the loop. Kind: D -/
def Drive.same (drive existing : Drive) : Bool :=
  existing.serialNumber.text = drive.serialNumber.text ∧ existing.model.text = drive.model.text

/-- An NVMe handle: what the services on the way to its controller answer, and the fields of the
controller's identify data.
Kind: D -/
structure NvmeController where
  devicePath : EfiStatus
  locateDevicePath : EfiStatus
  passThruProtocol : EfiStatus
  passThru : EfiStatus
  mn : Vector UInt8 40
  sn : Vector UInt8 20
  fr : Vector UInt8 8

/-- Source: `NucRedfishInventory.c` `CollectNvmeDrive`
Kind: D -/
def collectNvmeDrive (c : NvmeController) (drive : Drive) : EfiStatus × Drive :=
  if efiError c.devicePath then (c.devicePath, drive)
  else if efiError c.locateDevicePath then (c.locateDevicePath, drive)
  else if efiError c.passThruProtocol then (c.passThruProtocol, drive)
  else if efiError c.passThru then (c.passThru, drive)
  else (efiSuccess, { drive with
    model := copyIdentifyString drive.model c.mn.toList false
    serialNumber := copyIdentifyString drive.serialNumber c.sn.toList false
    revision := copyIdentifyString drive.revision c.fr.toList false
    protocol := some .nvme
    mediaType := some .ssd })

/-- An AHCI or IDE handle: what `Identify` answers. Kind: D -/
structure AtaDevice where
  identify : EfiStatus
  modelName : Vector UInt8 40
  serialNo : Vector UInt8 20
  firmwareVer : Vector UInt8 8
  nominalMediaRotationRate : UInt16

/-- Source: `NucRedfishInventory.c` `CollectAtaDrive`
Kind: D -/
def collectAtaDrive (d : AtaDevice) (drive : Drive) : EfiStatus × Drive :=
  if efiError d.identify then (d.identify, drive)
  else (efiSuccess, { drive with
    model := copyIdentifyString drive.model d.modelName.toList true
    serialNumber := copyIdentifyString drive.serialNumber d.serialNo.toList true
    revision := copyIdentifyString drive.revision d.firmwareVer.toList true
    protocol := some .sata
    mediaType :=
      if d.nominalMediaRotationRate = 1 then some .ssd
      else if 0x0401 ≤ d.nominalMediaRotationRate ∧ d.nominalMediaRotationRate ≤ 0xFFFE then
        some .hdd
      else drive.mediaType })

/-- The interface a `DiskInfo` names, with the device behind it. Kind: D -/
inductive DiskInterface where
  | nvme (c : NvmeController)
  | ahci (d : AtaDevice)
  | ide (d : AtaDevice)
  | other

structure BlockMedia where
  mediaPresent : Bool
  lastBlock : UInt64
  blockSize : UInt32

/-- A handle with a `DiskInfo` protocol. Kind: D -/
structure DiskHandle where
  /-- What `HandleProtocol` answers for `DiskInfo`. -/
  diskInfo : EfiStatus
  interface : DiskInterface
  /-- What `HandleProtocol` answers for `BlockIo`. -/
  blockIo : EfiStatus
  media : Option BlockMedia

/-- The two ways of asking a device who it is. The loop is stated for any: each may fail, and may
leave anything in the record it was given when it does.
Kind: D -/
structure DriveQueries where
  nvme : NvmeController → Drive → EfiStatus × Drive
  ata : AtaDevice → Drive → EfiStatus × Drive

/-- The driver's own. Kind: D -/
def driverQueries : DriveQueries := ⟨collectNvmeDrive, collectAtaDrive⟩

/-- How a device of an interface is asked. USB mass storage and all else is not. Kind: D -/
def DiskInterface.query (queries : DriveQueries) :
    DiskInterface → Option (Drive → EfiStatus × Drive)
  | .nvme c => some (queries.nvme c)
  | .ahci d => some (queries.ata d)
  | .ide d => some (queries.ata d)
  | .other => none

/-- The capacity, if the handle has media to ask. `MultU64x32` wraps. Kind: D -/
def DiskHandle.withCapacity (h : DiskHandle) (drive : Drive) : Drive :=
  if efiError h.blockIo then drive
  else
    match h.media with
    | none => drive
    | some m =>
        if m.mediaPresent then
          { drive with capacityBytes := (m.lastBlock + 1) * m.blockSize.toUInt64 }
        else drive

/-- Nothing was identified: the query failed, or found neither a model nor a serial number.
Kind: D -/
def Rejected (answer : EfiStatus × Drive) : Prop :=
  efiError answer.1 = true ∨ answer.2.model.text = [] ∧ answer.2.serialNumber.text = []

instance : DecidablePred Rejected := fun _ => inferInstanceAs (Decidable (_ ∨ _ ∧ _))

section Loop

variable (queries : DriveQueries) (max : ℕ)

/-- The loop over the handles, with the whole array and the count. The slot of the candidate is
written first and wiped when the candidate is not kept.
Kind: D -/
def collectDrivesLoop : List DiskHandle → List Drive → ℕ → List Drive × ℕ
  | [], drives, count => (drives, count)
  | h :: handles, drives, count =>
      if max ≤ count then (drives, count)
      else if efiError h.diskInfo then collectDrivesLoop handles drives count
      else
        match h.interface.query queries with
        | none => collectDrivesLoop handles drives count
        | some query =>
            let answer := query (drives.getD count Drive.zero)
            let drives := drives.set count answer.2
            if Rejected answer then collectDrivesLoop handles (drives.set count Drive.zero) count
            else if (drives.take count).any answer.2.same then
              collectDrivesLoop handles (drives.set count Drive.zero) count
            else
              collectDrivesLoop handles (drives.set count (h.withCapacity answer.2)) (count + 1)

/-- The array and the count the caller is left with, `located` being what `LocateHandleBuffer`
answers. Without handles there are no drives, which is not an error.
Source: `NucRedfishInventory.c` `NucRedfishCollectDrives`
Kind: D -/
def collectDrives (located : Except EfiStatus (List DiskHandle)) :
    Except EfiStatus (List Drive × ℕ) :=
  if max = 0 then .error efiInvalidParameter
  else
    match located with
    | .error _ => .ok (List.replicate max Drive.zero, 0)
    | .ok handles => .ok (collectDrivesLoop queries max handles (List.replicate max Drive.zero) 0)

/-! ### What is collected -/

/-- The drive behind a handle: identified into a blank record, from this handle alone. Kind: D -/
def DiskHandle.candidate (h : DiskHandle) : Option Drive :=
  if efiError h.diskInfo then none
  else
    (h.interface.query queries).bind fun query =>
      let answer := query Drive.zero
      if Rejected answer then none else some (h.withCapacity answer.2)

lemma withCapacity_spec (h : DiskHandle) (drive : Drive) :
    (h.withCapacity drive).model = drive.model ∧
      (h.withCapacity drive).serialNumber = drive.serialNumber := by
  unfold DiskHandle.withCapacity
  repeat' split
  all_goals exact ⟨rfl, rfl⟩

/-- The capacity is no part of the comparison. Kind: L -/
theorem same_withCapacity (h : DiskHandle) (drive : Drive) :
    (h.withCapacity drive).same = drive.same := by
  funext existing
  rw [Drive.same, (withCapacity_spec h drive).1, (withCapacity_spec h drive).2]
  rfl

/-- **The loop, slot by slot.** However often the slot was written and wiped, what is behind the
drives found is blank, so every candidate is identified into a blank record.
Kind: P -/
theorem collectDrivesLoop_eq : ∀ (handles : List DiskHandle) (found : List Drive),
    collectDrivesLoop queries max handles (pad Drive.zero max found) found.length =
      let kept := gatherDistinct Drive.same max
        (handles.filterMap (DiskHandle.candidate queries)) found
      (pad Drive.zero max kept, kept.length)
  | [], found => rfl
  | h :: handles, found => by
      have ih := collectDrivesLoop_eq handles
      unfold collectDrivesLoop
      by_cases hfull : max ≤ found.length
      · rw [if_pos hfull, gatherDistinct_of_full _ _ hfull]
      have hlt : found.length < max := Nat.lt_of_not_le hfull
      rw [if_neg hfull]
      by_cases hinfo : efiError h.diskInfo = true
      · have hcand : h.candidate queries = none := if_pos hinfo
        rw [if_pos hinfo, List.filterMap_cons_none hcand]
        exact ih found
      have hcand : h.candidate queries = _ := if_neg hinfo
      rw [if_neg hinfo]
      rcases hquery : h.interface.query queries with _ | query
      · rw [hquery, Option.bind_none] at hcand
        rw [List.filterMap_cons_none hcand]
        exact ih found
      rw [hquery, Option.bind_some] at hcand
      -- The slot is blank, the other slots are not touched, and wiping it restores the array.
      simp only [getD_pad hlt, List.set_set, set_pad_blank hlt, List.take_set_of_le (Nat.le_refl _),
        take_pad]
      by_cases hrejected : Rejected (query Drive.zero)
      · rw [if_pos hrejected] at hcand ⊢
        rw [List.filterMap_cons_none hcand]
        exact ih found
      rw [if_neg hrejected] at hcand ⊢
      rw [List.filterMap_cons_some hcand, gatherDistinct, if_neg hfull, same_withCapacity]
      split_ifs
      · exact ih found
      · rw [set_pad hlt, ← List.length_concat, List.concat_eq_append]
        exact ih _

/-- What the loop keeps. Kind: D -/
def drivesFound (handles : List DiskHandle) : List Drive :=
  gatherDistinct Drive.same max (handles.filterMap (DiskHandle.candidate queries)) []

lemma collectDrives_of_located (handles : List DiskHandle) (hmax : 1 ≤ max) :
    collectDrives queries max (.ok handles) =
      .ok (pad Drive.zero max (drivesFound queries max handles),
        (drivesFound queries max handles).length) := by
  rw [collectDrives, if_neg (by omega)]
  exact congrArg Except.ok (collectDrivesLoop_eq queries max handles [])

/-- **The drives reported are the distinct ones, in the order of the handles.** From any list of
handles, whatever the queries answer and leave behind: the candidates, each identified into a blank
record from its own handle, without those that agree with an earlier one in serial number and model,
as far as there is room; behind them, blank slots.
Kind: C -/
theorem collectDrives_eq_dedup (handles : List DiskHandle) (hmax : 1 ≤ max) :
    let found :=
      ((handles.filterMap (DiskHandle.candidate queries)).eraseDupsBy Drive.same).take max
    collectDrives queries max (.ok handles) = .ok (pad Drive.zero max found, found.length) := by
  have h := collectDrives_of_located queries max handles hmax
  rwa [drivesFound, gatherDistinct_eq] at h

end Loop

/-- A field of `width` octets, padded with spaces. Kind: D -/
def identifyField (width : ℕ) (s : String) : Vector UInt8 width :=
  Vector.ofFn fun i => (ascii s).getD i 0x20

/-- A stick on USB. Kind: D -/
def stick : DiskHandle := ⟨efiSuccess, .other, efiSuccess, some ⟨true, 99, 512⟩⟩

/-- A namespace of the NVMe controller. Kind: D -/
def nvmeNamespace (lastBlock : UInt64) : DiskHandle where
  diskInfo := efiSuccess
  interface := .nvme {
    devicePath := efiSuccess, locateDevicePath := efiSuccess, passThruProtocol := efiSuccess
    passThru := efiSuccess, mn := identifyField 40 "SSD 600p", sn := identifyField 20 "BTPY1"
    fr := identifyField 8 "PSF1" }
  blockIo := efiSuccess
  media := some ⟨true, lastBlock, 512⟩

/-- The disk in the bay, which answers or not. Kind: D -/
def bayDisk (identify : EfiStatus) : DiskHandle where
  diskInfo := efiSuccess
  interface := .ahci {
    identify, modelName := identifyField 40 "TS0100ML03", serialNo := identifyField 20 "21ZD"
    firmwareVer := identifyField 8 "DS0M", nominalMediaRotationRate := 5400 }
  blockIo := efiSuccess
  media := some ⟨true, 1953525167, 512⟩

/-- Queries that leave the model in the record when they fail. Kind: D -/
def leavingQueries : DriveQueries where
  nvme := collectNvmeDrive
  ata d drive :=
    let (status, filled) := collectAtaDrive { d with identify := efiSuccess } drive
    if efiError d.identify then (d.identify, { drive with model := filled.model })
    else (status, filled)

theorem collectDrives_eq_dedup_mixed :
    let handles := [stick, bayDisk efiDeviceError, nvmeNamespace 9, nvmeNamespace 19,
      bayDisk efiSuccess]
    let found :=
      ((handles.filterMap (DiskHandle.candidate leavingQueries)).eraseDupsBy Drive.same).take 3
    found.map (fun d => (d.model.text, d.serialNumber.text, d.capacityBytes)) =
        [(ascii "SSD 600p", ascii "BTPY1", 5120),
          (ascii "ST1000LM30", ascii "12DZ", 1000204886016)] ∧
      collectDrives leavingQueries 3 (.ok handles) = .ok (pad Drive.zero 3 found, 2) :=
  ⟨by decide +kernel, collectDrives_eq_dedup leavingQueries 3 _ (by decide)⟩

end NucBios.Redfish
