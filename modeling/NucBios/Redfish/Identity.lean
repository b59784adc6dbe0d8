import NucBios.Redfish.ProcessorBody

/-!
# Under which keys the devices are reported

`ReportMemory`, `ReportProcessors` and `ReportDrives` POST one body per device. The BMC keeps a
member per key, so two bodies with one key are one member in the end; its keys are `DeviceLocator`,
`Socket` and `SerialNumber`. The collectors filter by other things: memory and processors not at
all, drives by serial number *and* model.

* `reportLoop_eq`: what is POSTed, of what was collected.
* `posted_keys_eq`: the keys of the bodies, followed back to the table and the handles. They are
  distinct and non-empty as far as the strings found there are; what the collectors add is that two
  drives differ in serial number or model.
* `posted_keys_collide`: two modules without a locator, and two drives with one serial number.
-/

namespace NucBios.Redfish

open Lib Uefi

/-! ### The reports -/

def nucRedfishMemoryMax : ℕ := 8

def nucRedfishProcessorMax : ℕ := 4

def nucRedfishDriveMax : ℕ := 8

/-- The loop the three reports share: a body per record, POSTed if it could be allocated. The answer
to a POST is logged and not looked at.
Kind: D -/
def reportLoop {α : Type} (build : α → Bool → Except EfiStatus (List UInt8))
    (allocated : ℕ → Bool) : ℕ → List α → List (List UInt8)
  | _, [] => []
  | index, a :: as =>
      match build a (allocated index) with
      | .error _ => reportLoop build allocated (index + 1) as
      | .ok body => body :: reportLoop build allocated (index + 1) as

/-- The bodies POSTed, `allocated` saying for which there is memory. Kind: D -/
def reportFound {α : Type} (build : α → Bool → Except EfiStatus (List UInt8))
    (allocated : ℕ → Bool) : Except EfiStatus (List α) → List (List UInt8)
  | .error _ => []
  | .ok found => reportLoop build allocated 0 found

/-- Source: `NucRedfishSyncDxe.c` `ReportMemory`
Kind: D -/
def reportMemory (located : EfiStatus) (table : List SmbiosRecord) (allocated : ℕ → Bool) :
    List (List UInt8) :=
  reportFound buildMemoryPost allocated (collectMemory located table nucRedfishMemoryMax)

/-- Source: `NucRedfishSyncDxe.c` `ReportProcessors`
Kind: D -/
def reportProcessors (located : EfiStatus) (table : List SmbiosRecord) (allocated : ℕ → Bool) :
    List (List UInt8) :=
  reportFound buildProcessorPost allocated
    (collectProcessors located table nucRedfishProcessorMax)

/-- Source: `NucRedfishSyncDxe.c` `ReportDrives`
Kind: D -/
def reportDrives (located : Except EfiStatus (List DiskHandle)) (allocated : ℕ → Bool) :
    List (List UInt8) :=
  reportFound buildDrivePost allocated
    ((collectDrives driverQueries nucRedfishDriveMax located).map fun found =>
      found.1.take found.2)

/-- Of a list, what has memory for its body. Kind: D -/
def posted {α : Type} (allocated : ℕ → Bool) (index : ℕ) (as : List α) : List α :=
  ((as.zipIdx index).filter fun x => allocated x.2).map Prod.fst

lemma map_posted {α β : Type} (f : α → β) (allocated : ℕ → Bool) :
    ∀ (index : ℕ) (as : List α),
      (posted allocated index as).map f = posted allocated index (as.map f)
  | _, [] => rfl
  | index, a :: as => by
      have ih := map_posted f allocated (index + 1) as
      unfold posted at ih ⊢
      rw [List.map_cons, List.zipIdx_cons, List.zipIdx_cons, List.filter_cons, List.filter_cons]
      split_ifs
      · rw [List.map_cons, List.map_cons, List.map_cons, ih]
      · exact ih

/-- The loop POSTs the bodies there is memory for. Kind: P -/
theorem reportLoop_eq {α : Type} {build : α → Bool → Except EfiStatus (List UInt8)}
    {body : α → List UInt8} (hbuild : ∀ a allocated, build a allocated =
      if allocated then .ok (body a) else .error efiOutOfResources) (allocated : ℕ → Bool) :
    ∀ (index : ℕ) (as : List α),
      reportLoop build allocated index as = posted allocated index (as.map body)
  | _, [] => rfl
  | index, a :: as => by
      have ih := reportLoop_eq hbuild allocated (index + 1) as
      unfold posted at ih ⊢
      rw [reportLoop, hbuild, List.map_cons, List.zipIdx_cons, List.filter_cons]
      split_ifs
      · simp only
        rw [ih, List.map_cons]
      · exact ih

/-! ### The keys -/

/-- The key the BMC finds in a body. Kind: D -/
def postedKey (name body : List UInt8) : Option (List UInt8) :=
  match (Json.decode body).bind (Json.field name) with
  | some (.str s) => some s
  | _ => none

/-- The key a string of a record makes: none if it is empty. Kind: D -/
def shownKey (s : List UInt8) : Option (List UInt8) := if s = [] then none else some (s.map blank)

section Keys

variable {first : Json.Member} {firsts : List Json.Member} {appends : List Append}
  (hkeys : ((first :: firsts).map Json.Member.key ++ appends.map Append.key).Nodup)
  {name value : List UInt8} {hname : ∀ c ∈ name, Json.Plain c}
  {hvalue : value.length < nucRedfishStrMax} {bound : ℕ}
  {hbound : name.length + (value.flatMap escapeOctet).length + 6 ≤ bound}
  (ha : Append.string name hname value hvalue bound hbound ∈ appends)

include hkeys ha

lemma lookup_shownKey :
    Json.lookup name ((first :: (firsts ++ Append.allMembers appends)).map Json.Member.pair) =
      (shownKey value).map Json.str := by
  rw [Append.lookup_string_eq hkeys ha, shownKey]
  split_ifs <;> rfl

lemma postedKey_eq {body : List UInt8} (hdecode : Json.decode body =
      some (.obj ((first :: (firsts ++ Append.allMembers appends)).map Json.Member.pair))) :
    postedKey name body = shownKey value := by
  rw [postedKey, hdecode, Option.bind_some, Json.field, lookup_shownKey hkeys ha]
  rcases shownKey value with _ | _ <;> rfl

end Keys

lemma postedKey_memoryBody (m : MemoryModule) :
    postedKey (ascii "DeviceLocator") (memoryBody m) = shownKey m.deviceLocator.text :=
  postedKey_eq (nodup_memoryKeys m) (List.mem_of_getElem? (i := 0) rfl)
    (decode_of_bound memoryFront_eq (memory_fits m) (memoryBody_eq m))

lemma postedKey_driveBody (d : Drive) :
    postedKey (ascii "SerialNumber") (driveBody d) = shownKey d.serialNumber.text :=
  postedKey_eq (nodup_driveKeys d) (List.mem_of_getElem? (i := 2) rfl)
    (decode_of_bound driveFront_eq (drive_fits d) (driveBody_eq d))

/-- Of a processor, the socket is in the body if the body is JSON. Kind: L -/
theorem postedKey_processorBody (p : Processor) :
    postedKey (ascii "Socket") (processorBody p) =
      if (Json.decode (processorBody p)).isSome then shownKey p.socket.text else none := by
  rcases hdecode : Json.decode (processorBody p) with _ | v
  · rw [postedKey, hdecode]
    rfl
  · obtain ⟨kept, hsub, hbody⟩ := exists_kept p
    have hdecode' := hdecode
    rw [hbody] at hdecode'
    obtain ⟨-, rfl⟩ := of_decode_closed hdecode'
    -- None of the members that can be dropped is called `Socket`.
    have hnumbers : (processorNumbers p).map Append.key =
        [ascii "MaxSpeedMHz", ascii "OperatingSpeedMHz", ascii "TotalCores",
          ascii "TotalEnabledCores", ascii "TotalThreads", ascii "ProcessorId"] := rfl
    have hnot : ascii "Socket" ∉ (kept.map Json.Member.pair).map Prod.fst := by
      rw [Append.map_fst_pair]
      intro hmem
      have hmem' := (Append.keys_allMembers _).subset ((hsub.map _).subset hmem)
      rw [hnumbers] at hmem'
      exact absurd hmem' (by decide +kernel)
    have hkeys := nodup_processorKeys p
    rw [List.map_append, ← List.append_assoc] at hkeys
    have hsocket := lookup_shownKey hkeys.of_append_left (List.mem_of_getElem? (i := 1) rfl)
    rw [postedKey, hdecode, Option.bind_some, Json.field, ← List.cons_append, List.map_append,
      Json.lookup_append, Json.lookup_eq_none hnot, Option.none_or, processorKept, hsocket,
      Option.isSome_some, if_pos rfl]
    rcases shownKey p.socket.text with _ | _ <;> rfl

/-! ### Back to the table and the handles -/

/-- The table the collectors see. Kind: D -/
def seenTable (located : EfiStatus) (table : List SmbiosRecord) : List SmbiosRecord :=
  if efiError located then [] else table

/-- The memory sockets that are populated. Kind: D -/
def populatedMemory (table : List SmbiosRecord) : List SmbiosType17 :=
  (table.filterMap SmbiosRecord.type17).filter fun t => redfishMemoryCapacityMiB t ≠ 0

/-- The processor sockets that are populated. Kind: D -/
def populatedSockets (table : List SmbiosRecord) : List SmbiosType4 :=
  (table.filterMap SmbiosRecord.type4).filter fun t => t.status &&& 0x40 ≠ 0

/-- The key of a memory record. Kind: D -/
def locatorKey (t : SmbiosType17) : Option (List UInt8) :=
  shownKey (inventoryString t.strings t.deviceLocator).text

/-- The key of a processor record: none also if its body has lost its brace. Kind: D -/
def socketKey (t : SmbiosType4) : Option (List UInt8) :=
  (processor t).bind fun p =>
    if (Json.decode (processorBody p)).isSome then
      shownKey (inventoryString t.strings t.socket).text
    else none

/-- The key of a drive. Kind: D -/
def serialKey (d : Drive) : Option (List UInt8) := shownKey d.serialNumber.text

lemma map_filterMap_eq_map_filter {α β γ : Type} {report : α → Option β} {p : α → Bool}
    {f : β → γ} {g : α → γ} (hnone : ∀ a, p a = false → report a = none)
    (hsome : ∀ a, p a = true → ∃ b, report a = some b ∧ f b = g a) (as : List α) :
    (as.filterMap report).map f = (as.filter p).map g := by
  induction as with
  | nil => rfl
  | cons a as ih =>
      rcases hp : p a with _ | _
      · rw [List.filterMap_cons_none (hnone a hp), List.filter_cons_of_neg (by simp [hp]), ih]
      · obtain ⟨b, hb, heq⟩ := hsome a hp
        rw [List.filterMap_cons_some hb, List.filter_cons_of_pos hp, List.map_cons, List.map_cons,
          heq, ih]

/-- Memory: the locators of the populated sockets. Kind: L -/
theorem keys_reportable_memory (table : List SmbiosRecord) :
    (reportable SmbiosRecord.type17 memoryModule table).map
        (fun m => postedKey (ascii "DeviceLocator") (memoryBody m)) =
      (populatedMemory table).map locatorKey := by
  refine map_filterMap_eq_map_filter (fun t ht => ?_) (fun t ht => ?_) _
  · exact if_pos (not_not.mp (of_decide_eq_false ht))
  · exact ⟨_, if_neg (of_decide_eq_true ht), postedKey_memoryBody _⟩

/-- Processors: the designations of the populated sockets. Kind: L -/
theorem keys_reportable_sockets (table : List SmbiosRecord) :
    (reportable SmbiosRecord.type4 processor table).map
        (fun p => postedKey (ascii "Socket") (processorBody p)) =
      (populatedSockets table).map socketKey := by
  refine map_filterMap_eq_map_filter (fun t ht => ?_) (fun t ht => ?_) _
  · exact if_pos (not_not.mp (of_decide_eq_false ht))
  · have hsome : processor t = some _ := if_neg (of_decide_eq_true ht)
    refine ⟨_, hsome, ?_⟩
    rw [postedKey_processorBody, socketKey, hsome]
    rfl

/-- From the records collected to the keys POSTed. Kind: L -/
theorem keys_reported {τ β : Type} {ofKind : SmbiosRecord → Option τ} {report : τ → Option β}
    {build : β → Bool → Except EfiStatus (List UInt8)} {body : β → List UInt8}
    (hbuild : ∀ b allocated, build b allocated =
      if allocated then .ok (body b) else .error efiOutOfResources)
    {max : ℕ} (hmax : max ≠ 0) (located : EfiStatus) (table : List SmbiosRecord)
    (allocated : ℕ → Bool) (name : List UInt8) :
    (reportFound build allocated (collectRecords ofKind report max located table)).map
        (postedKey name) =
      posted allocated 0 (((reportable ofKind report (seenTable located table)).map
        fun b => postedKey name (body b)).take max) := by
  unfold seenTable
  rcases hlocated : efiError located with _ | _
  · rw [collectRecords_eq _ _ _ hmax hlocated]
    simp only [reportFound, reportLoop_eq hbuild, map_posted, List.map_map, List.map_take]
    rfl
  · rw [collectRecords, if_neg hmax, hlocated, if_pos rfl, if_pos rfl]
    simp [reportFound, reportable, posted]

/-- The handles, if `LocateHandleBuffer` finds any. Kind: D -/
def seenHandles : Except EfiStatus (List DiskHandle) → List DiskHandle
  | .error _ => []
  | .ok handles => handles

/-- The drives that are reported, each once. Kind: D -/
def distinctDrives (located : Except EfiStatus (List DiskHandle)) : List Drive :=
  (((seenHandles located).filterMap (DiskHandle.candidate driverQueries)).eraseDupsBy
    Drive.same).take nucRedfishDriveMax

lemma distinctDrives_eq (located : Except EfiStatus (List DiskHandle)) :
    distinctDrives located = drivesFound driverQueries nucRedfishDriveMax (seenHandles located) :=
  (gatherDistinct_eq _ _ _).symm

lemma reportDrives_eq (located : Except EfiStatus (List DiskHandle)) (allocated : ℕ → Bool) :
    reportDrives located allocated =
      posted allocated 0 ((distinctDrives located).map driveBody) := by
  have hbuild : ∀ d a, buildDrivePost d a =
      if a then .ok (driveBody d) else .error efiOutOfResources := fun _ _ => rfl
  rw [distinctDrives_eq, ← reportLoop_eq hbuild]
  cases located with
  | error status => rfl
  | ok handles =>
      rw [reportDrives, collectDrives_of_located _ _ _ (by decide), seenHandles, Except.map,
        take_pad, reportFound]

/-- A candidate was identified by something. Kind: L -/
theorem named_of_candidate {h : DiskHandle} {d : Drive} (hd : h.candidate driverQueries = some d) :
    d.model.text ≠ [] ∨ d.serialNumber.text ≠ [] := by
  unfold DiskHandle.candidate at hd
  split_ifs at hd
  obtain ⟨query, -, hd⟩ := Option.bind_eq_some_iff.mp hd
  simp only at hd
  split_ifs at hd with hrejected
  cases hd
  obtain ⟨hmodel, hserial⟩ := withCapacity_spec h (query Drive.zero).2
  rw [hmodel, hserial]
  by_contra hboth
  push Not at hboth
  exact hrejected (.inr hboth)

/-- What the filter of the drives comes to. Kind: L -/
theorem distinctDrives_spec (located : Except EfiStatus (List DiskHandle)) :
    (distinctDrives located).Pairwise (fun a b =>
        a.serialNumber.text ≠ b.serialNumber.text ∨ a.model.text ≠ b.model.text) ∧
      ∀ d ∈ distinctDrives located, d.model.text ≠ [] ∨ d.serialNumber.text ≠ [] := by
  rw [distinctDrives_eq]
  refine ⟨?_, fun d hd => ?_⟩
  · refine (pairwise_gatherDistinct _ _ _ List.Pairwise.nil).imp fun {a b} hsame => ?_
    by_contra hboth
    push Not at hboth
    exact of_decide_eq_false hsame hboth
  · rcases mem_gatherDistinct _ _ _ hd with hd | hd
    · cases hd
    · obtain ⟨h, -, hd⟩ := List.mem_filterMap.mp hd
      exact named_of_candidate hd

/-- **The keys of what is POSTed in a boot.** Memory: the locators of the first eight populated
sockets. Processors: the designations of the first four populated sockets, as far as the bodies are
JSON. Drives: the serial numbers of the first eight drives that are pairwise distinct in serial
number and model and have one or the other. A string is cut to 63 characters, its control characters
are spaces, and an empty one makes no key; nothing else keeps the keys apart.
Kind: C -/
theorem posted_keys_eq (smbios : EfiStatus) (table : List SmbiosRecord)
    (disks : Except EfiStatus (List DiskHandle)) (allocated : ℕ → Bool) :
    (reportMemory smbios table allocated).map (postedKey (ascii "DeviceLocator")) =
        posted allocated 0
          (((populatedMemory (seenTable smbios table)).map locatorKey).take nucRedfishMemoryMax) ∧
      (reportProcessors smbios table allocated).map (postedKey (ascii "Socket")) =
        posted allocated 0 (((populatedSockets (seenTable smbios table)).map socketKey).take
          nucRedfishProcessorMax) ∧
      (reportDrives disks allocated).map (postedKey (ascii "SerialNumber")) =
        posted allocated 0 ((distinctDrives disks).map serialKey) ∧
      (distinctDrives disks).Pairwise (fun a b =>
        a.serialNumber.text ≠ b.serialNumber.text ∨ a.model.text ≠ b.model.text) ∧
      ∀ d ∈ distinctDrives disks, d.model.text ≠ [] ∨ d.serialNumber.text ≠ [] := by
  have hmemory : ∀ m a, buildMemoryPost m a =
      if a then .ok (memoryBody m) else .error efiOutOfResources := fun _ _ => rfl
  have hprocessor : ∀ p a, buildProcessorPost p a =
      if a then .ok (processorBody p) else .error efiOutOfResources := fun _ _ => rfl
  refine ⟨?_, ?_, ?_, distinctDrives_spec disks⟩
  · rw [← keys_reportable_memory]
    exact keys_reported hmemory (by decide) smbios table allocated _
  · rw [← keys_reportable_sockets]
    exact keys_reported hprocessor (by decide) smbios table allocated _
  · rw [reportDrives_eq, map_posted, List.map_map]
    exact congrArg (posted allocated 0) (List.map_congr_left fun d _ => postedKey_driveBody d)

/-- A module in a socket whose record names no locator. Kind: D -/
def unnamedDimm : SmbiosType17 := { dimm with deviceLocator := 0 }

/-- A disk of another model with the serial number of the one in the bay. Kind: D -/
def twinDisk : DiskHandle :=
  { bayDisk efiSuccess with
    interface := .ahci {
      identify := efiSuccess, modelName := identifyField 40 "TS0002ML03"
      serialNo := identifyField 20 "21ZD", firmwareVer := identifyField 8 "DS0M"
      nominalMediaRotationRate := 5400 } }

/-- Two modules without a key, and two drives with one.
Kind: C -/
theorem posted_keys_collide :
    (reportMemory efiSuccess [.memoryDevice unnamedDimm, .memoryDevice unnamedDimm]
        fun _ => true).map (postedKey (ascii "DeviceLocator")) = [none, none] ∧
      (reportDrives (.ok [bayDisk efiSuccess, twinDisk]) fun _ => true).map
        (postedKey (ascii "SerialNumber")) = [some (ascii "12DZ"), some (ascii "12DZ")] := by
  refine ⟨?_, ?_⟩ <;> decide +kernel

end NucBios.Redfish
