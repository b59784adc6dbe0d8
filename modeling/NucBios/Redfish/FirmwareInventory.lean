import NucBios.Redfish.Body
import NucBios.Uefi.Fmp

/-!
# The firmware inventory the host reports at every boot

`ReportFirmwareInventory` reads the platform's FMP instance (`collectFirmwareStatus`), renders
what it found as the body of a PATCH (`buildFirmwareInventoryPatch`) and sends it. The BMC merges
a PATCH at the top level only: a key that is sent replaces the old value whole.

The last-attempt record sits two levels deep, under `Oem` and `PiBmc`, and is left out of the body
when there is nothing to report, so that the BMC keeps the one it has. It does not
(`record_kept_iff`): the `Oem` of such a body replaces the one with the record.

The body is text, and the version string goes into it unescaped. `sent_oem` is what survives of
that: whatever the string does to the body, either the body is no JSON, or its last `Oem` member
is the one the driver wrote.
-/

namespace NucBios.Redfish

open Lib Uefi

/-! ### Collecting the status -/

/-- Source: `NucRedfishSyncDxe.h` `NUC_REDFISH_FIRMWARE_STATUS`
Kind: D -/
structure FirmwareStatus where
  name : CString nucRedfishStrMax
  version : CString nucRedfishStrMax
  imageTypeId : CString 37
  versionNumber : UInt32
  lowestSupportedVersion : UInt32
  lastAttemptVersion : UInt32
  lastAttemptStatus : UInt32
  hasLastAttempt : Bool
  updateable : Bool

/-- The copying loop: at most `room` characters, up to the terminator. Kind: D -/
def copyLoop : ℕ → List UInt16 → List UInt8
  | 0, _ => []
  | _, [] => []
  | room + 1, c :: source =>
      if c = 0 then []
      else (if c < 0x80 then c.toUInt8 else 0x3F) :: copyLoop room source

lemma length_copyLoop_le : ∀ (room : ℕ) (source : List UInt16),
    (copyLoop room source).length ≤ room
  | 0, _ => Nat.le_refl 0
  | room + 1, [] => Nat.zero_le _
  | room + 1, c :: source => by
      have ih := length_copyLoop_le room source
      unfold copyLoop
      split_ifs
      · exact Nat.zero_le _
      all_goals exact Nat.succ_le_succ ih

lemma noNul_copyLoop : ∀ (room : ℕ) (source : List UInt16), NoNul (copyLoop room source)
  | 0, _ => List.forall_mem_nil _
  | _ + 1, [] => List.forall_mem_nil _
  | room + 1, u :: source => by
      unfold copyLoop
      split_ifs with hzero hascii
      · exact List.forall_mem_nil _
      · refine List.forall_mem_cons.mpr ⟨?_, noNul_copyLoop room source⟩
        intro hc
        apply hzero
        have hlt : u.toNat < 0x80 := hascii
        have hmod : u.toNat % 256 = 0 := congrArg UInt8.toNat hc
        apply UInt16.toNat_inj.mp
        show u.toNat = 0
        omega
      · exact List.forall_mem_cons.mpr ⟨by decide, noNul_copyLoop room source⟩

/-- Source: `NucRedfishInventory.c` `CopyFmpString`
Kind: D -/
def copyFmpString (source : Option (List UInt16)) (destSize : ℕ) (hsize : 0 < destSize) :
    CString destSize where
  text := copyLoop (destSize - 1) (source.getD [])
  fits := by
    have h := length_copyLoop_le (destSize - 1) (source.getD [])
    omega
  noNul := noNul_copyLoop _ _

/-- Source: `NucRedfishInventory.c` `RenderFmpGuid`
Kind: D -/
def renderFmpGuid (guid : Guid) (bufferSize : ℕ) : List UInt8 :=
  let data4 := fun i => hexadecimal .upper 2 (guid.data4.getD i 0).toNat
  asciiSPrint bufferSize
    (hexadecimal .upper 8 guid.data1.toNat ++ ascii "-" ++
      hexadecimal .upper 4 guid.data2.toNat ++ ascii "-" ++
      hexadecimal .upper 4 guid.data3.toNat ++ ascii "-" ++ data4 0 ++ data4 1 ++ ascii "-" ++
      data4 2 ++ data4 3 ++ data4 4 ++ data4 5 ++ data4 6 ++ data4 7)

lemma noNul_renderFmpGuid (guid : Guid) (bufferSize : ℕ) :
    NoNul (renderFmpGuid guid bufferSize) := by
  have hdash : NoNul (ascii "-") := by
    unfold NoNul
    decide +kernel
  apply NoNul.take
  simp [hdash]

def imageAttributeImageUpdatable : UInt64 := 1

/-- Source: `NucRedfishInventory.c` `NucRedfishCollectFirmwareStatus`, with the answers of the
services in `w` and the platform's image in `img`
Kind: D -/
def collectFirmwareStatus (w : FmpWalk) (img : FmpImage) : Except EfiStatus FirmwareStatus :=
  match fmpWalk (fun _ => true) w img with
  | none => .error efiNotFound
  | some (h, info) =>
      -- A descriptor below version 3 has no last-attempt fields; a pair of zeros is the default
      -- of an instance that has not processed a capsule yet.
      let recorded : Bool := 3 ≤ h.descriptorVersion ∧
        (info.lastAttemptStatus ≠ lastAttemptStatusSuccess ∨ info.lastAttemptVersion ≠ 0)
      .ok {
        name := copyFmpString info.imageIdName nucRedfishStrMax (by decide)
        version := copyFmpString info.versionName nucRedfishStrMax (by decide)
        imageTypeId := ⟨renderFmpGuid info.imageTypeId 37, length_asciiSPrint_lt (by decide) _,
          noNul_renderFmpGuid _ _⟩
        versionNumber := info.version
        lowestSupportedVersion := info.lowestSupportedImageVersion
        lastAttemptVersion := if recorded then info.lastAttemptVersion else 0
        lastAttemptStatus := if recorded then info.lastAttemptStatus else 0
        hasLastAttempt := recorded
        updateable := info.attributesSetting &&& imageAttributeImageUpdatable ≠ 0 }

/-! ### The body -/

def nucRedfishFirmwareInventoryId : List UInt8 := ascii "BiosFirmware"

/-- The members the body starts with. Kind: D -/
def leadingText (st : FirmwareStatus) : List UInt8 :=
  asciiSPrint nucRedfishJsonMax
    (ascii "\x7b\"@odata.type\":\"#SoftwareInventory.v1_2_3.SoftwareInventory\"" ++
      ascii ",\"Id\":\"" ++ nucRedfishFirmwareInventoryId ++ ascii "\"" ++
      ascii ",\"Version\":\"" ++
        (if st.version.text ≠ [] then st.version.text else ascii "unknown") ++ ascii "\"" ++
      ascii ",\"Updateable\":" ++ (if st.updateable then ascii "true" else ascii "false") ++
      ascii ",\"Status\":\x7b\"State\":\"Enabled\",\"Health\":\"OK\"\x7d")

/-- The two uses of `CHAR8 Numbers[160]`. Kind: D -/
def versionNumbers (st : FirmwareStatus) : List UInt8 :=
  asciiSPrint 160
    (ascii ",\"Oem\":\x7b\"PiBmc\":\x7b\"FirmwareVersion\":" ++ decimal32 st.versionNumber ++
      ascii ",\"LowestSupportedVersion\":" ++ decimal32 st.lowestSupportedVersion)

@[inherit_doc versionNumbers]
def attemptNumbers (st : FirmwareStatus) : List UInt8 :=
  asciiSPrint 160
    (ascii ",\"LastAttemptVersion\":" ++ decimal32 st.lastAttemptVersion ++
      ascii ",\"LastAttemptStatus\":" ++ decimal32 st.lastAttemptStatus)

/-- The integers under `Oem`, which end the body. Kind: D -/
def appendOem (body : List UInt8) (st : FirmwareStatus) : List UInt8 :=
  let body := asciiStrCatS nucRedfishJsonMax body (versionNumbers st)
  let body :=
    if st.hasLastAttempt then asciiStrCatS nucRedfishJsonMax body (attemptNumbers st) else body
  asciiStrCatS nucRedfishJsonMax body (ascii "\x7d\x7d\x7d")

/-- The text of the body. Kind: D -/
def firmwareInventoryBody (st : FirmwareStatus) : List UInt8 :=
  let body := leadingText st
  let body := appendJsonString body nucRedfishJsonMax (ascii "Name") st.name.text
  let body := appendJsonString body nucRedfishJsonMax (ascii "SoftwareId") st.imageTypeId.text
  appendOem body st

/-- Source: `NucRedfishInventory.c` `NucRedfishBuildFirmwareInventoryPatch`
Kind: D -/
def buildFirmwareInventoryPatch (st : FirmwareStatus) (allocated : Bool) :
    Except EfiStatus (List UInt8) :=
  if allocated then .ok (firmwareInventoryBody st) else .error efiOutOfResources

/-! ### The body as a JSON reader sees it -/

def updateableMember (updateable : Bool) : Json.Member where
  key := ascii "Updateable"
  text := if updateable then ascii "true" else ascii "false"
  value := .bool updateable
  plain := by decide +kernel
  spells := by
    cases updateable
    · exact (by decide +kernel : Json.Word.false.text = ascii "false") ▸ Json.spells_word .false
    · exact (by decide +kernel : Json.Word.true.text = ascii "true") ▸ Json.spells_word .true

def attemptMembers (st : FirmwareStatus) : List Json.Member :=
  if st.hasLastAttempt then
    [numberMember (ascii "LastAttemptVersion") (by decide +kernel) st.lastAttemptVersion,
      numberMember (ascii "LastAttemptStatus") (by decide +kernel) st.lastAttemptStatus]
  else []

def piBmcMember (st : FirmwareStatus) : Json.Member :=
  .ofObj (ascii "PiBmc") (by decide +kernel)
    (numberMember (ascii "FirmwareVersion") (by decide +kernel) st.versionNumber)
    (numberMember (ascii "LowestSupportedVersion") (by decide +kernel) st.lowestSupportedVersion ::
      attemptMembers st)

def oemMember (st : FirmwareStatus) : Json.Member :=
  .ofObj (ascii "Oem") (by decide +kernel) (piBmcMember st) []

/-- The members behind the version string, in the order they are written. Kind: D -/
def lastMembers (st : FirmwareStatus) : List Json.Member :=
  statusMember :: stringMembers (ascii "Name") (by decide +kernel) st.name.text ++
    stringMembers (ascii "SoftwareId") (by decide +kernel) st.imageTypeId.text ++ [oemMember st]

/-- The body up to the end of the version string. Kind: D -/
def bodyFront (st : FirmwareStatus) : List UInt8 :=
  ascii "\x7b\"@odata.type\":\"#SoftwareInventory.v1_2_3.SoftwareInventory\"" ++
    ascii ",\"Id\":\"" ++ nucRedfishFirmwareInventoryId ++ ascii "\"" ++
    ascii ",\"Version\":\"" ++
      (if st.version.text ≠ [] then st.version.text else ascii "unknown")

lemma length_bodyFront_le (st : FirmwareStatus) : (bodyFront st).length ≤ 170 := by
  have hversion := st.version.fits
  have hlen : (if st.version.text ≠ [] then st.version.text else ascii "unknown").length ≤ 63 := by
    split_ifs
    · exact Nat.le_of_lt_succ hversion
    · decide +kernel
  unfold bodyFront
  generalize (if st.version.text ≠ [] then st.version.text else ascii "unknown") = v at hlen ⊢
  simp only [ascii, nucRedfishFirmwareInventoryId, List.length_append]
  simp
  omega

lemma leadingText_eq (st : FirmwareStatus) :
    leadingText st = bodyFront st ++
      (0x22 :: Json.writtenAll [updateableMember st.updateable, statusMember]) ∧
    (leadingText st).length ≤ 240 := by
  have hlen := length_bodyFront_le st
  have htext : bodyFront st ++ ascii "\"" ++ ascii ",\"Updateable\":" ++
        (if st.updateable then ascii "true" else ascii "false") ++
        ascii ",\"Status\":\x7b\"State\":\"Enabled\",\"Health\":\"OK\"\x7d" =
      bodyFront st ++ (0x22 :: Json.writtenAll [updateableMember st.updateable, statusMember]) := by
    simp [ascii, Json.writtenAll, Json.Member.written, updateableMember, statusMember,
      stateMember, Json.Member.ofObj, stringMember, escapeOctet]
  have hfits : (bodyFront st ++
      (0x22 :: Json.writtenAll [updateableMember st.updateable, statusMember])).length ≤ 240 := by
    cases st.updateable
    all_goals
      simp [ascii, Json.writtenAll, Json.Member.written, updateableMember, statusMember,
        stateMember, Json.Member.ofObj, stringMember, escapeOctet]
      omega
  have heq : leadingText st = _ := (congrArg _ htext).trans
    (asciiSPrint_of_lt (hfits.trans_lt (by decide)))
  exact ⟨heq, heq ▸ hfits⟩

lemma length_attemptMembers_le (st : FirmwareStatus) :
    (Json.writtenAll (attemptMembers st)).length ≤ 70 := by
  have h := length_decimal_le 10 st.lastAttemptVersion.toNat
  have h' := length_decimal_le 10 st.lastAttemptStatus.toNat
  unfold attemptMembers
  split_ifs
  · simp [ascii, Json.writtenAll, Json.Member.written, numberMember, decimal32]
    omega
  · exact Nat.zero_le _

lemma attemptNumbers_eq {st : FirmwareStatus} (h : st.hasLastAttempt = true) :
    attemptNumbers st = Json.writtenAll (attemptMembers st) := by
  have heq : ascii ",\"LastAttemptVersion\":" ++ decimal32 st.lastAttemptVersion ++
      ascii ",\"LastAttemptStatus\":" ++ decimal32 st.lastAttemptStatus =
      Json.writtenAll (attemptMembers st) := by
    simp [h, ascii, Json.writtenAll, Json.Member.written, attemptMembers, numberMember]
  rw [attemptNumbers, heq]
  exact asciiSPrint_of_lt ((length_attemptMembers_le st).trans_lt (by decide))

/-- The record is appended when there is one. Kind: L -/
theorem appendAttempt_eq {body : List UInt8} (st : FirmwareStatus) (h : body.length ≤ 900) :
    (if st.hasLastAttempt then asciiStrCatS nucRedfishJsonMax body (attemptNumbers st) else body) =
      body ++ Json.writtenAll (attemptMembers st) := by
  have hlen := length_attemptMembers_le st
  split_ifs with hhas
  · rw [attemptNumbers_eq hhas, asciiStrCatS_of_lt]
    show _ < 1024
    omega
  · rw [attemptMembers, if_neg hhas]
    exact (List.append_nil body).symm

lemma length_versionNumbers_le (st : FirmwareStatus) : (versionNumbers st).length ≤ 159 :=
  Nat.le_of_lt_succ (length_asciiSPrint_lt (by decide) _)

/-- The three appends that end the body write the `Oem` member and the closing brace. Kind: L -/
theorem appendOem_eq {body : List UInt8} (st : FirmwareStatus) (h : body.length ≤ 700) :
    appendOem body st = body ++ (Json.writtenAll [oemMember st] ++ [0x7D]) := by
  have hattempt := length_attemptMembers_le st
  have hversion := length_versionNumbers_le st
  have hbraces : (ascii "\x7d\x7d\x7d").length = 3 := by decide +kernel
  have hnumbers : versionNumbers st ++ Json.writtenAll (attemptMembers st) ++
      ascii "\x7d\x7d\x7d" = Json.writtenAll [oemMember st] ++ [0x7D] := by
    have hlen := length_decimal_le 10 st.versionNumber.toNat
    have hlen' := length_decimal_le 10 st.lowestSupportedVersion.toNat
    rw [versionNumbers, asciiSPrint_of_lt]
    · simp [ascii, Json.writtenAll, Json.Member.written, oemMember, piBmcMember,
        Json.Member.ofObj, numberMember]
    · simp [ascii, decimal32]
      omega
  have hfirst : asciiStrCatS nucRedfishJsonMax body (versionNumbers st) =
      body ++ versionNumbers st := asciiStrCatS_of_lt (show _ < 1024 by omega)
  rw [appendOem, hfirst, appendAttempt_eq st (by rw [List.length_append]; omega),
    asciiStrCatS_of_lt, ← hnumbers, List.append_assoc, List.append_assoc, List.append_assoc]
  simp only [List.length_append, hbraces]
  show _ < 1024
  omega

/-- Everything fits: the body is its members, written one after the other. Kind: P -/
theorem firmwareInventoryBody_eq (st : FirmwareStatus) :
    firmwareInventoryBody st = bodyFront st ++
      (0x22 :: Json.writtenAll (updateableMember st.updateable :: lastMembers st) ++ [0x7D]) := by
  obtain ⟨hlead, hleadLen⟩ := leadingText_eq st
  have hlen : (ascii "Name").length = 4 ∧ (ascii "SoftwareId").length = 10 := by decide +kernel
  have hname := st.name.fits
  have hguid := st.imageTypeId.fits
  have hnameLen := length_writtenAll_stringMembers_le (ascii "Name") (by decide +kernel)
    st.name.text
  have hguidLen := length_writtenAll_stringMembers_le (ascii "SoftwareId") (by decide +kernel)
    st.imageTypeId.text
  unfold nucRedfishStrMax at hname
  rw [firmwareInventoryBody, appendJsonString_eq (by decide +kernel) hname,
    appendJsonString_eq (by decide +kernel) (hguid.trans (by decide)), appendOem_eq, hlead]
  · simp [lastMembers, Json.writtenAll]
  all_goals
    simp only [List.length_append, nucRedfishJsonMax]
    omega

/-- Whatever the version string holds: a body that is JSON is an object, and its last `Oem` member
is the driver's.
Kind: P -/
theorem sent_oem {st : FirmwareStatus} {v : Json}
    (h : Json.decode (firmwareInventoryBody st) = some v) :
    ∃ sent, v = .obj sent ∧ Json.lookup (ascii "Oem") sent = some (oemMember st).value := by
  have hkey : (updateableMember st.updateable).key = 0x55 :: ascii "pdateable" :=
    show ascii "Updateable" = _ by decide +kernel
  rw [firmwareInventoryBody_eq] at h
  obtain ⟨members, rfl⟩ := Json.exists_obj_of_decode hkey (by decide) h
  refine ⟨_, rfl, ?_⟩
  have hlast : members ++ (updateableMember st.updateable :: lastMembers st).map Json.Member.pair =
      (members ++ (updateableMember st.updateable :: statusMember ::
        stringMembers (ascii "Name") (by decide +kernel) st.name.text ++
        stringMembers (ascii "SoftwareId") (by decide +kernel) st.imageTypeId.text).map
          Json.Member.pair) ++ [(oemMember st).pair] := by
    simp [lastMembers]
  rw [hlast, Json.lookup_append]
  rfl

/-! ### The BMC over many boots -/

/-- The resource on the BMC: the value under each top-level key. Kind: D -/
abbrev Resource := List UInt8 → Option Json

/-- A PATCH taken: a key sent replaces the old value whole, the other keys stay.
Source: `NucRedfishInventory.c` `NucRedfishBuildFirmwareInventoryPatch`, on `hostCollectionMerge`
Kind: D -/
def Resource.merge (r : Resource) (sent : List (List UInt8 × Json)) : Resource :=
  fun key => (Json.lookup key sent).or (r key)

/-- One boot, as far as the firmware inventory goes: what the platform's FMP instance holds, what
the services answer, and what becomes of the request.
Kind: D -/
structure InventoryBoot where
  image : FmpImage
  walk : FmpWalk
  allocated : Bool
  /-- The request reaches the BMC. -/
  reaches : Bool
  /-- What `RedfishHttpPatchResource` returns once the BMC has taken the request. -/
  response : EfiStatus

/-- The body sent, if one is.
Source: `NucRedfishSyncDxe.c` `ReportFirmwareInventory`
Kind: D -/
def InventoryBoot.reportFirmwareInventory (b : InventoryBoot) : Option (List UInt8) :=
  match collectFirmwareStatus b.walk b.image with
  | .error _ => none
  | .ok st => (buildFirmwareInventoryPatch st b.allocated).toOption

/-- The members the BMC takes from the boot's PATCH. A body that is not a JSON object is refused.
Kind: D -/
def InventoryBoot.taken (b : InventoryBoot) : Option (List (List UInt8 × Json)) :=
  if b.reaches then
    match b.reportFirmwareInventory.bind Json.decode with
    | some (.obj sent) => some sent
    | _ => none
  else none

/-- The boot's PATCH was sent, taken by the BMC and reported as such. Kind: D -/
def InventoryBoot.Successful (b : InventoryBoot) : Prop :=
  b.taken.isSome = true ∧ efiError b.response = false

instance : DecidablePred InventoryBoot.Successful := fun _ => inferInstanceAs (Decidable (_ ∧ _))

/-- The resource after a boot. Kind: D -/
def afterBoot (r : Resource) (b : InventoryBoot) : Resource := b.taken.elim r r.merge

/-- The number at a path of the `PiBmc` object. Kind: D -/
def Resource.piBmcNumber (r : Resource) (name : List UInt8) : Option ℕ :=
  (((r (ascii "Oem")).bind (Json.field (ascii "PiBmc"))).bind (Json.field name)).bind Json.nat

/-- The last-attempt record the BMC shows: version, then status. Kind: D -/
def Resource.lastAttempt (r : Resource) : Option ℕ × Option ℕ :=
  (r.piBmcNumber (ascii "LastAttemptVersion"), r.piBmcNumber (ascii "LastAttemptStatus"))

/-- The record a boot has to report: the descriptor it sees is of version 3 or later, and not the
default of an instance that never processed a capsule.
Kind: D -/
def InventoryBoot.realRecord (b : InventoryBoot) : Option (UInt32 × UInt32) :=
  match fmpWalk (fun _ => true) b.walk b.image with
  | none => none
  | some (h, _) =>
      let seen := b.image.shown h.stateReadable
      if 3 ≤ h.descriptorVersion ∧ seen.record ≠ (0, lastAttemptStatusSuccess) then
        some seen.record
      else none

/-- The record of the most recent boot that had one. Kind: D -/
def lastRealRecord (bs : List InventoryBoot) : Option (UInt32 × UInt32) :=
  bs.reverse.findSome? InventoryBoot.realRecord

/-- How the BMC shows a record, or the absence of one. Kind: D -/
def shown : Option (UInt32 × UInt32) → Option ℕ × Option ℕ
  | none => (none, none)
  | some (version, status) => (some version.toNat, some status.toNat)

/-! ### What a successful PATCH leaves behind -/

/-- The record a body carries. Kind: D -/
def FirmwareStatus.reported (st : FirmwareStatus) : Option (UInt32 × UInt32) :=
  if st.hasLastAttempt then some (st.lastAttemptVersion, st.lastAttemptStatus) else none

lemma reported_eq_realRecord {b : InventoryBoot} {st : FirmwareStatus}
    (h : collectFirmwareStatus b.walk b.image = .ok st) : st.reported = b.realRecord := by
  unfold collectFirmwareStatus at h
  unfold InventoryBoot.realRecord FirmwareStatus.reported
  split at h
  · cases h
  · rename_i handle d hwalk
    obtain ⟨rfl, -⟩ := fmpWalk_eq_some hwalk
    cases h
    have hrecord (img : FmpImage) : img.record ≠ (0, lastAttemptStatusSuccess) ↔
        img.lastAttemptStatus ≠ lastAttemptStatusSuccess ∨ img.lastAttemptVersion ≠ 0 := by
      rw [FmpImage.record, Ne, Prod.mk.injEq, not_and_or, or_comm]
    simp only [hrecord, decide_eq_true_eq]
    split_ifs <;> rfl

/-- The `Oem` member, read back. Kind: L -/
theorem lastAttempt_oem (st : FirmwareStatus) {r : Resource}
    (h : r (ascii "Oem") = some (oemMember st).value) : r.lastAttempt = shown st.reported := by
  have hversion := nat_num_decimal (toNat_lt_ten_pow st.lastAttemptVersion)
  have hstatus := nat_num_decimal (toNat_lt_ten_pow st.lastAttemptStatus)
  have hpiBmc : (r (ascii "Oem")).bind (Json.field (ascii "PiBmc")) =
      some (piBmcMember st).value := by
    rw [h]
    simp [oemMember, Json.Member.ofObj, Json.field, Json.lookup, Json.Member.pair, piBmcMember]
  unfold Resource.lastAttempt Resource.piBmcNumber FirmwareStatus.reported
  rw [hpiBmc]
  simp only [piBmcMember, Json.Member.ofObj, attemptMembers]
  split_ifs
  · simp [Json.field, Json.lookup, Json.Member.pair, numberMember, ascii, decimal32, shown,
      hversion, hstatus]
  · simp [Json.field, Json.lookup, Json.Member.pair, numberMember, ascii, shown]

lemma taken_eq_some {b : InventoryBoot} {sent : List (List UInt8 × Json)}
    (h : b.taken = some sent) : ∃ st, collectFirmwareStatus b.walk b.image = .ok st ∧
      Json.decode (firmwareInventoryBody st) = some (.obj sent) := by
  unfold InventoryBoot.taken at h
  split_ifs at h
  split at h
  · rename_i hdecode
    cases h
    unfold InventoryBoot.reportFirmwareInventory buildFirmwareInventoryPatch at hdecode
    split at hdecode
    · cases hdecode
    · rename_i st hcollect
      refine ⟨st, hcollect, ?_⟩
      split_ifs at hdecode
      · exact hdecode
      · cases hdecode
  · cases h

/-- **After a successful PATCH the BMC shows the record of this very boot**, and none if it had
none to report.
Kind: P -/
theorem lastAttempt_afterBoot {b : InventoryBoot} (h : b.Successful) (r : Resource) :
    (afterBoot r b).lastAttempt = shown b.realRecord := by
  obtain ⟨sent, hsent⟩ := Option.isSome_iff_exists.mp h.1
  obtain ⟨st, hcollect, hdecode⟩ := taken_eq_some hsent
  obtain ⟨_, heq, hoem⟩ := sent_oem hdecode
  cases heq
  rw [← reported_eq_realRecord hcollect]
  apply lastAttempt_oem
  rw [afterBoot, hsent, Option.elim_some, Resource.merge, hoem, Option.some_or]

lemma lastRealRecord_append_singleton (bs : List InventoryBoot) (b : InventoryBoot) :
    lastRealRecord (bs ++ [b]) = b.realRecord.or (lastRealRecord bs) := by
  unfold lastRealRecord
  rw [List.reverse_append, List.reverse_singleton, List.singleton_append, List.findSome?_cons]
  cases b.realRecord <;> rfl

lemma lastRealRecord_eq_none {bs : List InventoryBoot} :
    lastRealRecord bs = none ↔ ∀ b ∈ bs, b.realRecord = none := by
  rw [lastRealRecord, List.findSome?_eq_none_iff]
  simp only [List.mem_reverse]

lemma shown_eq_shown_iff {a c : Option (UInt32 × UInt32)} : shown a = shown c ↔ a = c := by
  rcases a with _ | ⟨v, s⟩ <;> rcases c with _ | ⟨v', s'⟩ <;>
    simp [shown, UInt32.toNat_inj]

/-- **When the BMC keeps the last real outcome.** At any successful firmware-inventory PATCH of any
sequence of boots, the record the BMC shows is that of the most recent boot that had one exactly if
this boot has one, or no boot before it had. In between, a boot with nothing to report wipes what
is stored.
Kind: C -/
theorem record_kept_iff (r : Resource) (bs : List InventoryBoot) (b : InventoryBoot)
    (h : b.Successful) :
    ((bs ++ [b]).foldl afterBoot r).lastAttempt = shown (lastRealRecord (bs ++ [b])) ↔
      b.realRecord ≠ none ∨ ∀ b' ∈ bs, b'.realRecord = none := by
  rw [List.foldl_append, List.foldl_cons, List.foldl_nil, lastAttempt_afterBoot h,
    lastRealRecord_append_singleton, shown_eq_shown_iff, ← lastRealRecord_eq_none]
  cases b.realRecord with
  | none => simp [eq_comm]
  | some record => simp

/-- A boot on which everything works and the platform's instance, of descriptor version 3, holds
the given record.
Kind: D -/
def quietBoot (record : UInt32 × UInt32) : InventoryBoot where
  image := {
    imageIdName := some (ucs2 "NUC"), version := 7, versionName := some (ucs2 "1.0")
    lowestSupportedImageVersion := 1, attributesSetting := 1
    lastAttemptVersion := record.1, lastAttemptStatus := record.2 }
  walk := {
    located := efiSuccess
    handles := [{
      handleProtocol := efiSuccess, sizeQuery := efiBufferTooSmall, allocated := true
      getImageInfo := efiSuccess, descriptorVersion := 3, descriptorCount := 1
      inst := .platform, stateReadable := true }] }
  allocated := true
  reaches := true
  response := efiSuccess

theorem record_kept_iff_updated :
    ([quietBoot (6, 1), quietBoot (7, 0)].foldl afterBoot fun _ => none).lastAttempt =
      shown (lastRealRecord [quietBoot (6, 1), quietBoot (7, 0)]) :=
  (record_kept_iff (fun _ => none) [quietBoot (6, 1)] (quietBoot (7, 0)) (by decide +kernel)).mpr
    (.inl (by decide +kernel))

/-- A capsule is applied and its outcome reported; at the next boot the instance has nothing to
report, and the outcome is gone.
Kind: C -/
theorem record_wiped :
    (quietBoot (7, 0)).Successful ∧ (quietBoot (0, 0)).Successful ∧
      lastRealRecord [quietBoot (7, 0), quietBoot (0, 0)] = some (7, 0) ∧
      ([quietBoot (7, 0)].foldl afterBoot fun _ => none).lastAttempt = (some 7, some 0) ∧
      ([quietBoot (7, 0), quietBoot (0, 0)].foldl afterBoot fun _ => none).lastAttempt =
        (none, none) := by
  decide +kernel

end NucBios.Redfish
