import NucBios.Redfish.FirmwareInventory

/-!
# When the firmware inventory is JSON

The body `NucRedfishBuildFirmwareInventoryPatch` builds carries two strings of the FMP descriptor.
The image's name goes through `AppendJsonString`, which escapes it; the version goes straight into
the format of an `AsciiSPrint`. `CopyFmpString` has turned what is not 7-bit ASCII into `?` by then,
"keeping the body valid JSON", but a quote, a backslash or a control character in it is ASCII and
comes through.

`firmware_body_json_iff` is the exact extent: the body is one JSON object with the version under
`Version` exactly when the part of `VersionName` that is kept holds none of these.
-/

namespace NucBios.Redfish

open Lib Uefi

/-! ### The version string -/

/-- A `CHAR16` that needs no escaping in JSON. Kind: D -/
def Printable (u : UInt16) : Prop := 0x20 ≤ u ∧ u ≠ 0x22 ∧ u ≠ 0x5C

instance : DecidablePred Printable := fun _ => inferInstanceAs (Decidable (_ ∧ _ ∧ _))

/-- What the driver keeps of a descriptor's string: the characters in front of the terminator, as
many as fit into `size`.
Kind: D -/
def keptOf (name : Option (List UInt16)) (size : ℕ) : List UInt16 :=
  ((name.getD []).takeWhile (· ≠ 0)).take (size - 1)

lemma plain_toUInt8_iff {u : UInt16} (h : u < 0x80) : Json.Plain u.toUInt8 ↔ Printable u := by
  have hlt : u.toNat < 0x80 := UInt16.lt_iff_toNat_lt.mp h
  have hnat : u.toUInt8.toNat = u.toNat := by
    rw [UInt16.toNat_toUInt8]
    omega
  rw [Json.Plain, Printable, UInt8.le_iff_toNat_le, UInt16.le_iff_toNat_le, Ne, Ne, Ne, Ne,
    ← UInt8.toNat_inj, ← UInt8.toNat_inj, ← UInt16.toNat_inj, ← UInt16.toNat_inj, hnat]
  rfl

lemma printable_of_le {u : UInt16} (h : ¬ u < 0x80) : Printable u := by
  have hle : 0x80 ≤ u.toNat := by
    have := mt UInt16.lt_iff_toNat_lt.mpr h
    exact Nat.not_lt.mp this
  refine ⟨UInt16.le_iff_toNat_le.mpr (show 0x20 ≤ u.toNat by omega), ?_, ?_⟩
  · rintro rfl
    exact absurd hle (by decide)
  · rintro rfl
    exact absurd hle (by decide)

/-- What is copied is plain exactly when what is kept is printable. Kind: L -/
theorem plain_copyLoop_iff : ∀ (room : ℕ) (source : List UInt16),
    (∀ c ∈ copyLoop room source, Json.Plain c) ↔
      ∀ u ∈ (source.takeWhile (· ≠ 0)).take room, Printable u
  | 0, _ => by simp [copyLoop]
  | room + 1, [] => by simp [copyLoop]
  | room + 1, u :: source => by
      have ih := plain_copyLoop_iff room source
      unfold copyLoop
      by_cases hzero : u = 0
      · simp [hzero]
      rw [if_neg hzero, List.takeWhile_cons_of_pos (by simpa using hzero), List.take_succ_cons,
        List.forall_mem_cons, List.forall_mem_cons, ih]
      refine and_congr_left fun _ => ?_
      split_ifs with hascii
      · exact plain_toUInt8_iff hascii
      · exact iff_of_true (by decide) (printable_of_le hascii)

lemma version_of_collect {w : FmpWalk} {img : FmpImage} {st : FirmwareStatus}
    (h : collectFirmwareStatus w img = .ok st) :
    st.version.text = copyLoop (nucRedfishStrMax - 1) (img.versionName.getD []) := by
  unfold collectFirmwareStatus at h
  split at h
  · cases h
  · rename_i handle info hwalk
    obtain ⟨rfl, -⟩ := fmpWalk_eq_some hwalk
    cases h
    rw [← FmpImage.versionName_shown img handle.stateReadable]
    rfl

/-- What stands for the version in the body. Kind: D -/
def FirmwareStatus.shownVersion (st : FirmwareStatus) : List UInt8 :=
  if st.version.text ≠ [] then st.version.text else ascii "unknown"

lemma plain_shownVersion_iff {st : FirmwareStatus} :
    (∀ c ∈ st.shownVersion, Json.Plain c) ↔ ∀ c ∈ st.version.text, Json.Plain c := by
  unfold FirmwareStatus.shownVersion
  split_ifs with h
  · rfl
  · rw [not_not.mp h]
    exact iff_of_true (by decide +kernel) (List.forall_mem_nil _)

/-! ### The body up to the version -/

/-- The text in front of the version. Kind: D -/
def versionFront : List UInt8 :=
  ascii "\x7b\"@odata.type\":\"#SoftwareInventory.v1_2_3.SoftwareInventory\"" ++
    ascii ",\"Id\":\"" ++ nucRedfishFirmwareInventoryId ++ ascii "\"" ++ ascii ",\"Version\":\""

def softwareFirst : Json.Member :=
  odataTypeMember (ascii "#SoftwareInventory.v1_2_3.SoftwareInventory")

def idMember : Json.Member :=
  stringMember (ascii "Id") (by decide +kernel) nucRedfishFirmwareInventoryId

/-- The members in front of the version. Kind: D -/
def frontMembers : List (List UInt8 × Json) := [softwareFirst, idMember].map Json.Member.pair

lemma run_versionFront : Json.reader.run ⟨[], .value⟩ versionFront =
    some ⟨[.obj frontMembers (ascii "Version")], .str false []⟩ := by
  have htext : versionFront = 0x7B :: (softwareFirst.written ++ Json.writtenAll [idMember]) ++
      (0x2C :: 0x22 :: ascii "Version" ++ [0x22, 0x3A, 0x22]) := by
    decide +kernel
  rw [htext, Json.run_open_member [] softwareFirst [idMember] (by decide +kernel)]
  rfl

lemma bodyFront_eq (st : FirmwareStatus) : bodyFront st = versionFront ++ st.shownVersion := rfl

/-! ### The body -/

/-- The version the body is to report. Kind: D -/
def FirmwareStatus.reportedVersion (st : FirmwareStatus) : List UInt8 :=
  if st.version.text = [] then ascii "unknown" else st.version.text.map blank

/-- The body is one JSON object that fits the buffer and has the version under `Version`. Kind: D -/
def ReportsVersion (st : FirmwareStatus) (body : List UInt8) : Prop :=
  body.length < nucRedfishJsonMax ∧ ∃ members, Json.decode body = some (.obj members) ∧
    Json.lookup (ascii "Version") members = some (.str st.reportedVersion)

lemma length_shownVersion (st : FirmwareStatus) :
    st.shownVersion.length = st.reportedVersion.length := by
  unfold FirmwareStatus.shownVersion FirmwareStatus.reportedVersion
  by_cases h : st.version.text = [] <;> simp [h]

lemma reportedVersion_of_plain {st : FirmwareStatus} (h : ∀ c ∈ st.shownVersion, Json.Plain c) :
    st.reportedVersion = st.shownVersion := by
  unfold FirmwareStatus.shownVersion FirmwareStatus.reportedVersion at *
  by_cases hempty : st.version.text = []
  · simp [hempty]
  · simp only [hempty, ne_eq, not_false_eq_true, if_true, if_false] at h ⊢
    refine (List.map_congr_left fun c hc => ?_).trans (List.map_id _)
    exact if_neg (UInt8.not_lt.mpr (h c hc).1)

lemma version_not_mem_lastKeys (st : FirmwareStatus) : ascii "Version" ∉
    ((updateableMember st.updateable :: lastMembers st).map Json.Member.pair).map Prod.fst := by
  have hkeys : (((updateableMember st.updateable :: lastMembers st).map Json.Member.pair).map
      Prod.fst).Sublist
        [ascii "Updateable", ascii "Status", ascii "Name", ascii "SoftwareId", ascii "Oem"] := by
    have hname := keys_stringMembers (ascii "Name") (by decide +kernel) st.name.text
    have hguid := keys_stringMembers (ascii "SoftwareId") (by decide +kernel) st.imageTypeId.text
    rw [List.map_map]
    simp only [lastMembers, List.map_cons, List.map_append, List.map_nil]
    exact (((hname.append hguid).append (List.Sublist.refl _)).cons_cons _).cons_cons _
  intro hmem
  exact absurd (hkeys.subset hmem) (by decide +kernel)

lemma length_firmwareInventoryBody_lt (st : FirmwareStatus) :
    (firmwareInventoryBody st).length < nucRedfishJsonMax := by
  have hlead : (leadingText st).length < nucRedfishJsonMax :=
    length_asciiSPrint_lt (by decide) _
  unfold firmwareInventoryBody appendOem
  refine length_asciiStrCatS_lt ?_ _
  split_ifs
  · exact length_asciiStrCatS_lt (length_asciiStrCatS_lt (length_appendJsonString_lt
      (length_appendJsonString_lt hlead _ _) _ _) _) _
  · exact length_asciiStrCatS_lt (length_appendJsonString_lt
      (length_appendJsonString_lt hlead _ _) _ _) _

/-- A plain version string comes back as it is. Kind: L -/
theorem decode_of_plain {st : FirmwareStatus} (h : ∀ c ∈ st.shownVersion, Json.Plain c) :
    Json.decode (firmwareInventoryBody st) = some (.obj (frontMembers ++
      (ascii "Version", .str st.shownVersion) ::
        (updateableMember st.updateable :: lastMembers st).map Json.Member.pair)) := by
  rw [firmwareInventoryBody_eq, bodyFront_eq]
  apply Json.decode_of_run_front
  rw [Machine.run_append, run_versionFront, Option.bind_some, Json.quotes_self h, List.nil_append]

/-- Whatever a version string that is not plain does to the body, no string as long as it comes out
under `Version`. Kind: L -/
theorem plain_of_lookup_version {st : FirmwareStatus} {members : List (List UInt8 × Json)}
    {s : List UInt8} (hdecode : Json.decode (firmwareInventoryBody st) = some (.obj members))
    (hlookup : Json.lookup (ascii "Version") members = some (.str s))
    (hlen : s.length = st.shownVersion.length) : ∀ c ∈ st.shownVersion, Json.Plain c := by
  have hkey : (updateableMember st.updateable).key = 0x55 :: ascii "pdateable" :=
    show ascii "Updateable" = _ by decide +kernel
  rw [firmwareInventoryBody_eq] at hdecode
  obtain ⟨inner, name, read, hrun, heq⟩ := Json.run_front_of_decode hkey (by decide) hdecode
  cases heq
  rw [bodyFront_eq, Machine.run_append, run_versionFront, Option.bind_some] at hrun
  have hstart : Json.Raw frontMembers (ascii "Version") []
      ⟨[.obj frontMembers (ascii "Version")], .str false []⟩ := .inl ⟨List.forall_mem_nil _, rfl⟩
  rcases Json.raw_run hstart hrun with ⟨hplain, -⟩ | ⟨hframes, hread⟩
  · exact hplain
  -- the string found is one the reader built from the version text, and all of those are short
  exfalso
  rw [← List.singleton_append, ← List.append_assoc, Json.lookup_append,
    Json.lookup_eq_none (version_not_mem_lastKeys st), Option.none_or] at hlookup
  have hshort : s.length < st.shownVersion.length := by
    rcases List.mem_append.mp (Json.mem_of_lookup hlookup) with hmem | hmem
    · rcases hframes _ List.mem_cons_self _ s hmem with hknown | hlt
      · have hkeys : ascii "Version" ∉ frontMembers.map Prod.fst := by decide +kernel
        exact absurd (List.mem_map_of_mem (f := Prod.fst) hknown) hkeys
      · exact hlt
    · cases List.mem_singleton.mp hmem
      exact hread
  omega

/-- **When the body reports the version.** For every descriptor, the body built from what was
collected is one JSON object, shorter than the buffer, with the version under `Version` (control
characters as spaces, `unknown` when there is none) exactly if the part of `VersionName` that is
kept is printable: a single quote, backslash or control character in it spoils the body or the
version.
Source: `NucRedfishInventory.c` `NucRedfishBuildFirmwareInventoryPatch`, `CopyFmpString`
Kind: C -/
theorem firmware_body_json_iff (w : FmpWalk) (img : FmpImage) (st : FirmwareStatus)
    (body : List UInt8) (hcollect : collectFirmwareStatus w img = .ok st)
    (hbuild : buildFirmwareInventoryPatch st true = .ok body) :
    ReportsVersion st body ↔ ∀ u ∈ keptOf img.versionName nucRedfishStrMax, Printable u := by
  cases hbuild
  rw [keptOf, ← plain_copyLoop_iff, ← version_of_collect hcollect, ← plain_shownVersion_iff]
  constructor
  · rintro ⟨-, members, hdecode, hlookup⟩
    exact plain_of_lookup_version hdecode hlookup (length_shownVersion st).symm
  · intro h
    refine ⟨length_firmwareInventoryBody_lt st, _, decode_of_plain h, ?_⟩
    rw [reportedVersion_of_plain h, ← List.singleton_append, ← List.append_assoc,
      Json.lookup_append, Json.lookup_eq_none (version_not_mem_lastKeys st), Option.none_or,
      Json.lookup_append]
    simp [Json.lookup]

theorem firmware_body_json_iff_quiet :
    ∃ st body, collectFirmwareStatus (quietBoot (7, 0)).walk (quietBoot (7, 0)).image = .ok st ∧
      buildFirmwareInventoryPatch st true = .ok body ∧ ReportsVersion st body := by
  have hok :
      (collectFirmwareStatus (quietBoot (7, 0)).walk (quietBoot (7, 0)).image).toBool = true := by
    decide +kernel
  rcases h : collectFirmwareStatus (quietBoot (7, 0)).walk (quietBoot (7, 0)).image with e | st
  · rw [h] at hok
    cases hok
  · have hkept : (keptOf (quietBoot (7, 0)).image.versionName nucRedfishStrMax).all
        (fun u => decide (Printable u)) = true := by
      decide +kernel
    have hprintable := fun u hu => of_decide_eq_true (List.all_eq_true.mp hkept u hu)
    exact ⟨st, _, rfl, rfl, (firmware_body_json_iff _ _ st _ h rfl).mpr hprintable⟩

/-- A boot of a firmware whose version carries quotes. Kind: D -/
def quotedBoot : InventoryBoot :=
  { quietBoot (7, 0) with
    image := { (quietBoot (7, 0)).image with versionName := some (ucs2 "1.0 \"beta\"") } }

/-- Its report is no JSON at all. Kind: C -/
theorem quoted_version_is_no_json :
    ∃ body, quotedBoot.reportFirmwareInventory = some body ∧ Json.decode body = none := by
  rcases h : quotedBoot.reportFirmwareInventory with _ | body
  · exact absurd (congrArg Option.isSome h) (by decide +kernel)
  · refine ⟨body, rfl, Option.isNone_iff_eq_none.mp ?_⟩
    have hnone :
        quotedBoot.reportFirmwareInventory.all (fun b => (Json.decode b).isNone) = true := by
      decide +kernel
    rwa [h] at hnone

end NucBios.Redfish
