import NucBios.Capsule.Parse
import NucBios.Uefi.Fmp

/-!
# Applying one capsule: `ApplyOneCapsule` and `GetFmpLastAttemptStatus`

`applyOneCapsule a fw file` is the C function as a function of three things: the answers `a` the
firmware and file services give along the way, the state `fw` of the firmware before, and the
octets of the file (`none` when the drop box holds no file of that name). Its result names the
return path taken (`Outcome`; `TRUE` is `Outcome.applied`, every other path returns `FALSE`), the
firmware afterwards, whether the file is gone, and the buffer handed to `UpdateCapsule`, if any.

The function is cut where the C has its comments: `openCapsule` (open, size, allocate, read),
`versionGate`, `confirmApply` (the last-attempt record as proof), `applyAndConsume`.

`handed_to_update_iff` says exactly which files are given to `UpdateCapsule`: nothing malformed is,
and a well-formed capsule is unless the version gate stops it. The size a file reports is taken to
be the number of its octets, and a read that delivers that many to deliver those.

`outcome_eq_applied_iff` spells out when `TRUE` is returned, from which follows the exact
condition for the file header's promise that a `TRUE` is always backed by a *changed* record:
`applied_only_if_proven_iff`. It fails when the snapshot did not show the record held, because it
could not be taken or because the controller state was unreadable then (`BlindOverStale`).
-/

namespace NucBios.Capsule

open NucBios.Uefi

/-- `MAX_CAPSULE_BYTES`, 128 MiB. Kind: D -/
def maxCapsuleBytes : ℕ := 128 * 1024 * 1024

/-! ### The firmware and its answers -/

/-- The state of the firmware: what the platform's FMP instance shows, and the version the
flash will run from the next boot on.
Kind: D -/
structure Firmware where
  fmp : FmpImage
  flash : UInt32
  deriving DecidableEq, Repr

/-- What `gRT->UpdateCapsule` does: a status, and the firmware it leaves. Neither constrains the
other: success means "processed", never "applied".
Kind: D -/
structure UpdateAnswer where
  status : EfiStatus
  firmware : Firmware

/-- What `FileHandleDelete` does: a status, and whether the file is gone. `EFI_SUCCESS` means
that it is; any other status, a warning included, leaves it open.
Kind: D -/
structure DeleteAnswer where
  status : EfiStatus
  removed : Bool
  removed_of_success : status = efiSuccess → removed = true

/-- The answers of the services `ApplyOneCapsule` calls on one file. Kind: D -/
structure ApplyAnswers where
  openReadWrite : EfiStatus
  openRead : EfiStatus
  getSize : EfiStatus
  allocated : Bool
  read : EfiStatus
  /-- The octets the read delivered. -/
  readSize : ℕ
  before : FmpWalk
  update : UpdateAnswer
  after : FmpWalk
  delete : DeleteAnswer

/-- One reading of the last-attempt record and the running version. Kind: D -/
structure FmpReading where
  lastStatus : UInt32
  lastVersion : UInt32
  version : UInt32
  deriving DecidableEq, Repr

/-- The reading of an image. Kind: D -/
def FmpReading.ofImage (img : FmpImage) : FmpReading :=
  ⟨img.lastAttemptStatus, img.lastAttemptVersion, img.version⟩

/-- Source: `NucCapsuleOnDiskLib.c` `GetFmpLastAttemptStatus`; `none` is a `FALSE` return.
Kind: D -/
def getFmpLastAttemptStatus (w : FmpWalk) (img : FmpImage) : Option FmpReading :=
  (fmpWalk (fun h => 3 ≤ h.descriptorVersion) w img).map fun p =>
    ⟨p.2.lastAttemptStatus, p.2.lastAttemptVersion, p.2.version⟩

/-- The handle at which the walk reaches the platform's instance at descriptor version 3 or higher
(what the instance holds plays no part in it, so the question is asked of a blank image).
Kind: D -/
def FmpWalk.found (w : FmpWalk) : Option FmpHandle :=
  (fmpWalk (fun h => 3 ≤ h.descriptorVersion) w ⟨none, 0, none, 0, 0, 0, 0⟩).map Prod.fst

/-- The walk reaches the platform's instance: `GetFmpLastAttemptStatus` returns `TRUE`. Kind: D -/
def FmpWalk.readable (w : FmpWalk) : Bool :=
  (FmpWalk.found w).isSome

/-- It reaches the instance while that can read its controller state, so that the record shown is
the one held.
Kind: D -/
def FmpWalk.showsRecord (w : FmpWalk) : Bool :=
  (FmpWalk.found w).any fun h => h.stateReadable

/-- A reading is absent, or it is what the instance shows of the image it holds.
Source: `NucCapsuleOnDiskLib.c` `GetFmpLastAttemptStatus`
Kind: P -/
theorem getFmpLastAttemptStatus_eq (w : FmpWalk) (img : FmpImage) :
    getFmpLastAttemptStatus w img =
      (FmpWalk.found w).map fun h => FmpReading.ofImage (img.shown h.stateReadable) := by
  unfold getFmpLastAttemptStatus FmpWalk.found
  rw [fmpWalk_handle_congr _ w _ img]
  rcases hw : fmpWalk (fun h => decide (3 ≤ h.descriptorVersion)) w img with _ | ⟨h, d⟩
  · rfl
  · obtain ⟨rfl, -, -⟩ := fmpWalk_eq_some hw
    rfl

/-- The version of a reading is the running one; only the record may be the default. Kind: L -/
theorem exists_reading {w : FmpWalk} (img : FmpImage) (h : FmpWalk.readable w = true) :
    ∃ r, getFmpLastAttemptStatus w img = some r ∧ r.version = img.version := by
  obtain ⟨handle, hfound⟩ := Option.isSome_iff_exists.mp h
  refine ⟨.ofImage (img.shown handle.stateReadable), ?_, FmpImage.version_shown ..⟩
  rw [getFmpLastAttemptStatus_eq, hfound]
  rfl

lemma getFmpLastAttemptStatus_of_not_readable {w : FmpWalk} (img : FmpImage)
    (h : FmpWalk.readable w = false) : getFmpLastAttemptStatus w img = none := by
  have hnone : FmpWalk.found w = none :=
    Option.isNone_iff_eq_none.mp (Option.isSome_eq_false_iff.mp h)
  rw [getFmpLastAttemptStatus_eq, hnone]
  rfl

/-- Past an unreadable controller state the record held is the one read. Kind: L -/
theorem getFmpLastAttemptStatus_of_showsRecord {w : FmpWalk} (img : FmpImage)
    (h : FmpWalk.showsRecord w = true) :
    getFmpLastAttemptStatus w img = some (FmpReading.ofImage img) := by
  obtain ⟨handle, hfound, hstate⟩ := (Option.any_eq_true ..).mp h
  rw [getFmpLastAttemptStatus_eq, hfound, Option.map_some, hstate, FmpImage.shown_true]

/-- Without the controller state, a reading is of the default record. Kind: L -/
theorem lastVersion_of_not_showsRecord {w : FmpWalk} {img : FmpImage} {r : FmpReading}
    (h : FmpWalk.showsRecord w = false) (hr : getFmpLastAttemptStatus w img = some r) :
    r.lastVersion = 0 := by
  rw [getFmpLastAttemptStatus_eq, Option.map_eq_some_iff] at hr
  obtain ⟨handle, hfound, rfl⟩ := hr
  have hstate : handle.stateReadable = false := by
    simpa [FmpWalk.showsRecord, hfound] using h
  rw [hstate]
  exact FmpImage.lastAttemptVersion_shown_false img

/-! ### The stages of `ApplyOneCapsule` -/

/-- The return paths of `ApplyOneCapsule`, in source order. Kind: D -/
inductive Outcome where
  /-- Neither open succeeded. -/
  | cannotOpen (status : EfiStatus)
  | noPlausibleSize
  | outOfMemory
  | readFailed (status : EfiStatus)
  /-- Not a flagless FMP capsule (`EFI_UNSUPPORTED`). -/
  | unsupportedCapsule
  | inconsistentHeader
  /-- The version gate: already running; `removed` when the file could be consumed. -/
  | alreadyRunning (removed : Bool)
  | updateFailed (status : EfiStatus)
  | noReadBack
  | attemptFailed (status : UInt32)
  /-- `LastAttemptVersion` 0, the "nothing recorded" default. -/
  | nothingRecorded
  /-- The record equals the snapshot. -/
  | recordUnchanged
  | readOnlyMedia
  | deleteFailed (status : EfiStatus)
  /-- The only path that returns `TRUE`. -/
  | applied
  deriving DecidableEq, Repr

/-- Open the file (read-write if the media allows it), size it, allocate and read it: whether
it can be deleted, and its octets.
Source: `NucCapsuleOnDiskLib.c` `ApplyOneCapsule`, lines 582–626
Kind: D -/
def openCapsule (a : ApplyAnswers) (file : Option (List UInt8)) :
    Except Outcome (Bool × List UInt8) :=
  match file with
  | none => .error (.cannotOpen efiNotFound)
  | some content =>
      if efiError a.openReadWrite && efiError a.openRead then
        .error (.cannotOpen a.openRead)
      else if efiError a.getSize || content.length = 0 || maxCapsuleBytes < content.length then
        .error .noPlausibleSize
      else if !a.allocated then
        .error .outOfMemory
      else if efiError a.read || a.readSize ≠ content.length then
        .error (.readFailed a.read)
      else
        .ok (!efiError a.openReadWrite, content)

/-- What the version gate looks at: the capsule's own version and the snapshot of the FMP, either
of which may be missing.
Kind: D -/
structure Gate where
  /-- `HaveCapsuleVersion` and `CapsuleVersion`. -/
  capsuleVersion : Option UInt32
  /-- `HaveBefore` and the snapshot. -/
  before : Option FmpReading
  deriving DecidableEq, Repr

/-- Source: `NucCapsuleOnDiskLib.c` `ApplyOneCapsule`, lines 662–667. The search is given the
size of the *file*.
Kind: D -/
def versionGate (a : ApplyAnswers) (fw : Firmware) (buf : List UInt8) : Gate where
  capsuleVersion := nucCapsuleGetPayloadVersion (pointer buf) buf.length
  before := getFmpLastAttemptStatus a.before fw.fmp

/-- The gate closes: both versions are known and equal. Kind: D -/
def Gate.skips (g : Gate) : Bool :=
  match g.capsuleVersion, g.before with
  | some v, some r => v == r.version
  | _, _ => false

/-- The last-attempt record as proof of the apply; `none` when it stands.
Source: `NucCapsuleOnDiskLib.c` `ApplyOneCapsule`, lines 741–797
Kind: D -/
def confirmApply (before after : Option FmpReading) : Option Outcome :=
  match after with
  | none => some .noReadBack
  | some r =>
      if r.lastStatus ≠ lastAttemptStatusSuccess then
        some (.attemptFailed r.lastStatus)
      else if r.lastVersion = 0 then
        some .nothingRecorded
      else
        match before with
        | some b =>
            if r.lastVersion = b.lastVersion ∧ r.lastStatus = b.lastStatus then
              some .recordUnchanged
            else
              none
        -- no snapshot, nothing to compare with: the C tests `HaveBefore && ...`
        | none => none

/-- What one call did. Kind: D -/
structure ApplyResult where
  outcome : Outcome
  firmware : Firmware
  removed : Bool
  /-- The buffer given to `UpdateCapsule`. -/
  handed : Option (List UInt8)

/-- `UpdateCapsule`, the proof, and the delete.
Source: `NucCapsuleOnDiskLib.c` `ApplyOneCapsule`, lines 718–838
Kind: D -/
def applyAndConsume (a : ApplyAnswers) (canDelete : Bool) (before : Option FmpReading)
    (buf : List UInt8) : ApplyResult :=
  let fw := a.update.firmware
  if efiError a.update.status then
    ⟨.updateFailed a.update.status, fw, false, some buf⟩
  else
    match confirmApply before (getFmpLastAttemptStatus a.after fw.fmp) with
    | some o => ⟨o, fw, false, some buf⟩
    | none =>
        if !canDelete then
          ⟨.readOnlyMedia, fw, false, some buf⟩
        else if a.delete.status ≠ efiSuccess then
          ⟨.deleteFailed a.delete.status, fw, a.delete.removed, some buf⟩
        else
          ⟨.applied, fw, a.delete.removed, some buf⟩

/-- Source: `NucCapsuleOnDiskLib.c` `ApplyOneCapsule`. Kind: D -/
def applyOneCapsule (a : ApplyAnswers) (fw : Firmware) (file : Option (List UInt8)) :
    ApplyResult :=
  match openCapsule a file with
  | .error o => ⟨o, fw, false, none⟩
  | .ok (canDelete, buf) =>
      match nucCapsuleValidateHeader (pointer buf) buf.length with
      | .error s =>
          ⟨if s = efiUnsupported then .unsupportedCapsule else .inconsistentHeader, fw, false, none⟩
      | .ok _ =>
          let gate := versionGate a fw buf
          if gate.skips then
            if canDelete then
              ⟨.alreadyRunning (a.delete.status = efiSuccess), fw, a.delete.removed, none⟩
            else
              ⟨.alreadyRunning false, fw, false, none⟩
          else
            applyAndConsume a canDelete gate.before buf

/-! ### What the stages do -/

/-- The file arrives whole in memory: it exists, one of the opens succeeds, its size is plausible,
the allocation succeeds and the read is complete.
Kind: D -/
def Arrives (a : ApplyAnswers) (file : Option (List UInt8)) (content : List UInt8) : Prop :=
  file = some content ∧ (efiError a.openReadWrite && efiError a.openRead) = false ∧
    efiError a.getSize = false ∧ 0 < content.length ∧ content.length ≤ maxCapsuleBytes ∧
    a.allocated = true ∧ efiError a.read = false ∧ a.readSize = content.length

/-- Opening succeeds exactly on a file that arrives, with the file's own octets. Kind: L -/
theorem openCapsule_eq_ok_iff {a : ApplyAnswers} {file : Option (List UInt8)} {c : Bool}
    {buf : List UInt8} :
    openCapsule a file = .ok (c, buf) ↔ Arrives a file buf ∧ c = !efiError a.openReadWrite := by
  unfold openCapsule Arrives
  rcases file with _ | content
  · simp
  simp only [Option.some.injEq]
  split_ifs with h1 h2 h3 h4
  · simp only [false_iff]
    rintro ⟨⟨-, h, -⟩, -⟩
    rw [h1] at h
    cases h
  · simp only [Bool.or_eq_true, decide_eq_true_eq] at h2
    simp only [false_iff]
    rintro ⟨⟨rfl, -, hs, hpos, hmax, -⟩, -⟩
    rw [hs] at h2
    rcases h2 with (h2 | h2) | h2
    · cases h2
    · omega
    · omega
  · simp only [false_iff]
    rintro ⟨⟨-, -, -, -, -, h, -⟩, -⟩
    rw [h] at h3
    cases h3
  · simp only [Bool.or_eq_true, decide_eq_true_eq] at h4
    simp only [false_iff]
    rintro ⟨⟨rfl, -, -, -, -, -, hr, hsz⟩, -⟩
    rw [hr] at h4
    rcases h4 with h4 | h4
    · cases h4
    · exact h4 hsz
  · simp only [Bool.or_eq_true, decide_eq_true_eq, not_or, Bool.not_eq_true, ne_eq,
      Decidable.not_not] at h1 h2 h4
    simp only [Except.ok.injEq, Prod.mk.injEq]
    constructor
    · rintro ⟨rfl, rfl⟩
      exact ⟨⟨rfl, h1, h2.1.1, by omega, by omega, by simpa using h3, h4.1, h4.2⟩, rfl⟩
    · rintro ⟨⟨rfl, -⟩, rfl⟩
      exact ⟨rfl, rfl⟩

/-- The proof stands exactly on a readable record with status success and a non-zero version
that differs from the snapshot, when there is one. Kind: L -/
theorem confirmApply_eq_none_iff {before after : Option FmpReading} :
    confirmApply before after = none ↔
      ∃ r, after = some r ∧ r.lastStatus = lastAttemptStatusSuccess ∧ r.lastVersion ≠ 0 ∧
        ∀ b, before = some b → ¬ (r.lastVersion = b.lastVersion ∧ r.lastStatus = b.lastStatus) := by
  unfold confirmApply
  rcases after with _ | r
  · simp
  simp only [Option.some.injEq]
  constructor
  · intro h
    split_ifs at h with hs hv
    refine ⟨r, rfl, by simpa using hs, hv, fun b hb => ?_⟩
    subst hb
    simpa using h
  · rintro ⟨r', rfl, hs, hv, hb⟩
    rw [if_neg (by simpa using hs), if_neg hv]
    rcases before with _ | b
    · rfl
    · exact if_neg (hb b rfl)

/-- None of the refusals of the proof is the `TRUE` return. Kind: L -/
theorem confirmApply_ne_applied (before after : Option FmpReading) :
    confirmApply before after ≠ some .applied := by
  unfold confirmApply
  rcases after with _ | r
  · simp
  · rcases before with _ | b <;> simp only <;> split_ifs <;> simp

/-- None of the failures to open is the `TRUE` return. Kind: L -/
theorem openCapsule_ne_applied (a : ApplyAnswers) (file : Option (List UInt8)) :
    openCapsule a file ≠ .error .applied := by
  unfold openCapsule
  rcases file with _ | content
  · simp
  · simp only
    split_ifs <;> simp

/-- When the gate closes. Kind: L -/
theorem Gate.skips_eq_true_iff {g : Gate} :
    g.skips = true ↔ ∃ v r, g.capsuleVersion = some v ∧ g.before = some r ∧ v = r.version := by
  unfold Gate.skips
  rcases g.capsuleVersion with _ | v
  · simp
  · rcases g.before with _ | r <;> simp

/-- When `applyAndConsume` ends in the `TRUE` return. Kind: L -/
theorem applyAndConsume_outcome_eq_applied_iff {a : ApplyAnswers} {c : Bool}
    {before : Option FmpReading} {buf : List UInt8} :
    (applyAndConsume a c before buf).outcome = .applied ↔
      efiError a.update.status = false ∧
      confirmApply before (getFmpLastAttemptStatus a.after a.update.firmware.fmp) = none ∧
      c = true ∧ a.delete.status = efiSuccess := by
  unfold applyAndConsume
  by_cases hu : efiError a.update.status = true
  · rw [if_pos hu]
    simp [hu]
  rw [if_neg hu]
  simp only [Bool.not_eq_true] at hu
  rcases hc : confirmApply before (getFmpLastAttemptStatus a.after a.update.firmware.fmp) with _ | o
  · rcases c with _ | _
    · simp
    · by_cases hd : a.delete.status = efiSuccess <;> simp [hu, hd]
  · simp only [reduceCtorEq, false_and, and_false, iff_false]
    rintro rfl
    exact confirmApply_ne_applied _ _ hc

/-- The file gets as far as the version gate: it arrives and its header is accepted. Kind: D -/
def Reaches (a : ApplyAnswers) (file : Option (List UInt8)) (buf : List UInt8) : Prop :=
  Arrives a file buf ∧ ∃ i, nucCapsuleValidateHeader (pointer buf) buf.length = .ok i

lemma Reaches.openCapsule_eq {a : ApplyAnswers} {file : Option (List UInt8)} {buf : List UInt8}
    (h : Reaches a file buf) : openCapsule a file = .ok (!efiError a.openReadWrite, buf) :=
  openCapsule_eq_ok_iff.mpr ⟨h.1, rfl⟩

/-- Short of the version gate nothing happens. Kind: L -/
theorem applyOneCapsule_of_not_reaches {a : ApplyAnswers} {file : Option (List UInt8)}
    (fw : Firmware) (h : ∀ buf, ¬ Reaches a file buf) :
    ∃ o, o ≠ .applied ∧ applyOneCapsule a fw file = ⟨o, fw, false, none⟩ := by
  unfold applyOneCapsule
  rcases ho : openCapsule a file with o | ⟨c, buf⟩
  · refine ⟨o, ?_, rfl⟩
    rintro rfl
    exact openCapsule_ne_applied a file ho
  have harr := (openCapsule_eq_ok_iff.mp ho).1
  rcases hv : nucCapsuleValidateHeader (pointer buf) buf.length with s | i
  · refine ⟨if s = efiUnsupported then .unsupportedCapsule else .inconsistentHeader, ?_, ?_⟩
    · split_ifs <;> simp
    · simp only [hv]
  · exact absurd ⟨harr, i, hv⟩ (h buf)

/-- A closed gate leaves the firmware alone and at most removes the file. Kind: L -/
theorem applyOneCapsule_of_skips {a : ApplyAnswers} {fw : Firmware} {file : Option (List UInt8)}
    {buf : List UInt8} (h : Reaches a file buf) (hs : (versionGate a fw buf).skips = true) :
    ∃ r, applyOneCapsule a fw file =
      ⟨.alreadyRunning r, fw, !efiError a.openReadWrite && a.delete.removed, none⟩ := by
  have hopen := h.openCapsule_eq
  obtain ⟨-, i, hv⟩ := h
  unfold applyOneCapsule
  simp only [hopen, hv, hs, if_true]
  rcases efiError a.openReadWrite with _ | _
  · exact ⟨decide (a.delete.status = efiSuccess), rfl⟩
  · exact ⟨false, rfl⟩

/-- An open gate hands the file to `UpdateCapsule`. Kind: L -/
theorem applyOneCapsule_of_not_skips {a : ApplyAnswers} {fw : Firmware}
    {file : Option (List UInt8)} {buf : List UInt8} (h : Reaches a file buf)
    (hs : (versionGate a fw buf).skips = false) :
    applyOneCapsule a fw file =
      applyAndConsume a (!efiError a.openReadWrite) (versionGate a fw buf).before buf := by
  have hopen := h.openCapsule_eq
  obtain ⟨-, i, hv⟩ := h
  unfold applyOneCapsule
  simp only [hopen, hv, hs, Bool.false_eq_true, if_false]

/-- The three ways through `ApplyOneCapsule`: stopped before the gate, skipped by it, or handed to
`UpdateCapsule`. Kind: L -/
theorem applyOneCapsule_cases (a : ApplyAnswers) (fw : Firmware) (file : Option (List UInt8)) :
    (∃ o, o ≠ .applied ∧ applyOneCapsule a fw file = ⟨o, fw, false, none⟩) ∨
    (∃ buf r, Reaches a file buf ∧ (versionGate a fw buf).skips = true ∧
      applyOneCapsule a fw file =
        ⟨.alreadyRunning r, fw, !efiError a.openReadWrite && a.delete.removed, none⟩) ∨
    (∃ buf, Reaches a file buf ∧ (versionGate a fw buf).skips = false ∧
      applyOneCapsule a fw file =
        applyAndConsume a (!efiError a.openReadWrite) (versionGate a fw buf).before buf) := by
  by_cases h : ∀ buf, ¬ Reaches a file buf
  · exact .inl (applyOneCapsule_of_not_reaches fw h)
  push Not at h
  obtain ⟨buf, h⟩ := h
  rcases hs : (versionGate a fw buf).skips with _ | _
  · exact .inr (.inr ⟨buf, h, hs, applyOneCapsule_of_not_skips h hs⟩)
  · obtain ⟨r, hr⟩ := applyOneCapsule_of_skips h hs
    exact .inr (.inl ⟨buf, r, h, hs, hr⟩)

/-- **When `ApplyOneCapsule` returns `TRUE`.**
Source: `NucCapsuleOnDiskLib.c` `ApplyOneCapsule`
Kind: P -/
theorem outcome_eq_applied_iff {a : ApplyAnswers} {fw : Firmware} {file : Option (List UInt8)} :
    (applyOneCapsule a fw file).outcome = .applied ↔
      ∃ buf, Reaches a file buf ∧ efiError a.openReadWrite = false ∧
        (versionGate a fw buf).skips = false ∧ efiError a.update.status = false ∧
        confirmApply (versionGate a fw buf).before
          (getFmpLastAttemptStatus a.after a.update.firmware.fmp) = none ∧
        a.delete.status = efiSuccess := by
  constructor
  · intro h
    rcases applyOneCapsule_cases a fw file with ⟨o, ho, he⟩ | ⟨buf, r, -, -, he⟩ | ⟨buf, hr, hs, he⟩
    · rw [he] at h
      exact absurd h ho
    · rw [he] at h
      cases h
    · rw [he, applyAndConsume_outcome_eq_applied_iff] at h
      obtain ⟨hu, hc, hrw, hd⟩ := h
      exact ⟨buf, hr, by simpa using hrw, hs, hu, hc, hd⟩
  · rintro ⟨buf, hr, hrw, hs, hu, hc, hd⟩
    rw [applyOneCapsule_of_not_skips hr hs, applyAndConsume_outcome_eq_applied_iff]
    exact ⟨hu, hc, by simp [hrw], hd⟩

/-- Whatever `applyAndConsume` ends in, `UpdateCapsule` was called once, with this buffer, and the
firmware is what it left. Kind: L -/
theorem applyAndConsume_firmware_handed (a : ApplyAnswers) (c : Bool) (before : Option FmpReading)
    (buf : List UInt8) :
    (applyAndConsume a c before buf).firmware = a.update.firmware ∧
      (applyAndConsume a c before buf).handed = some buf := by
  unfold applyAndConsume
  simp only
  split_ifs
  · exact ⟨rfl, rfl⟩
  · split
    · exact ⟨rfl, rfl⟩
    · exact ⟨rfl, rfl⟩
  · split
    · exact ⟨rfl, rfl⟩
    · exact ⟨rfl, rfl⟩
  · split
    · exact ⟨rfl, rfl⟩
    · exact ⟨rfl, rfl⟩

/-- Either nothing is handed over and the firmware stays as it is, or the whole file is, past an
open gate.
Kind: L -/
theorem applyOneCapsule_handed_cases (a : ApplyAnswers) (fw : Firmware)
    (file : Option (List UInt8)) :
    ((applyOneCapsule a fw file).handed = none ∧ (applyOneCapsule a fw file).firmware = fw) ∨
    ∃ buf, Reaches a file buf ∧ (versionGate a fw buf).skips = false ∧
      (applyOneCapsule a fw file).handed = some buf ∧
      (applyOneCapsule a fw file).firmware = a.update.firmware := by
  rcases applyOneCapsule_cases a fw file with ⟨o, -, he⟩ | ⟨buf, r, -, -, he⟩ | ⟨buf, hr, hs, he⟩
  · exact .inl (by rw [he]; exact ⟨rfl, rfl⟩)
  · exact .inl (by rw [he]; exact ⟨rfl, rfl⟩)
  · obtain ⟨hfw, hhanded⟩ := applyAndConsume_firmware_handed a (!efiError a.openReadWrite)
      (versionGate a fw buf).before buf
    exact .inr ⟨buf, hr, hs, by rw [he, hhanded], by rw [he, hfw]⟩

/-- A `TRUE` return means that the file is gone. Kind: L -/
theorem removed_of_applied {a : ApplyAnswers} {fw : Firmware} {file : Option (List UInt8)}
    (h : (applyOneCapsule a fw file).outcome = .applied) :
    (applyOneCapsule a fw file).removed = true := by
  obtain ⟨buf, hr, hrw, hs, hu, hc, hdel⟩ := outcome_eq_applied_iff.mp h
  rw [applyOneCapsule_of_not_skips hr hs]
  unfold applyAndConsume
  simp only [hu, hc, hrw, hdel, Bool.false_eq_true, if_false, Bool.not_false, Bool.not_true, ne_eq,
    not_true_eq_false]
  exact a.delete.removed_of_success hdel

/-! ### What reaches `UpdateCapsule` -/

/-- A flagless FMP capsule whose sizes agree with one another and with the buffer. Kind: D -/
structure FmpCapsule (buf : List UInt8) : Prop where
  minSize : 28 ≤ buf.length
  maxSize : buf.length ≤ maxCapsuleBytes
  /-- The sixteen octets at the start are the FMP capsule GUID, little-endian. -/
  guid : buf.take 16 = mFmpCapsuleGuid.octets
  flagless : readLe32 (pointer buf) 20 &&& capsuleFlagsPersistAcrossReset = 0
  minHeader : 28 ≤ leWord (pointer buf) 16
  header_le_image : leWord (pointer buf) 16 ≤ leWord (pointer buf) 24
  image_le_size : leWord (pointer buf) 24 ≤ buf.length

/-- The file opens, in one of the two modes, and is sized and read without an error or a short
read.
Kind: D -/
def FullyReadable (a : ApplyAnswers) (content : List UInt8) : Prop :=
  (efiError a.openReadWrite = false ∨ efiError a.openRead = false) ∧ efiError a.getSize = false ∧
    efiError a.read = false ∧ a.readSize = content.length

/-- The payload version and the FMP are both readable, and that version is the running one.
Kind: D -/
def AlreadyRunning (a : ApplyAnswers) (fw : Firmware) (content : List UInt8) : Prop :=
  nucCapsuleGetPayloadVersion (pointer content) content.length = some fw.fmp.version ∧
    FmpWalk.readable a.before = true

/-- The header check and the two size limits together. Kind: L -/
theorem fmpCapsule_iff {buf : List UInt8} : FmpCapsule buf ↔
    buf.length ≤ maxCapsuleBytes ∧
      ∃ i, nucCapsuleValidateHeader (pointer buf) buf.length = .ok i := by
  have hheader : (readLe32 (pointer buf) capsuleOffHeaderSize).toNat = leWord (pointer buf) 16 :=
    readLe32_toNat ..
  have himage : (readLe32 (pointer buf) capsuleOffImageSize).toNat = leWord (pointer buf) 24 :=
    readLe32_toNat ..
  have hguid : 28 ≤ buf.length →
      (nucCapsuleIsFmpCapsule (headerGuid (pointer buf)) = true ↔
        buf.take 16 = mFmpCapsuleGuid.octets) := by
    intro hlen
    rw [nucCapsuleIsFmpCapsule_iff rfl, headerGuid_eq_iff rfl, map_pointer_range (by omega)]
  simp only [nucCapsuleValidateHeader_eq_ok_iff, hheader, himage]
  constructor
  · intro h
    exact ⟨h.maxSize, _, h.minSize, (hguid h.minSize).mpr h.guid, h.flagless, h.minHeader,
      h.header_le_image, h.image_le_size, rfl⟩
  · rintro ⟨hmax, i, hmin, hfmp, hflag, hhead, hle, hsize, -⟩
    exact ⟨hmin, hmax, (hguid hmin).mp hfmp, hflag, hhead, hle, hsize⟩

/-- A file gets as far as the version gate exactly when it is a well-formed capsule that can be
read. Kind: L -/
theorem reaches_iff {a : ApplyAnswers} {file : Option (List UInt8)} {buf : List UInt8} :
    Reaches a file buf ↔
      file = some buf ∧ FmpCapsule buf ∧ a.allocated = true ∧ FullyReadable a buf := by
  have hopen : (efiError a.openReadWrite && efiError a.openRead) = false ↔
      efiError a.openReadWrite = false ∨ efiError a.openRead = false := by
    rw [Bool.and_eq_false_iff]
  rw [Reaches, Arrives, hopen, fmpCapsule_iff, FullyReadable]
  constructor
  · rintro ⟨⟨hfile, hop, hget, -, hmax, hall, hread, hsize⟩, hvalid⟩
    exact ⟨hfile, ⟨hmax, hvalid⟩, hall, hop, hget, hread, hsize⟩
  · rintro ⟨hfile, ⟨hmax, hvalid⟩, hall, hop, hget, hread, hsize⟩
    have hpos : 0 < buf.length := by
      have hmin := (fmpCapsule_iff.mpr ⟨hmax, hvalid⟩).minSize
      omega
    exact ⟨⟨hfile, hop, hget, hpos, hmax, hall, hread, hsize⟩, hvalid⟩

lemma skips_versionGate_iff {a : ApplyAnswers} {fw : Firmware} {buf : List UInt8} :
    (versionGate a fw buf).skips = true ↔ AlreadyRunning a fw buf := by
  rw [Gate.skips_eq_true_iff, AlreadyRunning]
  simp only [versionGate]
  rcases hread : FmpWalk.readable a.before with _ | _
  · simp [getFmpLastAttemptStatus_of_not_readable fw.fmp hread]
  · obtain ⟨r, hr, hversion⟩ := exists_reading fw.fmp hread
    simp [hr, ← hversion]

/-- **What `UpdateCapsule` is given.** `ApplyOneCapsule` hands over the octets of the file, whole
and unchanged, exactly if they are a well-formed flagless FMP capsule, the file can be read, the
allocation succeeds, and the version gate does not find its version running already.
Source: `NucCapsuleOnDiskLib.c` `ApplyOneCapsule`; `NucCapsuleParse.c` `NucCapsuleValidateHeader`
Kind: P -/
theorem handed_to_update_iff (a : ApplyAnswers) (fw : Firmware) (file : Option (List UInt8))
    (buf : List UInt8) :
    (applyOneCapsule a fw file).handed = some buf ↔
      file = some buf ∧ FmpCapsule buf ∧ a.allocated = true ∧ FullyReadable a buf ∧
        ¬ AlreadyRunning a fw buf := by
  rw [← skips_versionGate_iff, Bool.not_eq_true]
  constructor
  · intro h
    rcases applyOneCapsule_handed_cases a fw file with ⟨hnone, -⟩ | ⟨buf', hr, hs, hsome, -⟩
    · rw [hnone] at h
      cases h
    · rw [hsome] at h
      cases h
      obtain ⟨hfile, hcapsule, hall, hread⟩ := reaches_iff.mp hr
      exact ⟨hfile, hcapsule, hall, hread, hs⟩
  · rintro ⟨hfile, hcapsule, hall, hread, hs⟩
    have hr : Reaches a file buf := reaches_iff.mpr ⟨hfile, hcapsule, hall, hread⟩
    rw [applyOneCapsule_of_not_skips hr hs]
    exact (applyAndConsume_firmware_handed ..).2

/-! ### The record as proof -/

/-- `TRUE` over a stale record: the snapshot did not show the record held (it could not be taken,
or was taken while the controller state was unreadable and shows the default), `UpdateCapsule`
reported no error and left the record as it was, and that record already read as a success.
Everything else (a file past the gate that can be deleted, the record shown afterwards) went well.
Kind: D -/
def BlindOverStale (a : ApplyAnswers) (fw : Firmware) (file : Option (List UInt8)) : Prop :=
  (∃ buf, Reaches a file buf ∧ ¬ AlreadyRunning a fw buf) ∧ efiError a.openReadWrite = false ∧
    FmpWalk.showsRecord a.before = false ∧ efiError a.update.status = false ∧
    a.update.firmware.fmp.record = fw.fmp.record ∧
    fw.fmp.lastAttemptVersion ≠ 0 ∧ fw.fmp.lastAttemptStatus = lastAttemptStatusSuccess ∧
    FmpWalk.showsRecord a.after = true ∧ a.delete.status = efiSuccess

/-- What the record shows after a `TRUE`, and that it moved unless the snapshot did not show it.
Kind: L -/
theorem record_of_applied {a : ApplyAnswers} {fw : Firmware} {file : Option (List UInt8)}
    (h : (applyOneCapsule a fw file).outcome = .applied) :
    (applyOneCapsule a fw file).firmware = a.update.firmware ∧
      FmpWalk.showsRecord a.after = true ∧
      a.update.firmware.fmp.lastAttemptStatus = lastAttemptStatusSuccess ∧
      a.update.firmware.fmp.lastAttemptVersion ≠ 0 ∧
      (FmpWalk.showsRecord a.before = true → a.update.firmware.fmp.record ≠ fw.fmp.record) := by
  obtain ⟨buf, hr, -, hs, -, hc, -⟩ := outcome_eq_applied_iff.mp h
  rw [applyOneCapsule_of_not_skips hr hs]
  refine ⟨(applyAndConsume_firmware_handed ..).1, ?_⟩
  obtain ⟨r, hafter, hstatus, hversion, hmoved⟩ := confirmApply_eq_none_iff.mp hc
  -- the default record has version 0, which the proof refuses
  have hshows : FmpWalk.showsRecord a.after = true := by
    by_contra hnot
    exact hversion (lastVersion_of_not_showsRecord (Bool.eq_false_iff.mpr hnot) hafter)
  rw [getFmpLastAttemptStatus_of_showsRecord _ hshows] at hafter
  obtain rfl := Option.some.inj hafter
  refine ⟨hshows, hstatus, hversion, fun hbefore heq => ?_⟩
  have hsnap : (versionGate a fw buf).before = some (FmpReading.ofImage fw.fmp) :=
    getFmpLastAttemptStatus_of_showsRecord fw.fmp hbefore
  exact hmoved _ hsnap (Prod.mk.inj heq)

/-- **Proof of apply, exactly.** A `TRUE` return is backed by a record that reads
(non-zero, `SUCCESS`) and differs from the record before the call, except over a stale record
that the snapshot did not show.
Source: `NucCapsuleOnDiskLib.c` file header, `ApplyOneCapsule`
Kind: P -/
theorem applied_only_if_proven_iff (a : ApplyAnswers) (fw : Firmware)
    (file : Option (List UInt8)) :
    ((applyOneCapsule a fw file).outcome = .applied →
      (applyOneCapsule a fw file).firmware.fmp.lastAttemptVersion ≠ 0 ∧
      (applyOneCapsule a fw file).firmware.fmp.lastAttemptStatus = lastAttemptStatusSuccess ∧
      (applyOneCapsule a fw file).firmware.fmp.record ≠ fw.fmp.record) ↔
    ¬ BlindOverStale a fw file := by
  constructor
  · rintro h ⟨⟨buf, hr, hnot⟩, hrw, hbefore, hu, hsame, hversion, hstatus, hafter, hdel⟩
    have hs : (versionGate a fw buf).skips = false := by
      rw [← Bool.not_eq_true, skips_versionGate_iff]
      exact hnot
    have hparts := Prod.mk.inj hsame
    have hnonzero : a.update.firmware.fmp.lastAttemptVersion ≠ 0 := hparts.1 ▸ hversion
    have happlied : (applyOneCapsule a fw file).outcome = .applied := by
      refine outcome_eq_applied_iff.mpr ⟨buf, hr, hrw, hs, hu, ?_, hdel⟩
      rw [confirmApply_eq_none_iff, getFmpLastAttemptStatus_of_showsRecord _ hafter]
      refine ⟨_, rfl, hparts.2.trans hstatus, hnonzero, fun b hb heq => hnonzero ?_⟩
      exact heq.1.trans (lastVersion_of_not_showsRecord hbefore hb)
    have hproof := (h happlied).2.2
    rw [(record_of_applied happlied).1] at hproof
    exact hproof hsame
  · intro hnot happlied
    obtain ⟨hfw, hafter, hstatus, hversion, hmoved⟩ := record_of_applied happlied
    obtain ⟨buf, hr, hrw, hs, hu, -, hdel⟩ := outcome_eq_applied_iff.mp happlied
    rw [hfw]
    refine ⟨hversion, hstatus, fun hsame => ?_⟩
    -- an unmoved record leaves only a snapshot that did not show it
    rcases hbefore : FmpWalk.showsRecord a.before with _ | _
    · have hparts := Prod.mk.inj hsame
      have hgate : ¬ AlreadyRunning a fw buf := by
        rw [← skips_versionGate_iff, hs]
        exact Bool.false_ne_true
      exact hnot ⟨⟨buf, hr, hgate⟩, hrw, hbefore, hu, hsame, hparts.1 ▸ hversion,
        hparts.2 ▸ hstatus, hafter, hdel⟩
    · exact hmoved hbefore hsame

/-- The platform's instance, every call on it answered. Kind: D -/
def platformHandle : FmpHandle :=
  ⟨efiSuccess, efiBufferTooSmall, true, efiSuccess, 3, 1, .platform, true⟩

/-- A walk that reads the record. Kind: D -/
def readableWalk : FmpWalk := ⟨efiSuccess, [platformHandle]⟩

/-- A walk whose `LocateHandleBuffer` fails. Kind: D -/
def unreadableWalk : FmpWalk := ⟨efiNotFound, []⟩

/-- A walk that reads the instance while its controller state is unreadable. Kind: D -/
def defaultWalk : FmpWalk := ⟨efiSuccess, [{ platformHandle with stateReadable := false }]⟩

/-- Every call succeeds, on a file of 45 octets, over the given snapshot and update. Kind: D -/
def goodAnswers (before : FmpWalk) (update : UpdateAnswer) : ApplyAnswers where
  openReadWrite := efiSuccess
  openRead := efiSuccess
  getSize := efiSuccess
  allocated := true
  read := efiSuccess
  readSize := 45
  before := before
  update := update
  after := readableWalk
  delete := ⟨efiSuccess, true, fun _ => rfl⟩

/-- Firmware running version `v`, whose last attempt was version `r` with status success. Kind: D -/
def firmwareAt (v r : UInt32) : Firmware := ⟨⟨none, v, none, 0, 0, r, 0⟩, v⟩

/-- An update to version 7 that records nothing, over the record left by an old success, with what
is found before it. Kind: D -/
def unrecordedUpdate (before : FmpWalk) : ApplyResult :=
  applyOneCapsule (goodAnswers before ⟨efiSuccess, firmwareAt 5 5⟩) (firmwareAt 5 5)
    (some (capsuleOfVersion 7))

/-- With the snapshot unreadable, or showing the default record, an update that records nothing
counts as applied and the file is deleted.
Kind: C -/
theorem applied_over_stale_record :
    ((unrecordedUpdate unreadableWalk).outcome = .applied ∧
        (unrecordedUpdate unreadableWalk).removed = true ∧
        (unrecordedUpdate unreadableWalk).firmware.fmp.record = (firmwareAt 5 5).fmp.record) ∧
      (unrecordedUpdate defaultWalk).outcome = .applied ∧
        (unrecordedUpdate defaultWalk).removed = true ∧
        (unrecordedUpdate defaultWalk).firmware.fmp.record = (firmwareAt 5 5).fmp.record := by
  decide +kernel

end NucBios.Capsule
