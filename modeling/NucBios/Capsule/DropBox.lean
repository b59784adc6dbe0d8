import NucBios.Capsule.Apply
import NucBios.Lib.Lines
import NucBios.Lib.Machine

/-!
# The drop boxes and the scan: `ProcessDropBox`, `OnReadyToBoot`, boots

The staged files of all volumes are one list (`Media`), keyed by volume and name, in directory
order; the drop box of a volume is the part of it with that volume. What the file system answers
in one boot is a `ReadyToBoot`: the handles in the order of `LocateHandleBuffer`, each with its
answers in both passes.

* `collectNames` — the fixed-size name array; `collectNames_eq` says which names it takes;
* `Scan.applyFile`, `applyNames`, `processDropBox` — the apply loop and its two counters;
* `onReadyToBoot`, `boot` — the latch, the two passes, the cold reset; `boot_cases` says that
  only the first `ReadyToBoot` signal of a boot does anything;
* `boots` — the machine whose events are boots and the withdrawal of a file by somebody else.
  Nobody adds a file.

Two facts carry the results of the modules above: `Scan.invariant`, one induction for everything
kept by a single `ApplyOneCapsule`, and `scan_calls_ids`, which files a scan passes to it.
-/

namespace NucBios.Capsule

open NucBios.Uefi NucBios.Lib

/-- `MAX_CAPSULES`. Kind: D -/
def maxCapsules : ℕ := 8

/-- `EFI_FILE_DIRECTORY`. Kind: D -/
def efiFileDirectory : UInt64 := 0x10

/-! ### Media -/

/-- A file of a drop box: the volume and the name. Kind: D -/
structure FileId where
  volume : ℕ
  name : List UInt16
  deriving DecidableEq, Repr

/-- A directory entry of a drop box. Kind: D -/
structure DirEntry where
  id : FileId
  fileAttribute : UInt64
  content : List UInt8
  deriving DecidableEq, Repr

/-- The drop boxes of all volumes; no directory holds a name twice. Kind: D -/
structure Media where
  entries : List DirEntry
  nodup : (entries.map DirEntry.id).Nodup

/-- The drop box of one volume, in directory order. Kind: D -/
def Media.dropBox (m : Media) (v : ℕ) : List DirEntry := m.entries.filter fun e => e.id.volume = v

/-- The octets of a file, if it is there. Kind: D -/
def Media.content (m : Media) (id : FileId) : Option (List UInt8) :=
  (m.entries.find? fun e => e.id = id).map DirEntry.content

/-- The media without one file. Kind: D -/
def Media.remove (m : Media) (id : FileId) : Media where
  entries := m.entries.filter fun e => e.id ≠ id
  nodup := m.nodup.sublist (List.filter_sublist.map _)

/-- A non-directory, non-empty entry with a capsule's name.
Source: `NucCapsuleOnDiskLib.c` `DropBoxHasCapsules`, `ProcessDropBox`
Kind: D -/
def DirEntry.isCandidate (e : DirEntry) : Bool :=
  e.fileAttribute &&& efiFileDirectory == 0 && 0 < e.content.length &&
    nucCapsuleIsCandidateFile e.id.name

/-- The capsules staged on all volumes. Kind: D -/
def Media.staged (m : Media) : List DirEntry := m.entries.filter DirEntry.isCandidate

/-- The capsules staged in one volume's drop box, in directory order. Kind: D -/
def Media.candidates (m : Media) (v : ℕ) : List DirEntry :=
  (m.dropBox v).filter DirEntry.isCandidate

/-! ### Answers of the file system -/

/-- What one pass meets at a volume: whether `OpenVolumeRoot` succeeds, the status of opening the
drop box, and how many entries are listed before the end or an error.
Kind: D -/
structure DirAnswers where
  openVolumeRoot : Bool
  openDir : EfiStatus
  listed : ℕ

/-- The two visits to one file-system handle. Kind: D -/
structure Visit where
  volume : ℕ
  firstPass : DirAnswers
  secondPass : DirAnswers
  /-- `AllocateCopyPool` for the name of the `i`-th listed entry. -/
  allocated : ℕ → Bool
  /-- The answers to `ApplyOneCapsule` on the `i`-th collected name. -/
  apply : ℕ → ApplyAnswers

/-- One `ReadyToBoot` signal: `LocateHandleBuffer`, then the handles, one for each volume.
Kind: D -/
structure ReadyToBoot where
  located : EfiStatus
  visits : List Visit
  nodup : (visits.map Visit.volume).Nodup

/-! ### The scan -/

/-- Source: `NucCapsuleOnDiskLib.c` `DropBoxHasCapsules`. Kind: D -/
def dropBoxHasCapsules (a : DirAnswers) (box : List DirEntry) : Bool :=
  if efiError a.openDir then
    false
  else
    (box.take a.listed).any DirEntry.isCandidate

/-- The first loop of `ProcessDropBox`, over the entries listed, the `i`-th first. A name that
cannot be allocated is dropped and its slot used for the next one.
Source: `NucCapsuleOnDiskLib.c` `ProcessDropBox`
Kind: D -/
def collectNames (allocated : ℕ → Bool) : ℕ → List DirEntry → List FileId → List FileId
  | _, [], names => names
  | i, e :: es, names =>
      if e.isCandidate then
        if names.length < maxCapsules then
          collectNames allocated (i + 1) es (if allocated i then names ++ [e.id] else names)
        else
          -- "more than 8 entries, ignoring it this boot"
          collectNames allocated (i + 1) es names
      else
        collectNames allocated (i + 1) es names

/-- The platform: the firmware and the media. Kind: D -/
structure Platform where
  firmware : Firmware
  media : Media

/-- One call of `ApplyOneCapsule`: the file, the answers it met, the result. Kind: D -/
structure Call where
  id : FileId
  answers : ApplyAnswers
  result : ApplyResult

/-- The scan so far: the platform, the two counters of `OnReadyToBoot`, and the calls made.
Kind: D -/
structure Scan where
  platform : Platform
  applied : ℕ
  failed : ℕ
  calls : List Call

/-- One turn of the apply loop. Kind: D -/
def Scan.applyFile (s : Scan) (id : FileId) (a : ApplyAnswers) : Scan :=
  let r := applyOneCapsule a s.platform.firmware (s.platform.media.content id)
  { platform :=
      { firmware := r.firmware
        media := if r.removed then s.platform.media.remove id else s.platform.media }
    applied := if r.outcome = .applied then s.applied + 1 else s.applied
    failed := if r.outcome = .applied then s.failed else s.failed + 1
    calls := s.calls ++ [⟨id, a, r⟩] }

/-- The second loop of `ProcessDropBox`.
Source: `NucCapsuleOnDiskLib.c` `ProcessDropBox`
Kind: D -/
def applyNames (answers : ℕ → ApplyAnswers) : ℕ → List FileId → Scan → Scan
  | _, [], s => s
  | i, id :: ids, s => applyNames answers (i + 1) ids (s.applyFile id (answers i))

/-- The names `ProcessDropBox` collects at a volume, none when it cannot be opened. Kind: D -/
def Visit.names (w : Visit) (m : Media) : List FileId :=
  if !w.secondPass.openVolumeRoot then
    []
  else if efiError w.secondPass.openDir then
    []
  else
    collectNames w.allocated 0 ((m.dropBox w.volume).take w.secondPass.listed) []

/-- Source: `NucCapsuleOnDiskLib.c` `ProcessDropBox`, with the `OpenVolumeRoot` before it.
Kind: D -/
def processDropBox (s : Scan) (w : Visit) : Scan :=
  applyNames w.apply 0 (w.names s.platform.media) s

/-- The first pass: the loop stops at the first volume with something staged.
Source: `NucCapsuleOnDiskLib.c` `OnReadyToBoot`
Kind: D -/
def anyStaged (sig : ReadyToBoot) (m : Media) : Bool :=
  sig.visits.any fun w =>
    w.firstPass.openVolumeRoot && dropBoxHasCapsules w.firstPass (m.dropBox w.volume)

/-- The second pass over all volumes. Kind: D -/
def scan (sig : ReadyToBoot) (p : Platform) : Scan :=
  sig.visits.foldl processDropBox ⟨p, 0, 0, []⟩

/-- A boot under way: the platform, the latch `mNucCodScanDone`, the calls made, and whether
`ResetSystem` was called.
Kind: D -/
structure BootState where
  platform : Platform
  mNucCodScanDone : Bool
  calls : List Call
  reset : Bool

/-- Source: `NucCapsuleOnDiskLib.c` `OnReadyToBoot`. The `OsIndications` variables and the
connection of USB storage do not act on the scan.
Kind: D -/
def onReadyToBoot (b : BootState) (sig : ReadyToBoot) : BootState :=
  if b.mNucCodScanDone then
    b
  else if efiError sig.located then
    { b with mNucCodScanDone := true }
  else if !anyStaged sig b.platform.media then
    { b with mNucCodScanDone := true }
  else
    let s := scan sig b.platform
    { platform := s.platform
      mNucCodScanDone := true
      calls := b.calls ++ s.calls
      reset := decide (0 < s.applied) }

/-- The signals of one boot, until a reset ends it. Kind: D -/
def signals : BootState → List ReadyToBoot → BootState
  | b, [] => b
  | b, sig :: sigs => if b.reset then b else signals (onReadyToBoot b sig) sigs

/-- One boot: what the FMP shows at its start, and its `ReadyToBoot` signals. Kind: D -/
structure Boot where
  fmp : FmpImage
  signals : List ReadyToBoot

/-- The platform as the boot finds it. Kind: D -/
def Boot.start (b : Boot) (p : Platform) : Platform :=
  { p with firmware := { p.firmware with fmp := b.fmp } }

/-- A boot from a platform; the latch is a static variable, clear at the start. Kind: D -/
def boot (p : Platform) (b : Boot) : BootState :=
  signals ⟨b.start p, false, [], false⟩ b.signals

/-- What may happen to the platform. Kind: D -/
inductive BootEvent where
  | boot (b : Boot)
  /-- Somebody else removes a file between boots. -/
  | withdraw (id : FileId)

/-- The platform after an event. Kind: D -/
def BootEvent.next (p : Platform) : BootEvent → Platform
  | .boot b => (Capsule.boot p b).platform
  | .withdraw id => { p with media := p.media.remove id }

/-- The platform over boots; no event is refused. Kind: D -/
def boots : Machine Platform BootEvent where
  step p e := some (e.next p)

/-- The boot an event is, if it is one. Kind: D -/
def BootEvent.boot? : BootEvent → Option Boot
  | .boot b => some b
  | .withdraw _ => none

/-- The calls of `ApplyOneCapsule` made in an event. Kind: D -/
def BootEvent.calls (p : Platform) : BootEvent → List Call
  | .boot b => (Capsule.boot p b).calls
  | .withdraw _ => []

/-- The cold resets issued in an event. Kind: D -/
def BootEvent.resets (p : Platform) : BootEvent → ℕ
  | .boot b => if (Capsule.boot p b).reset then 1 else 0
  | .withdraw _ => 0

@[simp] theorem BootEvent.next_boot (p : Platform) (b : Boot) :
    (BootEvent.boot b).next p = (Capsule.boot p b).platform := rfl

@[simp] theorem BootEvent.calls_boot (p : Platform) (b : Boot) :
    (BootEvent.boot b).calls p = (Capsule.boot p b).calls := rfl

lemma boots_step (p : Platform) (e : BootEvent) : boots.step p e = some (e.next p) := rfl

/-! ### The media under removal -/

lemma Media.mem_remove {m : Media} {id : FileId} {e : DirEntry} :
    e ∈ (m.remove id).entries ↔ e ∈ m.entries ∧ e.id ≠ id := by
  simp [Media.remove]

/-- A removal leaves the drop boxes of the other volumes alone. Kind: L -/
theorem Media.dropBox_remove_of_ne (m : Media) {id : FileId} {v : ℕ} (h : id.volume ≠ v) :
    (m.remove id).dropBox v = m.dropBox v := by
  unfold Media.dropBox Media.remove
  rw [List.filter_filter]
  refine List.filter_congr fun e _ => ?_
  by_cases hv : e.id.volume = v
  · have hne : e.id ≠ id := by
      rintro rfl
      exact h hv
    simp [hv, hne]
  · simp [hv]

/-- The file found under an id. Kind: L -/
theorem Media.content_eq_some {m : Media} {id : FileId} {c : List UInt8}
    (h : m.content id = some c) : ∃ e ∈ m.entries, e.id = id ∧ e.content = c := by
  unfold Media.content at h
  rw [Option.map_eq_some_iff] at h
  obtain ⟨e, hfind, rfl⟩ := h
  exact ⟨e, List.mem_of_find?_eq_some hfind, by simpa using List.find?_some hfind, rfl⟩

/-- No entry under this id is anything but a capsule. Kind: D -/
def Media.OnlyCandidate (m : Media) (id : FileId) : Prop :=
  ∀ e ∈ m.entries, e.id = id → e.isCandidate = true

lemma Media.staged_remove (m : Media) (id : FileId) :
    (m.remove id).staged = m.staged.filter fun e => e.id ≠ id := by
  unfold Media.staged Media.remove
  rw [List.filter_filter, List.filter_filter]
  exact List.filter_congr fun e _ => Bool.and_comm _ _

/-- Removing a staged capsule lowers the number staged. Kind: L -/
theorem Media.staged_remove_lt {m : Media} {id : FileId} {c : List UInt8}
    (hid : m.OnlyCandidate id) (h : m.content id = some c) :
    (m.remove id).staged.length + 1 ≤ m.staged.length := by
  obtain ⟨e, he, hide, -⟩ := Media.content_eq_some h
  have hmem : e ∈ m.staged := List.mem_filter.mpr ⟨he, hid e he hide⟩
  rw [Media.staged_remove, Nat.add_one_le_iff]
  exact List.length_filter_lt_length_iff_exists.mpr ⟨e, hmem, by simpa using hide⟩

/-- Removing any file does not raise it. Kind: L -/
theorem Media.staged_remove_le (m : Media) (id : FileId) :
    (m.remove id).staged.length ≤ m.staged.length := by
  unfold Media.staged Media.remove
  exact (List.filter_sublist.filter _).length_le

/-! ### One turn of the apply loop -/

/-- The media after a turn: untouched, or without the file. Kind: L -/
theorem Scan.applyFile_media (s : Scan) (id : FileId) (a : ApplyAnswers) :
    (s.applyFile id a).platform.media = s.platform.media ∨
      (s.applyFile id a).platform.media = s.platform.media.remove id := by
  unfold Scan.applyFile
  simp only
  split_ifs
  · exact .inr rfl
  · exact .inl rfl

/-- A turn adds no entry and moves none. Kind: L -/
theorem Scan.applyFile_entries_sublist (s : Scan) (id : FileId) (a : ApplyAnswers) :
    (s.applyFile id a).platform.media.entries.Sublist s.platform.media.entries := by
  rcases s.applyFile_media id a with hm | hm
  · rw [hm]
  · rw [hm]
    exact List.filter_sublist

/-- A turn leaves the drop boxes of the other volumes alone. Kind: L -/
theorem Scan.applyFile_dropBox (s : Scan) {id : FileId} (a : ApplyAnswers) {v : ℕ}
    (h : id.volume ≠ v) :
    (s.applyFile id a).platform.media.dropBox v = s.platform.media.dropBox v := by
  rcases s.applyFile_media id a with hm | hm
  · rw [hm]
  · rw [hm, Media.dropBox_remove_of_ne _ h]

/-! ### The names collected -/

/-- The name array holds the first `MAX_CAPSULES` candidates whose names could be allocated.
Source: `NucCapsuleOnDiskLib.c` `ProcessDropBox`
Kind: P -/
theorem collectNames_eq (allocated : ℕ → Bool) :
    ∀ (i : ℕ) (es : List DirEntry) (names : List FileId), names.length ≤ maxCapsules →
      collectNames allocated i es names =
        names ++ (((es.zipIdx i).filter fun p => p.1.isCandidate && allocated p.2).map
          fun p => p.1.id).take (maxCapsules - names.length)
  | _, [], names, _ => by simp [collectNames]
  | i, e :: es, names, hlen => by
      have ih := collectNames_eq allocated (i + 1) es
      rw [collectNames, List.zipIdx_cons, List.filter_cons]
      by_cases hc : e.isCandidate = true
      swap
      · simp [hc, ih names hlen]
      by_cases hroom : names.length < maxCapsules
      swap
      · have hfull : maxCapsules - names.length = 0 := by omega
        simp [hc, hroom, ih names hlen, hfull]
      by_cases ha : allocated i = true
      · have hlen' : (names ++ [e.id]).length ≤ maxCapsules := by simpa using hroom
        have hslot : maxCapsules - names.length =
            (maxCapsules - (names ++ [e.id]).length) + 1 := by
          rw [List.length_append, List.length_singleton]
          omega
        simp only [hc, hroom, ha, if_true, Bool.and_self, List.map_cons]
        rw [ih _ hlen', hslot, List.take_succ_cons, List.append_assoc, List.singleton_append]
      · simp only [hc, hroom, ha, if_true, Bool.and_false, Bool.false_eq_true, if_false]
        exact ih names hlen

/-- Only capsules of the volume are collected, each once. Kind: L -/
theorem Visit.names_sublist (w : Visit) (m : Media) :
    (w.names m).Sublist ((m.candidates w.volume).map DirEntry.id) := by
  unfold Visit.names
  split_ifs
  · exact List.nil_sublist _
  · exact List.nil_sublist _
  rw [collectNames_eq _ _ _ _ (Nat.zero_le _), List.nil_append]
  refine (List.take_sublist _ _).trans ?_
  have hfst : ∀ (es : List DirEntry) (i : ℕ),
      ((es.zipIdx i).filter fun p => p.1.isCandidate && w.allocated p.2).map (fun p => p.1.id)
        |>.Sublist ((es.filter DirEntry.isCandidate).map DirEntry.id) := by
    intro es i
    have hstep : ((es.zipIdx i).filter fun p => p.1.isCandidate && w.allocated p.2).Sublist
        ((es.zipIdx i).filter fun p => p.1.isCandidate) := by
      refine List.monotone_filter_right _ fun p hp => ?_
      simp only [Bool.and_eq_true] at hp
      exact hp.1
    have := hstep.map fun p => p.1.id
    rwa [← map_fst_filter_zipIdx _ es i, List.map_map]
  refine (hfst _ _).trans ?_
  exact ((List.take_sublist _ _).filter _).map _

lemma Visit.mem_names {w : Visit} {m : Media} {id : FileId} (h : id ∈ w.names m) :
    id.volume = w.volume ∧ m.OnlyCandidate id := by
  obtain ⟨e, he, rfl⟩ := List.mem_map.mp ((w.names_sublist m).subset h)
  obtain ⟨hbox, hc⟩ := List.mem_filter.mp he
  obtain ⟨hmem, hv⟩ := List.mem_filter.mp hbox
  refine ⟨by simpa using hv, fun e' he' hid => ?_⟩
  -- ids are unique, so the entry under this id is the candidate itself
  rwa [List.inj_on_of_nodup_map m.nodup he' hmem hid]

/-- Names depend on the drop box of the volume only. Kind: L -/
theorem Visit.names_congr {w : Visit} {m m' : Media}
    (h : m'.dropBox w.volume = m.dropBox w.volume) :
    w.names m' = w.names m := by
  unfold Visit.names
  rw [h]

/-! ### The scan -/

section ScanInvariant

variable {answers : ℕ → ApplyAnswers} {P : Scan → Prop}

/-- What every turn on a capsule keeps, the apply loop keeps. Kind: L -/
theorem applyNames_invariant
    (hstep : ∀ s id a, s.platform.media.OnlyCandidate id → P s → P (s.applyFile id a)) :
    ∀ (i : ℕ) (ids : List FileId) (s : Scan),
      (∀ id ∈ ids, s.platform.media.OnlyCandidate id) → P s → P (applyNames answers i ids s)
  | _, [], _, _, hs => hs
  | i, id :: ids, s, hids, hs => by
      rw [applyNames]
      refine applyNames_invariant hstep (i + 1) ids _ ?_ ?_
      · intro id' hid' e he
        exact hids id' (List.mem_cons_of_mem _ hid') e
          ((s.applyFile_entries_sublist id _).subset he)
      · exact hstep s id (answers i) (hids id List.mem_cons_self) hs

/-- **One induction for every scan.** What every `ApplyOneCapsule` on a staged capsule keeps, the
whole second pass keeps.
Source: `NucCapsuleOnDiskLib.c` `OnReadyToBoot`
Kind: P -/
theorem Scan.invariant {sig : ReadyToBoot} {p : Platform}
    (hstep : ∀ s id a, s.platform.media.OnlyCandidate id → P s → P (s.applyFile id a))
    (h0 : P ⟨p, 0, 0, []⟩) : P (scan sig p) := by
  unfold scan
  suffices h : ∀ (ws : List Visit) (s : Scan), P s → P (ws.foldl processDropBox s) from h _ _ h0
  intro ws
  induction ws with
  | nil => exact fun s hs => hs
  | cons w ws ih =>
      intro s hs
      rw [List.foldl_cons]
      exact ih _ (applyNames_invariant hstep 0 _ s (fun id hid => (Visit.mem_names hid).2) hs)

end ScanInvariant

/-- The apply loop passes the names given, in order. Kind: L -/
theorem applyNames_calls_ids (answers : ℕ → ApplyAnswers) :
    ∀ (i : ℕ) (ids : List FileId) (s : Scan),
      (applyNames answers i ids s).calls.map Call.id = s.calls.map Call.id ++ ids
  | _, [], s => by simp [applyNames]
  | i, id :: ids, s => by
      rw [applyNames, applyNames_calls_ids]
      simp [Scan.applyFile]

/-- The apply loop leaves the drop boxes of other volumes alone. Kind: L -/
theorem applyNames_dropBox (answers : ℕ → ApplyAnswers) {v : ℕ} :
    ∀ (i : ℕ) (ids : List FileId) (s : Scan), (∀ id ∈ ids, id.volume ≠ v) →
      (applyNames answers i ids s).platform.media.dropBox v = s.platform.media.dropBox v
  | _, [], _, _ => rfl
  | i, id :: ids, s, h => by
      rw [applyNames,
        applyNames_dropBox answers _ _ _ fun id' h' => h id' (List.mem_cons_of_mem _ h')]
      exact s.applyFile_dropBox _ (h id List.mem_cons_self)

/-- **Which files a scan passes to `ApplyOneCapsule`**: volume by volume, the names collected from
the drop boxes as they were at its start.
Source: `NucCapsuleOnDiskLib.c` `OnReadyToBoot`, `ProcessDropBox`
Kind: P -/
theorem scan_calls_ids (sig : ReadyToBoot) (p : Platform) :
    (scan sig p).calls.map Call.id = sig.visits.flatMap fun w => w.names p.media := by
  unfold scan
  suffices h : ∀ (ws : List Visit) (s : Scan), (ws.map Visit.volume).Nodup →
      (∀ w ∈ ws, s.platform.media.dropBox w.volume = p.media.dropBox w.volume) →
      (ws.foldl processDropBox s).calls.map Call.id =
        s.calls.map Call.id ++ ws.flatMap fun w => w.names p.media by
    simpa using h sig.visits ⟨p, 0, 0, []⟩ sig.nodup fun _ _ => rfl
  intro ws
  induction ws with
  | nil => simp
  | cons w ws ih =>
      intro s hnd hbox
      rw [List.map_cons, List.nodup_cons] at hnd
      rw [List.foldl_cons, ih _ hnd.2, processDropBox, applyNames_calls_ids,
        Visit.names_congr (hbox w List.mem_cons_self)]
      · simp
      · intro w' hw'
        rw [processDropBox, applyNames_dropBox]
        · exact hbox w' (List.mem_cons_of_mem _ hw')
        · intro id hid heq
          refine hnd.1 (List.mem_map.mpr ⟨w', hw', ?_⟩)
          rw [← heq, (Visit.mem_names hid).1]

/-- No file is passed twice in one scan. Kind: L -/
theorem scan_calls_nodup (sig : ReadyToBoot) (p : Platform) :
    ((scan sig p).calls.map Call.id).Nodup := by
  rw [scan_calls_ids, List.nodup_flatMap]
  constructor
  · intro w _
    refine (List.Nodup.sublist ((List.filter_sublist.trans List.filter_sublist).map _)
      p.media.nodup).sublist (w.names_sublist p.media)
  · have hnd := List.pairwise_map.mp sig.nodup
    refine hnd.imp fun {w w'} hne id hid hid' => hne ?_
    rw [← (Visit.mem_names hid).1, ← (Visit.mem_names hid').1]

/-- `Applied` counts the `TRUE` returns. Kind: L -/
theorem scan_applied_eq (sig : ReadyToBoot) (p : Platform) :
    (scan sig p).applied = (scan sig p).calls.countP fun c => c.result.outcome = .applied := by
  refine Scan.invariant (P := fun s =>
    s.applied = s.calls.countP fun c => c.result.outcome = .applied) ?_ rfl
  intro s id a _ hs
  unfold Scan.applyFile
  simp only [List.countP_append, List.countP_singleton, hs, decide_eq_true_eq]
  split_ifs <;> rfl

/-! ### Boots -/

/-- With the latch set nothing more happens. Kind: L -/
theorem signals_of_scanDone :
    ∀ (sigs : List ReadyToBoot) (b : BootState), b.mNucCodScanDone = true → signals b sigs = b
  | [], _, _ => rfl
  | sig :: sigs, b, h => by
      rw [signals]
      split_ifs
      · rfl
      · have hb : onReadyToBoot b sig = b := by rw [onReadyToBoot, if_pos h]
        rw [hb, signals_of_scanDone sigs b h]

@[simp] theorem Boot.start_media (b : Boot) (p : Platform) : (b.start p).media = p.media := rfl

@[simp] theorem Boot.start_flash (b : Boot) (p : Platform) :
    (b.start p).firmware.flash = p.firmware.flash := rfl

@[simp] theorem Boot.start_fmp (b : Boot) (p : Platform) : (b.start p).firmware.fmp = b.fmp := rfl

lemma onReadyToBoot_scanDone (b : BootState) (sig : ReadyToBoot) :
    (onReadyToBoot b sig).mNucCodScanDone = true := by
  unfold onReadyToBoot
  split_ifs with h
  · exact h
  all_goals rfl

/-- **One scan a boot.** A boot does nothing, or it is the scan of its first signal.
Source: `NucCapsuleOnDiskLib.c` `OnReadyToBoot`, `mNucCodScanDone`
Kind: P -/
theorem boot_cases (p : Platform) (b : Boot) :
    ((∀ sig ∈ b.signals.head?, efiError sig.located = true ∨ anyStaged sig p.media = false) ∧
      (boot p b).platform = b.start p ∧ (boot p b).calls = [] ∧ (boot p b).reset = false) ∨
    ∃ sig ∈ b.signals.head?, efiError sig.located = false ∧ anyStaged sig p.media = true ∧
      (boot p b).platform = (scan sig (b.start p)).platform ∧
      (boot p b).calls = (scan sig (b.start p)).calls ∧
      (boot p b).reset = decide (0 < (scan sig (b.start p)).applied) := by
  unfold boot
  rcases hsig : b.signals with _ | ⟨sig, sigs⟩
  · exact .inl ⟨by simp, rfl, rfl, rfl⟩
  rw [signals, if_neg Bool.false_ne_true,
    signals_of_scanDone _ _ (onReadyToBoot_scanDone _ _)]
  unfold onReadyToBoot
  simp only [Bool.false_eq_true, if_false]
  split_ifs with hloc hany
  · exact .inl ⟨by simpa using .inl hloc, rfl, rfl, rfl⟩
  · exact .inl ⟨by simpa using .inr (by simpa using hany), rfl, rfl, rfl⟩
  · exact .inr ⟨sig, rfl, by simpa using hloc, by simpa using hany, rfl, rfl, rfl⟩

end NucBios.Capsule
