import NucBios.Capsule.DropBox

/-!
# The two passes of a scan

`OnReadyToBoot` walks the drop boxes twice: a first pass that stops at the first capsule it meets
and decides whether there is anything to do, and a second that collects at most eight names of each
drop box and applies them. The two directory loops are written out separately in the source.

Where a volume answers both passes alike (`Visit.Alike`), what either of them sees of it is one list
of entries, `Visit.listing`, and the passes agree on it (`passes_agree`):

* `anyStaged_iff` — the first pass finds something exactly if some listing holds a capsule;
* `names_eq_take` — the second collects the first eight capsules of each listing;
* `scan_applied_add_failed` — and every one of them is counted once, as applied or as failed.
-/

namespace NucBios.Capsule

open NucBios.Uefi NucBios.Lib

/-- What counts as a capsule in a drop box: a non-empty file, no directory, with a name that ends in
`.cap`.
Kind: D -/
def DirEntry.IsCapsule (e : DirEntry) : Prop :=
  e.fileAttribute &&& efiFileDirectory = 0 ∧ e.content ≠ [] ∧ EndsInCap e.id.name

instance : DecidablePred DirEntry.IsCapsule := fun _ => inferInstanceAs (Decidable (_ ∧ _ ∧ _))

lemma DirEntry.isCandidate_iff {e : DirEntry} : e.isCandidate = true ↔ e.IsCapsule := by
  simp only [isCandidate, IsCapsule, Bool.and_eq_true, beq_iff_eq, decide_eq_true_eq,
    List.length_pos_iff, nucCapsuleIsCandidateFile_iff, and_assoc]

lemma DirEntry.isCandidate_eq_decide : DirEntry.isCandidate = fun e => decide e.IsCapsule := by
  funext e
  rw [Bool.eq_iff_iff, DirEntry.isCandidate_iff, decide_eq_true_iff]

/-- The volume opens alike in both passes, its drop box is listed alike, and the names of its
entries can be allocated.
Kind: D -/
structure Visit.Alike (w : Visit) : Prop where
  root : w.firstPass.openVolumeRoot = w.secondPass.openVolumeRoot
  dir : efiError w.firstPass.openDir = efiError w.secondPass.openDir
  listed : w.firstPass.listed = w.secondPass.listed
  allocated : ∀ i, w.allocated i = true

/-- The drop box of the volume as a pass finds it: nothing when the volume or the directory does not
open, and otherwise the entries it lists.
Kind: D -/
def Visit.listing (w : Visit) (m : Media) : List DirEntry :=
  if w.secondPass.openVolumeRoot = true ∧ efiError w.secondPass.openDir = false then
    (m.dropBox w.volume).take w.secondPass.listed
  else []

/-! ### The first pass -/

lemma dropBoxHasCapsules_iff {w : Visit} (h : w.Alike) {m : Media} :
    (w.firstPass.openVolumeRoot && dropBoxHasCapsules w.firstPass (m.dropBox w.volume)) = true ↔
      ∃ e ∈ w.listing m, e.IsCapsule := by
  unfold dropBoxHasCapsules Visit.listing
  rw [h.root, h.dir, h.listed, Bool.and_eq_true]
  by_cases hopen : w.secondPass.openVolumeRoot = true ∧ efiError w.secondPass.openDir = false
  · simp [hopen, DirEntry.isCandidate_iff]
  · rw [if_neg hopen]
    rcases hdir : efiError w.secondPass.openDir with _ | _
    · simp [hdir] at hopen
      simp [hopen]
    · simp

/-- The first pass finds something exactly if some drop box lists a capsule.
Source: `NucCapsuleOnDiskLib.c` `OnReadyToBoot`, `DropBoxHasCapsules`
Kind: P -/
theorem anyStaged_iff {sig : ReadyToBoot} (h : ∀ w ∈ sig.visits, w.Alike) {m : Media} :
    anyStaged sig m = true ↔ ∃ w ∈ sig.visits, ∃ e ∈ w.listing m, e.IsCapsule := by
  rw [anyStaged, List.any_eq_true]
  refine exists_congr fun w => and_congr_right fun hw => ?_
  exact dropBoxHasCapsules_iff (h w hw)

/-! ### The second pass -/

/-- With every name allocated, the first eight capsules listed are collected.
Source: `NucCapsuleOnDiskLib.c` `ProcessDropBox`
Kind: P -/
theorem Visit.names_eq_take {w : Visit} (h : w.Alike) (m : Media) :
    w.names m = (((w.listing m).filter fun e => e.IsCapsule).map DirEntry.id).take 8 := by
  have hall : ∀ es : List DirEntry,
      (((es.zipIdx 0).filter fun p => p.1.isCandidate && w.allocated p.2).map fun p => p.1.id) =
        (es.filter fun e => e.IsCapsule).map DirEntry.id := by
    intro es
    rw [← DirEntry.isCandidate_eq_decide, ← map_fst_filter_zipIdx _ es 0, List.map_map]
    congr 1
    exact List.filter_congr fun p _ => by rw [h.allocated, Bool.and_true]
  unfold Visit.names Visit.listing
  by_cases hroot : w.secondPass.openVolumeRoot = true
  swap
  · simp [hroot]
  by_cases hdir : efiError w.secondPass.openDir = true
  · simp [hdir]
  rw [collectNames_eq _ _ _ _ (Nat.zero_le _), hall]
  simp [hroot, hdir, maxCapsules]

/-- Every call is counted, as applied or as failed. Kind: L -/
theorem scan_applied_add_failed (sig : ReadyToBoot) (p : Platform) :
    (scan sig p).applied + (scan sig p).failed = (scan sig p).calls.length := by
  refine Scan.invariant (P := fun s => s.applied + s.failed = s.calls.length) ?_ rfl
  intro s id a _ hs
  unfold Scan.applyFile
  simp only [List.length_append, List.length_singleton]
  split_ifs <;> omega

/-! ### Both together -/

/-- **The two passes agree.** Take any volumes that answer both passes alike, and the `ReadyToBoot`
signal of a boot whose scan has not run. The second pass runs if some drop box lists a capsule, and
otherwise nothing happens. When it runs, each volume contributes its first eight capsules in the
order of the directory, each is applied exactly once, and the two counters add up to their
number.
Source: `NucCapsuleOnDiskLib.c` `OnReadyToBoot`, `DropBoxHasCapsules`, `ProcessDropBox`
Kind: P -/
theorem passes_agree (b : BootState) (sig : ReadyToBoot) (hnew : b.mNucCodScanDone = false)
    (hlocated : efiError sig.located = false) (halike : ∀ w ∈ sig.visits, w.Alike) :
    let m := b.platform.media
    let s := scan sig b.platform
    let staged := fun w : Visit => (w.listing m).filter fun e => e.IsCapsule
    ((∃ w ∈ sig.visits, ∃ e ∈ w.listing m, e.IsCapsule) →
      onReadyToBoot b sig = ⟨s.platform, true, b.calls ++ s.calls, decide (0 < s.applied)⟩) ∧
    ((¬ ∃ w ∈ sig.visits, ∃ e ∈ w.listing m, e.IsCapsule) →
      onReadyToBoot b sig = { b with mNucCodScanDone := true }) ∧
    s.calls.map Call.id = sig.visits.flatMap (fun w => ((staged w).map DirEntry.id).take 8) ∧
    (s.calls.map Call.id).Nodup ∧
    s.applied + s.failed = (sig.visits.map fun w => min 8 (staged w).length).sum := by
  intro m s staged
  have hids : s.calls.map Call.id =
      sig.visits.flatMap (fun w => ((staged w).map DirEntry.id).take 8) := by
    rw [show s.calls.map Call.id = _ from scan_calls_ids sig b.platform]
    exact List.flatMap_congr fun w hw => Visit.names_eq_take (halike w hw) m
  refine ⟨fun hany => ?_, fun hnone => ?_, hids, scan_calls_nodup sig b.platform, ?_⟩
  · have hstaged := (anyStaged_iff halike).mpr hany
    unfold onReadyToBoot
    simp only [hnew, hlocated, hstaged, Bool.false_eq_true, Bool.not_true, if_false, s, m]
  · have hstaged : anyStaged sig m = false := by
      rw [← Bool.not_eq_true, anyStaged_iff halike]
      exact hnone
    unfold onReadyToBoot
    simp only [hnew, hlocated, show anyStaged sig b.platform.media = false from hstaged,
      Bool.false_eq_true, Bool.not_false, if_false, if_true]
  · have hlen := congrArg List.length hids
    rw [List.length_map, List.length_flatMap] at hlen
    rw [scan_applied_add_failed, hlen]
    simp only [List.length_take, List.length_map]

/-- One volume with a directory, a capsule and a note in its drop box. Kind: D -/
def mixedMedia : Media where
  entries := [⟨⟨0, ucs2 "old.cap"⟩, efiFileDirectory, [0]⟩,
    ⟨⟨0, ucs2 "A.CAP"⟩, 0, capsuleOfVersion 7⟩, ⟨⟨0, ucs2 "note"⟩, 0, [0]⟩]
  nodup := by decide

/-- A signal that meets this volume and one that does not open. Kind: D -/
def twoVolumes : ReadyToBoot where
  located := efiSuccess
  visits :=
    let answers := fun _ => goodAnswers readableWalk ⟨efiSuccess, ⟨(firmwareAt 5 7).fmp, 7⟩⟩
    [⟨0, ⟨true, efiSuccess, 3⟩, ⟨true, efiSuccess, 3⟩, fun _ => true, answers⟩,
      ⟨1, ⟨false, efiNotFound, 0⟩, ⟨false, efiNotFound, 0⟩, fun _ => true, answers⟩]
  nodup := by decide

theorem passes_agree_twoVolumes :
    (scan twoVolumes ⟨firmwareAt 5 0, mixedMedia⟩).calls.map Call.id = [⟨0, ucs2 "A.CAP"⟩] ∧
      (scan twoVolumes ⟨firmwareAt 5 0, mixedMedia⟩).applied +
        (scan twoVolumes ⟨firmwareAt 5 0, mixedMedia⟩).failed = 1 := by
  have halike : ∀ w ∈ twoVolumes.visits, w.Alike := by
    intro w hw
    simp only [twoVolumes, List.mem_cons, List.not_mem_nil, or_false] at hw
    rcases hw with rfl | rfl <;> exact ⟨rfl, rfl, rfl, fun _ => rfl⟩
  obtain ⟨-, -, hids, -, hcount⟩ :=
    passes_agree ⟨⟨firmwareAt 5 0, mixedMedia⟩, false, [], false⟩ twoVolumes rfl rfl halike
  exact ⟨hids.trans (by decide +kernel), hcount.trans (by decide +kernel)⟩

end NucBios.Capsule
