import NucBios.Capsule.DropBox

/-!
# Over many boots: reset loops, rewrites, starvation

Three questions about the capsule scanner that only a sequence of boots can answer.

* Can a capsule reset the machine for ever? `resets_le_staged`: no. Every cold reset is paid for by
  a staged capsule that is gone, whatever the firmware and the media answer.
* Is a capsule that cannot be deleted written only once? `handed_at_most_once`: yes, as long as all
  staged capsules carry one version, the search finds it, and `UpdateCapsule` refuses none of them;
  `written_again_and_again` shows two capsules that take turns, one without a version and one that
  is refused.
* Does every file get its turn? `passed_iff_not_outnumbered`: exactly when fewer than `MAX_CAPSULES`
  capsules stay in front of it; `ninth_never_passed` shows one that waits for ever.
-/

namespace NucBios.Capsule

open NucBios.Uefi NucBios.Lib

/-! ### The machine is total -/

/-- Every sequence of events is a run. Kind: L -/
theorem boots_run_isSome (p : Platform) (es : List BootEvent) : ∃ u, boots.run p es = some u :=
  boots.exists_run_of_total (fun _ _ => ⟨_, boots_step _ _⟩) p es

/-- Nobody adds a file, and the directory order stays. Kind: L -/
theorem BootEvent.next_entries_sublist (p : Platform) (e : BootEvent) :
    (e.next p).media.entries.Sublist p.media.entries := by
  cases e with
  | withdraw id => exact List.filter_sublist
  | boot b =>
      rw [BootEvent.next_boot]
      rcases boot_cases p b with ⟨-, hp, -, -⟩ | ⟨sig, -, -, -, hp, -, -⟩
      · rw [hp, Boot.start_media]
      · rw [hp]
        exact Scan.invariant (P := fun s => s.platform.media.entries.Sublist p.media.entries)
          (fun s id a _ hs => (s.applyFile_entries_sublist id a).trans hs) (List.Sublist.refl _)

/-! ### No reset loop -/

/-- A scan pays for every `Applied` with a staged capsule. Kind: L -/
theorem scan_applied_add_staged_le (sig : ReadyToBoot) (p : Platform) :
    (scan sig p).applied + (scan sig p).platform.media.staged.length ≤ p.media.staged.length := by
  refine Scan.invariant (P := fun s =>
    s.applied + s.platform.media.staged.length ≤ p.media.staged.length) ?_ (by simp)
  intro s id a hid hs
  by_cases happ : (applyOneCapsule a s.platform.firmware (s.platform.media.content id)).outcome =
      .applied
  · -- a `TRUE` return: the file was there and has been removed
    obtain ⟨buf, hr, -⟩ := outcome_eq_applied_iff.mp happ
    have hgone := removed_of_applied happ
    have hless := Media.staged_remove_lt hid hr.1.1
    simp only [Scan.applyFile, happ, hgone, if_true]
    omega
  · have hle :
        (s.applyFile id a).platform.media.staged.length ≤ s.platform.media.staged.length := by
      rcases s.applyFile_media id a with hm | hm
      · rw [hm]
      · rw [hm]
        exact Media.staged_remove_le _ _
    have hsame : (s.applyFile id a).applied = s.applied := if_neg happ
    omega

/-- A boot resets exactly when it removed a file by a proven apply. Kind: L -/
theorem boot_reset_iff (p : Platform) (b : Boot) :
    (boot p b).reset = true ↔
      ∃ c ∈ (boot p b).calls, c.result.outcome = .applied ∧ c.result.removed = true := by
  rcases boot_cases p b with ⟨-, -, hcalls, hreset⟩ | ⟨sig, -, -, -, -, hcalls, hreset⟩
  · simp [hcalls, hreset]
  rw [hcalls, hreset, decide_eq_true_eq, scan_applied_eq, List.countP_pos_iff]
  have hremoved : ∀ c ∈ (scan sig (b.start p)).calls, c.result.outcome = .applied →
      c.result.removed = true := by
    refine Scan.invariant (P := fun s => ∀ c ∈ s.calls, c.result.outcome = .applied →
      c.result.removed = true) ?_ (by simp)
    intro s id a _ hs c hc happ
    rcases List.mem_append.mp hc with hc | hc
    · exact hs c hc happ
    · rw [List.mem_singleton.mp hc] at happ ⊢
      exact removed_of_applied happ
  constructor
  · rintro ⟨c, hc, happ⟩
    rw [decide_eq_true_eq] at happ
    exact ⟨c, hc, happ, hremoved c hc happ⟩
  · rintro ⟨c, hc, happ, -⟩
    exact ⟨c, hc, by rwa [decide_eq_true_eq]⟩

/-- One event: a reset is paid for by a staged capsule. Kind: L -/
theorem resets_add_staged_le (p : Platform) (e : BootEvent) :
    e.resets p + (e.next p).media.staged.length ≤ p.media.staged.length := by
  cases e with
  | withdraw id =>
      have := p.media.staged_remove_le id
      simpa [BootEvent.resets, BootEvent.next] using this
  | boot b =>
      simp only [BootEvent.resets, BootEvent.next]
      rcases boot_cases p b with ⟨-, hp, -, hreset⟩ | ⟨sig, -, -, -, hp, -, hreset⟩
      · simp [hp, hreset]
      · have hscan := scan_applied_add_staged_le sig (b.start p)
        rw [Boot.start_media] at hscan
        rw [hp, hreset]
        split_ifs with hpos
        · rw [decide_eq_true_eq] at hpos
          omega
        · omega

/-- **No capsule reset loop.** Over any sequence of boots in which nobody adds a file, the cold
resets number at most the capsules staged at its start; and a boot resets exactly when it removed a
file by a proven apply.
Source: `NucCapsuleOnDiskLib.c` `OnReadyToBoot`
Kind: P -/
theorem resets_le_staged (p : Platform) (es : List BootEvent) :
    boots.tally (fun p e => e.resets p) p es ≤ p.media.staged.length ∧
    ∀ p b, (boot p b).reset = true ↔
      ∃ c ∈ (boot p b).calls, c.result.outcome = .applied ∧ c.result.removed = true := by
  refine ⟨?_, boot_reset_iff⟩
  obtain ⟨u, hu⟩ := boots_run_isSome p es
  have hbound := boots.tally_add_potential_le (fun _ => True) (fun _ _ _ _ _ => trivial)
    (fun p e => e.resets p) (fun _ _ => 0) (fun p => p.media.staged.length)
    (fun s e t _ ht => by
      rw [boots_step, Option.some.injEq] at ht
      rw [← ht, Nat.zero_add]
      exact resets_add_staged_le s e) trivial hu
  rw [Machine.tally_zero] at hbound
  omega

/-! ### Capsules that stay on the volume -/

section Rewrites

-- the version of the firmware a capsule carries, as the FMP driver will read it
variable (firmwareVersion : List UInt8 → UInt32)

/-- The FMP can be read at every look, a boot's FMP shows the version in the flash, and an
`UpdateCapsule` that reports no error puts the capsule's version there.
Kind: D -/
def TracksFlash (p : Platform) (e : BootEvent) : Prop :=
  (∀ b ∈ e.boot?, b.fmp.version = p.firmware.flash) ∧
    ∀ c ∈ e.calls p, FmpWalk.readable c.answers.before = true ∧
      FmpWalk.readable c.answers.after = true ∧
      (efiError c.answers.update.status = false → ∀ buf ∈ c.result.handed,
        c.result.firmware.flash = firmwareVersion buf)

/-- No call of `UpdateCapsule` reports an error. Kind: D -/
def NoneRefused (p : Platform) (e : BootEvent) : Prop :=
  ∀ c ∈ e.calls p, efiError c.answers.update.status = false

instance (p : Platform) (e : BootEvent) : Decidable (TracksFlash firmwareVersion p e) :=
  inferInstanceAs (Decidable (_ ∧ _))

instance (p : Platform) (e : BootEvent) : Decidable (NoneRefused p e) :=
  inferInstanceAs (Decidable (∀ c ∈ e.calls p, _))

/-- Every staged capsule carries version `v`, and the search finds it. Kind: D -/
def OneVersion (v : UInt32) (m : Media) : Prop :=
  ∀ e ∈ m.staged, firmwareVersion e.content = v ∧
    nucCapsuleGetPayloadVersion (pointer e.content) e.content.length = some v

instance (v : UInt32) (m : Media) : Decidable (OneVersion firmwareVersion v m) :=
  inferInstanceAs (Decidable (∀ e ∈ m.staged, _))

/-- How often an event hands the file to `UpdateCapsule`. Kind: D -/
def handedCount (f : FileId) (p : Platform) (e : BootEvent) : ℕ :=
  (e.calls p).countP fun c => c.id = f ∧ c.result.handed.isSome

variable {firmwareVersion}

lemma OneVersion.of_subset {v : UInt32} {m m' : Media} (h : OneVersion firmwareVersion v m)
    (hsub : ∀ e ∈ m'.entries, e ∈ m.entries) : OneVersion firmwareVersion v m' := by
  intro e he
  obtain ⟨hmem, hc⟩ := List.mem_filter.mp he
  exact h e (List.mem_filter.mpr ⟨hsub e hmem, hc⟩)

/-- A scan of capsules of one version, from firmware `fw`: either nothing has been handed over, or
the firmware was of another version and the flash holds `v` now. Kind: D -/
def ScanOneVersion (firmwareVersion : List UInt8 → UInt32) (v : UInt32) (fw : Firmware)
    (s : Scan) : Prop :=
  (∀ c ∈ s.calls, FmpWalk.readable c.answers.before = true ∧
    ∀ buf ∈ c.result.handed, c.result.firmware.flash = firmwareVersion buf) →
  OneVersion firmwareVersion v s.platform.media ∧
    ((s.platform.firmware = fw ∧ ∀ c ∈ s.calls, c.result.handed = none) ∨
      (fw.fmp.version ≠ v ∧ s.platform.firmware.flash = v))

/-- The step: one more file. Kind: L -/
theorem ScanOneVersion.applyFile {v : UInt32} {fw : Firmware} {s : Scan} {id : FileId}
    (a : ApplyAnswers) (hid : s.platform.media.OnlyCandidate id)
    (hs : ScanOneVersion firmwareVersion v fw s) :
    ScanOneVersion firmwareVersion v fw (s.applyFile id a) := by
  intro hgood
  have hcalls : (s.applyFile id a).calls = s.calls ++
      [⟨id, a, applyOneCapsule a s.platform.firmware (s.platform.media.content id)⟩] := rfl
  have hfw : (s.applyFile id a).platform.firmware =
      (applyOneCapsule a s.platform.firmware (s.platform.media.content id)).firmware := rfl
  simp only [hcalls, List.mem_append, List.mem_singleton] at hgood ⊢
  obtain ⟨hone, hcase⟩ := hs fun c hc => hgood c (.inl hc)
  obtain ⟨hread, hflash⟩ := hgood _ (.inr rfl)
  refine ⟨hone.of_subset fun _ h => (s.applyFile_entries_sublist id a).subset h, ?_⟩
  rw [hfw]
  rcases applyOneCapsule_handed_cases a s.platform.firmware (s.platform.media.content id) with
    ⟨hnone, hsame⟩ | ⟨buf, hr, hskips, hhanded, -⟩
  · -- nothing handed over: nothing changes
    rw [hsame]
    rcases hcase with ⟨hfw0, hnone0⟩ | hright
    · refine .inl ⟨hfw0, fun c hc => ?_⟩
      rcases hc with hc | rfl
      · exact hnone0 c hc
      · exact hnone
    · exact .inr hright
  -- the file handed over is a staged capsule, so its version is `v`
  obtain ⟨e, he, hide, rfl⟩ := Media.content_eq_some hr.1.1
  obtain ⟨hversion, hfound⟩ := hone e (List.mem_filter.mpr ⟨he, hid e he hide⟩)
  have hflash' := hflash e.content hhanded
  refine .inr ⟨?_, hflash'.trans hversion⟩
  rcases hcase with ⟨hfw0, -⟩ | hright
  · -- an open gate over a readable FMP: the running version is another
    rintro rfl
    refine Bool.eq_false_iff.mp hskips (skips_versionGate_iff.mpr ⟨?_, hread⟩)
    rw [hfw0, hfound]
  · exact hright.1

/-- In one boot a file is handed over at most once. Kind: L -/
theorem handedCount_le_one (f : FileId) (p : Platform) (b : Boot) :
    handedCount f p (.boot b) ≤ 1 := by
  rw [handedCount, BootEvent.calls_boot]
  rcases boot_cases p b with ⟨-, -, hcalls, -⟩ | ⟨sig, -, -, -, -, hcalls, -⟩
  · simp [hcalls]
  rw [hcalls]
  have hle : (scan sig (b.start p)).calls.countP (fun c => c.id = f ∧ c.result.handed.isSome) ≤
      ((scan sig (b.start p)).calls.map Call.id).count f := by
    rw [List.count, List.countP_map]
    refine List.countP_mono_left fun c _ h => ?_
    simp only [decide_eq_true_eq] at h
    simp [h.1]
  exact hle.trans (List.nodup_iff_count_le_one.mp (scan_calls_nodup sig _) f)

/-- One event: handing the file over turns the flash to `v`, and with `v` in the flash nothing is
handed over. Kind: L -/
theorem handedCount_add_potential_le {v : UInt32} (f : FileId) {p : Platform} {e : BootEvent}
    (hone : OneVersion firmwareVersion v p.media) (htrack : TracksFlash firmwareVersion p e)
    (hnone : NoneRefused p e) :
    handedCount f p e + (if (e.next p).firmware.flash = v then 0 else 1) ≤
      if p.firmware.flash = v then 0 else 1 := by
  cases e with
  | withdraw id => exact (Nat.zero_add _).le
  | boot b =>
      have hle := handedCount_le_one f p b
      obtain ⟨hshows, hcalls⟩ := htrack
      have hversion := hshows b rfl
      rw [BootEvent.next_boot]
      rcases boot_cases p b with ⟨-, hp, hnil, -⟩ | ⟨sig, -, -, -, hp, hscan, -⟩
      · simp [handedCount, hnil, hp]
      have hinv : ScanOneVersion firmwareVersion v (b.start p).firmware (scan sig (b.start p)) :=
        Scan.invariant (fun s id a hid hs => hs.applyFile a hid)
          fun _ => ⟨hone, .inl ⟨rfl, by simp⟩⟩
      obtain ⟨-, hcase⟩ := hinv fun c hc => by
        rw [← hscan] at hc
        exact ⟨(hcalls c hc).1, (hcalls c hc).2.2 (hnone c hc)⟩
      rcases hcase with ⟨hfw, hno⟩ | ⟨hother, hflash⟩
      · have hzero : handedCount f p (.boot b) = 0 := by
          rw [handedCount, BootEvent.calls_boot, hscan, List.countP_eq_zero]
          intro c hc
          simp [hno c hc]
        rw [hzero, hp, hfw, Nat.zero_add, Boot.start_flash]
      · rw [Boot.start_fmp, hversion] at hother
        rw [hp, hflash, if_pos rfl, if_neg hother]
        omega

variable (firmwareVersion) in
/-- **Written at most once.** As long as all staged capsules carry one version, the search finds it,
and `UpdateCapsule` refuses none of them, each file is handed over at most once, over any number of
boots in which nobody adds a file, whether or not it can be deleted.
Source: `NucCapsuleOnDiskLib.c` `ApplyOneCapsule`
Kind: P -/
theorem handed_at_most_once (v : UInt32) (f : FileId) {p : Platform} {es : List BootEvent}
    (hone : OneVersion firmwareVersion v p.media)
    (htrack : boots.Along (TracksFlash firmwareVersion) p es)
    (hnone : boots.Along NoneRefused p es) : boots.tally (handedCount f) p es ≤ 1 := by
  obtain ⟨u, hu⟩ := boots_run_isSome p es
  have hbound := boots.tally_add_potential_le_along
    (fun p e => TracksFlash firmwareVersion p e ∧ NoneRefused p e)
    (fun p => OneVersion firmwareVersion v p.media)
    (fun s e t hs _ ht => by
      rw [boots_step, Option.some.injEq] at ht
      exact ht ▸ hs.of_subset fun _ h => (e.next_entries_sublist s).subset h)
    (handedCount f) (fun _ _ => 0) (fun p => if p.firmware.flash = v then 0 else 1)
    (fun s e t hs hG ht => by
      rw [boots_step, Option.some.injEq] at ht
      rw [← ht, Nat.zero_add]
      exact handedCount_add_potential_le f hs hG.1 hG.2)
    hone (boots.along_and htrack hnone) hu
  rw [Machine.tally_zero, Nat.zero_add] at hbound
  have : (if p.firmware.flash = v then 0 else 1) ≤ 1 := by split_ifs <;> omega
  omega

end Rewrites

/-- A capsule in the drop box of volume 0. Kind: D -/
def stagedFile (name : String) (content : List UInt8) : DirEntry := ⟨⟨0, ucs2 name⟩, 0, content⟩

/-- A boot whose FMP shows version `running` and whose only volume opens and lists `n` entries, with
these answers to the calls. Kind: D -/
def oneVolumeBoot (running : UInt32) (n : ℕ) (apply : ℕ → ApplyAnswers) : BootEvent :=
  .boot
    { fmp := (firmwareAt running 0).fmp
      signals :=
        [{ located := efiSuccess
           visits := [⟨0, ⟨true, efiSuccess, n⟩, ⟨true, efiSuccess, n⟩, fun _ => true, apply⟩]
           nodup := by simp }] }

/-- A boot on media that cannot be written, where `UpdateCapsule` on the `i`-th file leaves version
`target i` in the flash and in the record. Kind: D -/
def readOnlyBoot (running : UInt32) (n : ℕ) (target : ℕ → UInt32) : BootEvent :=
  oneVolumeBoot running n fun i =>
    { goodAnswers readableWalk ⟨efiSuccess, ⟨(firmwareAt running (target i)).fmp, target i⟩⟩ with
      openReadWrite := efiDeviceError }

/-- The version word of `capsuleOfVersion`. Kind: D -/
def capsuleVersionWord (buf : List UInt8) : UInt32 := readLe32 (pointer buf) 36

/-- One capsule, three boots: written in the first, skipped from then on. Kind: C -/
theorem handed_at_most_once_single :
    boots.tally (handedCount ⟨0, ucs2 "a.cap"⟩)
      ⟨firmwareAt 5 0, ⟨[stagedFile "a.cap" (capsuleOfVersion 7)], by decide⟩⟩
      [readOnlyBoot 5 1 fun _ => 7, readOnlyBoot 7 1 fun _ => 7, readOnlyBoot 7 1 fun _ => 7] ≤ 1 :=
  handed_at_most_once capsuleVersionWord 7 _ (by decide +kernel)
    (by decide +kernel) (by decide +kernel)

/-- The drop box of `written_again_and_again`. Kind: D -/
def twoVersions : Media := ⟨[stagedFile "a.cap" (capsuleOfVersion 7),
  stagedFile "b.cap" (capsuleOfVersion 8)], by decide⟩

/-- A drop box that holds one capsule. Kind: D -/
def oneCapsule (content : List UInt8) : Media := ⟨[stagedFile "a.cap" content], by simp⟩

/-- A capsule without the `MSS1` signature: the search finds no version in it. Kind: D -/
def unmarkedCapsule : List UInt8 := (capsuleOfVersion 7).set 28 0

/-- A boot on media that cannot be written, where `UpdateCapsule` refuses every file. Kind: D -/
def refusingBoot (running : UInt32) : BootEvent :=
  oneVolumeBoot running 1 fun _ =>
    { goodAnswers readableWalk ⟨efiDeviceError, firmwareAt running 0⟩ with
      openReadWrite := efiDeviceError }

/-- Three ways to be written more than once, on read-only media and with a valid header each time.
Two capsules of different versions take turns: each is skipped only while it is the running version,
and each is written twice within three boots, with no call failing. A capsule in which the search
finds no version is handed over at every boot, although what it carries is running. A capsule that
`UpdateCapsule` refuses is handed over again at the next boot.
Kind: C -/
theorem written_again_and_again :
    (let p : Platform := ⟨firmwareAt 5 0, twoVersions⟩
     let target : ℕ → UInt32 := fun i => if i = 0 then 7 else 8
     let es := [readOnlyBoot 5 2 target, readOnlyBoot 8 2 target, readOnlyBoot 7 2 target]
     (∀ e ∈ twoVersions.staged,
       nucCapsuleValidateHeader (pointer e.content) e.content.length = .ok ⟨45, 0⟩) ∧
     boots.Along (TracksFlash capsuleVersionWord) p es ∧ boots.Along NoneRefused p es ∧
     boots.tally (handedCount ⟨0, ucs2 "a.cap"⟩) p es = 2 ∧
     boots.tally (handedCount ⟨0, ucs2 "b.cap"⟩) p es = 2) ∧
    (let p : Platform := ⟨firmwareAt 5 0, oneCapsule unmarkedCapsule⟩
     let es := [readOnlyBoot 5 1 fun _ => 7, readOnlyBoot 7 1 fun _ => 7]
     nucCapsuleValidateHeader (pointer unmarkedCapsule) unmarkedCapsule.length = .ok ⟨45, 0⟩ ∧
     boots.Along (TracksFlash capsuleVersionWord) p es ∧ boots.Along NoneRefused p es ∧
     boots.tally (handedCount ⟨0, ucs2 "a.cap"⟩) p es = 2) ∧
    (let p : Platform := ⟨firmwareAt 5 0, oneCapsule (capsuleOfVersion 7)⟩
     let es := [refusingBoot 5, refusingBoot 5]
     OneVersion capsuleVersionWord 7 p.media ∧
     boots.Along (TracksFlash capsuleVersionWord) p es ∧
     boots.tally (handedCount ⟨0, ucs2 "a.cap"⟩) p es = 2) := by
  refine ⟨?_, ?_, ?_⟩
  · decide +kernel
  · decide +kernel
  · decide +kernel

/-! ### Waiting for a turn -/

section Turns

/-- The volume's drop box opens and is listed whole in both passes, and every name can be
allocated: the boot's first signal meets no trouble there. Kind: D -/
def Orderly (v : ℕ) (p : Platform) (e : BootEvent) : Prop :=
  ∃ b ∈ e.boot?, ∃ sig ∈ b.signals.head?, efiError sig.located = false ∧
    ∃ w ∈ sig.visits, w.volume = v ∧
      (w.firstPass.openVolumeRoot = true ∧ efiError w.firstPass.openDir = false ∧
        (p.media.dropBox v).length ≤ w.firstPass.listed) ∧
      (w.secondPass.openVolumeRoot = true ∧ efiError w.secondPass.openDir = false ∧
        (p.media.dropBox v).length ≤ w.secondPass.listed) ∧
      ∀ i < (p.media.dropBox v).length, w.allocated i = true

instance (v : ℕ) (p : Platform) (e : BootEvent) : Decidable (Orderly v p e) :=
  inferInstanceAs (Decidable (∃ b ∈ e.boot?, _))

/-- The capsules of a volume waiting, in directory order. Kind: D -/
def waiting (v : ℕ) (p : Platform) : List FileId := (p.media.candidates v).map DirEntry.id

/-- How often an event passes the file to `ApplyOneCapsule`. Kind: D -/
def passedCount (f : FileId) (p : Platform) (e : BootEvent) : ℕ :=
  (e.calls p).countP fun c => c.id = f

/-- With nothing going wrong, the name array holds the first `MAX_CAPSULES` capsules. Kind: L -/
theorem collectNames_of_allocated (allocated : ℕ → Bool) (es : List DirEntry)
    (h : ∀ i < es.length, allocated i = true) :
    collectNames allocated 0 es [] =
      ((es.filter DirEntry.isCandidate).map DirEntry.id).take maxCapsules := by
  rw [collectNames_eq _ _ _ _ (Nat.zero_le _), List.nil_append, List.length_nil, Nat.sub_zero]
  have hfilter : (es.zipIdx.filter fun p => p.1.isCandidate && allocated p.2) =
      es.zipIdx.filter fun p => p.1.isCandidate := by
    refine List.filter_congr fun p hp => ?_
    rw [h p.2 (List.snd_lt_of_mem_zipIdx hp), Bool.and_true]
  rw [hfilter, ← map_fst_filter_zipIdx _ es 0, List.map_map]
  rfl

/-- An orderly boot passes exactly the first `MAX_CAPSULES` waiting files of the volume. Kind: L -/
theorem mem_calls_iff_of_orderly {v : ℕ} {p : Platform} {e : BootEvent} (h : Orderly v p e)
    {f : FileId} (hf : f.volume = v) :
    f ∈ (e.calls p).map Call.id ↔ f ∈ (waiting v p).take maxCapsules := by
  obtain ⟨b, hb, sig, hsig, hloc, w, hw, rfl, ⟨hroot1, hdir1, hlist1⟩, ⟨hroot2, hdir2, hlist2⟩,
    halloc⟩ := h
  obtain rfl : e = .boot b := by
    cases e with
    | boot b' => exact congrArg _ (Option.some.inj hb)
    | withdraw id => cases hb
  have hnames : w.names p.media = (waiting w.volume p).take maxCapsules := by
    unfold Visit.names waiting Media.candidates
    rw [hroot2, hdir2, List.take_of_length_le hlist2,
      collectNames_of_allocated _ _ halloc]
    rfl
  rw [BootEvent.calls_boot]
  rcases boot_cases p b with ⟨hwhy, -, hcalls, -⟩ | ⟨sig', hsig', -, -, -, hcalls, -⟩
  · -- no scan although the volume was listed: nothing is waiting there
    have hquiet : anyStaged sig p.media = false := by
      rcases hwhy sig hsig with h | h
      · rw [h] at hloc
        cases hloc
      · exact h
    have hempty : p.media.candidates w.volume = [] := by
      have hw' := List.any_eq_false.mp hquiet w hw
      simp only [dropBoxHasCapsules, hroot1, hdir1, List.take_of_length_le hlist1,
        Bool.false_eq_true, if_false, Bool.true_and, Bool.not_eq_true] at hw'
      exact List.filter_eq_nil_iff.mpr fun e he => by simpa using List.any_eq_false.mp hw' e he
    simp [hcalls, waiting, hempty]
  · obtain rfl : sig = sig' := by
      have := hsig.symm.trans hsig'
      exact Option.some.inj this
    rw [hcalls, scan_calls_ids, Boot.start_media, List.mem_flatMap, ← hnames]
    constructor
    · rintro ⟨w', hw', hf'⟩
      have hvol : w'.volume = w.volume := by rw [← (Visit.mem_names hf').1, hf]
      rwa [← List.inj_on_of_nodup_map sig.nodup hw' hw hvol]
    · exact fun hf' => ⟨w, hw, hf'⟩

/-- A file still waiting after some of the files were taken away was at least as far back before.
Kind: L -/
theorem mem_drop_of_sublist {α : Type*} {l l' : List α} (h : l'.Sublist l) {k : ℕ} {x : α}
    (hx : x ∈ l'.drop k) : x ∈ l.drop k := by
  have hk : k ≤ l'.length := by
    by_contra hlt
    rw [List.drop_of_length_le (by omega)] at hx
    cases hx
  rw [← List.take_append_drop k l', List.append_sublist_iff] at h
  obtain ⟨r₁, r₂, rfl, h₁, h₂⟩ := h
  have hlen : k ≤ r₁.length := by
    have := h₁.length_le
    rwa [List.length_take_of_le hk] at this
  rw [List.drop_append_of_le_length hlen]
  exact List.mem_append_right _ (h₂.subset hx)

/-- The waiting files after an event are those before, some taken away. Kind: L -/
theorem waiting_next_sublist (v : ℕ) (p : Platform) (e : BootEvent) :
    (waiting v (e.next p)).Sublist (waiting v p) :=
  (((e.next_entries_sublist p).filter _).filter _).map _

lemma waiting_run_sublist (v : ℕ) {p u : Platform} {es : List BootEvent}
    (h : boots.run p es = some u) : (waiting v u).Sublist (waiting v p) :=
  boots.invariant_of_run (fun s => (waiting v s).Sublist (waiting v p))
    (fun s e t hs ht => by
      obtain rfl : e.next s = t := Option.some.inj ht
      exact (waiting_next_sublist v s e).trans hs) (List.Sublist.refl _) h

/-- A file that a boot does not pass stays where it is. Kind: L -/
theorem mem_next_of_not_passed {p : Platform} {b : Boot} {x : DirEntry} (hx : x ∈ p.media.entries)
    (hnot : x.id ∉ ((BootEvent.boot b).calls p).map Call.id) :
    x ∈ ((BootEvent.boot b).next p).media.entries := by
  rw [BootEvent.calls_boot] at hnot
  rw [BootEvent.next_boot]
  rcases boot_cases p b with ⟨-, hp, -, -⟩ | ⟨sig, -, -, -, hp, hcalls, -⟩
  · rwa [hp, Boot.start_media]
  rw [hp]
  rw [hcalls] at hnot
  have hstay : ∀ x ∈ p.media.entries, x.id ∉ (scan sig (b.start p)).calls.map Call.id →
      x ∈ (scan sig (b.start p)).platform.media.entries := by
    refine Scan.invariant (P := fun s => ∀ x ∈ p.media.entries, x.id ∉ s.calls.map Call.id →
      x ∈ s.platform.media.entries) ?_ (fun x hx _ => hx)
    intro s id a _ hs x hx hnot
    have hcalls : (s.applyFile id a).calls.map Call.id = s.calls.map Call.id ++ [id] := by
      simp [Scan.applyFile]
    rw [hcalls, List.mem_append, not_or, List.mem_singleton] at hnot
    rcases s.applyFile_media id a with hm | hm
    · rw [hm]
      exact hs x hx hnot.1
    · rw [hm]
      exact Media.mem_remove.mpr ⟨hs x hx hnot.1, hnot.2⟩
  exact hstay x hx hnot

lemma passedCount_eq_zero_iff {f : FileId} {p : Platform} {e : BootEvent} :
    passedCount f p e = 0 ↔ f ∉ (e.calls p).map Call.id := by
  rw [passedCount, List.countP_eq_zero]
  simp [List.mem_map]

lemma volume_of_mem_waiting {v : ℕ} {p : Platform} {f : FileId} (hf : f ∈ waiting v p) :
    f.volume = v := by
  obtain ⟨x, hx, rfl⟩ := List.mem_map.mp hf
  have hbox := (List.mem_filter.mp hx).1
  simpa using (List.mem_filter.mp hbox).2

lemma waiting_nodup (v : ℕ) (p : Platform) : (waiting v p).Nodup :=
  p.media.nodup.sublist ((List.filter_sublist.trans List.filter_sublist).map _)

/-- In an orderly boot a waiting file is left out exactly when it is beyond the first
`MAX_CAPSULES`. Kind: L -/
theorem passedCount_eq_zero_iff_of_orderly {v : ℕ} {p : Platform} {e : BootEvent} {f : FileId}
    (h : Orderly v p e) (hf : f ∈ waiting v p) :
    passedCount f p e = 0 ↔ f ∈ (waiting v p).drop maxCapsules := by
  rw [passedCount_eq_zero_iff, mem_calls_iff_of_orderly h (volume_of_mem_waiting hf)]
  have hnd := waiting_nodup v p
  rw [← List.take_append_drop maxCapsules (waiting v p)] at hf hnd
  constructor
  · intro hnot
    exact (List.mem_append.mp hf).resolve_left hnot
  · intro hdrop htake
    exact List.disjoint_of_nodup_append hnd htake hdrop

/-- A file left out stays waiting. Kind: L -/
theorem mem_waiting_next {v : ℕ} {p : Platform} {e : BootEvent} {f : FileId} (h : Orderly v p e)
    (hf : f ∈ waiting v p) (hnot : passedCount f p e = 0) : f ∈ waiting v (e.next p) := by
  obtain ⟨b, hb, -⟩ := h
  cases e with
  | withdraw id => cases hb
  | boot b' =>
      obtain ⟨x, hx, rfl⟩ := List.mem_map.mp hf
      obtain ⟨hbox, hc⟩ := List.mem_filter.mp hx
      obtain ⟨hmem, hv⟩ := List.mem_filter.mp hbox
      have hstay := mem_next_of_not_passed hmem (passedCount_eq_zero_iff.mp hnot)
      exact List.mem_map.mpr
        ⟨x, List.mem_filter.mpr ⟨List.mem_filter.mpr ⟨hstay, hv⟩, hc⟩, rfl⟩

/-- Over orderly boots, a file is never passed exactly when it still waits, behind
`MAX_CAPSULES` others, at the start of the last. Kind: L -/
theorem tally_passedCount_eq_zero_iff {v : ℕ} {f : FileId} {e : BootEvent} {u : Platform} :
    ∀ {p : Platform} {es : List BootEvent}, f ∈ waiting v p → boots.Along (Orderly v) p es →
      boots.run p es = some u → Orderly v u e →
      (boots.tally (passedCount f) p es + passedCount f u e = 0 ↔
        f ∈ (waiting v u).drop maxCapsules)
  | _, [], hf, _, hu, he => by
      cases hu
      rw [Machine.tally_nil, Nat.zero_add]
      exact passedCount_eq_zero_iff_of_orderly he hf
  | p, e' :: es, hf, hes, hu, he => by
      obtain ⟨t, ht, hu'⟩ := boots.run_cons_eq_some.mp hu
      obtain rfl : e'.next p = t := Option.some.inj ht
      rw [boots.tally_cons_of_some _ es ht, Nat.add_assoc, Nat.add_eq_zero_iff]
      constructor
      · rintro ⟨hfirst, hrest⟩
        exact (tally_passedCount_eq_zero_iff (mem_waiting_next hes.1 hf hfirst) (hes.2 _ ht) hu'
          he).mp hrest
      · intro hdrop
        -- being far back at the end, the file was far back here and after this boot
        have hback : f ∈ (waiting v (e'.next p)).drop maxCapsules :=
          mem_drop_of_sublist (waiting_run_sublist v hu') hdrop
        have hfirst : passedCount f p e' = 0 :=
          (passedCount_eq_zero_iff_of_orderly hes.1 hf).mpr
            (mem_drop_of_sublist (waiting_next_sublist v p e') hback)
        exact ⟨hfirst, (tally_passedCount_eq_zero_iff (List.mem_of_mem_drop hback) (hes.2 _ ht) hu'
          he).mpr hdrop⟩

/-- **Who waits for ever.** Over any number of consecutive boots that open and list the drop box, a
file is passed to `ApplyOneCapsule` at least once unless, at the start of the last of them,
`MAX_CAPSULES` capsules or more still stand in front of it; with at most `MAX_CAPSULES` staged, the
first boot already passes it.
Source: `NucCapsuleOnDiskLib.c` `ProcessDropBox`, `MAX_CAPSULES`
Kind: P -/
theorem passed_iff_not_outnumbered {v : ℕ} {f : FileId} {p u : Platform} {es : List BootEvent}
    {e : BootEvent} (hf : f ∈ waiting v p) (horder : boots.Along (Orderly v) p (es ++ [e]))
    (hu : boots.run p es = some u) :
    (boots.tally (passedCount f) p (es ++ [e]) = 0 ↔ f ∈ (waiting v u).drop maxCapsules) ∧
    ((waiting v p).length ≤ maxCapsules → 0 < boots.tally (passedCount f) p (es ++ [e])) := by
  obtain ⟨hes, he, -⟩ := (boots.along_append [e] hu).mp horder
  have hiff : boots.tally (passedCount f) p (es ++ [e]) = 0 ↔
      f ∈ (waiting v u).drop maxCapsules := by
    rw [boots.tally_append_singleton _ e hu]
    exact tally_passedCount_eq_zero_iff hf hes hu he
  refine ⟨hiff, fun hfew => Nat.pos_of_ne_zero fun hzero => ?_⟩
  have hback := mem_drop_of_sublist (waiting_run_sublist v hu) (hiff.mp hzero)
  rw [List.drop_of_length_le hfew] at hback
  cases hback

/-- `n` capsules in one drop box. Kind: D -/
def capsules (n : ℕ) : List DirEntry :=
  (List.range n).map fun i => ⟨⟨0, UInt16.ofNat i :: ucs2 ".cap"⟩, 0, capsuleOfVersion 7⟩

/-- A boot in which the drop box opens and lists, but none of its files can be opened. Kind: D -/
def unopenableBoot (n : ℕ) : BootEvent :=
  oneVolumeBoot 5 n fun _ =>
    { goodAnswers readableWalk ⟨efiSuccess, firmwareAt 5 0⟩ with
      openReadWrite := efiDeviceError
      openRead := efiDeviceError }

/-- With three files staged, the third is passed in the second of two boots that open nothing.
Kind: C -/
theorem passed_iff_not_outnumbered_three :
    let p : Platform := ⟨firmwareAt 5 0, ⟨capsules 3, by decide⟩⟩
    0 < boots.tally (passedCount ⟨0, 2 :: ucs2 ".cap"⟩) p
      ([unopenableBoot 3] ++ [unopenableBoot 3]) :=
  (passed_iff_not_outnumbered (v := 0) (u := (unopenableBoot 3).next _) (by decide +kernel)
    (by decide +kernel) rfl).2 (by decide +kernel)

/-- Nine files, none of which can be opened: over nine boots the ninth is never passed. Kind: C -/
theorem ninth_never_passed :
    let p : Platform := ⟨firmwareAt 5 0, ⟨capsules 9, by decide⟩⟩
    let es := List.replicate 9 (unopenableBoot 9)
    (waiting 0 p).length = 9 ∧ ⟨0, 8 :: ucs2 ".cap"⟩ ∈ waiting 0 p ∧
    boots.Along (Orderly 0) p es ∧
    boots.tally (passedCount ⟨0, 8 :: ucs2 ".cap"⟩) p es = 0 := by
  decide +kernel

end Turns

end NucBios.Capsule
