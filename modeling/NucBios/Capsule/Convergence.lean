import NucBios.Capsule.Boots

/-!
# A good capsule is consumed within two boots

The changed-record rule can refuse a genuine apply: when the record already reads as a success of
the capsule's version, the file stays staged although the firmware was written. What ends the matter
is the version gate of the next boot.

* `Obliging` — the file can be read and deleted, the FMP can be read, `UpdateCapsule` writes;
* `boot_of_staged`, `boot_of_gone` — one boot with the file, one without;
* `good_capsule_consumed` — over two boots or more the file is gone, the flash holds its version,
  and `UpdateCapsule` was called once, or never if the version was running already.
-/

namespace NucBios.Capsule

open NucBios.Uefi NucBios.Lib

/-! ### A boot as a list of turns -/

/-- Turns of the apply loop, one after the other. Kind: D -/
def Scan.turns (s : Scan) (ts : List (FileId × ApplyAnswers)) : Scan :=
  ts.foldl (fun s t => s.applyFile t.1 t.2) s

lemma Scan.turns_calls_ids (s : Scan) (ts : List (FileId × ApplyAnswers)) :
    (s.turns ts).calls.map Call.id = s.calls.map Call.id ++ ts.map Prod.fst := by
  induction ts generalizing s with
  | nil => simp [Scan.turns]
  | cons t ts ih =>
      change ((s.applyFile t.1 t.2).turns ts).calls.map Call.id = _
      rw [ih]
      simp [Scan.applyFile]

/-- What a boot does is what its turns do. Kind: L -/
theorem boot_eq_turns (p : Platform) (b : Boot) :
    ∃ ts : List (FileId × ApplyAnswers), ts.map Prod.fst = (boot p b).calls.map Call.id ∧
      (boot p b).platform = (Scan.turns ⟨b.start p, 0, 0, []⟩ ts).platform ∧
      (boot p b).calls = (Scan.turns ⟨b.start p, 0, 0, []⟩ ts).calls := by
  rcases boot_cases p b with ⟨-, hp, hcalls, -⟩ | ⟨sig, -, -, -, hp, hcalls, -⟩
  · exact ⟨[], by rw [hcalls]; rfl, hp, hcalls⟩
  obtain ⟨ts, hts⟩ : ∃ ts, scan sig (b.start p) = Scan.turns ⟨b.start p, 0, 0, []⟩ ts := by
    refine Scan.invariant (P := fun s => ∃ ts, s = Scan.turns ⟨b.start p, 0, 0, []⟩ ts) ?_ ⟨[], rfl⟩
    rintro s id a - ⟨ts, rfl⟩
    exact ⟨ts ++ [(id, a)], by simp [Scan.turns]⟩
  rw [hts] at hp hcalls
  refine ⟨ts, ?_, hp, hcalls⟩
  rw [hcalls, Scan.turns_calls_ids]
  rfl

/-- Only staged capsules are passed, each once. Kind: L -/
theorem boot_calls_ids_sublist_staged (p : Platform) (b : Boot) :
    ((boot p b).calls.map Call.id).Nodup ∧
      ∀ id ∈ (boot p b).calls.map Call.id, id ∈ p.media.staged.map DirEntry.id := by
  rcases boot_cases p b with ⟨-, -, hcalls, -⟩ | ⟨sig, -, -, -, -, hcalls, -⟩
  · rw [hcalls]
    exact ⟨List.nodup_nil, nofun⟩
  rw [hcalls]
  refine ⟨scan_calls_nodup _ _, fun id hid => ?_⟩
  rw [scan_calls_ids, List.mem_flatMap] at hid
  obtain ⟨w, -, hid⟩ := hid
  obtain ⟨e, he, rfl⟩ := List.mem_map.mp ((w.names_sublist _).subset hid)
  obtain ⟨hbox, hcand⟩ := List.mem_filter.mp he
  exact List.mem_map_of_mem (List.mem_filter.mpr ⟨(List.mem_filter.mp hbox).1, hcand⟩)

/-! ### Where nothing goes wrong -/

/-- The answers to one call: the file opens read-write and is read whole, the FMP can be read before
the update, the update succeeds and leaves version `v` in the flash, the file can be deleted.
Kind: D -/
def Served (e : DirEntry) (v : UInt32) (a : ApplyAnswers) : Prop :=
  efiError a.openReadWrite = false ∧ efiError a.getSize = false ∧ a.allocated = true ∧
    efiError a.read = false ∧ a.readSize = e.content.length ∧ FmpWalk.readable a.before = true ∧
    efiError a.update.status = false ∧ a.update.firmware.flash = v ∧ a.delete.status = efiSuccess

/-- The boot runs what the flash holds; while the file is there its drop box is listed whole, and
every call is served.
Kind: D -/
def Obliging (e : DirEntry) (v : UInt32) (p : Platform) (ev : BootEvent) : Prop :=
  (∀ b ∈ ev.boot?, b.fmp.version = p.firmware.flash) ∧
    (e ∈ p.media.entries → Orderly e.id.volume p ev) ∧ ∀ c ∈ ev.calls p, Served e v c.answers

instance (e : DirEntry) (v : UInt32) (a : ApplyAnswers) : Decidable (Served e v a) :=
  inferInstanceAs (Decidable (_ ∧ _))

instance (e : DirEntry) (v : UInt32) (p : Platform) (ev : BootEvent) :
    Decidable (Obliging e v p ev) :=
  inferInstanceAs (Decidable (_ ∧ _))

/-- The calls of `UpdateCapsule` in an event. Kind: D -/
def updateCount (p : Platform) (ev : BootEvent) : ℕ :=
  (ev.calls p).countP fun c => c.result.handed.isSome

/-- A capsule of accepted size with a valid header, in which the search finds version `v`.
Kind: D -/
def Sound (e : DirEntry) (v : UInt32) : Prop :=
  e.content.length ≤ maxCapsuleBytes ∧
    (∃ i, nucCapsuleValidateHeader (pointer e.content) e.content.length = .ok i) ∧
    nucCapsuleGetPayloadVersion (pointer e.content) e.content.length = some v

/-! ### One boot -/

section OneBoot

variable {e : DirEntry} {v : UInt32} {p : Platform} {b : Boot}

/-- A sound capsule that is served: skipped and consumed if its version is running, else handed over
and written. Kind: L -/
theorem applyOneCapsule_of_served {a : ApplyAnswers} (fw : Firmware) (hpos : 0 < e.content.length)
    (hsound : Sound e v) (ha : Served e v a) :
    (fw.fmp.version = v → ∃ r, applyOneCapsule a fw (some e.content) =
      ⟨.alreadyRunning r, fw, true, none⟩) ∧
    (fw.fmp.version ≠ v →
      (applyOneCapsule a fw (some e.content)).firmware.flash = v ∧
        (applyOneCapsule a fw (some e.content)).handed = some e.content) := by
  obtain ⟨hopen, hsize, halloc, hread, hwhole, hfmp, -, hflash, hdelete⟩ := ha
  obtain ⟨hmax, hheader, hversion⟩ := hsound
  have hreaches : Reaches a (some e.content) e.content :=
    ⟨⟨rfl, by simp [hopen], hsize, hpos, hmax, halloc, hread, hwhole⟩, hheader⟩
  have hskips : (versionGate a fw e.content).skips = true ↔ v = fw.fmp.version := by
    rw [skips_versionGate_iff, AlreadyRunning, hversion, Option.some.injEq]
    exact and_iff_left hfmp
  constructor
  · intro hrunning
    obtain ⟨r, hr⟩ := applyOneCapsule_of_skips hreaches (hskips.mpr hrunning.symm)
    refine ⟨r, ?_⟩
    rw [hr, hopen, a.delete.removed_of_success hdelete]
    rfl
  · intro hother
    have hnot : (versionGate a fw e.content).skips = false :=
      Bool.eq_false_iff.mpr fun h => hother (hskips.mp h).symm
    obtain ⟨hfw, hhanded⟩ := applyAndConsume_firmware_handed a (!efiError a.openReadWrite)
      (versionGate a fw e.content).before e.content
    rw [applyOneCapsule_of_not_skips hreaches hnot, hfw]
    exact ⟨hflash, hhanded⟩

lemma Media.content_of_mem {m : Media} (h : e ∈ m.entries) : m.content e.id = some e.content := by
  unfold Media.content
  rcases hfind : m.entries.find? (fun e' => e'.id = e.id) with _ | e'
  · exact absurd (List.find?_eq_none.mp hfind e h) (by simp)
  · have hid : e'.id = e.id := by simpa using List.find?_some hfind
    obtain rfl := List.inj_on_of_nodup_map m.nodup (List.mem_of_find?_eq_some hfind) h hid
    rw [hfind]
    rfl

lemma Media.content_remove_self (m : Media) (id : FileId) : (m.remove id).content id = none := by
  unfold Media.content
  rw [Option.map_eq_none_iff, List.find?_eq_none]
  intro e he
  simpa using (Media.mem_remove.mp he).2

/-- With one capsule staged, a boot that lists it passes it and nothing else. Kind: L -/
theorem boot_calls_ids_of_single (hstaged : p.media.staged = [e])
    (horderly : Orderly e.id.volume p (.boot b)) :
    (boot p b).calls.map Call.id = [e.id] := by
  obtain ⟨hnodup, hmem⟩ := boot_calls_ids_sublist_staged p b
  have hall : ∀ id ∈ (boot p b).calls.map Call.id, id = e.id := by
    intro id hid
    simpa [hstaged] using hmem id hid
  have hwaiting : waiting e.id.volume p = [e.id] := by
    have hcandidates : p.media.candidates e.id.volume =
        p.media.staged.filter fun e' => e'.id.volume = e.id.volume := by
      unfold Media.candidates Media.dropBox Media.staged
      rw [List.filter_filter, List.filter_filter]
      exact List.filter_congr fun e _ => Bool.and_comm _ _
    rw [waiting, hcandidates, hstaged]
    simp
  have hpassed : e.id ∈ (boot p b).calls.map Call.id := by
    have hiff := mem_calls_iff_of_orderly horderly (f := e.id) rfl
    rw [BootEvent.calls_boot] at hiff
    rw [hiff, hwaiting]
    exact List.mem_singleton_self _
  have hreplicate := List.eq_replicate_of_mem hall
  rw [hreplicate, List.nodup_replicate] at hnodup
  have hlen := List.length_pos_of_mem hpassed
  rw [hreplicate, Nat.le_antisymm hnodup hlen]
  rfl

/-- A boot with the file: the flash holds its version afterwards, and the file is gone, unless it
was handed over just now.
Kind: L -/
theorem boot_of_staged (hsound : Sound e v) (hstaged : p.media.staged = [e])
    (hob : Obliging e v p (.boot b)) :
    (boot p b).platform.firmware.flash = v ∧
      updateCount p (.boot b) = (if v = p.firmware.flash then 0 else 1) ∧
      ((boot p b).platform.media = p.media.remove e.id ∨
        v ≠ p.firmware.flash ∧ (boot p b).platform.media = p.media) := by
  obtain ⟨hrunning, horderly, hserved⟩ := hob
  obtain ⟨hmem, hcand⟩ := List.mem_filter.mp (hstaged ▸ List.mem_singleton_self e)
  have hpos : 0 < e.content.length := by
    simp only [DirEntry.isCandidate, Bool.and_eq_true, decide_eq_true_eq] at hcand
    exact hcand.1.2
  -- the one turn of the boot
  obtain ⟨ts, hids, hplatform, hcalls⟩ := boot_eq_turns p b
  rw [boot_calls_ids_of_single hstaged (horderly hmem)] at hids
  obtain ⟨⟨id, a⟩, rfl⟩ : ∃ t, ts = [t] := List.length_eq_one_iff.mp (by
    simpa using congrArg List.length hids)
  obtain rfl : id = e.id := by simpa using hids
  set r := applyOneCapsule a (b.start p).firmware (some e.content) with hr
  have hturn : Scan.turns ⟨b.start p, 0, 0, []⟩ [(e.id, a)] =
      Scan.applyFile ⟨b.start p, 0, 0, []⟩ e.id a := rfl
  rw [hturn, Scan.applyFile] at hplatform hcalls
  simp only [Boot.start_media, Media.content_of_mem hmem, ← hr, List.nil_append] at hplatform hcalls
  have hanswers : Served e v a := hserved ⟨e.id, a, r⟩ (by
    rw [BootEvent.calls_boot, hcalls]
    exact List.mem_singleton_self _)
  obtain ⟨hskip, hhand⟩ := applyOneCapsule_of_served (b.start p).firmware hpos hsound hanswers
  rw [Boot.start_fmp, hrunning b rfl, ← hr] at hskip hhand
  rw [updateCount, BootEvent.calls_boot, hcalls, hplatform]
  by_cases hv : v = p.firmware.flash
  · obtain ⟨outcome, hresult⟩ := hskip hv.symm
    rw [hresult, if_pos hv]
    exact ⟨hv.symm, rfl, .inl rfl⟩
  · obtain ⟨hflash, hhanded⟩ := hhand (Ne.symm hv)
    rw [if_neg hv]
    refine ⟨hflash, by simp [hhanded], ?_⟩
    rcases r.removed with _ | _
    · exact .inr ⟨hv, rfl⟩
    · exact .inl rfl

/-- A boot with nothing staged does nothing. Kind: L -/
theorem boot_of_gone (hgone : p.media.staged = []) (b : Boot) :
    (boot p b).platform = b.start p ∧ updateCount p (.boot b) = 0 := by
  obtain ⟨ts, hids, hplatform, -⟩ := boot_eq_turns p b
  have hnone : (boot p b).calls.map Call.id = [] := by
    refine List.eq_nil_iff_forall_not_mem.mpr fun id hid => ?_
    have := (boot_calls_ids_sublist_staged p b).2 id hid
    simp [hgone] at this
  rw [hnone, List.map_eq_nil_iff] at hids
  rw [hplatform, hids, updateCount, BootEvent.calls_boot, List.map_eq_nil_iff.mp hnone]
  exact ⟨rfl, rfl⟩

end OneBoot

/-! ### Many boots -/

/-- Once the file is gone nothing changes any more. Kind: L -/
theorem run_of_gone {v : UInt32} :
    ∀ (bs : List Boot) (p : Platform), p.media.staged = [] → p.firmware.flash = v →
      ∃ u, boots.run p (bs.map .boot) = some u ∧ u.media = p.media ∧ u.firmware.flash = v ∧
        boots.tally updateCount p (bs.map .boot) = 0
  | [], p, _, hflash => ⟨p, rfl, rfl, hflash, rfl⟩
  | b :: bs, p, hgone, hflash => by
      obtain ⟨hplatform, hcount⟩ := boot_of_gone hgone b
      obtain ⟨u, hrun, hmedia, hu, htally⟩ := run_of_gone bs (b.start p) hgone hflash
      have hstep : boots.step p (.boot b) = some (b.start p) := by
        rw [boots_step, BootEvent.next_boot, hplatform]
      refine ⟨u, boots.run_cons_eq_some.mpr ⟨_, hstep, hrun⟩, hmedia, hu, ?_⟩
      rw [List.map_cons, boots.tally_cons_of_some _ _ hstep, hcount, htally]

/-- **Consumed within two boots.** One staged capsule, sound and of version `v`, over two boots or
more in which it can be read and deleted, the FMP can be read, and `UpdateCapsule` writes `v`, which
runs from the next boot on: whatever the running version and the last-attempt record were, the file
is gone, every boot from then on runs `v`, and `UpdateCapsule` was called exactly once, or never if
`v` was running from the start.
Source: `NucCapsuleOnDiskLib.c` `ApplyOneCapsule`, `ProcessDropBox`, `OnReadyToBoot`
Kind: P -/
theorem good_capsule_consumed {e : DirEntry} {v : UInt32} {p : Platform} {bs : List Boot}
    (hstaged : p.media.staged = [e]) (hsound : Sound e v) (hlen : 2 ≤ bs.length)
    (hob : boots.Along (Obliging e v) p (bs.map .boot)) :
    ∃ u, boots.run p (bs.map .boot) = some u ∧ u.media.content e.id = none ∧
      u.firmware.flash = v ∧ (∀ b, Obliging e v u (.boot b) → b.fmp.version = v) ∧
      boots.tally updateCount p (bs.map .boot) = if v = p.firmware.flash then 0 else 1 := by
  suffices h : ∃ u, boots.run p (bs.map .boot) = some u ∧ u.media = p.media.remove e.id ∧
      u.firmware.flash = v ∧
      boots.tally updateCount p (bs.map .boot) = if v = p.firmware.flash then 0 else 1 by
    obtain ⟨u, hrun, hmedia, hflash, htally⟩ := h
    refine ⟨u, hrun, ?_, hflash, fun b hb => (hb.1 b rfl).trans hflash, htally⟩
    rw [hmedia, Media.content_remove_self]
  have hremoved : (p.media.remove e.id).staged = [] := by
    rw [Media.staged_remove, hstaged]
    simp
  match bs, hlen, hob with
  | b₁ :: b₂ :: bs, _, ⟨hob₁, hnext⟩ =>
      obtain ⟨hflash₁, hcount₁, hmedia₁⟩ := boot_of_staged hsound hstaged hob₁
      have hstep₁ : boots.step p (.boot b₁) = some (boot p b₁).platform := rfl
      set p₁ := (boot p b₁).platform
      rw [List.map_cons, boots.tally_cons_of_some _ _ hstep₁, hcount₁]
      obtain hgone | ⟨-, hkept⟩ := hmedia₁
      · -- consumed in the first boot
        obtain ⟨u, hrun, hmedia, hflash, htally⟩ :=
          run_of_gone (b₂ :: bs) p₁ (hgone ▸ hremoved) hflash₁
        exact ⟨u, boots.run_cons_eq_some.mpr ⟨p₁, hstep₁, hrun⟩, hmedia.trans hgone, hflash,
          by rw [htally, Nat.add_zero]⟩
      · -- written and left staged: the gate of the second boot finds its version running
        obtain ⟨hob₂, -⟩ := hnext p₁ hstep₁
        obtain ⟨hflash₂, hcount₂, hmedia₂⟩ := boot_of_staged hsound (hkept ▸ hstaged) hob₂
        have hstep₂ : boots.step p₁ (.boot b₂) = some (boot p₁ b₂).platform := rfl
        rw [if_pos hflash₁.symm] at hcount₂
        have hgone : (boot p₁ b₂).platform.media = p.media.remove e.id := by
          rw [← hkept]
          exact hmedia₂.resolve_right fun h => h.1 hflash₁.symm
        obtain ⟨u, hrun, hmedia, hflash, htally⟩ := run_of_gone bs _ (hgone ▸ hremoved) hflash₂
        refine ⟨u, boots.run_cons_eq_some.mpr ⟨p₁, hstep₁,
          boots.run_cons_eq_some.mpr ⟨_, hstep₂, hrun⟩⟩, hmedia.trans hgone, hflash, ?_⟩
        rw [List.map_cons, boots.tally_cons_of_some _ _ hstep₂, hcount₂, htally, Nat.add_zero]

/-- A boot that meets no trouble, with version `running` and the record of a success of version 7,
in which `UpdateCapsule` writes version 7.
Kind: D -/
def smoothBoot (running : UInt32) : Boot where
  fmp := (firmwareAt running 7).fmp
  signals :=
    [{ located := efiSuccess
       visits := [⟨0, ⟨true, efiSuccess, 1⟩, ⟨true, efiSuccess, 1⟩, fun _ => true, fun _ =>
         goodAnswers readableWalk ⟨efiSuccess, ⟨(firmwareAt running 7).fmp, 7⟩⟩⟩]
       nodup := by simp }]

/-- Version 7 is staged over a running version 5 and a record that already reads as a success of
version 7. Kind: D -/
def equalRecord : Platform :=
  ⟨firmwareAt 5 7, ⟨[stagedFile "a.cap" (capsuleOfVersion 7)], by decide⟩⟩

/-- The first boot writes the capsule and leaves it staged, the second removes it. Kind: C -/
theorem good_capsule_consumed_over_equal_record :
    (boot equalRecord (smoothBoot 5)).platform.media.content ⟨0, ucs2 "a.cap"⟩ =
      some (capsuleOfVersion 7) ∧
    ∃ u, boots.run equalRecord [.boot (smoothBoot 5), .boot (smoothBoot 7)] = some u ∧
      u.media.content ⟨0, ucs2 "a.cap"⟩ = none ∧ u.firmware.flash = 7 ∧
      boots.tally updateCount equalRecord [.boot (smoothBoot 5), .boot (smoothBoot 7)] = 1 := by
  refine ⟨by decide +kernel, ?_⟩
  have hstaged : equalRecord.media.staged = [stagedFile "a.cap" (capsuleOfVersion 7)] := by
    decide +kernel
  have hsound : Sound (stagedFile "a.cap" (capsuleOfVersion 7)) 7 :=
    ⟨by decide, ⟨⟨45, 0⟩, by decide +kernel⟩, by decide +kernel⟩
  have hob : boots.Along (Obliging (stagedFile "a.cap" (capsuleOfVersion 7)) 7) equalRecord
      ([smoothBoot 5, smoothBoot 7].map .boot) := by
    decide +kernel
  obtain ⟨u, hrun, hgone, hflash, -, htally⟩ := good_capsule_consumed hstaged hsound le_rfl hob
  exact ⟨u, hrun, hgone, hflash, htally⟩

end NucBios.Capsule
