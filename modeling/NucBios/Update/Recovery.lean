import NucBios.Update.SetImage

/-!
# Updates on a flash that fails

An update may meet a flash that fails for a while, or be cut off and made again at the next boot.
This file says what the layers of retries, the comparison before programming and the frame of each
range make of that:

* `setImage_few_faults`: with at most three failed calls in it, an update ends as on a flash that
  never fails, with the same content;
* `setImage_in_place`: on a flash that holds the planned ranges already, nothing is erased or
  written;
* `setImage_recovers`: however many attempts failed, and wherever each of them stopped, the first
  one that succeeds leaves the image in its regions and everything outside their blocks as it was
  before the first attempt.
-/

namespace NucBios.Update

open NucBios.Lib NucBios.Uefi

variable {σ : Type*}

/-! ### Planning only reads -/

section Reading

variable (io : FlashIo σ)

lemma readsOnly_readFlashRangeLoop {blockSize : ℕ} (hpos : 0 < blockSize) (offset : ℕ)
    (remaining cursor : ℕ) (buffer : List UInt8) (s : σ) :
    ReadsOnly io s (readFlashRangeLoop io hpos offset remaining cursor buffer s).2 := by
  induction remaining using Nat.strong_induction_on generalizing cursor buffer s with
  | _ remaining ih =>
    rw [readFlashRangeLoop]
    split
    · have hmod := Nat.mod_lt (offset + cursor) hpos
      have hread := readsOnly_fmpDeviceFlashReadWithRetry io ((offset + cursor) / blockSize)
        ((offset + cursor) % blockSize)
        (min remaining (blockSize - (offset + cursor) % blockSize)) s
      dsimp only
      split
      · exact hread
      · exact hread.trans (ih _ (by omega) _ _ _)
    · exact .refl

lemma readsOnly_readFlashRange (blockSize flashSize offset length : ℕ) (s : σ) :
    ReadsOnly io s (readFlashRange io blockSize flashSize offset length s).2 := by
  unfold readFlashRange
  split
  · split
    · exact .refl
    · split
      · exact .refl
      · exact readsOnly_readFlashRangeLoop io _ offset length 0 [] s
  · exact .refl

lemma readsOnly_loadFlashFmap (blockSize flashSize : ℕ) (capsule : Fmap) (allocated : Bool)
    (s : σ) :
    ReadsOnly io s (loadFlashFmap io blockSize flashSize capsule allocated s).2 := by
  unfold loadFlashFmap
  split
  · exact .refl
  · rename_i area _
    have hread := readsOnly_readFlashRange io blockSize flashSize area.offset area.size s
    split
    · exact .refl
    · split
      · exact .refl
      · split <;> rename_i heq <;> rw [heq] at hread
        · exact hread
        · split
          · exact hread
          · split <;> exact hread

lemma readsOnly_planFallback (blockSize : ℕ) (base : List UInt8) (pools : Pools) (s : σ) :
    ReadsOnly io s (planFallback io blockSize base pools s).2 := by
  have hread : ReadsOnly io s
      (readLiveDescriptor io blockSize base.length pools.descriptor s).2 := by
    unfold readLiveDescriptor
    split
    · exact readsOnly_readFlashRange io _ _ _ _ s
    · exact .refl
  unfold planFallback findBiosFallbackRegion
  dsimp only
  split <;> rename_i heq <;> rw [Prod.mk.injEq] at heq <;> exact heq.2 ▸ hread

lemma readsOnly_planManifest (blockSize : ℕ) (base : List UInt8) (pools : Pools) (fmap : Fmap)
    (entries : List (List UInt8)) (totalSteps : ℕ) (s : σ) :
    ReadsOnly io s (planManifest io blockSize base pools fmap entries totalSteps s).2 := by
  have hload := readsOnly_loadFlashFmap io blockSize base.length fmap pools.fmapBuffer s
  unfold planManifest
  dsimp only
  split
  · exact hload
  · exact hload.trans (readsOnly_planFallback io blockSize base pools _)
  · exact hload

/-- Everything before the first block is programmed is reading. Kind: P -/
theorem readsOnly_planUpdate (blockSize : ℕ) (pools : Pools) (image : List UInt8) (s : σ) :
    ReadsOnly io s (planUpdate io blockSize pools image s).2 := by
  unfold planUpdate
  split
  · exact .refl
  · rename_i capsule _
    have hfallback := readsOnly_planFallback io blockSize (image.take capsule.baseImageSize) pools s
    dsimp only
    split
    · split <;> exact hfallback
    · split
      · exact .refl
      · rename_i fmap _
        split
        · exact .refl
        · split
          · exact .refl
          · rename_i totalSteps _
            have hmanifest := readsOnly_planManifest io blockSize (image.take capsule.baseImageSize)
              pools fmap capsule.entries totalSteps s
            split
            · exact .refl
            · split <;> rename_i heq <;> rw [heq] at hmanifest <;> exact hmanifest

end Reading

/-! ### The size of the firmware in an image -/

lemma planUpdate_base {io : FlashIo σ} {blockSize : ℕ} {pools : Pools} {image : List UInt8} {s : σ}
    {base : ℕ} {plan : Plan} (h : (planUpdate io blockSize pools image s).1 = .ok (base, plan)) :
    ∃ capsule, discover image = some capsule ∧ base = capsule.baseImageSize := by
  unfold planUpdate at h
  split at h
  · cases h
  · rename_i capsule hdiscover
    refine ⟨capsule, hdiscover, ?_⟩
    dsimp only at h
    split at h
    · split at h <;> cases h
      rfl
    · split at h
      · cases h
      · split at h
        · cases h
        · split at h
          · cases h
          · split at h
            · cases h
            · split at h <;> cases h
              rfl

/-- An image that passes the size check holds a firmware of the flash's size. Kind: L -/
theorem baseImageSize_of_check {image : List UInt8} {fwSize : ℕ} {capsule : CapsuleImage}
    (hcheck : fmpDeviceCheckImageSize image fwSize = true) (h : discover image = some capsule) :
    capsule.baseImageSize = fwSize := by
  unfold fmpDeviceCheckImageSize at hcheck
  unfold discover at h
  cases hlocated : fmpDeviceLocateRegionManifest image with
  | ok m =>
      simp only [hlocated, Option.map_some, Option.some.injEq] at h hcheck
      subst h
      simpa using hcheck
  | error status =>
      simp only [hlocated, Bool.and_eq_true, beq_iff_eq] at h hcheck
      simp only [hcheck.1, if_true, Option.map_some, Option.some.injEq] at h
      subst h
      exact hcheck.2

/-- The firmware in the image, which the manifest is not part of, is no larger than the flash.
Kind: D -/
def FitsFlash (image : List UInt8) (flashSize : ℕ) : Prop :=
  ∀ capsule ∈ discover image, capsule.baseImageSize ≤ flashSize

lemma planUpdate_fits {image : List UInt8} {flashSize : ℕ} (h : FitsFlash image flashSize)
    (io : FlashIo σ) (blockSize : ℕ) (pools : Pools) (s : σ) (base : ℕ) (plan : Plan)
    (hplan : (planUpdate io blockSize pools image s).1 = .ok (base, plan)) : base ≤ flashSize := by
  obtain ⟨capsule, hcapsule, rfl⟩ := planUpdate_base hplan
  exact h capsule hcapsule

lemma fitsFlash_of_check {image : List UInt8} {fwSize : ℕ}
    (hcheck : fmpDeviceCheckImageSize image fwSize = true) : FitsFlash image fwSize :=
  fun _ hcapsule => (baseImageSize_of_check hcheck hcapsule).le

/-! ### Fewer than four faults -/

section Tolerance

variable (part : NorPart σ)

/-- A flash with fewer than four faults left and one that never fails, with one content.
Kind: D -/
structure Matches (s : σ) (t : Scripted) : Prop where
  content : part.content s = t.mem
  faults : part.faults s < 4
  perfect : t.script = []

/-- The perfect flash, as a part of the same size. Kind: D -/
def perfectPart : NorPart Scripted :=
  Scripted.part part.blockSize part.blockCount part.blockSize_pos

lemma readsOnly_script {blockSize : ℕ} {s t : Scripted} (h : ReadsOnly (Scripted.io blockSize) s t)
    (hs : s.script = []) : t.script = [] := by
  induction h with
  | refl => exact hs
  | tail _ hstep ih =>
      cases hstep with
      | read => simp [Scripted.io, Scripted.next, ih]
      | stall f h => cases h

/-- Reading keeps a flash and its perfect counterpart together. Kind: L -/
theorem Matches.readsOnly {s s' : σ} {t t' : Scripted} (h : Matches part s t)
    (hs : ReadsOnly part.toFlashIo s s') (ht : ReadsOnly (Scripted.io part.blockSize) t t') :
    Matches part s' t' where
  content := by
    rw [hs.content_eq part, h.content]
    exact (ht.content_eq (perfectPart part)).symm
  faults := (hs.faults_le part).trans_lt h.faults
  perfect := readsOnly_script ht h.perfect

/-- What a read of a range answers if the flash does not make it give up: a function of what the
flash holds. Kind: L -/
theorem readFlashRange_of_faults {flashSize : ℕ}
    (hpart : flashSize ≤ part.blockCount * part.blockSize) (offset length : ℕ) {s : σ}
    (hfaults : part.faults s < 4) :
    (readFlashRange part.toFlashIo part.blockSize flashSize offset length s).1 =
      if length = 0 then .ok []
      else if offset ≥ flashSize ∨ length > flashSize - offset then .error efiInvalidParameter
      else .ok (cells (part.content s) offset length) := by
  have hspec := readFlashRange_spec part.toFlashPart flashSize offset length s
  unfold readFlashRange at hspec ⊢
  rw [dif_pos part.blockSize_pos] at hspec ⊢
  split
  · rfl
  · rename_i hlength
    rw [if_neg hlength] at hspec
    split
    · rfl
    · rename_i hinside
      rw [if_neg hinside] at hspec
      have hprice :=
        priced_readFlashRangeLoop part length 0 [] s (by omega : offset + 0 + length ≤ _)
      generalize readFlashRangeLoop part.toFlashIo part.blockSize_pos offset length 0 [] s = r
        at hspec hprice ⊢
      obtain ⟨answer, s'⟩ := r
      cases answer with
      | ok data => rw [hspec.2 data rfl]
      | error e =>
          have := hprice.gaveUp rfl
          omega

lemma Matches.readFlashRange {s : σ} {t : Scripted} (h : Matches part s t) {flashSize : ℕ}
    (hpart : flashSize ≤ part.blockCount * part.blockSize) (offset length : ℕ) :
    (readFlashRange part.toFlashIo part.blockSize flashSize offset length s).1 =
      (readFlashRange (Scripted.io part.blockSize) part.blockSize flashSize offset length t).1 := by
  have hperfect : (perfectPart part).faults t < 4 := by
    show t.script.count true < 4
    rw [h.perfect]
    decide
  rw [readFlashRange_of_faults part hpart offset length h.faults, h.content]
  exact (readFlashRange_of_faults (perfectPart part) hpart offset length hperfect).symm

lemma Matches.loadFlashFmap {s : σ} {t : Scripted} (h : Matches part s t) {flashSize : ℕ}
    (hpart : flashSize ≤ part.blockCount * part.blockSize) (capsule : Fmap) (allocated : Bool) :
    (loadFlashFmap part.toFlashIo part.blockSize flashSize capsule allocated s).1 =
      (loadFlashFmap (Scripted.io part.blockSize) part.blockSize flashSize capsule allocated
        t).1 := by
  unfold Update.loadFlashFmap
  split
  · rfl
  · rename_i area _
    have hread := h.readFlashRange part hpart area.offset area.size
    split
    · rfl
    · split
      · rfl
      · generalize Update.readFlashRange part.toFlashIo part.blockSize flashSize area.offset
          area.size s = r at hread ⊢
        generalize Update.readFlashRange (Scripted.io part.blockSize) part.blockSize flashSize
          area.offset area.size t = r' at hread ⊢
        obtain ⟨answer, s'⟩ := r
        obtain ⟨answer', t'⟩ := r'
        obtain rfl : answer = answer' := hread
        cases answer with
        | error e => rfl
        | ok buffer =>
            dsimp only
            split
            · rfl
            · split <;> rfl

lemma planFallback_fst {τ : Type*} (io : FlashIo τ) (blockSize : ℕ) (base : List UInt8)
    (pools : Pools) (v : τ) :
    (planFallback io blockSize base pools v).1 =
      match chooseBios
          ((readLiveDescriptor io blockSize base.length pools.descriptor v).1.toOption.bind
            (usableBios base.length base.length))
          (usableBios base.length base.length base) with
      | some range => .biosRegion range
      | none => .legacy := by
  unfold planFallback findBiosFallbackRegion
  dsimp only
  split <;> rename_i heq <;> rw [Prod.mk.injEq] at heq <;> rw [heq.1]

lemma Matches.planFallback {s : σ} {t : Scripted} (h : Matches part s t) {base : List UInt8}
    (hpart : base.length ≤ part.blockCount * part.blockSize) (pools : Pools) :
    (planFallback part.toFlashIo part.blockSize base pools s).1 =
      (planFallback (Scripted.io part.blockSize) part.blockSize base pools t).1 := by
  have hread : (readLiveDescriptor part.toFlashIo part.blockSize base.length pools.descriptor s).1 =
      (readLiveDescriptor (Scripted.io part.blockSize) part.blockSize base.length
        pools.descriptor t).1 := by
    unfold readLiveDescriptor
    split
    · exact h.readFlashRange part hpart _ _
    · rfl
  rw [planFallback_fst, planFallback_fst, hread]

lemma Matches.planManifest {s : σ} {t : Scripted} (h : Matches part s t) {base : List UInt8}
    (hpart : base.length ≤ part.blockCount * part.blockSize) (pools : Pools) (fmap : Fmap)
    (entries : List (List UInt8)) (totalSteps : ℕ) :
    (planManifest part.toFlashIo part.blockSize base pools fmap entries totalSteps s).1 =
      (planManifest (Scripted.io part.blockSize) part.blockSize base pools fmap entries totalSteps
        t).1 := by
  have hload := h.loadFlashFmap part hpart fmap pools.fmapBuffer
  have hfallback := (h.readsOnly part
    (readsOnly_loadFlashFmap part.toFlashIo part.blockSize base.length fmap pools.fmapBuffer s)
    (readsOnly_loadFlashFmap _ part.blockSize base.length fmap pools.fmapBuffer t)).planFallback
      part hpart pools
  unfold Update.planManifest
  dsimp only
  rw [hload]
  split
  · rfl
  · rw [hfallback]
  · rfl

/-- With fewer than four faults, what is planned depends on what the flash holds and not on the
calls that failed. Kind: P -/
theorem Matches.planUpdate {s : σ} {t : Scripted} (h : Matches part s t) {image : List UInt8}
    (hfits : FitsFlash image (part.blockCount * part.blockSize)) (pools : Pools) :
    (planUpdate part.toFlashIo part.blockSize pools image s).1 =
      (planUpdate (Scripted.io part.blockSize) part.blockSize pools image t).1 := by
  unfold Update.planUpdate
  split
  · rfl
  · rename_i capsule hcapsule
    have hbase : (image.take capsule.baseImageSize).length ≤ part.blockCount * part.blockSize :=
      (List.length_take_le _ _).trans (hfits capsule hcapsule)
    have hfallback := h.planFallback part hbase pools
    dsimp only
    split
    · rw [hfallback]
      split <;> rfl
    · split
      · rfl
      · rename_i fmap _
        split
        · rfl
        · split
          · rfl
          · rename_i totalSteps _
            have hmanifest := h.planManifest part hbase pools fmap capsule.entries totalSteps
            split
            · rfl
            · generalize Update.planManifest part.toFlashIo part.blockSize
                (image.take capsule.baseImageSize) pools fmap capsule.entries totalSteps s = r
                at hmanifest ⊢
              generalize Update.planManifest (Scripted.io part.blockSize) part.blockSize
                (image.take capsule.baseImageSize) pools fmap capsule.entries totalSteps t = r'
                at hmanifest ⊢
              obtain ⟨answer, s'⟩ := r
              obtain ⟨answer', t'⟩ := r'
              obtain rfl : answer = answer' := hmanifest
              cases answer <;> rfl

/-- Four failed calls are needed to make the programming of a manifest's regions fail. Kind: L -/
theorem priced_runManifest {image : List UInt8} {baseImageSize : ℕ}
    (hbase : baseImageSize ≤ image.length) (hsize : image.length < 2 ^ 64)
    (hpart : baseImageSize ≤ part.blockCount * part.blockSize) (fmap : Fmap) :
    ∀ (entries : List (List UInt8)) (u : UpdateState σ),
      Priced part
        ((runManifest part.toFlashIo part.blockSize image baseImageSize fmap entries u).1 ==
          .ioError)
        u.device
        (runManifest part.toFlashIo part.blockSize image baseImageSize fmap entries u).2.device
  | [], u => ⟨le_rfl, by simp [runManifest]⟩
  | entry :: entries, u => by
      rw [runManifest]
      split
      · exact ⟨le_rfl, by simp⟩
      · rename_i region _
        split
        · exact ⟨le_rfl, by simp⟩
        · rename_i hinside
          have hfirst := priced_updateFlashRangeFromImage part hbase
            (show region.offset + region.size ≤ baseImageSize by omega) (by omega)
            hpart u
          dsimp only
          split
          · rename_i herr
            exact ⟨hfirst.le, fun _ => hfirst.gaveUp herr⟩
          · exact hfirst.trans part (priced_runManifest hbase hsize hpart fmap entries _)

lemma NorPart.blocks_le {size : ℕ} (h : size ≤ part.blockCount * part.blockSize) :
    size / part.blockSize ≤ part.blockCount :=
  Nat.div_le_of_le_mul (by rwa [Nat.mul_comm])

/-- Four failed calls are needed to make the programming of whole blocks fail. Kind: L -/
theorem priced_runLegacy {image : List UInt8} :
    ∀ (left block : ℕ) (u : UpdateState σ), block + left ≤ part.blockCount →
      (block + left) * part.blockSize ≤ image.length →
      Priced part ((runLegacy part.toFlashIo part.blockSize image left block u).1 == .ioError)
        u.device (runLegacy part.toFlashIo part.blockSize image left block u).2.device
  | 0, _, u, _, _ => ⟨le_rfl, by simp [runLegacy]⟩
  | left + 1, block, u, hcount, h => by
      have hrest : (block + 1 + left) * part.blockSize ≤ image.length := by
        rw [show block + 1 + left = block + (left + 1) by omega]
        exact h
      have himage : block * part.blockSize + part.blockSize ≤ image.length := by
        rw [← Nat.succ_mul]
        exact (Nat.mul_le_mul_right _ (by omega)).trans hrest
      have hfirst := priced_updateSegment part (by omega : block < part.blockCount)
        (Nat.zero_le _) le_rfl himage u
      rw [runLegacy]
      split
      · rename_i herr
        exact ⟨hfirst.le, fun _ => hfirst.gaveUp herr⟩
      · exact hfirst.trans part (priced_runLegacy left (block + 1) _ (by omega) hrest)

lemma success_of_priced {u : UpdateState σ} {r : SetImageExit × UpdateState σ}
    (hprice : Priced part (r.1 == .ioError) u.device r.2.device)
    (hexits : r.1 = .success ∨ r.1 = .ioError) (hfaults : part.faults u.device < 4) :
    r.1 = .success := by
  refine hexits.resolve_right fun herr => ?_
  have := hprice.gaveUp (by simp [herr])
  omega

/-- What an update announces before it programs: the steps, and whether the variables are kept.
`none` if it stops there. Kind: D -/
def Plan.announced (blockSize baseImageSize : ℕ) : Plan → Option (ℕ × Bool)
  | .manifest _ _ totalSteps preserved => some (totalSteps, preserved)
  | .biosRegion range =>
      (fmpDeviceGetFlashRangeStepCount range blockSize).toOption.map fun n => (n, false)
  | .legacy =>
      if baseImageSize / blockSize > maxUintn / 2 then none
      else some (baseImageSize / blockSize * 2, false)

/-- With fewer than four faults, a plan that is announced is carried out. Kind: P -/
theorem runPlan_of_faults {image : List UInt8} (hsize : image.length < 2 ^ 64) {baseImageSize : ℕ}
    (hpart : baseImageSize ≤ part.blockCount * part.blockSize)
    (hbase : baseImageSize ≤ image.length) {content : ℕ → UInt8} {plan : Plan}
    (hplan : PlanOk content image part.blockSize baseImageSize plan) {s : σ}
    (hfaults : part.faults s < 4) :
    match plan.announced part.blockSize baseImageSize with
    | none => runPlan part.toFlashIo part.blockSize image baseImageSize plan s =
        finish 0 false (.aborted, ⟨s, 0⟩)
    | some (totalSteps, preserved) => ∃ v,
        runPlan part.toFlashIo part.blockSize image baseImageSize plan s =
          finish totalSteps preserved (.success, v) := by
  cases plan with
  | manifest fmap entries totalSteps preserved =>
      have hspec := runManifest_spec part.toFlashPart hbase hsize ⟨s, 0⟩ hplan.2.1
      have hprice := priced_runManifest part hbase hsize hpart fmap entries ⟨s, 0⟩
      rw [Plan.announced, runPlan]
      exact ⟨_, by rw [← success_of_priced part hprice hspec.exits hfaults]⟩
  | biosRegion range =>
      have hprice := priced_updateFlashRangeFromImage part hbase hplan.2 (by omega) hpart ⟨s, 0⟩
      rw [Plan.announced, runPlan]
      cases hcount : fmpDeviceGetFlashRangeStepCount range part.blockSize with
      | error e => rfl
      | ok totalSteps =>
          refine ⟨(updateFlashRangeFromImage part.toFlashIo part.blockSize image baseImageSize range
            ⟨s, 0⟩).2, ?_⟩
          dsimp only
          rw [if_neg]
          intro herr
          have := hprice.gaveUp herr
          dsimp only at this
          omega
  | legacy =>
      have hfits := Nat.div_mul_le_self baseImageSize part.blockSize
      have himage : (0 + baseImageSize / part.blockSize) * part.blockSize ≤ image.length := by
        rw [Nat.zero_add]
        omega
      have hspec := runLegacy_spec part.toFlashPart _ 0 ⟨s, 0⟩ himage
      have hprice := priced_runLegacy part _ 0 ⟨s, 0⟩ (by
        rw [Nat.zero_add]
        exact part.blocks_le hpart) himage
      rw [Plan.announced, runPlan]
      split
      · rename_i hnone
        split at hnone
        · rename_i hmany
          simp [hmany]
        · cases hnone
      · rename_i hsome
        split at hsome
        · cases hsome
        · rename_i hmany
          cases hsome
          rw [if_neg hmany]
          exact ⟨_, by rw [← success_of_priced part hprice hspec.exits hfaults]⟩

/-- Two updates, of a flash and of a perfect one, that cannot be told apart by what they return or
leave. Kind: D -/
structure SameOutcome (r : SetImageResult σ) (q : SetImageResult Scripted) : Prop where
  exit : r.exit = q.exit
  content : part.content r.device = q.device.mem
  step : r.step = q.step
  totalSteps : r.totalSteps = q.totalSteps
  lastAttemptSuccess : r.lastAttemptSuccess = q.lastAttemptSuccess
  servicesReplaced : r.servicesReplaced = q.servicesReplaced

theorem Matches.runPlan {s : σ} {t : Scripted} (h : Matches part s t) {image : List UInt8}
    (hsize : image.length < 2 ^ 64) {baseImageSize : ℕ}
    (hpart : baseImageSize ≤ part.blockCount * part.blockSize)
    (hbase : baseImageSize ≤ image.length) {plan : Plan}
    (hplan : PlanOk (part.content s) image part.blockSize baseImageSize plan) :
    SameOutcome part (runPlan part.toFlashIo part.blockSize image baseImageSize plan s)
      (runPlan (Scripted.io part.blockSize) part.blockSize image baseImageSize plan t) := by
  have hperfect : (perfectPart part).faults t < 4 := by
    show t.script.count true < 4
    rw [h.perfect]
    decide
  have hspec := runPlan_spec part.toFlashPart hsize hbase hplan s
  have hspec' : OutcomeSpec (perfectPart part).toFlashPart image _ t
      (Update.runPlan (Scripted.io part.blockSize) part.blockSize image baseImageSize plan t) :=
    runPlan_spec (perfectPart part).toFlashPart hsize hbase hplan t
  have hrun := runPlan_of_faults part hsize hpart hbase hplan h.faults
  have hrun' := runPlan_of_faults (perfectPart part) hsize hpart hbase hplan hperfect
  cases hannounced : plan.announced part.blockSize baseImageSize with
  | none =>
      rw [show plan.announced (perfectPart part).blockSize baseImageSize = none from hannounced]
        at hrun'
      rw [hannounced] at hrun
      have heq : Update.runPlan (Scripted.io part.blockSize) part.blockSize image baseImageSize plan
        t = _ := hrun'
      rw [hrun, heq]
      exact ⟨rfl, h.content, rfl, rfl, rfl, rfl⟩
  | some announced =>
      obtain ⟨totalSteps, preserved⟩ := announced
      rw [show plan.announced (perfectPart part).blockSize baseImageSize =
        some (totalSteps, preserved) from hannounced] at hrun'
      rw [hannounced] at hrun
      obtain ⟨v, hv⟩ := hrun
      obtain ⟨v', hv'⟩ := hrun'
      have heq : Update.runPlan (Scripted.io part.blockSize) part.blockSize image baseImageSize plan
        t = _ := hv'
      rw [hv] at hspec ⊢
      rw [heq] at hspec' ⊢
      -- both succeed, and what success leaves is determined by what was there
      obtain ⟨hover, hstep⟩ := hspec.done rfl
      obtain ⟨hover', hstep'⟩ := hspec'.done rfl
      have hcontent : (perfectPart part).content t = part.content s := h.content.symm
      rw [hcontent] at hover'
      exact ⟨rfl, hover.unique hover', hstep.trans hstep'.symm, rfl, rfl, rfl⟩

/-- **Three faults are invisible.** On a NOR part of which fewer than four calls will still fail,
whichever they are, an update with a firmware that fits the part ends exactly as on a flash that
never fails: with the same status, the same progress, the same decision on the variables and the
same content.
Kind: P -/
theorem setImage_few_faults (pools : Pools) (image : List UInt8) (s : σ)
    (hsize : image.length < 2 ^ 64) (hfits : FitsFlash image (part.blockCount * part.blockSize))
    (hfaults : part.faults s < 4) :
    SameOutcome part (fmpDeviceSetImage part.toFlashIo part.blockSize pools image s)
      (fmpDeviceSetImage (Scripted.io part.blockSize) part.blockSize pools image
        (perfectFlash (part.content s))) := by
  have hmatch : Matches part s (perfectFlash (part.content s)) := ⟨rfl, hfaults, rfl⟩
  have hplans := hmatch.planUpdate part hfits pools
  have hafter := hmatch.readsOnly part
    (readsOnly_planUpdate part.toFlashIo part.blockSize pools image s)
    (readsOnly_planUpdate _ part.blockSize pools image (perfectFlash (part.content s)))
  have hspec := planUpdate_spec part.toFlashPart pools image s
  have hpart := planUpdate_fits hfits part.toFlashIo part.blockSize pools s
  unfold fmpDeviceSetImage
  generalize planUpdate part.toFlashIo part.blockSize pools image s = r
    at hplans hafter hspec hpart ⊢
  generalize planUpdate (Scripted.io part.blockSize) part.blockSize pools image
    (perfectFlash (part.content s)) = q at hplans hafter ⊢
  obtain ⟨answer, s'⟩ := r
  obtain ⟨answer', t'⟩ := q
  obtain rfl : answer = answer' := hplans
  cases answer with
  | error exit => exact ⟨rfl, hafter.content, rfl, rfl, rfl, rfl⟩
  | ok planned =>
      obtain ⟨base, plan⟩ := planned
      obtain ⟨hbase, hok⟩ := hspec.planned base plan rfl
      rw [← show part.content s' = part.content s from hspec.unchanged] at hok
      exact hafter.runPlan part hsize (hpart base plan rfl) hbase hok

/-- The sample, whose firmware has the size of the part and whose manifest comes on top of that,
with three failed calls. Kind: C -/
theorem setImage_few_faults_sample :
    SameOutcome samplePart
      (fmpDeviceSetImage samplePart.toFlashIo samplePart.blockSize samplePools sampleImage
        (sampleFlash [true, true, false, false, false, false, true]))
      (fmpDeviceSetImage (Scripted.io samplePart.blockSize) samplePart.blockSize samplePools
        sampleImage (perfectFlash (samplePart.content
          (sampleFlash [true, true, false, false, false, false, true])))) :=
  setImage_few_faults samplePart samplePools sampleImage _ sampleImage_length
    (fitsFlash_of_check (by decide +kernel)) (by decide)

/-! ### An update that has been made -/

/-- Regions that are in place are only read. Kind: L -/
theorem readsOnly_runManifest {image : List UInt8} {baseImageSize : ℕ}
    (hbase : baseImageSize ≤ image.length) (hsize : image.length < 2 ^ 64)
    (hpart : baseImageSize ≤ part.blockCount * part.blockSize) (fmap : Fmap) :
    ∀ (entries : List (List UInt8)) (u : UpdateState σ), part.faults u.device < 4 →
      Set.EqOn (part.content u.device) (pointer image)
        (addressesOf (entries.filterMap fun e => (findFmapRegion fmap e).toOption)) →
      ReadsOnly part.toFlashIo u.device
        (runManifest part.toFlashIo part.blockSize image baseImageSize fmap entries u).2.device
  | [], _, _, _ => .refl
  | entry :: entries, u, hfaults, hplace => by
      rw [runManifest]
      split
      · exact .refl
      · rename_i region hregion
        simp only [List.filterMap_cons, hregion, Except.toOption, addressesOf_cons] at hplace
        split
        · exact .refl
        · rename_i hinside
          obtain ⟨hok, honly⟩ := readsOnly_updateFlashRangeFromImage part hbase
            (show region.offset + region.size ≤ baseImageSize by omega) (by omega)
            hpart hfaults (hplace.mono Set.subset_union_left)
          dsimp only
          rw [if_neg (by rw [hok]; decide)]
          refine honly.trans (readsOnly_runManifest hbase hsize hpart fmap entries _
            ((honly.faults_le part).trans_lt hfaults) ?_)
          rw [honly.content_eq part]
          exact hplace.mono Set.subset_union_right

/-- Blocks that are in place are only read. Kind: L -/
theorem readsOnly_runLegacy {image : List UInt8} :
    ∀ (left block : ℕ) (u : UpdateState σ), block + left ≤ part.blockCount →
      (block + left) * part.blockSize ≤ image.length →
      part.faults u.device < 4 →
      Set.EqOn (part.content u.device) (pointer image)
        (Set.Ico (block * part.blockSize) ((block + left) * part.blockSize)) →
      ReadsOnly part.toFlashIo u.device
        (runLegacy part.toFlashIo part.blockSize image left block u).2.device
  | 0, _, _, _, _, _, _ => .refl
  | left + 1, block, u, hcount, h, hfaults, hplace => by
      rw [show block + (left + 1) = block + 1 + left by omega] at h hplace hcount
      have hfirst_le : block * part.blockSize + part.blockSize ≤
          (block + 1 + left) * part.blockSize := by
        rw [← Nat.succ_mul]
        exact Nat.mul_le_mul_right _ (by omega)
      obtain ⟨hok, honly⟩ := readsOnly_updateSegment part (by omega : block < part.blockCount)
        (Nat.zero_le _) le_rfl (hfirst_le.trans h) hfaults
        (hplace.mono (Set.Ico_subset_Ico (by omega) hfirst_le))
      rw [runLegacy, if_neg (by rw [hok]; decide)]
      refine honly.trans (readsOnly_runLegacy left (block + 1) _ hcount h
        ((honly.faults_le part).trans_lt hfaults) ?_)
      rw [honly.content_eq part]
      exact hplace.mono (Set.Ico_subset_Ico_left (Nat.mul_le_mul_right _ (by omega)))

theorem readsOnly_runPlan {image : List UInt8} (hsize : image.length < 2 ^ 64) {baseImageSize : ℕ}
    (hpart : baseImageSize ≤ part.blockCount * part.blockSize)
    (hbase : baseImageSize ≤ image.length) {content : ℕ → UInt8} {plan : Plan}
    (hplan : PlanOk content image part.blockSize baseImageSize plan) {s : σ}
    (hfaults : part.faults s < 4)
    (hplace : Set.EqOn (part.content s) (pointer image)
      (addressesOf (plan.ranges part.blockSize baseImageSize))) :
    ReadsOnly part.toFlashIo s
      (runPlan part.toFlashIo part.blockSize image baseImageSize plan s).device := by
  cases plan with
  | manifest fmap entries totalSteps preserved =>
      exact readsOnly_runManifest part hbase hsize hpart fmap entries ⟨s, 0⟩ hfaults hplace
  | biosRegion range =>
      rw [Plan.ranges, addressesOf_cons, addressesOf_nil, Set.union_empty] at hplace
      rw [runPlan]
      split
      · exact .refl
      · exact (readsOnly_updateFlashRangeFromImage part hbase hplan.2 (by omega)
          hpart (u := ⟨s, 0⟩) hfaults hplace).2
  | legacy =>
      rw [Plan.ranges, addressesOf_cons, addressesOf_nil, Set.union_empty] at hplace
      have hfits := Nat.div_mul_le_self baseImageSize part.blockSize
      rw [runPlan]
      split
      · exact .refl
      · refine readsOnly_runLegacy part _ 0 ⟨s, 0⟩
          (by rw [Nat.zero_add]; exact part.blocks_le hpart)
          (by rw [Nat.zero_add]; omega) hfaults ?_
        rw [Nat.zero_mul, Nat.zero_add]
        rw [FlashRange.addresses, Nat.zero_add] at hplace
        exact hplace

/-- **An update that has been made costs no wear.** If the flash already holds the ranges that an
update plans, then, with at most three failed calls and a firmware that fits the part, the update
only reads: not a block is erased or written.
Kind: P -/
theorem setImage_in_place (pools : Pools) (image : List UInt8) (s : σ)
    (hsize : image.length < 2 ^ 64) (hfits : FitsFlash image (part.blockCount * part.blockSize))
    (hfaults : part.faults s < 4)
    (hplace : Set.EqOn (part.content s) (pointer image)
      (addressesOf (plannedRanges part.toFlashIo part.blockSize pools image s))) :
    ReadsOnly part.toFlashIo s
      (fmpDeviceSetImage part.toFlashIo part.blockSize pools image s).device := by
  have hreads := readsOnly_planUpdate part.toFlashIo part.blockSize pools image s
  have hspec := planUpdate_spec part.toFlashPart pools image s
  have hpart := planUpdate_fits hfits part.toFlashIo part.blockSize pools s
  unfold plannedRanges at hplace
  unfold fmpDeviceSetImage
  generalize planUpdate part.toFlashIo part.blockSize pools image s = r
    at hreads hspec hplace hpart ⊢
  obtain ⟨answer, s'⟩ := r
  cases answer with
  | error exit => exact hreads
  | ok planned =>
      obtain ⟨base, plan⟩ := planned
      obtain ⟨hbase, hok⟩ := hspec.planned base plan rfl
      refine hreads.trans (readsOnly_runPlan part hsize (hpart base plan rfl) hbase hok
        ((hreads.faults_le part).trans_lt hfaults) ?_)
      rw [hreads.content_eq part]
      exact hplace

/-- The sample, on a flash that holds the new code. Kind: C -/
theorem setImage_in_place_sample :
    ReadsOnly samplePart.toFlashIo ⟨pointer (sampleFirmware 0x77 0x22), [true]⟩
      (fmpDeviceSetImage samplePart.toFlashIo samplePart.blockSize samplePools sampleImage
        ⟨pointer (sampleFirmware 0x77 0x22), [true]⟩).device := by
  refine setImage_in_place samplePart samplePools sampleImage _ sampleImage_length
    (fitsFlash_of_check (by decide +kernel)) (by decide) ?_
  have hranges : plannedRanges samplePart.toFlashIo samplePart.blockSize samplePools sampleImage
      ⟨pointer (sampleFirmware 0x77 0x22), [true]⟩ = [⟨256, 64⟩] := by decide +kernel
  have hcode : ∀ k < 64, pointer (sampleFirmware 0x77 0x22) (256 + k) =
      pointer sampleImage (256 + k) := by decide +kernel
  rw [hranges, addressesOf_cons, addressesOf_nil, Set.union_empty]
  rintro i ⟨hge, hlt⟩
  obtain ⟨k, rfl⟩ := Nat.exists_eq_add_of_le hge
  exact hcode k (Nat.add_lt_add_iff_left.mp hlt)

end Tolerance

/-! ### Attempts -/

section Attempts

variable (part : FlashPart σ)

/-- The ranges that the manifest of an image names, as the flash map of the image has them.
Kind: D -/
def manifestRanges (image : List UInt8) : List FlashRange :=
  match discover image with
  | none => []
  | some capsule =>
      match capsule.fmap with
      | none => []
      | some fmap => capsule.entries.filterMap fun e => (findFmapRegion fmap e).toOption

lemma plannedRanges_of_manifestGuided {pools : Pools} {image : List UInt8} {s : σ}
    (h : manifestGuided part.toFlashIo part.blockSize pools image s = true) :
    plannedRanges part.toFlashIo part.blockSize pools image s = manifestRanges image := by
  unfold manifestGuided at h
  split at h
  · rename_i hplan
    obtain ⟨-, ⟨capsule, hdiscover, hfmap, rfl⟩, -⟩ :=
      (planUpdate_spec part pools image s).planned _ _ hplan
    rw [plannedRanges, hplan, manifestRanges, hdiscover]
    simp only [hfmap]
    rfl
  · cases h

/-- One attempt took the flash from `c` to `c'`. A flash whose calls all fail from some point on,
and change nothing any more, is a part too, so an attempt may stop anywhere. Kind: D -/
def Attempt (image : List UInt8) (c c' : ℕ → UInt8) : Prop :=
  ∃ pools s, part.content s = c ∧
    manifestGuided part.toFlashIo part.blockSize pools image s = true ∧
    part.content (fmpDeviceSetImage part.toFlashIo part.blockSize pools image s).device = c'

/-- One attempt stays in the blocks of the manifest's regions. Kind: L -/
theorem Attempt.eqOn {image : List UInt8} (hsize : image.length < 2 ^ 64) {c c' : ℕ → UInt8}
    (h : Attempt part image c c') :
    Set.EqOn c' c (hull part.blockSize (addressesOf (manifestRanges image)))ᶜ := by
  obtain ⟨pools, s, rfl, hguided, rfl⟩ := h
  rw [← plannedRanges_of_manifestGuided part hguided]
  exact (fmpDeviceSetImage_spec part pools hsize s).frame

/-- Any number of attempts do. Kind: L -/
theorem eqOn_of_attempts {image : List UInt8} (hsize : image.length < 2 ^ 64) {c c' : ℕ → UInt8}
    (h : Relation.ReflTransGen (Attempt part image) c c') :
    Set.EqOn c' c (hull part.blockSize (addressesOf (manifestRanges image)))ᶜ := by
  induction h with
  | refl => exact Set.eqOn_refl _ _
  | tail _ hlast ih => exact (hlast.eqOn part hsize).trans ih

/-- **A failed update can be made again.** However many attempts guided by the manifest were made
before, and wherever each of them stopped, one that succeeds leaves the image in all regions of the
manifest, and everything outside the blocks of those regions as it was before the first attempt.
What shares a block with a region but is not in it is not promised: an attempt that stopped between
the erase and the write of that block has lost it.
Kind: P -/
theorem setImage_recovers (pools : Pools) (image : List UInt8) (c : ℕ → UInt8) (s : σ)
    (hsize : image.length < 2 ^ 64)
    (hattempts : Relation.ReflTransGen (Attempt part image) c (part.content s))
    (hguided : manifestGuided part.toFlashIo part.blockSize pools image s = true)
    (hok : (fmpDeviceSetImage part.toFlashIo part.blockSize pools image s).exit = .success) :
    Set.EqOn
        (part.content (fmpDeviceSetImage part.toFlashIo part.blockSize pools image s).device)
        (pointer image) (addressesOf (manifestRanges image)) ∧
      Set.EqOn
        (part.content (fmpDeviceSetImage part.toFlashIo part.blockSize pools image s).device) c
        (hull part.blockSize (addressesOf (manifestRanges image)))ᶜ := by
  have hspec := fmpDeviceSetImage_spec part pools hsize s
  rw [plannedRanges_of_manifestGuided part hguided] at hspec
  exact ⟨(hspec.done hok).1.inside, hspec.frame.trans (eqOn_of_attempts part hsize hattempts)⟩

/-- The sample's flash, which stops working after the first erase. Kind: D -/
def sampleStops : Scripted :=
  sampleFlash ([false, false, false, false, false] ++ List.replicate 40 true)

/-- What the attempt on that flash leaves, on a flash that works. Kind: D -/
def sampleAgain : Scripted :=
  perfectFlash (samplePart.content (fmpDeviceSetImage samplePart.toFlashIo samplePart.blockSize
    samplePools sampleImage sampleStops).device)

lemma content_perfectFlash (c : ℕ → UInt8) : samplePart.content (perfectFlash c) = c := rfl

/-- The sample, after an attempt that left its block erased. Kind: C -/
theorem setImage_recovers_sample :
    (fmpDeviceSetImage (Scripted.io 64) 64 samplePools sampleImage sampleStops).exit = .ioError ∧
      Set.EqOn
        (samplePart.content (fmpDeviceSetImage samplePart.toFlashIo samplePart.blockSize samplePools
          sampleImage sampleAgain).device) (samplePart.content sampleStops)
        (hull samplePart.blockSize (addressesOf (manifestRanges sampleImage)))ᶜ := by
  refine ⟨by decide +kernel, (setImage_recovers samplePart.toFlashPart samplePools sampleImage
    (samplePart.content sampleStops) sampleAgain sampleImage_length ?_ (by decide +kernel)
    (by decide +kernel)).2⟩
  exact .single ⟨samplePools, sampleStops, rfl, by decide +kernel, (content_perfectFlash _).symm⟩

/-! ### The size check -/

lemma PlanOk.range_le {content : ℕ → UInt8} {image : List UInt8} {blockSize base : ℕ} {plan : Plan}
    (h : PlanOk content image blockSize base plan) :
    addressesOf (plan.ranges blockSize base) ⊆ Set.Iio base := by
  rintro i ⟨range, hrange, hi⟩
  simp only [FlashRange.addresses, Set.mem_Ico] at hi
  rw [Set.mem_Iio]
  cases plan with
  | manifest fmap entries totalSteps preserved =>
      obtain ⟨e, he, hregion⟩ := List.mem_filterMap.mp hrange
      obtain ⟨r, hr, -, hinside⟩ := h.2.1.region e he
      rw [hr] at hregion
      cases hregion
      omega
  | biosRegion bios =>
      obtain rfl := List.mem_singleton.mp hrange
      have := h.2
      omega
  | legacy =>
      obtain rfl := List.mem_singleton.mp hrange
      have := Nat.div_mul_le_self base blockSize
      dsimp only at hi
      omega

/-- **Nothing beyond the flash.** An update with an image that passed the size check changes
nothing from the size it was checked against on, whatever the manifest, the flash map or the
descriptor say, if that size is a whole number of blocks.
Kind: P -/
theorem setImage_within_flash (pools : Pools) (image : List UInt8) (fwSize : ℕ) (s : σ)
    (hsize : image.length < 2 ^ 64) (hcheck : fmpDeviceCheckImageSize image fwSize = true)
    (hblocks : part.blockSize ∣ fwSize) :
    Set.EqOn (part.content (fmpDeviceSetImage part.toFlashIo part.blockSize pools image s).device)
      (part.content s) (Set.Ici fwSize) := by
  have hplanned : addressesOf (plannedRanges part.toFlashIo part.blockSize pools image s) ⊆
      Set.Iio fwSize := by
    unfold plannedRanges
    split
    · rw [addressesOf_nil]
      exact Set.empty_subset _
    · rename_i base plan hplan
      obtain ⟨capsule, hdiscover, rfl⟩ := planUpdate_base hplan
      rw [← baseImageSize_of_check hcheck hdiscover]
      exact ((planUpdate_spec part pools image s).planned _ _ hplan).2.range_le
  intro i hi
  refine (fmpDeviceSetImage_spec part pools hsize s).frame ?_
  rintro ⟨j, hj, hblock⟩
  -- a block that begins before the end of the flash ends there at the latest
  obtain ⟨n, rfl⟩ := hblocks
  have hj' : j / part.blockSize < n := Nat.div_lt_of_lt_mul (hplanned hj)
  have hi' : n ≤ i / part.blockSize :=
    (Nat.le_div_iff_mul_le part.blockSize_pos).mpr (by rw [Nat.mul_comm]; exact hi)
  omega

/-- The sample, which is for a flash of five blocks. Kind: C -/
theorem setImage_within_flash_sample :
    Set.EqOn (samplePart.content (fmpDeviceSetImage samplePart.toFlashIo samplePart.blockSize
        samplePools sampleImage (sampleFlash [])).device)
      (samplePart.content (sampleFlash [])) (Set.Ici 320) :=
  setImage_within_flash samplePart.toFlashPart samplePools sampleImage 320 (sampleFlash [])
    sampleImage_length (by decide +kernel) ⟨5, rfl⟩

end Attempts

end NucBios.Update
