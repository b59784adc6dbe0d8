import NucBios.Update.FlashMap

/-!
# The firmware update

`FmpDeviceSetImageWithStatus` decides what to program and programs it. It prefers the regions the
manifest names, if the flash map of the running firmware has them where the capsule's has them;
else the BIOS region of the Intel descriptor; else the whole image. After an update that may have
overwritten the variable store it replaces the variable services.

The function is modelled in its two halves: `planUpdate` reads metadata and flash and decides,
`runPlan` programs. What it promises:

* `setImage_success`: on success the flash is what it was with the planned addresses taken from the
  image, and the progress reported is the total announced;
* `setImage_failure`: if the metadata is refused, nothing has changed; if the flash fails, nothing
  outside the blocks of the plan has;
* `setImage_keeps_variables`: the variable services stay only if the variable store, where the
  running firmware's flash map has it, is as it was;
* `guarded_fallback`: an image that passed the recipe's check is programmed beyond its manifest
  only where the flash's own map is missing or disagrees.
-/

namespace NucBios.Update

open NucBios.Lib NucBios.Uefi

variable {σ : Type*}

/-! ### Deciding -/

/-- What `AllocatePool` answers for the buffers of an update. Kind: D -/
structure Pools where
  readBuffer : Bool
  verifyBuffer : Bool
  fmapBuffer : Bool
  descriptor : Bool
  deriving DecidableEq, Repr

/-- How the function ends: with `EFI_SUCCESS`, `EFI_ABORTED` (before anything is written or at
`InvalidImage`), `EFI_OUT_OF_RESOURCES`, or at `IoError`.
Kind: D -/
inductive SetImageExit where
  | success
  | aborted
  | outOfResources
  | ioError
  deriving DecidableEq, Repr

/-- What the image says about itself: the names of its manifest, the size of the firmware in it and
its flash map. Kind: D -/
structure CapsuleImage where
  entries : List (List UInt8)
  baseImageSize : ℕ
  fmap : Option Fmap
  deriving DecidableEq, Repr

/-- Discover optional manifest and FMAP; `none` for a manifest that is there and malformed.
Source: `FmpDeviceSmmLib.c` `FmpDeviceSetImageWithStatus`
Kind: D -/
def discover (image : List UInt8) : Option CapsuleImage :=
  let located : Option (List (List UInt8) × ℕ) :=
    match fmpDeviceLocateRegionManifest image with
    | .ok m => some (m.entries, m.firmwareImageSize)
    | .error status => if status = efiNotFound then some ([], image.length) else none
  located.map fun (entries, baseImageSize) =>
    { entries, baseImageSize
      fmap := (locateFmapInImage (image.take baseImageSize)).bind fun (off, len) =>
        if off ≤ baseImageSize ∧ len ≤ baseImageSize - off then some (fmapAt (pointer image) off)
        else none }

/-- The first loop over the manifest: every region lies in the image, and its steps are added up.
Source: `FmpDeviceSmmLib.c` `FmpDeviceSetImageWithStatus`
Kind: D -/
def countSteps (fmap : Fmap) (baseImageSize blockSize : ℕ) :
    (totalSteps : ℕ) → List (List UInt8) → Option ℕ
  | totalSteps, [] => if totalSteps = 0 then none else some totalSteps
  | totalSteps, entry :: entries =>
      match findFmapRegion fmap entry with
      | .error _ => none
      | .ok region =>
          if region.size = 0 ∨ region.offset > baseImageSize ∨
              region.size > baseImageSize - region.offset then none
          else
            match fmpDeviceGetFlashRangeStepCount region blockSize with
            | .error _ => none
            | .ok rangeSteps =>
                if totalSteps > maxUintn - rangeSteps then none
                else countSteps fmap baseImageSize blockSize (totalSteps + rangeSteps) entries

/-- The second loop over the manifest, against the flash map of the running firmware: whether a
region is not where it was, and whether the variable store is still out of reach. `none` is
`InvalidImage`.
Source: `FmpDeviceSmmLib.c` `FmpDeviceSetImageWithStatus`
Kind: D -/
def compareLayout (capsule live : Fmap) (store : FlashRange) :
    (layoutMismatch preserved : Bool) → List (List UInt8) → Option (Bool × Bool)
  | layoutMismatch, preserved, [] => some (layoutMismatch, preserved)
  | layoutMismatch, preserved, entry :: entries =>
      match findFmapRegion capsule entry with
      | .error _ => none
      | .ok region =>
          if layoutMismatch then compareLayout capsule live store true preserved entries
          else
            match findFmapRegion live entry with
            | .error _ => compareLayout capsule live store true preserved entries
            | .ok flashRegion =>
                if flashRegion ≠ region then
                  compareLayout capsule live store true preserved entries
                else if preserved && fmpDeviceFlashRangesOverlap flashRegion store then
                  compareLayout capsule live store false false entries
                else compareLayout capsule live store false preserved entries

/-- The name of the variable store's region. Kind: D -/
def smmStoreName : List UInt8 := packEntry (ascii "SMMSTORE")

/-- The variable store, where the running firmware's flash map has it, if that lies in the flash.
Source: `FmpDeviceSmmLib.c` `FmpDeviceSetImageWithStatus`
Kind: D -/
def variableStore (live : Fmap) (baseImageSize : ℕ) : Option FlashRange :=
  match findFmapRegion live smmStoreName with
  | .error _ => none
  | .ok store =>
      if store.size ≠ 0 ∧ store.offset < baseImageSize ∧
          store.size ≤ baseImageSize - store.offset then some store
      else none

/-- What is going to be programmed. Kind: D -/
inductive Plan where
  | manifest (fmap : Fmap) (entries : List (List UInt8)) (totalSteps : ℕ) (preserved : Bool)
  | biosRegion (range : FlashRange)
  | legacy
  deriving DecidableEq, Repr

/-- The plan without a manifest: the BIOS region if there is one, else everything.
Source: `FmpDeviceSmmLib.c` `FmpDeviceSetImageWithStatus`
Kind: D -/
def planFallback (io : FlashIo σ) (blockSize : ℕ) (base : List UInt8) (pools : Pools) (s : σ) :
    Plan × σ :=
  match findBiosFallbackRegion io blockSize base.length base pools.descriptor s with
  | (some range, s') => (.biosRegion range, s')
  | (none, s') => (.legacy, s')

/-- The plan with a manifest, once its regions are known to lie in the image. A flash map that
cannot be read counts as a mismatch.
Source: `FmpDeviceSmmLib.c` `FmpDeviceSetImageWithStatus`
Kind: D -/
def planManifest (io : FlashIo σ) (blockSize : ℕ) (base : List UInt8) (pools : Pools)
    (fmap : Fmap) (entries : List (List UInt8)) (totalSteps : ℕ) (s : σ) :
    Except SetImageExit Plan × σ :=
  let (loaded, s₁) := loadFlashFmap io blockSize base.length fmap pools.fmapBuffer s
  let layout :=
    match loaded with
    | .error _ => compareLayout fmap ⟨0, []⟩ ⟨0, 0⟩ true false entries
    | .ok live =>
        match variableStore live base.length with
        | none => compareLayout fmap live ⟨0, 0⟩ false false entries
        | some store => compareLayout fmap live store false true entries
  match layout with
  | none => (.error .aborted, s₁)
  | some (true, _) =>
      let (plan, s₂) := planFallback io blockSize base pools s₁
      (.ok plan, s₂)
  | some (false, preserved) => (.ok (.manifest fmap entries totalSteps preserved), s₁)

/-- Everything before the first block is programmed: the size of the firmware in the image and the
plan. In the source the fallback is asked for a third time after both branches; by then it has
always been tried.
Source: `FmpDeviceSmmLib.c` `FmpDeviceSetImageWithStatus`
Kind: D -/
def planUpdate (io : FlashIo σ) (blockSize : ℕ) (pools : Pools) (image : List UInt8) (s : σ) :
    Except SetImageExit (ℕ × Plan) × σ :=
  match discover image with
  | none => (.error .aborted, s)
  | some capsule =>
      let base := image.take capsule.baseImageSize
      if capsule.entries = [] then
        let (plan, s₁) := planFallback io blockSize base pools s
        if !pools.readBuffer || !pools.verifyBuffer then (.error .outOfResources, s₁)
        else (.ok (capsule.baseImageSize, plan), s₁)
      else
        match capsule.fmap with
        | none => (.error .aborted, s)
        | some fmap =>
            if fmap.areas = [] then (.error .aborted, s)
            else
              match countSteps fmap capsule.baseImageSize blockSize 0 capsule.entries with
              | none => (.error .aborted, s)
              | some totalSteps =>
                  if !pools.readBuffer || !pools.verifyBuffer then (.error .outOfResources, s)
                  else
                    match
                      planManifest io blockSize base pools fmap capsule.entries totalSteps s with
                    | (.error exit, s₁) => (.error exit, s₁)
                    | (.ok plan, s₁) => (.ok (capsule.baseImageSize, plan), s₁)

/-! ### Programming -/

/-- The manifest-guided update: each region is looked up once more and updated.
Source: `FmpDeviceSmmLib.c` `FmpDeviceSetImageWithStatus`
Kind: D -/
def runManifest (io : FlashIo σ) (blockSize : ℕ) (image : List UInt8) (baseImageSize : ℕ)
    (fmap : Fmap) : List (List UInt8) → UpdateState σ → SetImageExit × UpdateState σ
  | [], u => (.success, u)
  | entry :: entries, u =>
      match findFmapRegion fmap entry with
      | .error _ => (.aborted, u)
      | .ok region =>
          if region.offset > baseImageSize ∨ region.size > baseImageSize - region.offset then
            (.aborted, u)
          else
            let updated := updateFlashRangeFromImage io blockSize image baseImageSize region u
            if efiError updated.1 then (.ioError, updated.2)
            else runManifest io blockSize image baseImageSize fmap entries updated.2

/-- The legacy loop over whole blocks, `left` of them from `block` on. A block goes through the
same steps as one that a range covers whole.
Source: `FmpDeviceSmmLib.c` `FmpDeviceSetImageWithStatus`
Kind: D -/
def runLegacy (io : FlashIo σ) (blockSize : ℕ) (image : List UInt8) :
    (left block : ℕ) → UpdateState σ → SetImageExit × UpdateState σ
  | 0, _, u => (.success, u)
  | left + 1, block, u =>
      let updated := updateSegment io blockSize image block 0 blockSize u
      if efiError updated.1 then (.ioError, updated.2)
      else runLegacy io blockSize image left (block + 1) updated.2

/-- What an update returns: how it ended, the flash, the progress made and announced, whether
`*LastAttemptStatus` says success, and whether the variable services were replaced.
Kind: D -/
structure SetImageResult (σ : Type*) where
  exit : SetImageExit
  device : σ
  step : ℕ
  totalSteps : ℕ
  lastAttemptSuccess : Bool
  servicesReplaced : Bool

/-- `FmpDeviceShouldDisableVariableServices`.
Source: `FmpDeviceSmmUpdatePolicy.c` `FmpDeviceShouldDisableVariableServices`
Kind: D -/
def fmpDeviceShouldDisableVariableServices (variableStorePreserved : Bool) : Bool :=
  !variableStorePreserved

/-- The end of the function: only success is recorded, and only success replaces services.
Source: `FmpDeviceSmmLib.c` `FmpDeviceSetImageWithStatus`
Kind: D -/
def finish (totalSteps : ℕ) (preserved : Bool) (r : SetImageExit × UpdateState σ) :
    SetImageResult σ :=
  { exit := r.1
    device := r.2.device
    step := r.2.step
    totalSteps
    lastAttemptSuccess := r.1 == .success
    servicesReplaced := r.1 == .success && fmpDeviceShouldDisableVariableServices preserved }

/-- Carry out a plan.
Source: `FmpDeviceSmmLib.c` `FmpDeviceSetImageWithStatus`
Kind: D -/
def runPlan (io : FlashIo σ) (blockSize : ℕ) (image : List UInt8) (baseImageSize : ℕ) (plan : Plan)
    (s : σ) : SetImageResult σ :=
  match plan with
  | .manifest fmap entries totalSteps preserved =>
      finish totalSteps preserved
        (runManifest io blockSize image baseImageSize fmap entries ⟨s, 0⟩)
  | .biosRegion range =>
      match fmpDeviceGetFlashRangeStepCount range blockSize with
      | .error _ => finish 0 false (.aborted, ⟨s, 0⟩)
      | .ok totalSteps =>
          let updated := updateFlashRangeFromImage io blockSize image baseImageSize range ⟨s, 0⟩
          finish totalSteps false
            (if efiError updated.1 then .ioError else .success, updated.2)
  | .legacy =>
      let blockCount := baseImageSize / blockSize
      if blockCount > maxUintn / 2 then finish 0 false (.aborted, ⟨s, 0⟩)
      else finish (blockCount * 2) false (runLegacy io blockSize image blockCount 0 ⟨s, 0⟩)

/-- Update the firmware from an image.
Source: `FmpDeviceSmmLib.c` `FmpDeviceSetImageWithStatus`
Kind: D -/
def fmpDeviceSetImage (io : FlashIo σ) (blockSize : ℕ) (pools : Pools) (image : List UInt8)
    (s : σ) : SetImageResult σ :=
  match planUpdate io blockSize pools image s with
  | (.error exit, s') => finish 0 false (exit, ⟨s', 0⟩)
  | (.ok (baseImageSize, plan), s') => runPlan io blockSize image baseImageSize plan s'

/-- The size check before an update: with a manifest, the firmware before it must have the size of
the flash; without one, the image.
Source: `FmpDeviceSmmLib.c` `FmpDeviceCheckImageWithStatus`
Kind: D -/
def fmpDeviceCheckImageSize (image : List UInt8) (fwSize : ℕ) : Bool :=
  match fmpDeviceLocateRegionManifest image with
  | .ok m => m.firmwareImageSize == fwSize
  | .error status => status == efiNotFound && image.length == fwSize

/-! ### What is decided -/

/-- The ranges a plan programs, for a firmware of `baseImageSize` octets. Kind: D -/
def Plan.ranges (blockSize baseImageSize : ℕ) : Plan → List FlashRange
  | .manifest fmap entries _ _ =>
      entries.filterMap fun entry => (findFmapRegion fmap entry).toOption
  | .biosRegion range => [range]
  | .legacy => [⟨0, baseImageSize / blockSize * blockSize⟩]

/-- The addresses of a list of ranges. Kind: D -/
def addressesOf (ranges : List FlashRange) : Set ℕ := {i | ∃ r ∈ ranges, i ∈ r.addresses}

lemma addressesOf_nil : addressesOf [] = ∅ := by
  ext i
  simp [addressesOf]

lemma addressesOf_cons (r : FlashRange) (rs : List FlashRange) :
    addressesOf (r :: rs) = r.addresses ∪ addressesOf rs := by
  ext i
  simp [addressesOf]

/-- The flash map that the flash itself holds where the capsule's has its `FMAP` area. Kind: D -/
def liveFmap (content : ℕ → UInt8) (capsule : Fmap) : Option Fmap :=
  (findFmapRegion capsule fmapAreaName).toOption.bind fun area =>
    let buffer := cells content area.offset area.size
    (locateFmapInImage buffer).map fun found => fmapAt (pointer buffer) found.1

section Safety

variable (part : FlashPart σ)

/-- Loading the flash map reads, and what it loads is the flash's. Kind: L -/
theorem loadFlashFmap_spec (flashSize : ℕ) (capsule : Fmap) (allocated : Bool) (s : σ) :
    part.content (loadFlashFmap part.toFlashIo part.blockSize flashSize capsule allocated s).2 =
        part.content s ∧
      ∀ live, (loadFlashFmap part.toFlashIo part.blockSize flashSize capsule allocated s).1 =
        .ok live → liveFmap (part.content s) capsule = some live := by
  unfold loadFlashFmap liveFmap
  cases harea : findFmapRegion capsule fmapAreaName with
  | error e => exact ⟨rfl, fun _ h => by cases h⟩
  | ok area =>
      have hread := readFlashRange_spec part flashSize area.offset area.size s
      dsimp only
      split
      · exact ⟨rfl, fun _ h => by cases h⟩
      split
      · exact ⟨rfl, fun _ h => by cases h⟩
      cases hresult : readFlashRange part.toFlashIo part.blockSize flashSize area.offset area.size s
        with
      | mk answer s' =>
      rw [hresult] at hread
      cases answer with
      | error e => exact ⟨hread.1, fun _ h => by cases h⟩
      | ok buffer =>
          obtain rfl := hread.2 buffer rfl
          dsimp only
          cases hfound : locateFmapInImage (cells (part.content s) area.offset area.size) with
          | none => exact ⟨hread.1, fun _ h => by cases h⟩
          | some found =>
              dsimp only
              split
              · exact ⟨hread.1, fun _ h => by cases h⟩
              · refine ⟨hread.1, fun live h => ?_⟩
                cases h
                simp [Except.toOption, hfound]

/-- A region that can be used lies in the image. Kind: L -/
theorem usableBios_eq_some {flashSize imageSize : ℕ} {descriptor : List UInt8} {range : FlashRange}
    (h : usableBios flashSize imageSize descriptor = some range) :
    range.size ≠ 0 ∧ range.offset + range.size ≤ imageSize := by
  have husable := (Option.filter_eq_some_iff.mp h).2
  simp only [usableRegion, Bool.and_eq_true, decide_eq_true_eq] at husable
  omega

lemma chooseBios_eq_some {live capsule : Option FlashRange} {range : FlashRange}
    (h : chooseBios live capsule = some range) : live = some range ∨ capsule = some range := by
  unfold chooseBios at h
  split at h
  · split at h
    · exact Or.inl h
    · cases h
  · exact Or.inl h
  · exact Or.inr h

/-- The fallback region lies in the image, and looking for it changes nothing. Kind: L -/
theorem findBiosFallbackRegion_spec (flashSize : ℕ) (image : List UInt8) (allocated : Bool)
    (s : σ) :
    part.content (findBiosFallbackRegion part.toFlashIo part.blockSize flashSize image allocated
        s).2 = part.content s ∧
      ∀ range, (findBiosFallbackRegion part.toFlashIo part.blockSize flashSize image allocated
        s).1 = some range → range.size ≠ 0 ∧ range.offset + range.size ≤ image.length := by
  constructor
  · simp only [findBiosFallbackRegion, readLiveDescriptor]
    split
    · exact (readFlashRange_spec part flashSize 0 _ s).1
    · rfl
  · intro range h
    rcases chooseBios_eq_some h with hlive | hcapsule
    · obtain ⟨descriptor, -, husable⟩ := Option.bind_eq_some_iff.mp hlive
      exact usableBios_eq_some husable
    · exact usableBios_eq_some hcapsule

/-- What the first loop over the manifest establishes: every region lies in the image, is not
empty, and the total is the sum of the steps. Kind: D -/
structure Counted (fmap : Fmap) (baseImageSize blockSize : ℕ) (entries : List (List UInt8))
    (steps : ℕ) : Prop where
  region : ∀ e ∈ entries, ∃ r, findFmapRegion fmap e = .ok r ∧ r.size ≠ 0 ∧
    r.offset + r.size ≤ baseImageSize
  steps_eq : steps = ((entries.filterMap fun e => (findFmapRegion fmap e).toOption).map fun r =>
    blocksBetween blockSize r.offset (r.offset + r.size) * 2).sum

theorem counted_of_countSteps {fmap : Fmap} {baseImageSize blockSize : ℕ} :
    ∀ {entries : List (List UInt8)} {start total : ℕ},
      countSteps fmap baseImageSize blockSize start entries = some total →
      ∃ steps, total = start + steps ∧ Counted fmap baseImageSize blockSize entries steps
  | [], start, total, h => by
      rw [countSteps] at h
      split at h
      · cases h
      · cases h
        exact ⟨0, rfl, List.forall_mem_nil _, rfl⟩
  | entry :: entries, start, total, h => by
      rw [countSteps] at h
      cases hregion : findFmapRegion fmap entry with
      | error e => simp [hregion] at h
      | ok region =>
          simp only [hregion] at h
          split at h
          · cases h
          rename_i hinside
          cases hcount : fmpDeviceGetFlashRangeStepCount region blockSize with
          | error e => simp [hcount] at h
          | ok rangeSteps =>
              simp only [hcount] at h
              split at h
              · cases h
              obtain ⟨steps, rfl, hrest⟩ := counted_of_countSteps h
              refine ⟨rangeSteps + steps, by omega, ?_, ?_⟩
              · refine List.forall_mem_cons.mpr ⟨⟨region, hregion, ?_⟩, hrest.region⟩
                omega
              · rw [hrest.steps_eq, (fmpDeviceGetFlashRangeStepCount_eq_ok hcount).1]
                simp [hregion, Except.toOption]

/-- What the second loop establishes when it finds the layout unchanged: every region is where the
running firmware has it, and if the store counts as preserved it did so before and no region
touches it. Kind: L -/
theorem compareLayout_eq_some_false {capsule live : Fmap} {store : FlashRange} :
    ∀ {entries : List (List UInt8)} {mismatch preserved kept : Bool},
      compareLayout capsule live store mismatch preserved entries = some (false, kept) →
      mismatch = false ∧ (kept = true → preserved = true ∧
        ∀ e ∈ entries, ∃ r, findFmapRegion capsule e = .ok r ∧
          ∀ i ∈ r.addresses, i ∉ store.addresses)
  | [], mismatch, preserved, kept, h => by
      cases h
      exact ⟨rfl, fun hkept => ⟨hkept, List.forall_mem_nil _⟩⟩
  | entry :: entries, mismatch, preserved, kept, h => by
      rw [compareLayout] at h
      cases hregion : findFmapRegion capsule entry with
      | error e => simp [hregion] at h
      | ok region =>
          simp only [hregion] at h
          split at h
          · exact absurd (compareLayout_eq_some_false h).1 (by simp)
          rename_i hmatch
          split at h
          · exact absurd (compareLayout_eq_some_false h).1 (by simp)
          split at h
          · exact absurd (compareLayout_eq_some_false h).1 (by simp)
          rename_i hsame
          split at h
          · refine ⟨by simpa using hmatch, fun hkept => ?_⟩
            exact absurd ((compareLayout_eq_some_false h).2 hkept).1 (by simp)
          · rename_i hclear
            refine ⟨by simpa using hmatch, fun hkept => ?_⟩
            obtain ⟨hpreserved, hrest⟩ := (compareLayout_eq_some_false h).2 hkept
            refine ⟨hpreserved, List.forall_mem_cons.mpr ⟨⟨region, hregion, ?_⟩, hrest⟩⟩
            rw [hpreserved, Bool.true_and, Bool.not_eq_true] at hclear
            rw [not_not.mp hsame] at hclear
            exact (fmpDeviceFlashRangesOverlap_eq_false_iff.mp hclear).2

/-- A manifest plan that leaves the variable services alone knows where the running firmware's
variable store is, and stays out of it. Kind: D -/
def KeepsStore (content : ℕ → UInt8) (fmap : Fmap) (entries : List (List UInt8)) : Prop :=
  ∃ live store, liveFmap content fmap = some live ∧ findFmapRegion live smmStoreName = .ok store ∧
    ∀ e ∈ entries, ∃ r, findFmapRegion fmap e = .ok r ∧ ∀ i ∈ r.addresses, i ∉ store.addresses

/-- What is known of a plan when the programming begins. Kind: D -/
def PlanOk (content : ℕ → UInt8) (image : List UInt8) (blockSize baseImageSize : ℕ) : Plan → Prop
  | .manifest fmap entries totalSteps preserved =>
      (∃ capsule, discover image = some capsule ∧ capsule.fmap = some fmap ∧
          capsule.entries = entries) ∧
        Counted fmap baseImageSize blockSize entries totalSteps ∧
        (preserved = true → KeepsStore content fmap entries)
  | .biosRegion range => range.size ≠ 0 ∧ range.offset + range.size ≤ baseImageSize
  | .legacy => True

lemma planFallback_spec (base : List UInt8) (pools : Pools) (image : List UInt8) (s : σ) :
    part.content (planFallback part.toFlashIo part.blockSize base pools s).2 = part.content s ∧
      PlanOk (part.content s) image part.blockSize base.length
        (planFallback part.toFlashIo part.blockSize base pools s).1 := by
  have hspec := findBiosFallbackRegion_spec part base.length base pools.descriptor s
  unfold planFallback
  cases hfound : findBiosFallbackRegion part.toFlashIo part.blockSize base.length base
    pools.descriptor s with
  | mk range s' =>
      rw [hfound] at hspec
      cases range with
      | none => exact ⟨hspec.1, trivial⟩
      | some range => exact ⟨hspec.1, hspec.2 range rfl⟩

lemma variableStore_eq_some {live : Fmap} {baseImageSize : ℕ} {store : FlashRange}
    (h : variableStore live baseImageSize = some store) :
    findFmapRegion live smmStoreName = .ok store := by
  unfold variableStore at h
  split at h
  · cases h
  · rename_i found hfound
    split at h
    · cases h
      exact hfound
    · cases h

lemma planManifest_error {io : FlashIo σ} {blockSize : ℕ} {base : List UInt8} {pools : Pools}
    {fmap : Fmap} {entries : List (List UInt8)} {totalSteps : ℕ} {s : σ} {exit : SetImageExit}
    (h : (planManifest io blockSize base pools fmap entries totalSteps s).1 = .error exit) :
    exit = .aborted := by
  unfold planManifest at h
  dsimp only at h
  split at h
  · cases h
    rfl
  · cases h
  · cases h

/-- The layout that is compared: with the flash map that was loaded, or none. Kind: L -/
theorem planManifest_spec {base : List UInt8} (pools : Pools) {fmap : Fmap}
    {entries : List (List UInt8)} {totalSteps : ℕ} {image : List UInt8} (s : σ)
    (himage : ∃ capsule, discover image = some capsule ∧ capsule.fmap = some fmap ∧
      capsule.entries = entries)
    (hcounted : Counted fmap base.length part.blockSize entries totalSteps) :
    part.content (planManifest part.toFlashIo part.blockSize base pools fmap entries totalSteps
        s).2 = part.content s ∧
      ∀ plan, (planManifest part.toFlashIo part.blockSize base pools fmap entries totalSteps
        s).1 = .ok plan → PlanOk (part.content s) image part.blockSize base.length plan := by
  have hload := loadFlashFmap_spec part base.length fmap pools.fmapBuffer s
  unfold planManifest
  dsimp only
  generalize hloaded : loadFlashFmap part.toFlashIo part.blockSize base.length fmap
    pools.fmapBuffer s = loaded at hload
  obtain ⟨answer, s₁⟩ := loaded
  dsimp only at hload ⊢
  split
  · exact ⟨hload.1, fun _ h => by cases h⟩
  · have hfallback := planFallback_spec part base pools image s₁
    refine ⟨hfallback.1.trans hload.1, fun plan h => ?_⟩
    cases h
    exact hload.1 ▸ hfallback.2
  · rename_i preserved hlayout
    refine ⟨hload.1, fun plan h => ?_⟩
    cases h
    refine ⟨himage, hcounted, ?_⟩
    rintro rfl
    -- a store counts as preserved only if a flash map was loaded and has one
    split at hlayout
    · exact absurd (compareLayout_eq_some_false hlayout).1 (by simp)
    · rename_i live
      split at hlayout
      · exact absurd ((compareLayout_eq_some_false hlayout).2 rfl).1 (by simp)
      · rename_i store hstore
        exact ⟨live, store, hload.2 live rfl, variableStore_eq_some hstore,
          ((compareLayout_eq_some_false hlayout).2 rfl).2⟩

/-- The firmware in an image is a beginning of it. Kind: L -/
theorem baseImageSize_le_of_discover {image : List UInt8} {capsule : CapsuleImage}
    (h : discover image = some capsule) : capsule.baseImageSize ≤ image.length := by
  unfold discover at h
  simp only [Option.map_eq_some_iff] at h
  obtain ⟨⟨entries, base⟩, hlocated, rfl⟩ := h
  split at hlocated
  · rename_i m hm
    cases hlocated
    obtain ⟨fw, hcarries, hsize⟩ := carries_of_located hm
    dsimp only
    rw [hsize, hcarries.image_eq, List.length_append]
    omega
  · split at hlocated
    · cases hlocated
      exact le_rfl
    · cases hlocated

/-- Planning changes nothing in the flash, and ends in a plan that can be carried out or with one
of the two exits before anything is written. Kind: D -/
structure PlanSpec (image : List UInt8) (s : σ) (r : Except SetImageExit (ℕ × Plan) × σ) :
    Prop where
  unchanged : part.content r.2 = part.content s
  refused : ∀ exit, r.1 = .error exit → exit = .aborted ∨ exit = .outOfResources
  planned : ∀ base plan, r.1 = .ok (base, plan) →
    base ≤ image.length ∧ PlanOk (part.content s) image part.blockSize base plan

theorem planUpdate_spec (pools : Pools) (image : List UInt8) (s : σ) :
    PlanSpec part image s (planUpdate part.toFlashIo part.blockSize pools image s) := by
  have habort : PlanSpec part image s ((.error .aborted, s) : Except SetImageExit (ℕ × Plan) × σ) :=
    ⟨rfl, fun _ h => by cases h; exact Or.inl rfl, fun _ _ h => by cases h⟩
  unfold planUpdate
  cases hdiscover : discover image with
  | none => exact habort
  | some capsule =>
      have hle := baseImageSize_le_of_discover hdiscover
      have hbase : (image.take capsule.baseImageSize).length = capsule.baseImageSize := by
        rw [List.length_take]
        omega
      dsimp only
      split
      · have hfallback := planFallback_spec part (image.take capsule.baseImageSize) pools image s
        rw [hbase] at hfallback
        split
        · exact ⟨hfallback.1, fun _ h => by cases h; exact Or.inr rfl, fun _ _ h => by cases h⟩
        · refine ⟨hfallback.1, fun _ h => (by cases h), fun base plan h => ?_⟩
          cases h
          exact ⟨hle, hfallback.2⟩
      cases hfmap : capsule.fmap with
      | none => exact habort
      | some fmap =>
          dsimp only
          split
          · exact habort
          cases hcount : countSteps fmap capsule.baseImageSize part.blockSize 0 capsule.entries with
          | none => exact habort
          | some totalSteps =>
              dsimp only
              split
              · exact ⟨rfl, fun _ h => by cases h; exact Or.inr rfl, fun _ _ h => by cases h⟩
              obtain ⟨steps, htotal, hcounted⟩ := counted_of_countSteps hcount
              rw [Nat.zero_add] at htotal
              subst htotal
              have hmanifest := planManifest_spec part pools s
                ⟨capsule, hdiscover, hfmap, rfl⟩ (hbase.symm ▸ hcounted)
              split
              · rename_i exit s₁ hresult
                rw [hresult] at hmanifest
                refine ⟨hmanifest.1, fun _ h => ?_, fun _ _ h => by cases h⟩
                cases h
                exact Or.inl (planManifest_error (congrArg Prod.fst hresult))
              · rename_i plan s₁ hresult
                rw [hresult] at hmanifest
                refine ⟨hmanifest.1, fun _ h => (by cases h), fun base plan' h => ?_⟩
                cases h
                exact ⟨hle, hbase ▸ hmanifest.2 plan rfl⟩

/-! ### What programming leaves -/

/-- What a part of the programming leaves, that writes the addresses `R` in `n` steps: it does not
abort, nothing outside the blocks of `R` has changed, and on success `R` is the image's.
Kind: D -/
structure RunSpec (image : List UInt8) (R : Set ℕ) (n : ℕ) (u : UpdateState σ)
    (r : SetImageExit × UpdateState σ) : Prop where
  exits : r.1 = .success ∨ r.1 = .ioError
  frame : Set.EqOn (part.content r.2.device) (part.content u.device) (hull part.blockSize R)ᶜ
  done : r.1 = .success →
    Overwritten (pointer image) (part.content u.device) (part.content r.2.device) R ∧
      r.2.step = u.step + n

variable {part}

lemma runSpec_nil (image : List UInt8) (u : UpdateState σ) :
    RunSpec part image ∅ 0 u (.success, u) :=
  ⟨Or.inl rfl, fun _ _ => rfl, fun _ => ⟨Overwritten.refl_of_eqOn (Set.eqOn_empty _ _), rfl⟩⟩

/-- One piece, and the rest if it succeeded. Kind: L -/
theorem RunSpec.append {image : List UInt8} {R S : Set ℕ} {n m : ℕ} {u v : UpdateState σ}
    {r : SetImageExit × UpdateState σ} (h : RunSpec part image R n u (.success, v))
    (h' : RunSpec part image S m v r) : RunSpec part image (R ∪ S) (n + m) u r := by
  obtain ⟨hover, hstep⟩ := h.done rfl
  refine ⟨h'.exits, fun i hi => ?_, fun hok => ?_⟩
  · have hR : i ∈ (hull part.blockSize R)ᶜ := fun hin => hi (hull_mono Set.subset_union_left hin)
    have hS : i ∈ (hull part.blockSize S)ᶜ := fun hin => hi (hull_mono Set.subset_union_right hin)
    exact (h'.frame hS).trans (h.frame hR)
  · obtain ⟨hover', hstep'⟩ := h'.done hok
    refine ⟨hover.trans hover', ?_⟩
    rw [hstep']
    dsimp only at hstep
    omega

lemma RunSpec.mono_failed {image : List UInt8} {R S : Set ℕ} {n m : ℕ} {u v : UpdateState σ}
    (h : RunSpec part image R n u (.ioError, v)) (hsub : R ⊆ S) :
    RunSpec part image S m u (.ioError, v) :=
  ⟨Or.inr rfl, fun _ hi => h.frame fun hin => hi (hull_mono hsub hin), fun hok => by cases hok⟩

variable (part)

/-- A range, as a piece of the programming. Kind: L -/
theorem runSpec_range {image : List UInt8} {baseImageSize : ℕ}
    (hbase : baseImageSize ≤ image.length) (hsize : image.length < 2 ^ 64) {range : FlashRange}
    (hrange : range.offset + range.size ≤ baseImageSize) (u : UpdateState σ) :
    RunSpec part image range.addresses
      (blocksBetween part.blockSize range.offset (range.offset + range.size) * 2) u
      (if efiError (updateFlashRangeFromImage part.toFlashIo part.blockSize image baseImageSize
          range u).1 then .ioError else .success,
        (updateFlashRangeFromImage part.toFlashIo part.blockSize image baseImageSize range
          u).2) := by
  have hspec := updateFlashRangeFromImage_spec part hbase
    (show range.offset + range.size < 2 ^ 64 by omega) u
  split
  · exact ⟨Or.inr rfl, hspec.frame, fun h => by cases h⟩
  · rename_i hok
    exact ⟨Or.inl rfl, hspec.frame, fun _ => hspec.done (Bool.eq_false_iff.mpr hok)⟩

theorem runManifest_spec {image : List UInt8} {baseImageSize : ℕ}
    (hbase : baseImageSize ≤ image.length) (hsize : image.length < 2 ^ 64) {fmap : Fmap} :
    ∀ {entries : List (List UInt8)} {steps : ℕ} (u : UpdateState σ),
      Counted fmap baseImageSize part.blockSize entries steps →
      RunSpec part image
        (addressesOf (entries.filterMap fun e => (findFmapRegion fmap e).toOption)) steps u
        (runManifest part.toFlashIo part.blockSize image baseImageSize fmap entries u)
  | [], steps, u, h => by
      rw [h.steps_eq, List.filterMap_nil, addressesOf_nil]
      exact runSpec_nil image u
  | entry :: entries, steps, u, h => by
      obtain ⟨⟨region, hregion, -, hinside⟩, hrest⟩ := List.forall_mem_cons.mp h.region
      have hsteps := h.steps_eq
      simp only [List.filterMap_cons, hregion, Except.toOption, List.map_cons,
        List.sum_cons] at hsteps
      have hfirst := runSpec_range part hbase hsize hinside u
      rw [runManifest]
      simp only [hregion, List.filterMap_cons, Except.toOption, addressesOf_cons]
      rw [if_neg (by omega)]
      split
      · rename_i herr
        rw [if_pos herr] at hfirst
        exact hfirst.mono_failed Set.subset_union_left
      · rename_i hok
        rw [if_neg hok] at hfirst
        rw [hsteps]
        exact hfirst.append (runManifest_spec hbase hsize _ ⟨hrest, rfl⟩)

/-- A whole block, as a piece of the programming. Kind: L -/
theorem runSpec_block {image : List UInt8} {block : ℕ}
    (himage : (block + 1) * part.blockSize ≤ image.length) (u : UpdateState σ) :
    RunSpec part image (Set.Ico (block * part.blockSize) ((block + 1) * part.blockSize)) 2 u
      (if efiError (updateSegment part.toFlashIo part.blockSize image block 0 part.blockSize u).1
          then .ioError else .success,
        (updateSegment part.toFlashIo part.blockSize image block 0 part.blockSize u).2) := by
  have hpos := part.blockSize_pos
  rw [Nat.succ_mul] at himage ⊢
  have hseg := updateSegment_spec part (Nat.zero_le part.blockSize) le_rfl himage u
  have hframe : Set.EqOn
      (part.content (updateSegment part.toFlashIo part.blockSize image block 0 part.blockSize
        u).2.device) (part.content u.device)
      (hull part.blockSize (Set.Ico (block * part.blockSize)
        (block * part.blockSize + part.blockSize)))ᶜ := by
    intro i hi
    refine hseg.frame i fun heq => hi ⟨block * part.blockSize, ⟨le_rfl, by omega⟩, ?_⟩
    rw [Nat.mul_div_cancel _ hpos, heq]
  split
  · exact ⟨Or.inr rfl, hframe, fun h => by cases h⟩
  · rename_i hok
    exact ⟨Or.inl rfl, hframe, fun _ => hseg.done (Bool.eq_false_iff.mpr hok)⟩

theorem runLegacy_spec {image : List UInt8} :
    ∀ (left block : ℕ) (u : UpdateState σ), (block + left) * part.blockSize ≤ image.length →
      RunSpec part image (Set.Ico (block * part.blockSize) ((block + left) * part.blockSize))
        (left * 2) u (runLegacy part.toFlashIo part.blockSize image left block u)
  | 0, block, u, _ => by
      rw [Nat.add_zero, Set.Ico_self, Nat.zero_mul]
      exact runSpec_nil image u
  | left + 1, block, u, h => by
      have hsplit : block + (left + 1) = block + 1 + left := by omega
      rw [hsplit] at h ⊢
      have hfirst_le : block * part.blockSize ≤ (block + 1) * part.blockSize :=
        Nat.mul_le_mul_right _ (by omega)
      have hrest_le : (block + 1) * part.blockSize ≤ (block + 1 + left) * part.blockSize :=
        Nat.mul_le_mul_right _ (by omega)
      have hfirst := runSpec_block part (hrest_le.trans h) u
      rw [runLegacy, ← Set.Ico_union_Ico_eq_Ico hfirst_le hrest_le]
      split
      · rename_i herr
        rw [if_pos herr] at hfirst
        exact hfirst.mono_failed Set.subset_union_left
      · rename_i hok
        rw [if_neg hok] at hfirst
        rw [show (left + 1) * 2 = 2 + left * 2 by omega]
        exact hfirst.append (runLegacy_spec left (block + 1) _ h)

variable {part}

/-- What carrying out a plan leaves. Kind: P -/
structure OutcomeSpec (part : FlashPart σ) (image : List UInt8) (R : Set ℕ) (s : σ)
    (r : SetImageResult σ) : Prop where
  aborted : r.exit = .aborted ∨ r.exit = .outOfResources → part.content r.device = part.content s
  frame : Set.EqOn (part.content r.device) (part.content s) (hull part.blockSize R)ᶜ
  done : r.exit = .success →
    Overwritten (pointer image) (part.content s) (part.content r.device) R ∧ r.step = r.totalSteps

lemma outcomeSpec_finish {image : List UInt8} {R : Set ℕ} {n : ℕ} {preserved : Bool} {s : σ}
    {r : SetImageExit × UpdateState σ} (h : RunSpec part image R n ⟨s, 0⟩ r) :
    OutcomeSpec part image R s (finish n preserved r) := by
  refine ⟨fun hexit => ?_, h.frame, fun hok => ?_⟩
  · rcases h.exits with heq | heq <;> simp [finish, heq] at hexit
  · obtain ⟨hover, hstep⟩ := h.done hok
    exact ⟨hover, hstep.trans (Nat.zero_add n)⟩

lemma outcomeSpec_refused {image : List UInt8} {R : Set ℕ} {exit : SetImageExit} {s s' : σ}
    (hs : part.content s' = part.content s) (hexit : exit ≠ .success) :
    OutcomeSpec part image R s (finish 0 false (exit, ⟨s', 0⟩)) :=
  ⟨fun _ => hs, fun _ _ => congrFun hs _, fun hok => absurd hok hexit⟩

variable (part)

theorem runPlan_spec {image : List UInt8} (hsize : image.length < 2 ^ 64) {baseImageSize : ℕ}
    (hbase : baseImageSize ≤ image.length) {content : ℕ → UInt8} {plan : Plan}
    (hplan : PlanOk content image part.blockSize baseImageSize plan) (s : σ) :
    OutcomeSpec part image (addressesOf (plan.ranges part.blockSize baseImageSize)) s
      (runPlan part.toFlashIo part.blockSize image baseImageSize plan s) := by
  cases plan with
  | manifest fmap entries totalSteps preserved =>
      exact outcomeSpec_finish (runManifest_spec part hbase hsize ⟨s, 0⟩ hplan.2.1)
  | biosRegion range =>
      rw [runPlan, Plan.ranges, addressesOf_cons, addressesOf_nil, Set.union_empty]
      cases hcount : fmpDeviceGetFlashRangeStepCount range part.blockSize with
      | error e => exact outcomeSpec_refused rfl (by decide)
      | ok totalSteps =>
          rw [(fmpDeviceGetFlashRangeStepCount_eq_ok hcount).1]
          exact outcomeSpec_finish (runSpec_range part hbase hsize hplan.2 ⟨s, 0⟩)
  | legacy =>
      rw [runPlan, Plan.ranges, addressesOf_cons, addressesOf_nil, Set.union_empty]
      split
      · exact outcomeSpec_refused rfl (by decide)
      · have hfits := Nat.div_mul_le_self baseImageSize part.blockSize
        have hrun := runLegacy_spec part (baseImageSize / part.blockSize) 0 ⟨s, 0⟩
          (show (0 + baseImageSize / part.blockSize) * part.blockSize ≤ image.length by
            rw [Nat.zero_add]
            omega)
        rw [Nat.zero_mul, Nat.zero_add] at hrun
        rw [FlashRange.addresses, Nat.zero_add]
        exact outcomeSpec_finish hrun

/-! ### What an update leaves -/

/-- The ranges an update that starts from `s` is going to program; none if it is refused.
Kind: D -/
def plannedRanges (io : FlashIo σ) (blockSize : ℕ) (pools : Pools) (image : List UInt8) (s : σ) :
    List FlashRange :=
  match (planUpdate io blockSize pools image s).1 with
  | .error _ => []
  | .ok (baseImageSize, plan) => plan.ranges blockSize baseImageSize

theorem fmpDeviceSetImage_spec (pools : Pools) {image : List UInt8} (hsize : image.length < 2 ^ 64)
    (s : σ) :
    OutcomeSpec part image
      (addressesOf (plannedRanges part.toFlashIo part.blockSize pools image s)) s
      (fmpDeviceSetImage part.toFlashIo part.blockSize pools image s) := by
  have hplan := planUpdate_spec part pools image s
  unfold fmpDeviceSetImage plannedRanges
  generalize planUpdate part.toFlashIo part.blockSize pools image s = result at hplan ⊢
  obtain ⟨answer, s'⟩ := result
  cases answer with
  | error exit =>
      refine outcomeSpec_refused hplan.unchanged ?_
      rcases hplan.refused exit rfl with rfl | rfl <;> decide
  | ok planned =>
      obtain ⟨base, plan⟩ := planned
      obtain ⟨hbase, hok⟩ := hplan.planned base plan rfl
      have hrun := runPlan_spec part hsize hbase hok s'
      have hsame : part.content s' = part.content s := hplan.unchanged
      exact ⟨fun h => (hrun.aborted h).trans hsame, fun i hi => (hrun.frame hi).trans
        (congrFun hsame i), fun h => ⟨hsame ▸ (hrun.done h).1, (hrun.done h).2⟩⟩

/-- How the result of an update is assembled. Kind: L -/
theorem exists_finish (io : FlashIo σ) (blockSize : ℕ) (pools : Pools) (image : List UInt8)
    (s : σ) : ∃ n preserved r, fmpDeviceSetImage io blockSize pools image s = finish n preserved r ∧
      (preserved = true → ∃ base fmap entries total,
        (planUpdate io blockSize pools image s).1 =
          .ok (base, .manifest fmap entries total true)) := by
  unfold fmpDeviceSetImage
  split
  · exact ⟨_, _, _, rfl, by simp⟩
  · rename_i base plan s' hplan
    unfold runPlan
    split
    · refine ⟨_, _, _, rfl, ?_⟩
      rintro rfl
      exact ⟨base, _, _, _, congrArg Prod.fst hplan⟩
    · split
      · exact ⟨_, _, _, rfl, by simp⟩
      · exact ⟨_, _, _, rfl, by simp⟩
    · dsimp only
      split
      · exact ⟨_, _, _, rfl, by simp⟩
      · exact ⟨_, _, _, rfl, by simp⟩

/-! ### A sample

A flash of five blocks of 64 octets: a flash map in the first three, the variable store, and one
block of code. -/

/-- An area of the sample's flash map. Kind: D -/
def sampleArea (offset size : UInt32) (name : String) : List UInt8 :=
  le32 offset ++ le32 size ++ packEntry (ascii name) ++ List.replicate 18 0

/-- The sample's flash, filled with `store` and `code`. Kind: D -/
def sampleFirmware (store code : UInt8) : List UInt8 :=
  fmapSignature ++ [1, 0] ++ List.replicate 8 0 ++ le32 320 ++ packEntry (ascii "FLASH") ++
    List.replicate 16 0 ++ le16 3 ++
    sampleArea 0 192 "FMAP" ++ sampleArea 192 64 "SMMSTORE" ++ sampleArea 256 64 "COREBOOT" ++
    List.replicate 10 0xFF ++ List.replicate 64 store ++ List.replicate 64 code

/-- New code for the sample, with a blank store and a manifest that names the code. Kind: D -/
def sampleImage : List UInt8 :=
  sampleFirmware 0xFF 0x22 ++ packEntry (ascii "COREBOOT") ++ packTrailer 1

/-- The sample's flash before an update, which fails as a script says. Kind: D -/
def sampleFlash (script : List Bool) : Scripted := ⟨pointer (sampleFirmware 0x77 0x11), script⟩

/-- The sample's part: a flash of the size of the firmware. Kind: D -/
abbrev samplePart : NorPart Scripted := Scripted.part 64 5 (by decide)

/-- A flash that never fails. Kind: D -/
def perfectFlash (content : ℕ → UInt8) : Scripted := ⟨content, []⟩

/-- Memory for every buffer. Kind: D -/
def samplePools : Pools := ⟨true, true, true, true⟩

lemma sampleImage_length : sampleImage.length < 2 ^ 64 := by decide +kernel

/-- The sample's update, with a read and an erase that fail at first. Kind: L -/
lemma sample_updated :
    (fmpDeviceSetImage (Scripted.io 64) 64 samplePools sampleImage
        (sampleFlash [true, false, false, false, false, true])).exit = .success ∧
      (fmpDeviceSetImage (Scripted.io 64) 64 samplePools sampleImage
        (sampleFlash [true, false, false, false, false, true])).servicesReplaced = false := by
  decide +kernel

/-- **A successful update.** If the update ends with success, the flash is what it was, with the
planned ranges taken from the image and nothing else changed; the steps counted are the steps
announced, and success is recorded as the last attempt's status.
Kind: P -/
theorem setImage_success (pools : Pools) (image : List UInt8) (hsize : image.length < 2 ^ 64)
    (s : σ)
    (h : (fmpDeviceSetImage part.toFlashIo part.blockSize pools image s).exit = .success) :
    Overwritten (pointer image) (part.content s)
        (part.content (fmpDeviceSetImage part.toFlashIo part.blockSize pools image s).device)
        (addressesOf (plannedRanges part.toFlashIo part.blockSize pools image s)) ∧
      (fmpDeviceSetImage part.toFlashIo part.blockSize pools image s).step =
        (fmpDeviceSetImage part.toFlashIo part.blockSize pools image s).totalSteps ∧
      (fmpDeviceSetImage part.toFlashIo part.blockSize pools image
        s).lastAttemptSuccess = true := by
  obtain ⟨hover, hstep⟩ := (fmpDeviceSetImage_spec part pools hsize s).done h
  refine ⟨hover, hstep, ?_⟩
  obtain ⟨n, preserved, r, heq, -⟩ := exists_finish part.toFlashIo part.blockSize pools image s
  rw [heq] at h ⊢
  simpa [finish] using h

/-- The sample reports the steps it announced. Kind: C -/
theorem setImage_success_sample :
    (fmpDeviceSetImage (Scripted.io 64) 64 samplePools sampleImage
        (sampleFlash [true, false, false, false, false, true])).step =
      (fmpDeviceSetImage (Scripted.io 64) 64 samplePools sampleImage
        (sampleFlash [true, false, false, false, false, true])).totalSteps :=
  (setImage_success samplePart.toFlashPart samplePools sampleImage sampleImage_length
    (sampleFlash [true, false, false, false, false, true]) sample_updated.1).2.1

/-- **A failed update.** An update that is refused, for its metadata or for want of memory, has
changed nothing. One that the flash makes fail has changed nothing outside the blocks of its plan.
Neither is recorded as a success or takes the variable services away.
Kind: P -/
theorem setImage_failure (pools : Pools) (image : List UInt8) (hsize : image.length < 2 ^ 64)
    (s : σ)
    (h : (fmpDeviceSetImage part.toFlashIo part.blockSize pools image s).exit ≠ .success) :
    ((fmpDeviceSetImage part.toFlashIo part.blockSize pools image s).exit ≠ .ioError →
        part.content (fmpDeviceSetImage part.toFlashIo part.blockSize pools image s).device =
          part.content s) ∧
      Set.EqOn
        (part.content (fmpDeviceSetImage part.toFlashIo part.blockSize pools image s).device)
        (part.content s)
        (hull part.blockSize
          (addressesOf (plannedRanges part.toFlashIo part.blockSize pools image s)))ᶜ ∧
      (fmpDeviceSetImage part.toFlashIo part.blockSize pools image s).lastAttemptSuccess = false ∧
      (fmpDeviceSetImage part.toFlashIo part.blockSize pools image s).servicesReplaced = false := by
  have hspec := fmpDeviceSetImage_spec part pools hsize s
  obtain ⟨n, preserved, r, heq, -⟩ := exists_finish part.toFlashIo part.blockSize pools image s
  refine ⟨fun hio => hspec.aborted ?_, hspec.frame, ?_⟩
  · generalize (fmpDeviceSetImage part.toFlashIo part.blockSize pools image s).exit = exit at h hio
    cases exit <;> simp_all
  · rw [heq] at h ⊢
    simp only [finish, ne_eq] at h ⊢
    simp [h]

/-- The sample, on a flash that stops working before the first erase. Kind: C -/
theorem setImage_failure_sample :
    (fmpDeviceSetImage (Scripted.io 64) 64 samplePools sampleImage
      (sampleFlash ([false, false, false, false] ++ List.replicate 40 true))).servicesReplaced =
        false :=
  (setImage_failure samplePart.toFlashPart samplePools sampleImage sampleImage_length
    (sampleFlash ([false, false, false, false] ++ List.replicate 40 true))
    (by decide +kernel)).2.2.2

/-- **Variables are kept only over an untouched store.** If an update succeeds and leaves the
variable services in place, then the flash held a flash map where the capsule's has its own, that
map has a variable store, and not an octet of that store has changed.
Kind: P -/
theorem setImage_keeps_variables (pools : Pools) (image : List UInt8)
    (hsize : image.length < 2 ^ 64) (s : σ)
    (h : (fmpDeviceSetImage part.toFlashIo part.blockSize pools image s).exit = .success)
    (hkept : (fmpDeviceSetImage part.toFlashIo part.blockSize pools image s).servicesReplaced =
      false) :
    ∃ capsule fmap live store, discover image = some capsule ∧ capsule.fmap = some fmap ∧
      liveFmap (part.content s) fmap = some live ∧ findFmapRegion live smmStoreName = .ok store ∧
      Set.EqOn
        (part.content (fmpDeviceSetImage part.toFlashIo part.blockSize pools image s).device)
        (part.content s) store.addresses := by
  have hover := ((fmpDeviceSetImage_spec part pools hsize s).done h).1
  obtain ⟨n, preserved, r, heq, hplan⟩ := exists_finish part.toFlashIo part.blockSize pools image s
  have hpreserved : preserved = true := by
    rw [heq] at h hkept
    simp only [finish] at h hkept
    simpa [h, fmpDeviceShouldDisableVariableServices] using hkept
  obtain ⟨base, fmap, entries, total, hplan⟩ := hplan hpreserved
  obtain ⟨-, ⟨capsule, hdiscover, hfmap, -⟩, -, hkeeps⟩ :=
    (planUpdate_spec part pools image s).planned _ _ hplan
  obtain ⟨live, store, hlive, hstore, houtside⟩ := hkeeps rfl
  refine ⟨capsule, fmap, live, store, hdiscover, hfmap, hlive, hstore, fun i hi => ?_⟩
  refine hover.outside fun hin => ?_
  -- an address of the plan is an address of some entry's region, which the store does not meet
  rw [plannedRanges, hplan] at hin
  obtain ⟨range, hrange, hin⟩ := hin
  obtain ⟨e, he, hregion⟩ := List.mem_filterMap.mp hrange
  obtain ⟨r, hr, hapart⟩ := houtside e he
  rw [hr] at hregion
  cases hregion
  exact hapart i hin hi

/-- The sample keeps its variables. Kind: C -/
theorem setImage_keeps_variables_sample :
    ∃ capsule fmap live store, discover sampleImage = some capsule ∧ capsule.fmap = some fmap ∧
      liveFmap (samplePart.content (sampleFlash [true, false, false, false, false, true])) fmap =
        some live ∧
      findFmapRegion live smmStoreName = .ok store ∧
      Set.EqOn (samplePart.content (fmpDeviceSetImage samplePart.toFlashIo samplePart.blockSize
          samplePools sampleImage (sampleFlash [true, false, false, false, false, true])).device)
        (samplePart.content (sampleFlash [true, false, false, false, false, true]))
        store.addresses :=
  setImage_keeps_variables samplePart.toFlashPart samplePools sampleImage sampleImage_length
    (sampleFlash [true, false, false, false, false, true]) sample_updated.1
    sample_updated.2

end Safety

/-! ### The recipe's guard -/

/-- Whether an update is guided by the manifest. Kind: D -/
def manifestGuided (io : FlashIo σ) (blockSize : ℕ) (pools : Pools) (image : List UInt8) (s : σ) :
    Bool :=
  match (planUpdate io blockSize pools image s).1 with
  | .ok (_, .manifest ..) => true
  | _ => false

lemma not_notFound_of_guard {image : List UInt8} (h : manifestGuard image = true) :
    fmpDeviceLocateRegionManifest image ≠ .error efiNotFound := by
  simp only [manifestGuard, Bool.and_eq_true, decide_eq_true_eq, beq_iff_eq] at h
  obtain ⟨⟨hlong, hsignature⟩, -⟩ := h
  have hother : (.error efiCompromisedData : Except EfiStatus RegionManifest) ≠
      .error efiNotFound := by
    intro heq
    exact absurd (Except.error.inj heq) (by decide)
  unfold fmpDeviceLocateRegionManifest
  rw [regionTrailerSize, if_neg (by omega)]
  dsimp only
  rw [if_neg (not_not_intro hsignature)]
  split
  · exact hother
  · split
    · exact hother
    · split
      · exact hother
      · split
        · exact fun heq => by cases heq
        · exact hother

/-- What the recipe lets through has a manifest with entries, for the firmware too, or is refused.
Kind: L -/
theorem entries_ne_nil_of_guard {image : List UInt8} (h : manifestGuard image = true)
    {capsule : CapsuleImage} (hdiscover : discover image = some capsule) :
    capsule.entries ≠ [] := by
  have hfound := not_notFound_of_guard h
  unfold discover at hdiscover
  cases hlocated : fmpDeviceLocateRegionManifest image with
  | ok m =>
      obtain ⟨fw, hcarries, -⟩ := carries_of_located hlocated
      simp only [hlocated, Option.map_some, Option.some.injEq] at hdiscover
      subst hdiscover
      exact hcarries.nonempty
  | error status =>
      have hstatus : status ≠ efiNotFound := fun heq => hfound (heq ▸ hlocated)
      simp [hlocated, hstatus] at hdiscover

/-- A mismatch is a region that the two maps do not have in one place. Kind: L -/
theorem exists_of_compareLayout {capsule live : Fmap} {store : FlashRange} :
    ∀ {entries : List (List UInt8)} {preserved p : Bool},
      compareLayout capsule live store false preserved entries = some (true, p) →
      ∃ e ∈ entries, findFmapRegion live e ≠ findFmapRegion capsule e
  | [], _, _, h => by simp [compareLayout] at h
  | entry :: entries, preserved, p, h => by
      have hrest : (∃ e ∈ entries, findFmapRegion live e ≠ findFmapRegion capsule e) →
          ∃ e ∈ entry :: entries, findFmapRegion live e ≠ findFmapRegion capsule e :=
        fun ⟨e, he, hne⟩ => ⟨e, List.mem_cons_of_mem entry he, hne⟩
      rw [compareLayout] at h
      cases hregion : findFmapRegion capsule entry with
      | error e => simp [hregion] at h
      | ok region =>
          simp only [hregion, Bool.false_eq_true, if_false] at h
          cases hlive : findFmapRegion live entry with
          | error e => exact ⟨entry, List.mem_cons_self, by simp [hlive, hregion]⟩
          | ok flashRegion =>
              simp only [hlive] at h
              split at h
              · rename_i hne
                exact ⟨entry, List.mem_cons_self, by simpa [hlive, hregion] using hne⟩
              · split at h <;> exact hrest (exists_of_compareLayout h)

/-- With a manifest, something else is programmed only after the flash's map was consulted.
Kind: L -/
theorem planManifest_eq_ok {io : FlashIo σ} {blockSize : ℕ} {base : List UInt8} {pools : Pools}
    {fmap : Fmap} {entries : List (List UInt8)} {totalSteps : ℕ} {s : σ} {plan : Plan}
    (h : (planManifest io blockSize base pools fmap entries totalSteps s).1 = .ok plan) :
    (∃ preserved, plan = .manifest fmap entries totalSteps preserved) ∨
      (loadFlashFmap io blockSize base.length fmap pools.fmapBuffer s).1.isOk = false ∨
      ∃ live, (loadFlashFmap io blockSize base.length fmap pools.fmapBuffer s).1 = .ok live ∧
        ∃ e ∈ entries, findFmapRegion live e ≠ findFmapRegion fmap e := by
  unfold planManifest at h
  dsimp only at h
  cases hloaded : (loadFlashFmap io blockSize base.length fmap pools.fmapBuffer s).1 with
  | error e => exact Or.inr (Or.inl rfl)
  | ok live =>
      simp only [hloaded] at h
      split at h
      · cases h
      · rename_i hlayout
        refine Or.inr (Or.inr ⟨live, rfl, ?_⟩)
        split at hlayout <;> exact exists_of_compareLayout hlayout
      · rename_i preserved _
        cases h
        exact Or.inl ⟨preserved, rfl⟩

lemma planUpdate_of_entries {io : FlashIo σ} {blockSize : ℕ} {pools : Pools} {image : List UInt8}
    {s : σ} {capsule : CapsuleImage} (hdiscover : discover image = some capsule)
    (hentries : capsule.entries ≠ []) {base : ℕ} {plan : Plan}
    (h : (planUpdate io blockSize pools image s).1 = .ok (base, plan)) :
    ∃ fmap totalSteps, capsule.fmap = some fmap ∧
      (planManifest io blockSize (image.take capsule.baseImageSize) pools fmap capsule.entries
        totalSteps s).1 = .ok plan := by
  unfold planUpdate at h
  simp only [hdiscover, if_neg hentries] at h
  split at h
  · cases h
  · rename_i fmap hfmap
    split at h
    · cases h
    · split at h
      · cases h
      · rename_i totalSteps _
        split at h
        · cases h
        · refine ⟨fmap, totalSteps, hfmap, ?_⟩
          split at h
          · cases h
          · rename_i heq
            cases h
            rw [heq]

/-- **A guarded image is not flashed whole for want of a manifest.** If an image that passed the
recipe's check is programmed without its manifest, as the BIOS region or as a whole, then it has a
flash map of its own and the flash is the reason: its map could not be loaded, or has a region of
the manifest elsewhere or not at all.
Kind: P -/
theorem guarded_fallback (io : FlashIo σ) (blockSize : ℕ) (pools : Pools) (image : List UInt8)
    (s : σ) (hguard : manifestGuard image = true)
    (hunguided : manifestGuided io blockSize pools image s = false)
    (hplanned : (planUpdate io blockSize pools image s).1.isOk = true) :
    ∃ capsule fmap, discover image = some capsule ∧ capsule.fmap = some fmap ∧
      ((loadFlashFmap io blockSize (image.take capsule.baseImageSize).length fmap pools.fmapBuffer
          s).1.isOk = false ∨
        ∃ live, (loadFlashFmap io blockSize (image.take capsule.baseImageSize).length fmap
            pools.fmapBuffer s).1 = .ok live ∧
          ∃ e ∈ capsule.entries, findFmapRegion live e ≠ findFmapRegion fmap e) := by
  unfold manifestGuided at hunguided
  cases hplan : (planUpdate io blockSize pools image s).1 with
  | error e =>
      rw [hplan] at hplanned
      cases hplanned
  | ok planned =>
      obtain ⟨base, plan⟩ := planned
      obtain ⟨capsule, hdiscover⟩ : ∃ capsule, discover image = some capsule := by
        unfold planUpdate at hplan
        split at hplan
        · cases hplan
        · exact ⟨_, ‹_›⟩
      obtain ⟨fmap, totalSteps, hfmap, hmanifest⟩ :=
        planUpdate_of_entries hdiscover (entries_ne_nil_of_guard hguard hdiscover) hplan
      refine ⟨capsule, fmap, hdiscover, hfmap, ?_⟩
      rcases planManifest_eq_ok hmanifest with ⟨preserved, rfl⟩ | hflash
      · rw [hplan] at hunguided
        cases hunguided
      · exact hflash

/-- The sample, on an empty flash. Kind: C -/
theorem guarded_fallback_sample :
    manifestGuard sampleImage = true ∧
      ∃ capsule fmap, discover sampleImage = some capsule ∧ capsule.fmap = some fmap ∧
        ((loadFlashFmap (Scripted.io 64) 64 (sampleImage.take capsule.baseImageSize).length fmap
            samplePools.fmapBuffer (perfectFlash fun _ => 0)).1.isOk = false ∨
          ∃ live, (loadFlashFmap (Scripted.io 64) 64
              (sampleImage.take capsule.baseImageSize).length fmap samplePools.fmapBuffer
              (perfectFlash fun _ => 0)).1 = .ok live ∧
            ∃ e ∈ capsule.entries, findFmapRegion live e ≠ findFmapRegion fmap e) :=
  ⟨by decide +kernel, guarded_fallback (Scripted.io 64) 64 samplePools sampleImage
    (perfectFlash fun _ => 0) (by decide +kernel) (by decide +kernel) (by decide +kernel)⟩

end NucBios.Update
