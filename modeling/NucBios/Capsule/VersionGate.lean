import NucBios.Capsule.Apply

/-!
# The version gate and the octets behind the image

`ApplyOneCapsule` gives the version search the size of the *file*, not `CapsuleImageSize`: octets
behind the image take part in it. This module says for which images that makes no difference.

A file that carries the image `img` is `img ++ t`. A header inside the image (`HeaderIn`) is
accepted once the file reaches past its end (`endOf`), so a longer file can bring a header further
left into play; and where the image has no header at all, the octets behind it can supply one.

* `Settled img v`: some header fits the image, and all headers that could come into play before it
  carry the same version `v`;
* `Barren img`: the image holds no header and leaves no room, within the search window, for one that
  ends behind it.

`gate_sees_only_image_iff`: the gate is a function of the image exactly for these two kinds.
-/

namespace NucBios.Capsule

open NucBios.Uefi

/-! ### Headers inside an image -/

/-- The header size word of a payload header at `o`. Kind: D -/
def headerSizeAt (buf : ℕ → UInt8) (o : ℕ) : ℕ := (readLe32 buf (o + 4)).toNat

/-- The signature and a plausible size at `o`. Kind: D -/
def PlausibleAt (buf : ℕ → UInt8) (o : ℕ) : Prop :=
  readLe32 buf o = fmpPayloadSignature ∧ fmpPayloadMinHeader ≤ headerSizeAt buf o ∧
    headerSizeAt buf o < fmpPayloadMaxHeader

instance (buf : ℕ → UInt8) (o : ℕ) : Decidable (PlausibleAt buf o) :=
  inferInstanceAs (Decidable (_ ∧ _ ∧ _))

/-- The image holds a plausible header at `o`, within the search window. Kind: D -/
def HeaderIn (img : List UInt8) (o : ℕ) : Prop :=
  o + fmpPayloadMinHeader ≤ payloadSearchLimit img.length ∧ PlausibleAt (pointer img) o

instance (img : List UInt8) (o : ℕ) : Decidable (HeaderIn img o) :=
  inferInstanceAs (Decidable (_ ∧ _))

/-- Where the header at `o` ends. Kind: D -/
def endOf (img : List UInt8) (o : ℕ) : ℕ := o + headerSizeAt (pointer img) o

/-- The version the header at `o` carries. Kind: D -/
def versionAt (img : List UInt8) (o : ℕ) : UInt32 := readLe32 (pointer img) (o + 8)

lemma payloadSearchLimit_eq_min (len : ℕ) :
    payloadSearchLimit len = min len fmpPayloadSearchLimit := by
  unfold payloadSearchLimit
  split_ifs <;> omega

/-- The bounds of the search and of a capsule file, for the arithmetic below. Kind: L -/
theorem payload_limits : fmpPayloadMinHeader = 16 ∧ fmpPayloadMaxHeader = 4096 ∧
    fmpPayloadSearchLimit = 65536 ∧ maxCapsuleBytes = 134217728 :=
  ⟨rfl, rfl, rfl, rfl⟩

lemma payloadHeaderAt_eq_some_iff_fits {buf : ℕ → UInt8} {len o : ℕ} {v : UInt32} :
    payloadHeaderAt buf len o = some v ↔
      PlausibleAt buf o ∧ o + headerSizeAt buf o < len ∧ readLe32 buf (o + 8) = v := by
  rw [payloadHeaderAt_eq_some_iff, PlausibleAt, headerSizeAt]
  tauto

/-- Words inside the image do not depend on what follows it. Kind: L -/
theorem readLe32_pointer_append {img : List UInt8} (t : List UInt8) {o : ℕ}
    (h : o + 4 ≤ img.length) :
    readLe32 (pointer (img ++ t)) o = readLe32 (pointer img) o :=
  readLe32_congr fun i hi => pointer_append_of_lt (by omega)

/-- A header inside the image is the same header in the file. Kind: L -/
theorem payloadHeaderAt_append {img : List UInt8} (t : List UInt8) {o len : ℕ}
    (h : o + fmpPayloadMinHeader ≤ img.length) :
    payloadHeaderAt (pointer (img ++ t)) len o = payloadHeaderAt (pointer img) len o := by
  have h16 : fmpPayloadMinHeader = 16 := rfl
  unfold payloadHeaderAt
  rw [readLe32_pointer_append t (by omega), readLe32_pointer_append t (by omega),
    readLe32_pointer_append t (by omega)]

/-- When a file of length `len` brings the image's header at `o` into play. Kind: L -/
theorem payloadHeaderAt_eq_some_of_headerIn {img : List UInt8} {o len : ℕ}
    (h : HeaderIn img o) (hlen : endOf img o < len) :
    payloadHeaderAt (pointer img) len o = some (versionAt img o) :=
  payloadHeaderAt_eq_some_iff_fits.mpr ⟨h.2, hlen, rfl⟩

/-- The version found in a file depends on the image alone as far as headers within the image
decide it: the leftmost one that ends before the file does. Kind: L -/
theorem getPayloadVersion_eq_of_leftmost {img : List UInt8} (t : List UInt8) {o : ℕ}
    (ho : HeaderIn img o) (hfits : endOf img o < (img ++ t).length)
    (hleft : ∀ o' < o, HeaderIn img o' → (img ++ t).length ≤ endOf img o') :
    nucCapsuleGetPayloadVersion (pointer (img ++ t)) (img ++ t).length =
      some (versionAt img o) := by
  have hlim := ho.1
  rw [payloadSearchLimit_eq_min] at hlim
  have hwithin : ∀ o' ≤ o, o' + fmpPayloadMinHeader ≤ img.length := fun o' h => by omega
  refine nucCapsuleGetPayloadVersion_eq_some_iff.mpr ⟨o, ?_, ?_, fun o' ho' => ?_⟩
  · rw [payloadSearchLimit_eq_min, List.length_append]
    omega
  · rw [payloadHeaderAt_append t (hwithin o le_rfl)]
    exact payloadHeaderAt_eq_some_of_headerIn ho hfits
  · rw [payloadHeaderAt_append t (hwithin o' ho'.le)]
    by_contra hne
    obtain ⟨w, hw⟩ := Option.ne_none_iff_exists'.mp hne
    obtain ⟨hp, hlt, -⟩ := payloadHeaderAt_eq_some_iff_fits.mp hw
    have hin : HeaderIn img o' := ⟨by rw [payloadSearchLimit_eq_min]; omega, hp⟩
    exact absurd hlt (not_lt.mpr (hleft o' ho' hin))

/-! ### Images that settle their version -/

/-- Some header fits the image, and every header to its left that ends before all headers further
left, so that some file length selects it, carries the same version. Kind: D -/
def Settled (img : List UInt8) (v : UInt32) : Prop :=
  ∃ o, HeaderIn img o ∧ endOf img o < img.length ∧ versionAt img o = v ∧
    ∀ o' < o, HeaderIn img o' → (∀ o'' < o', HeaderIn img o'' → endOf img o' < endOf img o'') →
      versionAt img o' = v

/-- The version of a settled image, whatever follows it. Kind: L -/
theorem getPayloadVersion_of_settled {img : List UInt8} {v : UInt32} (h : Settled img v)
    (t : List UInt8) :
    nucCapsuleGetPayloadVersion (pointer (img ++ t)) (img ++ t).length = some v := by
  obtain ⟨o, ho, hfits, hv, hrecords⟩ := h
  have hlen : img.length ≤ (img ++ t).length := by simp
  -- the leftmost header that ends before the file does
  have hex : ∃ o, HeaderIn img o ∧ endOf img o < (img ++ t).length := ⟨o, ho, by omega⟩
  classical
  obtain ⟨hm, hmfits⟩ := Nat.find_spec hex
  have hleft : ∀ o' < Nat.find hex, HeaderIn img o' → (img ++ t).length ≤ endOf img o' := by
    intro o' ho' hin
    by_contra hlt
    exact Nat.find_min hex ho' ⟨hin, by omega⟩
  rw [getPayloadVersion_eq_of_leftmost t hm hmfits hleft]
  have hle : Nat.find hex ≤ o := Nat.find_min' hex ⟨ho, by omega⟩
  rcases hle.eq_or_lt with heq | hlt
  · rw [heq, hv]
  · rw [hrecords _ hlt hm fun o'' ho'' hin => lt_of_lt_of_le hmfits (hleft o'' ho'' hin)]

/-! ### Images that hold no header -/

/-- The octets of the image from `o` on are the beginning of a plausible header. Kind: D -/
def Completable (img : List UInt8) (o : ℕ) : Prop :=
  (o < img.length → pointer img o = 0x4D) ∧ (o + 1 < img.length → pointer img (o + 1) = 0x53) ∧
    (o + 2 < img.length → pointer img (o + 2) = 0x53) ∧
    (o + 3 < img.length → pointer img (o + 3) = 0x31) ∧
    (o + 5 < img.length → 16 ≤ (pointer img (o + 4)).toNat + 256 * (pointer img (o + 5)).toNat ∧
      pointer img (o + 5) < 16) ∧
    (o + 6 < img.length → pointer img (o + 6) = 0) ∧ (o + 7 < img.length → pointer img (o + 7) = 0)

/-- No header inside the image, and none can be completed behind it within the search window.
Kind: D -/
def Barren (img : List UInt8) : Prop :=
  (∀ o, ¬ HeaderIn img o) ∧
    ∀ o, img.length < o + fmpPayloadMinHeader → o + fmpPayloadMinHeader ≤ fmpPayloadSearchLimit →
      ¬ Completable img o

/-- The octets of a plausible header. Kind: L -/
theorem plausibleAt_iff_octets {buf : ℕ → UInt8} {o : ℕ} :
    PlausibleAt buf o ↔
      buf o = 0x4D ∧ buf (o + 1) = 0x53 ∧ buf (o + 2) = 0x53 ∧ buf (o + 3) = 0x31 ∧
      16 ≤ (buf (o + 4)).toNat + 256 * (buf (o + 5)).toNat ∧ buf (o + 5) < 16 ∧
      buf (o + 6) = 0 ∧ buf (o + 7) = 0 := by
  unfold PlausibleAt headerSizeAt
  rw [← UInt32.toNat_inj, readLe32_toNat, readLe32_toNat]
  simp only [← UInt8.toNat_inj, UInt8.lt_iff_toNat_lt]
  have hsig : fmpPayloadSignature.toNat = 0x3153534D := rfl
  obtain ⟨hmin, hmax, -, -⟩ := payload_limits
  have h0 := (buf o).toNat_lt
  have h1 := (buf (o + 1)).toNat_lt
  have h2 := (buf (o + 2)).toNat_lt
  have h3 := (buf (o + 3)).toNat_lt
  have h4 := (buf (o + 4)).toNat_lt
  have h5 := (buf (o + 5)).toNat_lt
  rw [hsig, hmin, hmax]
  simp only [UInt8.reduceToNat, Nat.add_assoc, Nat.reduceAdd]
  omega

/-- A header that reaches behind the image begins inside it. Kind: L -/
theorem completable_of_plausibleAt {img t : List UInt8} {o : ℕ}
    (h : PlausibleAt (pointer (img ++ t)) o) : Completable img o := by
  obtain ⟨h0, h1, h2, h3, hsize, h5, h6, h7⟩ := plausibleAt_iff_octets.mp h
  refine ⟨fun hlt => ?_, fun hlt => ?_, fun hlt => ?_, fun hlt => ?_, fun hlt => ?_, fun hlt => ?_,
    fun hlt => ?_⟩
  · rwa [pointer_append_of_lt hlt] at h0
  · rwa [pointer_append_of_lt hlt] at h1
  · rwa [pointer_append_of_lt hlt] at h2
  · rwa [pointer_append_of_lt hlt] at h3
  · rw [pointer_append_of_lt hlt] at h5 hsize
    rw [pointer_append_of_lt (by omega)] at hsize
    exact ⟨hsize, h5⟩
  · rwa [pointer_append_of_lt hlt] at h6
  · rwa [pointer_append_of_lt hlt] at h7

/-- No version is found in a file over a barren image. Kind: L -/
theorem getPayloadVersion_of_barren {img : List UInt8} (h : Barren img) (t : List UInt8) :
    nucCapsuleGetPayloadVersion (pointer (img ++ t)) (img ++ t).length = none := by
  refine nucCapsuleGetPayloadVersion_eq_none_iff.mpr fun o hlim => ?_
  rw [payloadSearchLimit_eq_min] at hlim
  by_contra hne
  obtain ⟨w, hw⟩ := Option.ne_none_iff_exists'.mp hne
  by_cases hin : o + fmpPayloadMinHeader ≤ img.length
  · rw [payloadHeaderAt_append t hin] at hw
    refine h.1 o ⟨?_, (payloadHeaderAt_eq_some_iff_fits.mp hw).1⟩
    rw [payloadSearchLimit_eq_min]
    omega
  · exact h.2 o (by omega) (by omega)
      (completable_of_plausibleAt (payloadHeaderAt_eq_some_iff_fits.mp hw).1)

/-- The octet that completes a header begun in the image at `o`, by its index in the header: size
16 when the size word lies behind the image, and a second octet of 1 when only its first octet lies
inside. Kind: D -/
def completion (img : List UInt8) (o i : ℕ) : UInt8 :=
  match i with
  | 0 => 0x4D
  | 1 => 0x53
  | 2 => 0x53
  | 3 => 0x31
  | 4 => 16
  | 5 => if o + 4 < img.length then 1 else 0
  | _ => 0

/-- Octets behind the image that complete the header at `o` and reach past any plausible end of it.
Kind: D -/
def trailer (img : List UInt8) (o : ℕ) : List UInt8 :=
  (List.range (o + fmpPayloadMaxHeader - img.length)).map fun i =>
    completion img o (img.length + i - o)

lemma length_append_trailer {img : List UInt8} {o : ℕ}
    (h : img.length < o + fmpPayloadMinHeader) :
    (img ++ trailer img o).length = o + fmpPayloadMaxHeader := by
  obtain ⟨hmin, hmax, -, -⟩ := payload_limits
  simp only [trailer, List.length_append, List.length_map, List.length_range]
  omega

lemma pointer_append_trailer {img : List UInt8} {o i : ℕ} (hi : i < fmpPayloadMinHeader)
    (h : img.length ≤ o + i) :
    pointer (img ++ trailer img o) (o + i) = completion img o i := by
  obtain ⟨hmin, hmax, -, -⟩ := payload_limits
  have hlt : o + i - img.length < (trailer img o).length := by
    simp only [trailer, List.length_map, List.length_range]
    omega
  rw [pointer_append_of_le h, pointer_of_lt hlt]
  have hidx : img.length + (o + i - img.length) - o = i := by omega
  simp only [trailer, List.getElem_map, List.getElem_range, hidx]

/-- What the image begins, the trailer completes. Kind: L -/
theorem plausibleAt_append_trailer {img : List UInt8} {o : ℕ} (h : Completable img o) :
    PlausibleAt (pointer (img ++ trailer img o)) o := by
  have hmin : fmpPayloadMinHeader = 16 := rfl
  -- each octet is the image's own, or the completion's
  have hoctet : ∀ i < fmpPayloadMinHeader, pointer (img ++ trailer img o) (o + i) =
      if o + i < img.length then pointer img (o + i) else completion img o i := by
    intro i hi
    split_ifs with hlt
    · exact pointer_append_of_lt hlt
    · exact pointer_append_trailer hi (by omega)
  obtain ⟨h0, h1, h2, h3, h5, h6, h7⟩ := h
  have e0 := hoctet 0 (by omega)
  rw [Nat.add_zero] at e0
  rw [plausibleAt_iff_octets, e0, hoctet 1 (by omega), hoctet 2 (by omega), hoctet 3 (by omega),
    hoctet 4 (by omega), hoctet 5 (by omega), hoctet 6 (by omega), hoctet 7 (by omega)]
  refine ⟨?_, ?_, ?_, ?_, ?_, ?_, ?_, ?_⟩
  · split_ifs with hlt
    · exact h0 hlt
    · rfl
  · split_ifs with hlt
    · exact h1 hlt
    · rfl
  · split_ifs with hlt
    · exact h2 hlt
    · rfl
  · split_ifs with hlt
    · exact h3 hlt
    · rfl
  · by_cases h4 : o + 4 < img.length
    · by_cases h5' : o + 5 < img.length
      · rw [if_pos h4, if_pos h5']
        exact (h5 h5').1
      · rw [if_pos h4, if_neg h5', completion, if_pos h4]
        simp
    · rw [if_neg h4, completion]
      simp
  · split_ifs with hlt
    · exact (h5 hlt).2
    · rw [completion]
      split_ifs <;> decide
  · split_ifs with hlt
    · exact h6 hlt
    · rfl
  · split_ifs with hlt
    · exact h7 hlt
    · rfl

/-! ### Which images the gate depends on alone -/

lemma endOf_lt {img : List UInt8} {o : ℕ} (h : HeaderIn img o) :
    endOf img o + 1 ≤ maxCapsuleBytes := by
  obtain ⟨hlim, -, -, hsize⟩ := h
  obtain ⟨hmin, hmax, hwin, hcap⟩ := payload_limits
  rw [payloadSearchLimit_eq_min] at hlim
  unfold endOf
  omega

/-- The file that reaches just past the end of a header. Kind: L -/
theorem length_append_replicate {img : List UInt8} {n : ℕ} (h : img.length ≤ n) :
    (img ++ List.replicate (n + 1 - img.length) 0).length = n + 1 := by
  rw [List.length_append, List.length_replicate]
  omega

/-- No file over the image finds another version than the image does. Kind: D -/
def Stable (img : List UInt8) : Prop :=
  ∀ t, (img ++ t).length ≤ maxCapsuleBytes →
    nucCapsuleGetPayloadVersion (pointer (img ++ t)) (img ++ t).length =
      nucCapsuleGetPayloadVersion (pointer img) img.length

/-- A stable image that holds a whole header settles the version: a file that ends right behind any
other header selects that one.
Kind: L -/
theorem Stable.exists_settled {img : List UInt8} (h : Stable img)
    (hfit : ∃ o, HeaderIn img o ∧ endOf img o < img.length) : ∃ v, Settled img v := by
  classical
  obtain ⟨ho, hfits⟩ := Nat.find_spec hfit
  have hleft : ∀ o' < Nat.find hfit, HeaderIn img o' → img.length ≤ endOf img o' := by
    intro o' ho' hin
    by_contra hlt
    exact Nat.find_min hfit ho' ⟨hin, by omega⟩
  have hbase : nucCapsuleGetPayloadVersion (pointer img) img.length =
      some (versionAt img (Nat.find hfit)) := by
    have := getPayloadVersion_eq_of_leftmost [] ho
    rw [List.append_nil] at this
    exact this hfits hleft
  refine ⟨_, _, ho, hfits, rfl, fun o' ho' hin hrecord => ?_⟩
  have hlen := length_append_replicate (hleft o' ho' hin)
  have hsel := getPayloadVersion_eq_of_leftmost
    (List.replicate (endOf img o' + 1 - img.length) 0) hin (by omega)
    fun o'' ho'' hin'' => by
      have := hrecord o'' ho'' hin''
      omega
  rw [h _ (by rw [hlen]; exact endOf_lt hin), hbase] at hsel
  exact (Option.some.inj hsel).symm

/-- In a stable image without a whole header no longer file may have one accepted. Kind: L -/
theorem Stable.payloadHeaderAt_eq_none {img : List UInt8} (h : Stable img)
    (hfit : ∀ o, HeaderIn img o → img.length ≤ endOf img o) {t : List UInt8} {o : ℕ}
    (hcap : (img ++ t).length ≤ maxCapsuleBytes)
    (hlim : o + fmpPayloadMinHeader ≤ payloadSearchLimit (img ++ t).length) :
    payloadHeaderAt (pointer (img ++ t)) (img ++ t).length o = none := by
  have hbase : nucCapsuleGetPayloadVersion (pointer img) img.length = none := by
    refine nucCapsuleGetPayloadVersion_eq_none_iff.mpr fun o hlim => ?_
    by_contra hne
    obtain ⟨w, hw⟩ := Option.ne_none_iff_exists'.mp hne
    obtain ⟨hp, hlt, -⟩ := payloadHeaderAt_eq_some_iff_fits.mp hw
    exact absurd hlt (not_lt.mpr (hfit o ⟨hlim, hp⟩))
  exact nucCapsuleGetPayloadVersion_eq_none_iff.mp ((h t hcap).trans hbase) o hlim

/-- Such an image is barren: a header it holds or begins would be accepted once the file reaches
behind it.
Kind: L -/
theorem Stable.barren {img : List UInt8} (h : Stable img)
    (hfit : ∀ o, HeaderIn img o → img.length ≤ endOf img o) : Barren img := by
  obtain ⟨hmin, hmax, hwin, hcap⟩ := payload_limits
  constructor
  · intro o hin
    have hlen := length_append_replicate (hfit o hin)
    have hlim := hin.1
    rw [payloadSearchLimit_eq_min] at hlim
    have hnone : payloadHeaderAt (pointer (img ++ List.replicate (endOf img o + 1 - img.length) 0))
        (img ++ List.replicate (endOf img o + 1 - img.length) 0).length o = none :=
      h.payloadHeaderAt_eq_none hfit (by rw [hlen]; exact endOf_lt hin)
        (by rw [payloadSearchLimit_eq_min, List.length_append]; omega)
    rw [payloadHeaderAt_append _ (by omega),
      payloadHeaderAt_eq_some_of_headerIn hin (by omega)] at hnone
    cases hnone
  · intro o hbehind hroom hcomp
    have hlen := length_append_trailer hbehind
    have hp := plausibleAt_append_trailer hcomp
    have hnone : payloadHeaderAt (pointer (img ++ trailer img o)) (img ++ trailer img o).length o =
        none :=
      h.payloadHeaderAt_eq_none hfit (by omega) (by rw [payloadSearchLimit_eq_min]; omega)
    have hsome := payloadHeaderAt_eq_some_iff_fits.mpr
      ⟨hp, show o + headerSizeAt _ o < (img ++ trailer img o).length by
        rw [hlen]; exact Nat.add_lt_add_left hp.2.2 o, rfl⟩
    rw [hnone] at hsome
    cases hsome

lemma Stable.settled_or_barren {img : List UInt8} (h : Stable img) :
    (∃ v, Settled img v) ∨ Barren img := by
  by_cases hfit : ∃ o, HeaderIn img o ∧ endOf img o < img.length
  · exact .inl (h.exists_settled hfit)
  · push Not at hfit
    exact .inr (h.barren hfit)

/-- `f` is accepted, no larger than a capsule file may be, and its first `CapsuleImageSize` octets
are `img`. Kind: D -/
def Carries (f img : List UInt8) : Prop :=
  f.length ≤ maxCapsuleBytes ∧
    (∃ i, nucCapsuleValidateHeader (pointer f) f.length = .ok i ∧ i.imageSize = img.length) ∧
    f.take img.length = img

/-- An accepted image is accepted with anything behind it. Kind: L -/
theorem Carries.append {img t : List UInt8} (h : Carries img img)
    (hmax : (img ++ t).length ≤ maxCapsuleBytes) : Carries (img ++ t) img := by
  obtain ⟨-, ⟨i, hi, hsize⟩, -⟩ := h
  obtain ⟨hlen, hguid, hflags, hhdr, himg, hfit, rfl⟩ := nucCapsuleValidateHeader_eq_ok_iff.mp hi
  have h28 : capsuleMinHeader = 28 := rfl
  have hword : ∀ o, o + 4 ≤ 28 →
      readLe32 (pointer (img ++ t)) o = readLe32 (pointer img) o :=
    fun o ho => readLe32_pointer_append t (by omega)
  have hoctet : ∀ o, o < 28 → pointer (img ++ t) o = pointer img o :=
    fun o ho => pointer_append_of_lt (by omega)
  have hg : headerGuid (pointer (img ++ t)) = headerGuid (pointer img) := by
    unfold headerGuid readLe16
    rw [hword _ (by decide), hoctet 4 (by omega), hoctet 5 (by omega), hoctet 6 (by omega),
      hoctet 7 (by omega)]
    congr 1
    refine List.map_congr_left fun k hk => hoctet _ ?_
    have := List.mem_range.mp hk
    omega
  refine ⟨hmax, ⟨_, nucCapsuleValidateHeader_eq_ok_iff.mpr ?_, hsize⟩, by simp⟩
  rw [hg, hword capsuleOffFlags (by decide), hword capsuleOffHeaderSize (by decide),
    hword capsuleOffImageSize (by decide), List.length_append]
  exact ⟨by omega, hguid, hflags, hhdr, himg, by omega, rfl⟩

/-- **What the version gate depends on.** Over an accepted image, every file that carries it finds
the same version and takes the same decision, whatever follows the image, exactly when the image
settles its version or is barren.
Source: `NucCapsuleOnDiskLib.c` `ApplyOneCapsule`; `NucCapsuleParse.c` `NucCapsuleGetPayloadVersion`
Kind: P -/
theorem gate_sees_only_image_iff {img : List UInt8} (himg : Carries img img) :
    (∀ f f', Carries f img → Carries f' img → ∀ a fw,
      (versionGate a fw f).capsuleVersion = (versionGate a fw f').capsuleVersion ∧
      (versionGate a fw f).skips = (versionGate a fw f').skips) ↔
    (∃ v, Settled img v) ∨ Barren img := by
  constructor
  · intro h
    refine Stable.settled_or_barren fun t ht => ?_
    exact (h _ _ (himg.append ht) himg (goodAnswers readableWalk ⟨efiSuccess, firmwareAt 0 0⟩)
      (firmwareAt 0 0)).1
  · intro h f f' hf hf' a fw
    have hsplit : ∀ g, Carries g img → ∃ t, g = img ++ t := by
      rintro g ⟨-, -, hg⟩
      exact ⟨g.drop img.length, by conv_lhs => rw [← List.take_append_drop img.length g, hg]⟩
    obtain ⟨t, rfl⟩ := hsplit f hf
    obtain ⟨t', rfl⟩ := hsplit f' hf'
    have hsame : nucCapsuleGetPayloadVersion (pointer (img ++ t)) (img ++ t).length =
        nucCapsuleGetPayloadVersion (pointer (img ++ t')) (img ++ t').length := by
      rcases h with ⟨v, hv⟩ | hb
      · rw [getPayloadVersion_of_settled hv, getPayloadVersion_of_settled hv]
      · rw [getPayloadVersion_of_barren hb, getPayloadVersion_of_barren hb]
    have hgate : versionGate a fw (img ++ t) = versionGate a fw (img ++ t') := by
      rw [versionGate, versionGate, hsame]
    rw [hgate]
    exact ⟨rfl, rfl⟩

lemma carries_capsuleOfVersion : Carries (capsuleOfVersion 7) (capsuleOfVersion 7) :=
  ⟨by decide +kernel, ⟨⟨45, 0⟩, by decide +kernel, by decide +kernel⟩, by decide +kernel⟩

lemma settled_capsuleOfVersion : Settled (capsuleOfVersion 7) 7 :=
  ⟨28, by decide +kernel, by decide +kernel, by decide +kernel, by decide +kernel⟩

/-- A capsule with its header inside is not affected by an octet behind it. Kind: C -/
theorem gate_sees_only_image_settled :
    (versionGate (goodAnswers readableWalk ⟨efiSuccess, firmwareAt 7 7⟩) (firmwareAt 7 0)
      (capsuleOfVersion 7 ++ [0x4D])).skips =
    (versionGate (goodAnswers readableWalk ⟨efiSuccess, firmwareAt 7 7⟩) (firmwareAt 7 0)
      (capsuleOfVersion 7)).skips :=
  ((gate_sees_only_image_iff carries_capsuleOfVersion).mpr (.inl ⟨7, settled_capsuleOfVersion⟩) _ _
    (carries_capsuleOfVersion.append (by decide +kernel)) carries_capsuleOfVersion _ _).2

/-- A capsule that is nothing but its header: `CapsuleImageSize` 28. Kind: D -/
def bareCapsule : List UInt8 :=
  [0xed, 0xd5, 0xcb, 0x6d, 0x2d, 0xe8, 0x44, 0x4c, 0xbd, 0xa1, 0x71, 0x94, 0x19, 0x9a, 0xd9, 0x2a,
    28, 0, 0, 0, 0, 0, 0, 0, 28, 0, 0, 0]

lemma carries_bareCapsule : Carries bareCapsule bareCapsule :=
  ⟨by decide +kernel, ⟨⟨28, 0⟩, by decide +kernel, by decide +kernel⟩, by decide +kernel⟩

/-- Seventeen octets behind an image without a payload header make the gate believe that it is the
running version: the file with them is skipped, the image alone is applied. Kind: C -/
theorem trailing_octets_close_gate :
    let a := goodAnswers readableWalk ⟨efiSuccess, firmwareAt 7 7⟩
    let f := bareCapsule ++ (capsuleOfVersion 7).drop 28
    Carries bareCapsule bareCapsule ∧ Carries f bareCapsule ∧
    (versionGate a (firmwareAt 7 0) bareCapsule).skips = false ∧
    (versionGate a (firmwareAt 7 0) f).skips = true :=
  ⟨carries_bareCapsule, carries_bareCapsule.append (by decide +kernel), by decide +kernel,
    by decide +kernel⟩

end NucBios.Capsule
