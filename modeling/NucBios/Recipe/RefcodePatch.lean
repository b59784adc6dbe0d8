import NucBios.Lib.Search
import NucBios.Uefi.Base

/-!
# The refcode patch of `do_extract_blobs`

The donor's refcode disables the Ethernet controller with one store, `movb $0x0,0x37e(%ebx)`. The
Python embedded in `coreboot_git.bb` looks for the seven octets of that store and makes its
immediate operand 1; a refcode that has the enabling store already, once, and no disabling one, is
left alone.

* `patchRefcode_cases`: the two ways the script succeeds.
* `occurrences_enable_patched`, `occurrences_disable_patched`: the patch turns the one disabling
  store into an enabling one and touches no other store.
* `patch_again_iff`: a patched refcode differs in one octet at most and has no disabling store left.
  The script takes its own output only if there was one store of either kind to begin with: an
  enabling one besides the disabling one makes two.
-/

namespace NucBios.Recipe

open Lib

/-- `movb $0x0,0x37e(%ebx)`. Kind: D -/
def disable : List UInt8 := [0xC6, 0x83, 0x7E, 0x03, 0x00, 0x00, 0x00]

/-- `movb $0x1,0x37e(%ebx)`. Kind: D -/
def enable : List UInt8 := [0xC6, 0x83, 0x7E, 0x03, 0x00, 0x00, 0x01]

/-- The file after the script, or the text it exits with.
Source: `coreboot_git.bb` `do_extract_blobs`
Kind: D -/
def patchRefcode (data : List UInt8) : Except String (List UInt8) :=
  if count enable data = 1 ∧ count disable data = 0 then .ok data
  else
    let n := count disable data
    if n ≠ 1 then
      .error ("refcode: expected exactly one GbE-disable site, found " ++ toString n ++
        " -- donor refcode changed, re-verify before patching")
    else
      match index? disable data with
      | none => .error "subsection not found"
      | some site => .ok (data.set (site + 6) 0x01)

/-! ### The two patterns -/

lemma count_disable (data : List UInt8) : count disable data = (occurrences disable data).card :=
  count_eq_card (by decide) data

lemma count_enable (data : List UInt8) : count enable data = (occurrences enable data).card :=
  count_eq_card (by decide) data

lemma mem_disable {data : List UInt8} {i : ℕ} :
    i ∈ occurrences disable data ↔ OccursAt disable data i := mem_occurrences (by decide)

lemma mem_enable {data : List UInt8} {i : ℕ} :
    i ∈ occurrences enable data ↔ OccursAt enable data i := mem_occurrences (by decide)

/-- What the script can do: nothing, or patch the only disabling store. Kind: L -/
theorem patchRefcode_cases {data out : List UInt8} (h : patchRefcode data = .ok out) :
    (count enable data = 1 ∧ count disable data = 0 ∧ out = data) ∨
      ∃ site, occurrences disable data = {site} ∧ out = data.set (site + 6) 0x01 := by
  unfold patchRefcode at h
  by_cases hdone : count enable data = 1 ∧ count disable data = 0
  · rw [if_pos hdone] at h
    cases h
    exact .inl ⟨hdone.1, hdone.2, rfl⟩
  · rw [if_neg hdone] at h
    by_cases hone : count disable data = 1
    · rcases hindex : index? disable data with _ | first
      · simp only [hone, ne_eq, not_true_eq_false, if_false, hindex] at h
        cases h
      · simp only [hone, ne_eq, not_true_eq_false, if_false, hindex] at h
        cases h
        rw [count_disable, Finset.card_eq_one] at hone
        obtain ⟨site, hsite⟩ := hone
        have hfirst := mem_disable.mpr (occursAt_of_index? hindex)
        rw [hsite, Finset.mem_singleton] at hfirst
        exact .inr ⟨site, hsite, by rw [hfirst]⟩
    · simp only [hone, ne_eq, not_false_eq_true, if_true] at h
      cases h

lemma patchRefcode_of_done {data : List UInt8} (henable : count enable data = 1)
    (hdisable : count disable data = 0) : patchRefcode data = .ok data :=
  if_pos ⟨henable, hdisable⟩

/-! ### The patched file -/

section Patched

variable {data : List UInt8} {site : ℕ} (hsite : OccursAt disable data site)

include hsite

/-- The operand that is patched. Kind: L -/
theorem getElem?_operand : data[site + 6]? = some 0 := occursAt_iff.mp hsite 6 (by decide)

lemma getElem?_patched (i : ℕ) :
    (data.set (site + 6) 0x01)[i]? = if i = site + 6 then some 0x01 else data[i]? := by
  have hlt : site + 6 < data.length := (List.getElem?_eq_some_iff.mp (getElem?_operand hsite)).1
  by_cases hi : i = site + 6
  · rw [hi, List.getElem?_set_self hlt, if_pos rfl]
  · rw [List.getElem?_set_ne (Ne.symm hi), if_neg hi]

/-- A pattern that does not cover the operand stands where it stood. Kind: L -/
theorem occursAt_patched_of_ne {sub : List UInt8} {i : ℕ}
    (h : ∀ j < sub.length, i + j ≠ site + 6) :
    OccursAt sub (data.set (site + 6) 0x01) i ↔ OccursAt sub data i := by
  rw [occursAt_iff, occursAt_iff]
  refine forall₂_congr fun j hj => ?_
  rw [getElem?_patched hsite, if_neg (h j hj)]

/-- No disabling store holds the octet 1, so none covers the patched operand. Kind: L -/
theorem occurrences_disable_patched (honly : occurrences disable data = {site}) :
    occurrences disable (data.set (site + 6) 0x01) = ∅ := by
  refine Finset.eq_empty_of_forall_notMem fun i hi => ?_
  rw [mem_disable] at hi
  have hclear : ∀ j < disable.length, i + j ≠ site + 6 := by
    intro j hj hcover
    have hvalue := occursAt_iff.mp hi j hj
    rw [hcover, getElem?_patched hsite, if_pos rfl] at hvalue
    have hnone : ∀ j < 7, disable[j]? ≠ some 1 := by decide
    exact hnone j hj hvalue.symm
  have hold := mem_disable.mpr ((occursAt_patched_of_ne hsite hclear).mp hi)
  rw [honly, Finset.mem_singleton] at hold
  exact hclear 6 (by decide) (by rw [hold])

/-- An enabling store that was there does not overlap the patched one: its first octet would stand
in it. Kind: L -/
theorem enable_clear {i : ℕ} (hi : OccursAt enable data i) :
    ∀ j < enable.length, i + j ≠ site + 6 := by
  intro j hj hcover
  have hvalue := occursAt_iff.mp hi j hj
  rw [hcover, getElem?_operand hsite] at hvalue
  have hzero : ∀ j < 7, enable[j]? = some 0 → j = 4 ∨ j = 5 := by decide
  have hfirst := occursAt_iff.mp hi 0 (by decide)
  rcases hzero j hj hvalue.symm with rfl | rfl
  · have hinside := occursAt_iff.mp hsite 2 (by decide)
    rw [show site + 2 = i + 0 by omega, hfirst] at hinside
    exact absurd hinside (by decide)
  · have hinside := occursAt_iff.mp hsite 1 (by decide)
    rw [show site + 1 = i + 0 by omega, hfirst] at hinside
    exact absurd hinside (by decide)

/-- The patched store enables. Kind: L -/
theorem occursAt_enable_site : OccursAt enable (data.set (site + 6) 0x01) site := by
  rw [occursAt_iff]
  intro j hj
  rw [getElem?_patched hsite]
  have hsame : ∀ j < 7, j ≠ 6 → disable[j]? = enable[j]? := by decide
  by_cases hlast : j = 6
  · rw [hlast, if_pos rfl]
    rfl
  · rw [if_neg (by omega), occursAt_iff.mp hsite j hj, hsame j hj hlast]

/-- The enabling stores are those there were, and the patched one. Kind: L -/
theorem occurrences_enable_patched :
    occurrences enable (data.set (site + 6) 0x01) = insert site (occurrences enable data) := by
  ext i
  rw [mem_enable, Finset.mem_insert, mem_enable]
  constructor
  · intro hi
    by_cases hclear : ∀ j < enable.length, i + j ≠ site + 6
    · exact .inr ((occursAt_patched_of_ne hsite hclear).mp hi)
    · -- a store that covers the operand ends with it
      push Not at hclear
      obtain ⟨j, hj, hcover⟩ := hclear
      have hvalue := occursAt_iff.mp hi j hj
      rw [hcover, getElem?_patched hsite, if_pos rfl] at hvalue
      have hone : ∀ j < 7, enable[j]? = some 1 → j = 6 := by decide
      have hlast := hone j hj hvalue.symm
      exact .inl (by omega)
  · rintro (rfl | hi)
    · exact occursAt_enable_site hsite
    · exact (occursAt_patched_of_ne hsite (enable_clear hsite hi)).mpr hi

lemma site_notMem_enable : site ∉ occurrences enable data := by
  intro h
  have hvalue := occursAt_iff.mp (mem_enable.mp h) 6 (by decide)
  rw [getElem?_operand hsite] at hvalue
  exact absurd hvalue (by decide)

lemma count_enable_patched :
    count enable (data.set (site + 6) 0x01) = count enable data + 1 := by
  rw [count_enable, count_enable, occurrences_enable_patched hsite,
    Finset.card_insert_of_notMem (site_notMem_enable hsite)]

end Patched

/-- **The patch is minimal, and repeats under a condition.** When the script succeeds, the file
keeps its length, differs in one octet at most and has no disabling store. Run again on its output,
the script succeeds and changes nothing exactly when the file had one store to begin with, of either
kind.
Source: `coreboot_git.bb` `do_extract_blobs`
Kind: P -/
theorem patch_again_iff (data out : List UInt8) (h : patchRefcode data = .ok out) :
    out.length = data.length ∧ (∃ i : ℕ, ∀ j : ℕ, j ≠ i → out[j]? = data[j]?) ∧ ¬ disable <:+: out ∧
      (patchRefcode out = .ok out ↔ count enable data + count disable data = 1) := by
  rcases patchRefcode_cases h with ⟨henable, hdisable, rfl⟩ | ⟨site, honly, rfl⟩
  · refine ⟨rfl, ⟨0, fun _ _ => rfl⟩, ?_, ?_⟩
    · rw [count_disable, Finset.card_eq_zero] at hdisable
      exact not_infix_of_occurrences (by decide) hdisable
    · exact iff_of_true (patchRefcode_of_done henable hdisable) (by rw [henable, hdisable])
  · have hsite : OccursAt disable data site :=
      mem_disable.mp (by rw [honly]; exact Finset.mem_singleton_self site)
    have hnone := occurrences_disable_patched hsite honly
    have hone : count disable data = 1 := by
      rw [count_disable, honly, Finset.card_singleton]
    refine ⟨List.length_set, ⟨site + 6, fun j hj => ?_⟩,
      not_infix_of_occurrences (by decide) hnone, ?_⟩
    · rw [getElem?_patched hsite, if_neg hj]
    · -- there is one enabling store more now, and a second one is refused
      rw [hone, Nat.add_eq_right]
      constructor
      · intro hagain
        rcases patchRefcode_cases hagain with ⟨henable, -, -⟩ | ⟨site', honly', -⟩
        · rw [count_enable_patched hsite] at henable
          omega
        · rw [hnone] at honly'
          exact absurd honly'.symm (Finset.singleton_ne_empty site')
      · intro hzero
        refine patchRefcode_of_done ?_ ?_
        · rw [count_enable_patched hsite, hzero]
        · rw [count_disable, hnone, Finset.card_empty]

/-- The donor's one store. Kind: C -/
theorem patch_again_single_store :
    patchRefcode ([0x90] ++ disable) = .ok ([0x90] ++ enable) ∧
      (patchRefcode ([0x90] ++ enable) = .ok ([0x90] ++ enable) ↔
        count enable ([0x90] ++ disable) + count disable ([0x90] ++ disable) = 1) :=
  ⟨by decide, (patch_again_iff _ _ (by decide)).2.2.2⟩

/-- A refcode with both stores is patched once, and then refused. Kind: C -/
theorem patch_refuses_own_output :
    patchRefcode (disable ++ enable) = .ok (enable ++ enable) ∧
      patchRefcode (enable ++ enable) = .error
        ("refcode: expected exactly one GbE-disable site, found 0 -- " ++
          "donor refcode changed, re-verify before patching") := by
  decide

end NucBios.Recipe
