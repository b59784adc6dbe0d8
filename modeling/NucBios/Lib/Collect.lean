import Mathlib.Tactic

/-!
# Filling an array from the left, each thing once

`gatherDistinct` is the loop that goes over a list of candidates, keeps what it has not kept
already, and stops when its array is full. `gatherDistinct_eq`: it keeps the first elements of the
list without its later duplicates. `pad` is the array itself, the slots behind what has been kept
being blank.
-/

namespace NucBios.Lib

variable {α : Type*}

/-! ### Slots -/

/-- An array of `max` slots: `found`, then blanks. Kind: D -/
def pad (blank : α) (max : ℕ) (found : List α) : List α :=
  found ++ List.replicate (max - found.length) blank

section Pad

variable {blank : α} {max : ℕ} {found : List α}

/-- While there is room, the next slot is blank. Kind: L -/
theorem pad_eq_append_cons (h : found.length < max) : pad blank max found =
    found ++ blank :: List.replicate (max - (found.length + 1)) blank := by
  have hroom : max - found.length = max - (found.length + 1) + 1 := by omega
  rw [pad, hroom, List.replicate_succ]

lemma getD_pad (h : found.length < max) :
    (pad blank max found).getD found.length blank = blank := by
  rw [pad_eq_append_cons h]
  simp

lemma set_pad_blank (h : found.length < max) :
    (pad blank max found).set found.length blank = pad blank max found := by
  rw [pad_eq_append_cons h, List.set_append_right _ _ (Nat.le_refl _), Nat.sub_self,
    List.set_cons_zero]

lemma set_pad (h : found.length < max) (a : α) :
    (pad blank max found).set found.length a = pad blank max (found ++ [a]) := by
  rw [pad_eq_append_cons h, List.set_append_right _ _ (Nat.le_refl _), Nat.sub_self,
    List.set_cons_zero, pad, List.length_append, List.length_singleton, List.append_assoc,
    List.singleton_append]

lemma take_pad : (pad blank max found).take found.length = found := List.take_left

end Pad

/-! ### Candidates -/

variable (same : α → α → Bool) (max : ℕ)

/-- The loop, `found` being what it has kept so far. Kind: D -/
def gatherDistinct : List α → List α → List α
  | [], found => found
  | a :: as, found =>
      if max ≤ found.length then found
      else if found.any (same a) then gatherDistinct as found
      else gatherDistinct as (found ++ [a])

lemma gatherDistinct_of_full {found : List α} (h : max ≤ found.length) (as : List α) :
    gatherDistinct same max as found = found := by
  cases as with
  | nil => rfl
  | cons a as => exact if_pos h

/-- What has been kept stays in front. Kind: L -/
theorem prefix_eraseDupsBy_loop : ∀ as bs : List α,
    bs.reverse <+: List.eraseDupsBy.loop same as bs
  | [], bs => List.prefix_refl _
  | a :: as, bs => by
      rw [List.eraseDupsBy.loop]
      split
      · exact prefix_eraseDupsBy_loop as bs
      · refine List.IsPrefix.trans ?_ (prefix_eraseDupsBy_loop as (a :: bs))
        rw [List.reverse_cons]
        exact List.prefix_append _ _

/-- The two loops in step. Kind: L -/
theorem gatherDistinct_eq_loop : ∀ (as : List α) {found : List α}, found.length ≤ max →
    gatherDistinct same max as found = (List.eraseDupsBy.loop same as found.reverse).take max
  | [], found, hle => by
      rw [List.eraseDupsBy.loop, List.reverse_reverse, List.take_of_length_le hle]
      rfl
  | a :: as, found, hle => by
      by_cases hfull : max ≤ found.length
      · obtain ⟨more, hmore⟩ := prefix_eraseDupsBy_loop same (a :: as) found.reverse
        rw [List.reverse_reverse] at hmore
        rw [gatherDistinct_of_full same max hfull, ← hmore, List.take_left' (by omega)]
      · rw [gatherDistinct, if_neg hfull, List.eraseDupsBy.loop, List.any_reverse]
        rcases found.any (same a) with _ | _
        · rw [if_neg Bool.false_ne_true, gatherDistinct_eq_loop as, List.reverse_append]
          · rfl
          · rw [List.length_append, List.length_singleton]
            omega
        · rw [if_pos rfl]
          exact gatherDistinct_eq_loop as hle

/-- **The loop keeps the first elements of the list without its later duplicates.** Kind: P -/
theorem gatherDistinct_eq (as : List α) :
    gatherDistinct same max as [] = (as.eraseDupsBy same).take max :=
  gatherDistinct_eq_loop same max as (Nat.zero_le _)

/-- Nothing is made up. Kind: L -/
theorem mem_gatherDistinct {a : α} : ∀ (as : List α) {found : List α},
    a ∈ gatherDistinct same max as found → a ∈ found ∨ a ∈ as
  | [], _, h => .inl h
  | b :: as, found, h => by
      unfold gatherDistinct at h
      split_ifs at h
      · exact .inl h
      · exact (mem_gatherDistinct as h).imp_right (List.mem_cons_of_mem b)
      · rcases mem_gatherDistinct as h with h | h
        · rcases List.mem_append.mp h with h | h
          · exact .inl h
          · exact .inr (List.mem_singleton.mp h ▸ List.mem_cons_self)
        · exact .inr (List.mem_cons_of_mem b h)

/-- Nothing is kept that was there already. Kind: L -/
theorem pairwise_gatherDistinct : ∀ (as : List α) {found : List α},
    found.Pairwise (fun a b => same b a = false) →
    (gatherDistinct same max as found).Pairwise fun a b => same b a = false
  | [], _, h => h
  | b :: as, found, h => by
      unfold gatherDistinct
      split_ifs with hfull hany
      · exact h
      · exact pairwise_gatherDistinct as h
      · refine pairwise_gatherDistinct as (List.pairwise_append.mpr
          ⟨h, List.pairwise_singleton _ _, fun a ha c hc => ?_⟩)
        rw [List.mem_singleton.mp hc]
        by_contra hsame
        exact hany (List.any_eq_true.mpr ⟨a, ha, Bool.eq_true_of_not_eq_false hsame⟩)

end NucBios.Lib
