import Mathlib.Tactic

/-!
# Looking for a pattern in a sequence

`count` and `index?` scan a sequence from its start, as `count` and `index` of Python's byte strings
do: after an occurrence the count goes on behind it, so that occurrences that overlap are not all
counted. For a pattern whose first element does not come again in it there are none
(`occursAt_disjoint`), and the count is the number of places where the pattern stands
(`count_eq_card`).

`find?_satisfies_iff` is about the first element of a list that passes a test: when it has a
property that the test does not ask for.
-/

namespace NucBios.Lib

variable {α : Type*} [DecidableEq α]

/-- `sub` stands at position `i`. Kind: D -/
def OccursAt (sub data : List α) (i : ℕ) : Prop := sub <+: data.drop i

instance (sub data : List α) : DecidablePred (OccursAt sub data) :=
  fun i => inferInstanceAs (Decidable (sub <+: data.drop i))

omit [DecidableEq α] in
/-- Element by element. Kind: L -/
theorem occursAt_iff {sub data : List α} {i : ℕ} :
    OccursAt sub data i ↔ ∀ j < sub.length, data[i + j]? = sub[j]? := by
  rw [OccursAt, List.prefix_iff_getElem?]
  refine forall₂_congr fun j hj => ?_
  rw [List.getElem?_drop, List.getElem?_eq_getElem hj]

/-- The places where `sub` stands. Kind: D -/
def occurrences (sub data : List α) : Finset ℕ :=
  (Finset.range data.length).filter (OccursAt sub data)

/-- The scan behind `count`, with `skip` elements to pass over. Kind: D -/
def countFrom (sub : List α) : ℕ → List α → ℕ
  | _, [] => 0
  | skip + 1, _ :: rest => countFrom sub skip rest
  | 0, x :: rest =>
      if sub <+: x :: rest then 1 + countFrom sub (sub.length - 1) rest else countFrom sub 0 rest

/-- The number of occurrences that do not overlap, from the start, of a pattern that is not empty.
Kind: D -/
def count (sub data : List α) : ℕ := countFrom sub 0 data

/-- The first place. Kind: D -/
def index? (sub : List α) : List α → Option ℕ
  | [] => if sub = [] then some 0 else none
  | x :: rest => if sub <+: x :: rest then some 0 else (index? sub rest).map (· + 1)

theorem occursAt_of_index? {sub : List α} : ∀ {data : List α} {i : ℕ},
    index? sub data = some i → OccursAt sub data i
  | [], i, h => by
      rw [index?] at h
      split_ifs at h with hsub
      cases h
      rw [hsub]
      exact List.nil_prefix
  | x :: rest, i, h => by
      rw [index?] at h
      split_ifs at h with hprefix
      · cases h
        exact hprefix
      · obtain ⟨j, hj, rfl⟩ := Option.map_eq_some_iff.mp h
        have hrest : OccursAt sub rest j := occursAt_of_index? hj
        exact hrest

lemma mem_occurrences {sub data : List α} (hsub : sub ≠ []) {i : ℕ} :
    i ∈ occurrences sub data ↔ OccursAt sub data i := by
  rw [occurrences, Finset.mem_filter, Finset.mem_range, and_iff_right_iff_imp]
  intro h
  by_contra hout
  rw [OccursAt, List.drop_eq_nil_of_le (not_lt.mp hout), List.prefix_nil] at h
  exact hsub h

/-- A pattern that stands nowhere is no part of the sequence. Kind: L -/
theorem not_infix_of_occurrences {sub data : List α} (hsub : sub ≠ [])
    (h : occurrences sub data = ∅) : ¬ sub <:+: data := by
  intro hinfix
  obtain ⟨rest, hprefix, hsuffix⟩ := List.infix_iff_prefix_suffix.mp hinfix
  rw [List.suffix_iff_eq_drop.mp hsuffix] at hprefix
  exact Finset.notMem_empty _ (h ▸ (mem_occurrences hsub).mpr hprefix)

lemma card_occurrences_cons (sub : List α) (x : α) (rest : List α) :
    (occurrences sub (x :: rest)).card =
      (occurrences sub rest).card + if sub <+: x :: rest then 1 else 0 := by
  rw [occurrences, occurrences, Finset.card_filter, Finset.card_filter, List.length_cons,
    Finset.sum_range_succ']
  rfl

section Unbordered

variable {a : α} {tail : List α} (hfirst : a ∉ tail)

include hfirst

omit [DecidableEq α] in
/-- Where the first element comes once only, occurrences do not overlap. Kind: L -/
theorem occursAt_disjoint {data : List α} {i j : ℕ} (hi : OccursAt (a :: tail) data i)
    (hj : OccursAt (a :: tail) data j) (hij : i < j) : i + (tail.length + 1) ≤ j := by
  by_contra hover
  -- the first element of the later occurrence stands inside the earlier one
  obtain ⟨d, rfl⟩ : ∃ d, j = i + (d + 1) := ⟨j - i - 1, by omega⟩
  have hlt : d < tail.length := by omega
  have hhead := occursAt_iff.mp hj 0 (by simp)
  have hinside := occursAt_iff.mp hi (d + 1) (by simpa using hlt)
  rw [Nat.add_zero, hinside, List.getElem?_cons_succ, List.getElem?_cons_zero] at hhead
  exact hfirst (List.mem_of_getElem? hhead)

/-- Nothing begins in the rest of an occurrence. Kind: L -/
theorem card_occurrences_drop {x : α} {rest : List α} (hx : a :: tail <+: x :: rest) :
    ∀ k ≤ tail.length,
      (occurrences (a :: tail) rest).card = (occurrences (a :: tail) (rest.drop k)).card
  | 0, _ => rfl
  | k + 1, hk => by
      rw [card_occurrences_drop hx k (by omega)]
      rcases hrest : rest.drop k with _ | ⟨y, more⟩
      · rw [List.drop_eq_nil_of_le (by rw [List.drop_eq_nil_iff] at hrest; omega)]
      · have hmore : rest.drop (k + 1) = more := by
          rw [← List.tail_drop, hrest, List.tail_cons]
        have hnot : ¬ a :: tail <+: y :: more := by
          intro hy
          have hat : OccursAt (a :: tail) (x :: rest) (k + 1) := by
            rw [OccursAt, List.drop_succ_cons, hrest]
            exact hy
          have hfar := occursAt_disjoint hfirst (i := 0) hx hat (Nat.succ_pos k)
          omega
        rw [hmore, card_occurrences_cons, if_neg hnot, Nat.add_zero]

theorem countFrom_eq_card : ∀ (skip : ℕ) (data : List α),
    countFrom (a :: tail) skip data = (occurrences (a :: tail) (data.drop skip)).card
  | skip, [] => by
      rw [countFrom, List.drop_nil]
      rfl
  | skip + 1, _ :: rest => by
      rw [countFrom, countFrom_eq_card skip rest, List.drop_succ_cons]
  | 0, x :: rest => by
      rw [countFrom, List.drop_zero, card_occurrences_cons]
      by_cases hx : a :: tail <+: x :: rest
      · rw [if_pos hx, if_pos hx, countFrom_eq_card _ rest, List.length_cons, Nat.add_sub_cancel,
          ← card_occurrences_drop hfirst hx _ le_rfl, Nat.add_comm]
      · rw [if_neg hx, if_neg hx, countFrom_eq_card 0 rest, List.drop_zero, Nat.add_zero]

/-- The count is the number of places. Kind: P -/
theorem count_eq_card (data : List α) :
    count (a :: tail) data = (occurrences (a :: tail) data).card :=
  countFrom_eq_card hfirst 0 data

end Unbordered

omit [DecidableEq α] in
/-- The first match has a property iff no match without it is ahead of all matches with it.
Kind: L -/
theorem find?_satisfies_iff {p : α → Bool} {q : α → Prop} {l : List α} {x : α}
    (h : l.find? p = some x) :
    q x ↔ ∀ before y after, l = before ++ y :: after → p y = true → ¬ q y →
      ∃ z ∈ before, p z = true ∧ q z := by
  obtain ⟨hx, ahead, behind, hl, hahead⟩ := List.find?_eq_some_iff_append.mp h
  have hnone : ∀ z ∈ ahead, p z ≠ true := fun z hz hp => by simpa [hp] using hahead z hz
  constructor
  · intro hq before y after hsplit hy hny
    rw [hl] at hsplit
    obtain ⟨gap, hbefore, hrest⟩ | ⟨gap, hgap, hrest⟩ := List.append_eq_append_iff.mp hsplit
    · cases gap with
      | nil =>
          cases hrest
          exact absurd hq hny
      | cons z gap =>
          cases hrest
          exact ⟨x, by simp [hbefore], hx, hq⟩
    · cases gap with
      | nil =>
          cases hrest
          exact absurd hq hny
      | cons z gap =>
          cases hrest
          exact absurd hy (hnone y (by simp [hgap]))
  · intro hall
    by_contra hq
    obtain ⟨z, hz, hp, -⟩ := hall ahead x behind hl hx hq
    exact hnone z hz hp

end NucBios.Lib
