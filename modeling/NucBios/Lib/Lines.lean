import Mathlib.Tactic

/-!
# Lines: splitting at a separator of two symbols, and enumerating

`splitAt2 a b l` cuts `l` at every occurrence of `a b`, scanning from the left, and `joinAt2` puts
the pieces together again. With `a ≠ b` no occurrence can straddle a cut, so a list of pieces free
of the separator comes back from its join (`splitAt2_joinAt2`), and every piece of a split is free
of it (`sepFree_of_mem_splitAt2`).

`indices p l` are the positions of the elements that satisfy `p`, in order: as many as there are
such elements (`length_indices`), and the same in two lists on which `p` agrees (`indices_congr`). A
window of a list is written `(l.drop a).take n`.
-/

namespace NucBios.Lib

variable {α : Type*}

/-! ### Splitting and joining -/

section Split

/-- Put a symbol in front of the first piece. Kind: D -/
def consHead (x : α) : List (List α) → List (List α)
  | [] => [[x]]
  | l :: ls => (x :: l) :: ls

/-- The pieces with `a b` between them. Kind: D -/
def joinAt2 (a b : α) : List (List α) → List α
  | [] => []
  | [l] => l
  | l :: l' :: ls => l ++ a :: b :: joinAt2 a b (l' :: ls)

/-- No occurrence of `a b`. Kind: D -/
def SepFree (a b : α) (l : List α) : Prop := ¬ [a, b] <:+: l

lemma sepFree_nil (a b : α) : SepFree a b [] := by
  simp [SepFree]

lemma sepFree_singleton (a b x : α) : SepFree a b [x] := by
  intro h
  have := h.length_le
  simp at this

/-- The first two symbols decide whether the separator starts the list. Kind: L -/
lemma sepFree_cons_cons {a b x y : α} {l : List α} :
    SepFree a b (x :: y :: l) ↔ ¬ (x = a ∧ y = b) ∧ SepFree a b (y :: l) := by
  unfold SepFree
  rw [List.infix_cons_iff, List.cons_prefix_cons, List.cons_prefix_cons]
  constructor
  · intro h
    refine ⟨fun hxy => h (.inl ⟨hxy.1.symm, hxy.2.symm, List.nil_prefix⟩), fun h' => h (.inr h')⟩
  · rintro ⟨hxy, h⟩ (⟨rfl, rfl, -⟩ | h')
    · exact hxy ⟨rfl, rfl⟩
    · exact h h'

/-- Symbols other than `a` and `b` behind a list free of the separator leave it so. Kind: L -/
lemma SepFree.append {a b : α} {p : List α} (ha : a ∉ p) (hb : b ∉ p) :
    ∀ {l : List α}, SepFree a b l → SepFree a b (l ++ p)
  | [], _ => fun h => ha (h.subset List.mem_cons_self)
  | [x], _ => by
      cases p with
      | nil => exact sepFree_singleton a b x
      | cons y p =>
          refine sepFree_cons_cons.mpr ⟨fun h => hb (h.2 ▸ List.mem_cons_self), fun h => ?_⟩
          exact ha (h.subset List.mem_cons_self)
  | x :: y :: l, h => by
      obtain ⟨hxy, hrest⟩ := sepFree_cons_cons.mp h
      exact sepFree_cons_cons.mpr ⟨hxy, SepFree.append ha hb hrest⟩

lemma SepFree.take {a b : α} {l : List α} (h : SepFree a b l) (n : ℕ) : SepFree a b (l.take n) :=
  fun h' => h (h'.trans (List.take_prefix n l).isInfix)

variable [DecidableEq α]

/-- Cut at every occurrence of `a b`, from the left. Kind: D -/
def splitAt2 (a b : α) : List α → List (List α)
  | [] => [[]]
  | [x] => [[x]]
  | x :: y :: l =>
      if x = a ∧ y = b then
        [] :: splitAt2 a b l
      else
        consHead x (splitAt2 a b (y :: l))

/-- A piece free of the separator, then the separator: one cut. Kind: L -/
lemma splitAt2_append {a b : α} (hab : a ≠ b) :
    ∀ {l : List α}, SepFree a b l → ∀ r : List α,
      splitAt2 a b (l ++ a :: b :: r) = l :: splitAt2 a b r
  | [], _, r => by
      simp [splitAt2]
  | [x], _, r => by
      have hno : ¬ (x = a ∧ a = b) := fun h => hab h.2
      rw [List.singleton_append, splitAt2, if_neg hno, splitAt2, if_pos ⟨rfl, rfl⟩]
      rfl
  | x :: y :: l, h, r => by
      obtain ⟨hxy, hrest⟩ := sepFree_cons_cons.mp h
      have ih := splitAt2_append hab hrest r
      rw [List.cons_append, List.cons_append, splitAt2, if_neg hxy, ← List.cons_append, ih]
      rfl

/-- A list free of the separator is one piece. Kind: L -/
lemma splitAt2_of_sepFree {a b : α} :
    ∀ {l : List α}, SepFree a b l → splitAt2 a b l = [l]
  | [], _ => rfl
  | [_], _ => rfl
  | x :: y :: l, h => by
      obtain ⟨hxy, hrest⟩ := sepFree_cons_cons.mp h
      rw [splitAt2, if_neg hxy, splitAt2_of_sepFree hrest]
      rfl

/-- **Split after join.** Pieces free of the separator come back. Kind: P -/
theorem splitAt2_joinAt2 {a b : α} (hab : a ≠ b) :
    ∀ {ls : List (List α)}, ls ≠ [] → (∀ l ∈ ls, SepFree a b l) →
      splitAt2 a b (joinAt2 a b ls) = ls
  | [l], _, h => splitAt2_of_sepFree (h l List.mem_cons_self)
  | l :: l' :: ls, _, h => by
      rw [joinAt2, splitAt2_append hab (h l List.mem_cons_self),
        splitAt2_joinAt2 hab (List.cons_ne_nil l' ls) fun k hk => h k (List.mem_cons_of_mem _ hk)]

lemma splitAt2_ne_nil (a b : α) : ∀ l : List α, splitAt2 a b l ≠ []
  | [] => by simp [splitAt2]
  | [_] => by simp [splitAt2]
  | x :: y :: l => by
      rw [splitAt2]
      split_ifs
      · simp
      · cases splitAt2 a b (y :: l) <;> simp [consHead]

/-- The first piece of a split is empty or starts with the first symbol. Kind: L -/
lemma head_splitAt2 (a b y : α) (l : List α) :
    ∃ ls, splitAt2 a b (y :: l) = [] :: ls ∨ ∃ p, splitAt2 a b (y :: l) = (y :: p) :: ls := by
  cases l with
  | nil => exact ⟨[], .inr ⟨[], rfl⟩⟩
  | cons z l =>
      rw [splitAt2]
      split_ifs
      · exact ⟨_, .inl rfl⟩
      · cases splitAt2 a b (z :: l) with
        | nil => exact ⟨[], .inr ⟨[], rfl⟩⟩
        | cons p ls => exact ⟨ls, .inr ⟨p, rfl⟩⟩

/-- **The pieces of a split are free of the separator.** Kind: P -/
theorem sepFree_of_mem_splitAt2 {a b : α} :
    ∀ {l : List α} {p : List α}, p ∈ splitAt2 a b l → SepFree a b p
  | [], p, hp => by
      rw [splitAt2, List.mem_singleton] at hp
      exact hp ▸ sepFree_nil a b
  | [x], p, hp => by
      rw [splitAt2, List.mem_singleton] at hp
      exact hp ▸ sepFree_singleton a b x
  | x :: y :: l, p, hp => by
      rw [splitAt2] at hp
      split_ifs at hp with hxy
      · rcases List.mem_cons.mp hp with rfl | hp
        · exact sepFree_nil a b
        · exact sepFree_of_mem_splitAt2 hp
      -- only the first piece has changed, and it cannot have become `a b …`
      have ih : ∀ q ∈ splitAt2 a b (y :: l), SepFree a b q := fun q hq => sepFree_of_mem_splitAt2 hq
      obtain ⟨ls, hls | ⟨q, hls⟩⟩ := head_splitAt2 a b y l
      · rw [hls, consHead] at hp
        rcases List.mem_cons.mp hp with rfl | hp
        · exact sepFree_singleton a b x
        · exact ih p (hls ▸ List.mem_cons_of_mem _ hp)
      · rw [hls, consHead] at hp
        rcases List.mem_cons.mp hp with rfl | hp
        · exact sepFree_cons_cons.mpr ⟨hxy, ih _ (hls ▸ List.mem_cons_self)⟩
        · exact ih p (hls ▸ List.mem_cons_of_mem _ hp)

end Split

/-! ### Positions -/

/-- Enumerating does not change what a filter on the elements keeps. Kind: L -/
theorem map_fst_filter_zipIdx (q : α → Bool) (l : List α) (i : ℕ) :
    ((l.zipIdx i).filter fun p => q p.1).map Prod.fst = l.filter q := by
  have h := List.filter_map (p := q) (f := Prod.fst) (l := l.zipIdx i)
  rw [List.zipIdx_map_fst] at h
  exact h.symm

/-- The positions of the elements that satisfy `p`, in order. Kind: D -/
def indices (p : α → Bool) (l : List α) : List ℕ :=
  (l.zipIdx.filter fun x => p x.1).map Prod.snd

lemma mem_indices {p : α → Bool} {l : List α} {i : ℕ} :
    i ∈ indices p l ↔ ∃ x, l[i]? = some x ∧ p x = true := by
  unfold indices
  rw [List.mem_map]
  constructor
  · rintro ⟨⟨x, j⟩, hx, rfl⟩
    obtain ⟨hmem, hp⟩ := List.mem_filter.mp hx
    exact ⟨x, List.mem_zipIdx_iff_getElem?.mp hmem, hp⟩
  · rintro ⟨x, hx, hp⟩
    exact ⟨(x, i), List.mem_filter.mpr ⟨List.mem_zipIdx_iff_getElem?.mpr hx, hp⟩, rfl⟩

/-- As many positions as elements. Kind: L -/
lemma length_indices (p : α → Bool) (l : List α) : (indices p l).length = (l.filter p).length := by
  rw [← map_fst_filter_zipIdx p l 0]
  simp [indices]

/-- The positions depend on which elements satisfy `p` only. Kind: L -/
lemma indices_congr {p : α → Bool} {l l' : List α} (h : l.map p = l'.map p) :
    indices p l = indices p l' := by
  have hbool : ∀ k : List α, indices p k = indices id (k.map p) := by
    intro k
    unfold indices
    rw [List.zipIdx_map, List.filter_map, List.map_map]
    rfl
  rw [hbool l, hbool l', h]

/-- Replacing an element by one that `p` treats alike changes nothing that `p` sees. Kind: L -/
lemma map_set_of_eq {β : Type*} (p : α → β) {l : List α} {i : ℕ} {x y : α} (hx : l[i]? = some x)
    (h : p y = p x) : (l.set i y).map p = l.map p := by
  refine List.ext_getElem? fun j => ?_
  rw [List.getElem?_map, List.getElem?_map, List.getElem?_set]
  split_ifs with hij hlt
  · rw [← hij, hx, Option.map_some, Option.map_some, h]
  · rw [List.getElem?_eq_none (by omega)] at hx
    cases hx
  · rfl

/-! ### Windows -/

/-- The elements of a window, by their positions in the list. Kind: L -/
lemma mem_take_drop {l : List α} {a n : ℕ} {x : α} :
    x ∈ (l.drop a).take n ↔ ∃ j : ℕ, a ≤ j ∧ j < a + n ∧ l[j]? = some x := by
  rw [List.mem_iff_getElem?]
  constructor
  · rintro ⟨j, hj⟩
    rw [List.getElem?_take] at hj
    split_ifs at hj with hlt
    rw [List.getElem?_drop] at hj
    exact ⟨a + j, by omega, by omega, hj⟩
  · rintro ⟨j, haj, hjn, hj⟩
    refine ⟨j - a, ?_⟩
    rw [List.getElem?_take_of_lt (by omega), List.getElem?_drop, Nat.add_sub_cancel' haj, hj]

/-- A replacement outside of a window does not change the window. Kind: L -/
lemma take_drop_set {l : List α} {a n i : ℕ} (y : α) (h : ¬ (a ≤ i ∧ i < a + n)) :
    ((l.set i y).drop a).take n = (l.drop a).take n := by
  refine List.ext_getElem? fun j => ?_
  rw [List.getElem?_take, List.getElem?_take]
  split_ifs with hj
  · rw [List.getElem?_drop, List.getElem?_drop, List.getElem?_set_ne (by omega)]
  · rfl

end NucBios.Lib
