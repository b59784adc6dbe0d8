import Mathlib.Data.Set.Function
import Mathlib.Order.Interval.Set.Basic
import Mathlib.Tactic

/-!
# Cells of a memory, overwritten sets of addresses, blocks

A memory is a function from addresses to cells. `cells m a n` is the list of `n` cells from
address `a`; `Overwritten src before after R` says that `after` is `before` with the addresses of
`R` taken from `src`, and composes (`Overwritten.trans`) because the source is the same memory in
every step. `hull b R` are the addresses that share a block of `b` cells with an address of `R`:
what may change when `R` is written block by block.
-/

namespace NucBios.Lib

variable {α : Type*}

/-! ### Lists of cells -/

/-- The `n` cells from address `a`. Kind: D -/
def cells (m : ℕ → α) (a n : ℕ) : List α := (List.range n).map fun i => m (a + i)

@[simp] theorem length_cells (m : ℕ → α) (a n : ℕ) : (cells m a n).length = n := by simp [cells]

@[simp] theorem getElem_cells (m : ℕ → α) (a n i : ℕ) (h : i < (cells m a n).length) :
    (cells m a n)[i] = m (a + i) := by simp [cells]

lemma getElem?_cells {m : ℕ → α} {a n i : ℕ} (h : i < n) :
    (cells m a n)[i]? = some (m (a + i)) := by
  simp [cells, h]

lemma take_cells {m : ℕ → α} {a n k : ℕ} (h : k ≤ n) : (cells m a n).take k = cells m a k := by
  apply List.ext_getElem
  · simp [h]
  · intro i _ _
    simp

lemma drop_cells {m : ℕ → α} {a n k : ℕ} : (cells m a n).drop k = cells m (a + k) (n - k) := by
  apply List.ext_getElem
  · simp
  · intro i _ _
    simp [Nat.add_assoc]

lemma cells_append (m : ℕ → α) (a n k : ℕ) :
    cells m a (n + k) = cells m a n ++ cells m (a + n) k := by
  rw [← List.take_append_drop n (cells m a (n + k)), take_cells (by omega), drop_cells,
    Nat.add_sub_cancel_left]

/-- Two memories have the same `n` cells from `a` exactly when they agree there. Kind: L -/
theorem cells_eq_iff {m m' : ℕ → α} {a n : ℕ} :
    cells m a n = cells m' a n ↔ Set.EqOn m m' (Set.Ico a (a + n)) := by
  constructor
  · rintro h i ⟨hlow, hhigh⟩
    have hcell := congrArg (·[i - a]?) h
    simp only [getElem?_cells (show i - a < n by omega), Option.some.injEq] at hcell
    rwa [Nat.add_sub_cancel' hlow] at hcell
  · intro h
    apply List.ext_getElem
    · simp
    · intro i hi _
      rw [length_cells] at hi
      rw [getElem_cells, getElem_cells]
      exact h ⟨by omega, by omega⟩

/-- A list of `n` items is the cells from `a` of the memory that holds it there. Kind: L -/
theorem eq_cells_iff {m : ℕ → α} {a n : ℕ} {l : List α} (hl : l.length = n) :
    l = cells m a n ↔ ∀ i (h : i < l.length), m (a + i) = l[i] := by
  constructor
  · intro h i hi
    have hcell := congrArg (·[i]?) h
    simp only [List.getElem?_eq_getElem hi, getElem?_cells (hl ▸ hi), Option.some.injEq] at hcell
    exact hcell.symm
  · intro h
    apply List.ext_getElem
    · simp [hl]
    · intro i hi _
      rw [getElem_cells, h i hi]

/-! ### Overwritten addresses -/

/-- `after` is `before` with the addresses of `R` taken from `src`. Kind: D -/
structure Overwritten (src before after : ℕ → α) (R : Set ℕ) : Prop where
  inside : Set.EqOn after src R
  outside : Set.EqOn after before Rᶜ

namespace Overwritten

variable {src before middle after : ℕ → α} {R S : Set ℕ}

/-- Nothing has to be written where the source stands already. Kind: L -/
theorem refl_of_eqOn (h : Set.EqOn before src R) : Overwritten src before before R :=
  ⟨h, fun _ _ => rfl⟩

/-- Overwriting `R` and then `S` from one source is overwriting both. Kind: P -/
theorem trans (h₁ : Overwritten src before middle R) (h₂ : Overwritten src middle after S) :
    Overwritten src before after (R ∪ S) := by
  constructor
  · intro i hi
    by_cases hS : i ∈ S
    · exact h₂.inside hS
    · rw [h₂.outside hS]
      exact h₁.inside (hi.resolve_right hS)
  · intro i hi
    have hR : i ∉ R := fun h => hi (Or.inl h)
    have hS : i ∉ S := fun h => hi (Or.inr h)
    rw [h₂.outside hS, h₁.outside hR]

/-- What was overwritten is determined. Kind: L -/
theorem unique {after' : ℕ → α} (h : Overwritten src before after R)
    (h' : Overwritten src before after' R) : after = after' := by
  funext i
  by_cases hi : i ∈ R
  · rw [h.inside hi, h'.inside hi]
  · rw [h.outside hi, h'.outside hi]

end Overwritten

/-- The cells of a window with those from `i` to `j` taken from another memory. Kind: L -/
theorem eq_of_cells_eq_splice {src before after : ℕ → α} {a n i j : ℕ} (hij : i ≤ j) (hj : j ≤ n)
    (h : cells after a n =
      (cells before a n).take i ++ cells src (a + i) (j - i) ++ (cells before a n).drop j) {k : ℕ}
    (hk : k < n) :
    after (a + k) = if i ≤ k ∧ k < j then src (a + k) else before (a + k) := by
  have hcell := congrArg (·[k]?) h
  rw [take_cells (by omega), drop_cells] at hcell
  simp only [getElem?_cells hk] at hcell
  apply Option.some_injective
  rw [hcell]
  by_cases hlow : k < i
  · rw [List.append_assoc, List.getElem?_append_left (by simpa using hlow), getElem?_cells hlow,
      if_neg (by omega)]
  · rw [List.append_assoc, List.getElem?_append_right (by simpa using hlow), length_cells]
    by_cases hhigh : k < j
    · rw [List.getElem?_append_left (by rw [length_cells]; omega), getElem?_cells (by omega),
        if_pos ⟨by omega, hhigh⟩]
      congr 2
      omega
    · rw [List.getElem?_append_right (by rw [length_cells]; omega), length_cells,
        getElem?_cells (by omega), if_neg (by omega)]
      congr 2
      omega

/-- A window that was replaced by its old cells with those from `i` to `j` taken from `src`, and
nothing else touched, is the overwriting of the addresses from `a + i` to `a + j`. Kind: P -/
theorem overwritten_of_splice {src before after : ℕ → α} {a n i j : ℕ} (hij : i ≤ j) (hj : j ≤ n)
    (h : cells after a n =
      (cells before a n).take i ++ cells src (a + i) (j - i) ++ (cells before a n).drop j)
    (hframe : Set.EqOn after before (Set.Ico a (a + n))ᶜ) :
    Overwritten src before after (Set.Ico (a + i) (a + j)) := by
  have hcell : ∀ k, a ≤ k → k < a + n →
      after k = if i ≤ k - a ∧ k - a < j then src k else before k := by
    intro k hlow hhigh
    have hat := eq_of_cells_eq_splice hij hj h (k := k - a) (by omega)
    rwa [Nat.add_sub_cancel' hlow] at hat
  constructor
  · rintro k ⟨hlow, hhigh⟩
    rw [hcell k (by omega) (by omega), if_pos ⟨by omega, by omega⟩]
  · intro k hk
    rw [Set.mem_compl_iff, Set.mem_Ico, not_and_or, not_le, not_lt] at hk
    by_cases hin : k ∈ Set.Ico a (a + n)
    · rw [Set.mem_Ico] at hin
      rw [hcell k hin.1 hin.2, if_neg (by omega)]
    · exact hframe hin

/-! ### Blocks -/

/-- The addresses in a block with an address of `R`, for blocks of `b` cells. Kind: D -/
def hull (b : ℕ) (R : Set ℕ) : Set ℕ := {i | ∃ j ∈ R, j / b = i / b}

lemma hull_mono {b : ℕ} {R S : Set ℕ} (h : R ⊆ S) : hull b R ⊆ hull b S :=
  fun _ ⟨j, hj, hb⟩ => ⟨j, h hj, hb⟩

/-- An address lies in block `k` exactly when it lies between the block's ends. Kind: L -/
theorem div_eq_iff_mem_Ico {b i k : ℕ} (hb : 0 < b) :
    i / b = k ↔ i ∈ Set.Ico (k * b) (k * b + b) := by
  rw [Nat.div_eq_iff hb, Set.mem_Ico]
  omega

end NucBios.Lib
