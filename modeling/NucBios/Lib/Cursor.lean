import Mathlib.Tactic

/-!
# Walking a buffer with a cursor

A `Cursor` is a function that looks for the next item from a position on: it answers with the item
and the position behind it, or with nothing and the end of the buffer. Callers keep the position
between calls, so what a sequence of calls sees is `items`, the list of everything from a position
to the end:

* `items_of_some`, `items_of_none`: one call takes the head off the list, or finds it empty;
* `answers_items`: calling again and again gives the items in order, then nothing, with the
  position at the end;
* `calls_within`, `calls_monotone`: no call moves the position back or past the end;
* a `Footprint` says which positions an item takes up. Then the items stand one behind the other
  (`Footprint.pairwise`), there is a bound on their number (`Footprint.length_items_le`), and every
  call of the walk leaves the position behind its item (`Footprint.calls_items`).
-/

namespace NucBios.Lib

/-- A walk over the positions `0 … stop`. Kind: D -/
structure Cursor (α : Type*) where
  stop : ℕ
  /-- The next item from a position on, if there is one, and the position behind it. -/
  next : ℕ → Option α × ℕ
  next_le : ∀ i, (next i).2 ≤ stop
  /-- An item takes up room. -/
  lt_next : ∀ i x, (next i).1 = some x → i < (next i).2
  stop_of_none : ∀ i, (next i).1 = none → (next i).2 = stop

namespace Cursor

variable {α : Type*} (c : Cursor α)

/-- Everything from a position on. Kind: D -/
def items (i : ℕ) : List α :=
  match _hx : (c.next i).1 with
  | none => []
  | some x => x :: items (c.next i).2
termination_by c.stop - i
decreasing_by
  have hlt := c.lt_next i x _hx
  have hle := c.next_le i
  omega

lemma items_of_none {i : ℕ} (h : (c.next i).1 = none) : c.items i = [] := by
  rw [items]
  split
  · rfl
  · next x hx => rw [h] at hx; cases hx

lemma items_of_some {i : ℕ} {x : α} (h : (c.next i).1 = some x) :
    c.items i = x :: c.items (c.next i).2 := by
  rw [items]
  split
  · next hx => rw [h] at hx; cases hx
  · next y hy => rw [h] at hy; cases hy; rfl

/-- The items depend on the next call only. Kind: L -/
theorem items_congr {i j : ℕ} (h : c.next i = c.next j) : c.items i = c.items j := by
  rcases hi : (c.next i).1 with _ | x
  · rw [c.items_of_none hi, c.items_of_none (by rw [← h, hi])]
  · rw [c.items_of_some hi, c.items_of_some (i := j) (by rw [← h, hi]), h]

/-- At the end there is nothing more. Kind: L -/
theorem items_stop {i : ℕ} (hi : c.stop ≤ i) : c.items i = [] := by
  rcases h : (c.next i).1 with _ | x
  · exact c.items_of_none h
  · have hlt := c.lt_next i x h
    have hle := c.next_le i
    omega

/-- The answers of `n` calls from a position on, and the position behind them. Kind: D -/
def answers : ℕ → ℕ → List (Option α) × ℕ
  | 0, i => ([], i)
  | n + 1, i =>
      let rest := answers n (c.next i).2
      ((c.next i).1 :: rest.1, rest.2)

/-- Calling again and again: the items in order, then nothing, with the cursor at the end.
Kind: P -/
theorem answers_items (i : ℕ) :
    c.answers ((c.items i).length + 1) i = ((c.items i).map some ++ [none], c.stop) := by
  generalize hl : c.items i = l
  induction l generalizing i with
  | nil =>
      rcases h : (c.next i).1 with _ | x
      · simp [answers, h, c.stop_of_none i h]
      · rw [c.items_of_some h] at hl
        cases hl
  | cons x l ih =>
      rcases h : (c.next i).1 with _ | y
      · rw [c.items_of_none h] at hl
        cases hl
      · rw [c.items_of_some h, List.cons.injEq] at hl
        obtain ⟨rfl, hrest⟩ := hl
        have hagain := ih _ hrest
        rw [answers]
        simp [h, hagain]

/-- The results of `n` calls from a position on, each with the position it leaves. Kind: D -/
def calls : ℕ → ℕ → List (Option α × ℕ)
  | 0, _ => []
  | n + 1, i => c.next i :: calls n (c.next i).2

lemma le_next {i : ℕ} (hi : i ≤ c.stop) : i ≤ (c.next i).2 := by
  rcases h : (c.next i).1 with _ | x
  · rwa [c.stop_of_none i h]
  · exact (c.lt_next i x h).le

/-- The position stays between where it was and the end. Kind: L -/
theorem calls_within (n : ℕ) {i : ℕ} (hi : i ≤ c.stop) :
    ∀ r ∈ c.calls n i, i ≤ r.2 ∧ r.2 ≤ c.stop := by
  induction n generalizing i with
  | zero => exact List.forall_mem_nil _
  | succ n ih =>
      have hnext := c.next_le i
      rw [calls, List.forall_mem_cons]
      refine ⟨⟨c.le_next hi, hnext⟩, fun r hr => ?_⟩
      obtain ⟨hlow, hhigh⟩ := ih hnext r hr
      exact ⟨(c.le_next hi).trans hlow, hhigh⟩

/-- The position never goes back. Kind: L -/
theorem calls_monotone (n : ℕ) {i : ℕ} (hi : i ≤ c.stop) :
    (i :: (c.calls n i).map Prod.snd).Pairwise (· ≤ ·) := by
  induction n generalizing i with
  | zero => exact List.pairwise_singleton _ _
  | succ n ih =>
      refine .cons (fun j hj => ?_) (ih (c.next_le i))
      obtain ⟨r, hr, rfl⟩ := List.mem_map.mp hj
      exact (c.calls_within (n + 1) hi r hr).1

/-- Where items stand: an item found from `i` on takes up `lo … hi`, not before `i`, and the walk
goes on at `hi`. Kind: D -/
structure Footprint where
  lo : α → ℕ
  hi : α → ℕ
  /-- The least room an item takes up. -/
  width : ℕ
  le_lo : ∀ i x, (c.next i).1 = some x → i ≤ lo x
  room : ∀ i x, (c.next i).1 = some x → lo x + width ≤ hi x
  next_eq : ∀ i x, (c.next i).1 = some x → (c.next i).2 = hi x

/-- Induction along the walk. Kind: L -/
theorem walk_induction {motive : ℕ → Prop} (stop : ∀ i, (c.next i).1 = none → motive i)
    (step : ∀ i x, (c.next i).1 = some x → motive (c.next i).2 → motive i) (i : ℕ) : motive i := by
  induction hleft : c.stop - i using Nat.strong_induction_on generalizing i with
  | _ left ih =>
      rcases h : (c.next i).1 with _ | x
      · exact stop i h
      · have hlt := c.lt_next i x h
        have hle := c.next_le i
        exact step i x h (ih _ (by omega) _ rfl)

namespace Footprint

variable {c} (f : c.Footprint)

/-- Every item stands between the start of the walk and its end. Kind: L -/
theorem within (i : ℕ) :
    ∀ x ∈ c.items i, i ≤ f.lo x ∧ f.lo x + f.width ≤ f.hi x ∧ f.hi x ≤ c.stop := by
  induction i using c.walk_induction with
  | stop i h =>
      rw [c.items_of_none h]
      exact List.forall_mem_nil _
  | step i x h ih =>
      rw [c.items_of_some h, List.forall_mem_cons]
      refine ⟨⟨f.le_lo i x h, f.room i x h, f.next_eq i x h ▸ c.next_le i⟩, fun y hy => ?_⟩
      have hlt := c.lt_next i x h
      obtain ⟨hlo, hroom, hstop⟩ := ih y hy
      exact ⟨by omega, hroom, hstop⟩

/-- The items stand one behind the other. Kind: L -/
theorem pairwise (i : ℕ) : (c.items i).Pairwise fun x y => f.hi x ≤ f.lo y := by
  induction i using c.walk_induction with
  | stop i h =>
      rw [c.items_of_none h]
      exact .nil
  | step i x h ih =>
      rw [c.items_of_some h]
      refine .cons (fun y hy => ?_) ih
      rw [← f.next_eq i x h]
      exact (f.within _ y hy).1

/-- There is room for so many items only. Kind: L -/
theorem length_items_le (i : ℕ) (hi : i ≤ c.stop) :
    f.width * (c.items i).length ≤ c.stop - i := by
  induction i using c.walk_induction with
  | stop i h =>
      rw [c.items_of_none h]
      exact Nat.zero_le _
  | step i x h ih =>
      have hlo := f.le_lo i x h
      have hroom := f.room i x h
      have hnext := f.next_eq i x h
      have hle := c.next_le i
      have hrest := ih hle
      rw [c.items_of_some h, List.length_cons, Nat.mul_succ]
      omega

/-- The calls of a whole walk: each item with the position behind it, then nothing. Kind: P -/
theorem calls_items (i : ℕ) :
    c.calls ((c.items i).length + 1) i =
      (c.items i).map (fun x => (some x, f.hi x)) ++ [(none, c.stop)] := by
  induction i using c.walk_induction with
  | stop i h =>
      rw [c.items_of_none h]
      exact congrArg (fun r => [r]) (Prod.ext h (c.stop_of_none i h))
  | step i x h ih =>
      rw [c.items_of_some h, List.length_cons, calls, ih, List.map_cons, List.cons_append]
      exact congrArg (· :: _) (Prod.ext h (f.next_eq i x h))

end Footprint

end Cursor

end NucBios.Lib
