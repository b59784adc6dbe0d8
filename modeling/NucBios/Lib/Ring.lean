import Mathlib.Tactic

/-!
# Ring buffers

A ring of `n` cells with a position to write at and a position to read from; equal positions mean
an empty ring, so that at most `n - 1` cells are in use. `contents` is the queue the ring stands
for, and the operations are those of the queue:

* `contents_push`: with a cell to spare, pushing appends;
* `contents_eq_cons`: popping a ring that is not empty takes the first element off;
* `contents_pushAll`: the same for a whole list.
-/

namespace NucBios.Lib

/-- A ring of `n` cells. Kind: D -/
@[ext]
structure Ring (α : Type*) (n : ℕ) where
  cells : ℕ → α
  /-- The next cell to write. -/
  head : ℕ
  /-- The next cell to read. -/
  tail : ℕ
  head_lt : head < n
  tail_lt : tail < n

namespace Ring

variable {α : Type*} {n : ℕ} (r : Ring α n)

lemma size_pos (r : Ring α n) : 0 < n := (Nat.zero_le _).trans_lt r.head_lt

/-- The cells in use. Kind: D -/
def count : ℕ := (r.head + n - r.tail) % n

/-- The cells that can still be written. Kind: D -/
def free : ℕ := n - 1 - r.count

/-- The queue the ring stands for. Kind: D -/
def contents : List α := (List.range r.count).map fun i => r.cells ((r.tail + i) % n)

/-- Write one element. Kind: D -/
def push (x : α) : Ring α n where
  cells := Function.update r.cells r.head x
  head := (r.head + 1) % n
  tail := r.tail
  head_lt := Nat.mod_lt _ r.size_pos
  tail_lt := r.tail_lt

/-- Read past one element. Kind: D -/
def pop : Ring α n where
  cells := r.cells
  head := r.head
  tail := (r.tail + 1) % n
  head_lt := r.head_lt
  tail_lt := Nat.mod_lt _ r.size_pos

/-- Write elements one after the other. Kind: D -/
def pushAll (xs : List α) : Ring α n := xs.foldl push r

/-- The same cells, with nothing in use. Kind: D -/
def clear : Ring α n where
  cells := r.cells
  head := 0
  tail := 0
  head_lt := r.size_pos
  tail_lt := r.size_pos

@[simp] theorem length_contents : r.contents.length = r.count := by simp [contents]

lemma count_lt : r.count < n := Nat.mod_lt _ r.size_pos

/-- The count by comparing the two positions. Kind: L -/
theorem count_eq : r.count = if r.tail ≤ r.head then r.head - r.tail else n - r.tail + r.head := by
  have hhead := r.head_lt
  have htail := r.tail_lt
  unfold count
  split_ifs with h
  · have hsum : r.head + n - r.tail = (r.head - r.tail) + n := by omega
    rw [hsum, Nat.add_mod_right, Nat.mod_eq_of_lt (by omega)]
  · rw [Nat.mod_eq_of_lt (by omega)]
    omega

/-- The write position is that many cells past the read position. Kind: L -/
theorem tail_add_count : (r.tail + r.count) % n = r.head := by
  have hhead := r.head_lt
  have htail := r.tail_lt
  rw [count_eq]
  split_ifs with h
  · rw [Nat.add_sub_cancel' h, Nat.mod_eq_of_lt hhead]
  · have hsum : r.tail + (n - r.tail + r.head) = r.head + n := by omega
    rw [hsum, Nat.add_mod_right, Nat.mod_eq_of_lt hhead]

lemma add_mod_inj {t i j : ℕ} (hi : i < n) (hj : j < n) (h : (t + i) % n = (t + j) % n) :
    i = j := by
  have hmod : i ≡ j [MOD n] := Nat.ModEq.add_left_cancel' t h
  exact Nat.ModEq.eq_of_lt_of_lt hmod hi hj

lemma contents_of_head_eq (h : r.head = r.tail) : r.contents = [] := by
  rw [contents, count_eq, h, if_pos le_rfl, Nat.sub_self, List.range_zero, List.map_nil]

lemma free_eq : r.free = n - 1 - r.contents.length := by rw [free, length_contents]

lemma count_push (x : α) (h : 0 < r.free) : (r.push x).count = r.count + 1 := by
  have hroom : r.count + 1 < n := by
    unfold free at h
    omega
  refine add_mod_inj (t := r.tail) (r.push x).count_lt hroom ?_
  calc (r.tail + (r.push x).count) % n = (r.head + 1) % n := (r.push x).tail_add_count
    _ = ((r.tail + r.count) % n + 1) % n := by rw [r.tail_add_count]
    _ = (r.tail + (r.count + 1)) % n := by rw [Nat.mod_add_mod, Nat.add_assoc]

/-- Pushing appends. Kind: P -/
theorem contents_push (x : α) (h : 0 < r.free) : (r.push x).contents = r.contents ++ [x] := by
  have hlast : (r.push x).cells ((r.tail + r.count) % n) = x := by
    rw [r.tail_add_count]
    exact Function.update_self ..
  -- the cells in use are others than the one written
  have hold : ∀ i < r.count,
      (r.push x).cells ((r.tail + i) % n) = r.cells ((r.tail + i) % n) := by
    intro i hi
    refine Function.update_of_ne (fun heq => ?_) ..
    rw [← r.tail_add_count] at heq
    have := add_mod_inj (hi.trans r.count_lt) r.count_lt heq
    omega
  unfold contents
  rw [r.count_push x h, List.range_succ, List.map_append]
  congr 1
  · exact List.map_congr_left fun i hi => hold i (List.mem_range.mp hi)
  · exact congrArg (fun y => [y]) hlast

lemma count_pop (h : 0 < r.count) : r.count = r.pop.count + 1 := by
  have hnext : (r.tail + (r.pop.count + 1)) % n = r.head := by
    calc (r.tail + (r.pop.count + 1)) % n = ((r.tail + 1) % n + r.pop.count) % n := by
          rw [Nat.mod_add_mod, Nat.add_assoc, Nat.add_comm 1]
      _ = r.head := r.pop.tail_add_count
  have hroom : r.pop.count + 1 < n := by
    by_contra hfull
    have hlt := r.pop.count_lt
    have hwrap : r.pop.count + 1 = n := by omega
    rw [hwrap, Nat.add_mod_right, Nat.mod_eq_of_lt r.tail_lt] at hnext
    rw [count_eq, hnext, if_pos le_rfl] at h
    omega
  exact add_mod_inj (t := r.tail) r.count_lt hroom (by rw [r.tail_add_count, hnext])

/-- Popping takes the first element off. Kind: P -/
theorem contents_eq_cons (h : 0 < r.count) :
    r.contents = r.cells r.tail :: r.pop.contents := by
  unfold contents
  rw [r.count_pop h, List.range_succ_eq_map, List.map_cons, List.map_map, Nat.add_zero,
    Nat.mod_eq_of_lt r.tail_lt]
  congr 1
  refine List.map_congr_left fun i _ => ?_
  simp only [Function.comp_apply, pop, Nat.succ_eq_add_one]
  rw [Nat.mod_add_mod, Nat.add_assoc, Nat.add_comm 1]

/-- Pushing a list that fits appends it. Kind: P -/
theorem contents_pushAll :
    ∀ (xs : List α) (r : Ring α n), xs.length ≤ r.free →
      (r.pushAll xs).contents = r.contents ++ xs
  | [], r, _ => by simp [pushAll]
  | x :: xs, r, h => by
      have hfree : 0 < r.free := by
        rw [List.length_cons] at h
        omega
      have hpush := r.contents_push x hfree
      have hrest : xs.length ≤ (r.push x).free := by
        rw [free_eq, List.length_cons] at h
        rw [free_eq, hpush, List.length_append, List.length_singleton]
        omega
      have ih := contents_pushAll xs (r.push x) hrest
      change ((r.push x).pushAll xs).contents = _
      rw [ih, hpush, List.append_assoc, List.singleton_append]

end Ring

end NucBios.Lib
