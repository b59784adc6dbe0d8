import Mathlib.Tactic

/-!
# Cyclic redundancy checks

The check that feeds a message into a register bit by bit, most significant bit first, with a zero
start value and no final inversion. `w` is the width of the register and `poly` the generator
without its leading term.

What makes it a check is that a step loses nothing: with a generator whose constant term is set,
`shift` is linear and injective, so

* two messages that agree after a point have different checks if they had different registers at
  that point (`feed_injective`);
* a run of at most `w` bits can be read back from the register it leaves (`foldl_feed_eq`,
  `word_injective`);
* `crc_ne_of_burst`: two messages that differ only inside a window of at most `w` bits have
  different checks.
-/

namespace NucBios.Lib.Crc

variable {w : ℕ} (poly : BitVec w)

/-- One step of the register: move up, and reduce if a bit fell out. Kind: D -/
def shift (c : BitVec w) : BitVec w := if c.msb then (c <<< 1) ^^^ poly else c <<< 1

/-- A bit at the top of the register. Kind: D -/
def top (b : Bool) : BitVec w := if b then BitVec.twoPow w (w - 1) else 0#w

/-- Feed one bit. Kind: D -/
def feed (c : BitVec w) (b : Bool) : BitVec w := shift poly (c ^^^ top b)

/-- The check of a message given as bits. Kind: D -/
def crc (bits : List Bool) : BitVec w := bits.foldl (feed poly) 0#w

theorem shift_xor (a b : BitVec w) : shift poly (a ^^^ b) = shift poly a ^^^ shift poly b := by
  have hmove : (a ^^^ b) <<< 1 = a <<< 1 ^^^ b <<< 1 := BitVec.shiftLeft_xor_distrib a b 1
  unfold shift
  rw [BitVec.msb_xor, hmove]
  cases a.msb <;> cases b.msb
  · simp
  · simp [BitVec.xor_assoc]
  · simp only [Bool.true_xor, Bool.not_false, if_true, Bool.false_eq_true, if_false]
    rw [BitVec.xor_assoc, BitVec.xor_comm (b <<< 1) poly, ← BitVec.xor_assoc]
  · simp only [Bool.xor_self, Bool.false_eq_true, if_false, if_true]
    rw [BitVec.xor_assoc, BitVec.xor_comm poly, BitVec.xor_assoc (b <<< 1), BitVec.xor_self,
      BitVec.xor_zero]

variable {poly}

/-- A register that steps to zero was zero. Kind: L -/
theorem eq_zero_of_shift (hw : 0 < w) (hpoly : poly.getLsbD 0 = true) {c : BitVec w}
    (h : shift poly c = 0#w) : c = 0#w := by
  unfold shift at h
  split at h
  · -- the generator's constant term is set, and nothing else can clear it
    have hbit := congrArg (fun x : BitVec w => x.getLsbD 0) h
    simp only [BitVec.getLsbD_xor, BitVec.getLsbD_shiftLeft, hpoly, BitVec.getLsbD_zero] at hbit
    simp at hbit
  · rename_i hmsb
    rw [Bool.not_eq_true] at hmsb
    apply BitVec.eq_of_getLsbD_eq
    intro i hi
    rw [BitVec.getLsbD_zero]
    by_cases htop : i = w - 1
    · rw [BitVec.msb_eq_getLsbD_last] at hmsb
      rw [htop]
      exact hmsb
    · have hbit := congrArg (fun x : BitVec w => x.getLsbD (i + 1)) h
      simpa [BitVec.getLsbD_shiftLeft, show i + 1 < w by omega, hi] using hbit

theorem shift_injective (hw : 0 < w) (hpoly : poly.getLsbD 0 = true) :
    Function.Injective (shift poly) := by
  intro a b h
  have hzero : shift poly (a ^^^ b) = 0#w := by
    rw [shift_xor, h, BitVec.xor_self]
  have hxor := eq_zero_of_shift hw hpoly hzero
  exact BitVec.xor_eq_zero_iff.mp hxor

/-- What follows a difference does not hide it. Kind: P -/
theorem feed_injective (hw : 0 < w) (hpoly : poly.getLsbD 0 = true) (bits : List Bool) :
    Function.Injective fun c => bits.foldl (feed poly) c := by
  induction bits with
  | nil => exact fun _ _ h => h
  | cons b bits ih =>
      intro c d h
      have hstep : feed poly c b = feed poly d b := ih h
      have hsum := shift_injective hw hpoly hstep
      exact (BitVec.xor_left_inj _).mp hsum

/-! ### A run of bits is a word -/

/-- The register with `bits` at its top. Kind: D -/
def word : List Bool → BitVec w
  | [] => 0#w
  | b :: bits => top b ^^^ (word bits >>> 1)

lemma getLsbD_top {b : Bool} {i : ℕ} (hi : i < w) :
    (top b : BitVec w).getLsbD i = (b && decide (i = w - 1)) := by
  unfold top
  cases b with
  | false => simp
  | true =>
      rw [if_pos rfl, BitVec.getLsbD_twoPow, Bool.true_and]
      by_cases h : i = w - 1
      · simp [h, show w - 1 < w by omega]
      · simp [h, Ne.symm h]

lemma getLsbD_word {bits : List Bool} {i : ℕ} (hi : i < w) :
    (word bits : BitVec w).getLsbD i = bits.getD (w - 1 - i) false := by
  induction bits generalizing i with
  | nil => simp [word]
  | cons b bits ih =>
      rw [word, BitVec.getLsbD_xor, getLsbD_top hi, BitVec.getLsbD_ushiftRight]
      by_cases htop : i = w - 1
      · have : ¬ 1 + i < w := by omega
        rw [BitVec.getLsbD_of_ge _ _ (by omega)]
        simp [htop]
      · rw [ih (by omega), show w - 1 - i = (w - 1 - (1 + i)) + 1 by omega, List.getD_cons_succ]
        simp [htop]

/-- At most `w` bits can be read back. Kind: L -/
theorem word_injective {x y : List Bool} (hlen : x.length = y.length) (hx : x.length ≤ w)
    (h : (word x : BitVec w) = word y) : x = y := by
  apply List.ext_getElem hlen
  intro i hi hi'
  have hbit := congrArg (fun c : BitVec w => c.getLsbD (w - 1 - i)) h
  rw [getLsbD_word (by omega), getLsbD_word (by omega),
    show w - 1 - (w - 1 - i) = i by omega] at hbit
  simpa [hi, hi'] using hbit

/-- A bit below the top only moves up. Kind: L -/
theorem shift_ushiftRight {x : BitVec w} (hx : x.getLsbD 0 = false) :
    shift poly (x >>> 1) = x := by
  have hmsb : (x >>> 1).msb = false := by
    rw [BitVec.msb_ushiftRight]
    simp
  rw [shift, hmsb, if_neg (by simp)]
  apply BitVec.eq_of_getLsbD_eq
  intro i hi
  rw [BitVec.getLsbD_shiftLeft, BitVec.getLsbD_ushiftRight]
  cases i with
  | zero => simp [hx]
  | succ i => simp [hi, Nat.add_comm]

/-- A run of at most `w` bits acts as one word. Kind: P -/
theorem foldl_feed_eq {bits : List Bool} (hlen : bits.length ≤ w) (c : BitVec w) :
    bits.foldl (feed poly) c = (shift poly)^[bits.length] (c ^^^ word bits) := by
  induction bits generalizing c with
  | nil => simp [word]
  | cons b bits ih =>
      rw [List.length_cons] at hlen
      have hlow : (word bits : BitVec w).getLsbD 0 = false := by
        rw [getLsbD_word (by omega)]
        rw [List.getD_eq_getElem?_getD, List.getElem?_eq_none (by omega), Option.getD_none]
      have hstep : shift poly (c ^^^ word (b :: bits)) = feed poly c b ^^^ word bits := by
        rw [word, ← BitVec.xor_assoc, shift_xor, shift_ushiftRight hlow]
        rfl
      rw [List.foldl_cons, ih (by omega), List.length_cons, Function.iterate_succ_apply, hstep]

/-- **A burst is seen.** Messages that differ only inside a window no wider than the register have
different checks. Kind: P -/
theorem crc_ne_of_burst (hpoly : poly.getLsbD 0 = true) {before x y after : List Bool}
    (hlen : x.length = y.length) (hx : x.length ≤ w) (hne : x ≠ y) :
    crc poly (before ++ x ++ after) ≠ crc poly (before ++ y ++ after) := by
  have hw : 0 < w := by
    rcases Nat.eq_zero_or_pos w with rfl | hpos
    · simp at hpoly
    · exact hpos
  intro h
  unfold crc at h
  simp only [List.foldl_append] at h
  have hmiddle := feed_injective hw hpoly after h
  generalize before.foldl (feed poly) 0#w = c at hmiddle
  rw [foldl_feed_eq hx, foldl_feed_eq (hlen ▸ hx), ← hlen] at hmiddle
  have hword := (shift_injective hw hpoly).iterate x.length hmiddle
  exact hne (word_injective hlen hx ((BitVec.xor_right_inj c).mp hword))

end NucBios.Lib.Crc
