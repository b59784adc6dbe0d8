import Mathlib.Tactic

/-!
# Bounded retries of a stateful call

`retry attempt ok pause left k last s` makes up to `left` attempts of a call, numbered from `k`,
stops at the first one whose answer is `ok` and otherwise hands back the last answer it got. Three
facts carry every use of it:

* `retry_invariant`: what the attempts and the pauses keep, the loop keeps;
* `exists_attempt_of_ok`: an accepted answer is the answer of one attempt, made from a state that
  still has the invariant, and nothing happened after it;
* `retry_budget`: when every refused attempt costs at least `c` out of a budget, giving up costs
  `left * c`, so a loop that can afford less does not give up.
-/

namespace NucBios.Lib

variable {σ ρ : Type*}

/-- Up to `left` attempts, with `pause k` after the refused attempt number `k`; `last` is the
answer handed back when no attempt is left.
Kind: D -/
def retry (attempt : σ → ρ × σ) (ok : ρ → Bool) (pause : ℕ → σ → σ) :
    (left k : ℕ) → ρ → σ → ρ × σ
  | 0, _, last, s => (last, s)
  | left + 1, k, _, s =>
      if ok (attempt s).1 then attempt s
      else retry attempt ok pause left (k + 1) (attempt s).1 (pause k (attempt s).2)

variable (attempt : σ → ρ × σ) (ok : ρ → Bool) (pause : ℕ → σ → σ)

/-- What attempts and pauses keep, the loop keeps. Kind: P -/
theorem retry_invariant (I : σ → Prop) (hattempt : ∀ s, I s → I (attempt s).2)
    (hpause : ∀ k s, I s → I (pause k s)) :
    ∀ (left k : ℕ) (last : ρ) (s : σ), I s → I (retry attempt ok pause left k last s).2
  | 0, _, _, _, hs => hs
  | left + 1, k, last, s, hs => by
      unfold retry
      split
      · exact hattempt s hs
      · exact retry_invariant I hattempt hpause left (k + 1) _ _ (hpause k _ (hattempt s hs))

/-- An accepted answer is the answer of an attempt, and the loop ends in the state that attempt
left. Kind: P -/
theorem exists_attempt_of_ok (I : σ → Prop) (hattempt : ∀ s, I s → I (attempt s).2)
    (hpause : ∀ k s, I s → I (pause k s)) :
    ∀ (left k : ℕ) (last : ρ) (s : σ), I s → ok last = false →
      ok (retry attempt ok pause left k last s).1 = true →
      ∃ t, I t ∧ retry attempt ok pause left k last s = attempt t
  | 0, _, _, _, _, hlast, hok => by
      rw [retry, hlast] at hok
      cases hok
  | left + 1, k, last, s, hs, _, hok => by
      unfold retry at hok ⊢
      split at hok
      · rename_i hfirst
        rw [if_pos hfirst]
        exact ⟨s, hs, rfl⟩
      · rename_i hfirst
        rw [if_neg hfirst]
        exact exists_attempt_of_ok I hattempt hpause left (k + 1) _ _
          (hpause k _ (hattempt s hs)) (Bool.eq_false_iff.mpr hfirst) hok

/-- Giving up is paid for in full: `left` attempts, `c` each. The invariant `I` is what makes
every refused attempt cost that much. Kind: P -/
theorem retry_budget (I : σ → Prop) (budget : σ → ℕ) (c : ℕ)
    (hattempt : ∀ s, I s → I (attempt s).2) (hpause : ∀ k s, I s → I (pause k s))
    (hcost : ∀ s, I s → ok (attempt s).1 = false → budget (attempt s).2 + c ≤ budget s)
    (hfree : ∀ k s, budget (pause k s) ≤ budget s) :
    ∀ (left k : ℕ) (last : ρ) (s : σ), I s →
      ok (retry attempt ok pause left k last s).1 = false →
      budget (retry attempt ok pause left k last s).2 + left * c ≤ budget s
  | 0, _, _, _, _, _ => by simp [retry]
  | left + 1, k, last, s, hs, hno => by
      unfold retry at hno ⊢
      split at hno
      · rename_i hfirst
        rw [hfirst] at hno
        cases hno
      · rename_i hfirst
        rw [if_neg hfirst]
        have hpaid := hcost s hs (Bool.eq_false_iff.mpr hfirst)
        have hrest := retry_budget I budget c hattempt hpause hcost hfree left (k + 1) _ _
          (hpause k _ (hattempt s hs)) hno
        have hpaused := hfree k (attempt s).2
        rw [Nat.succ_mul]
        omega

end NucBios.Lib
