import Mathlib.Tactic

/-!
# Partial deterministic machines and what holds along their runs

A `Machine σ ε` takes a state and an event to the next state, or refuses the event. Everything
the development says about *sequences* — boots, requests of two parties in any order, the octets
of a text — is said about `Machine.run`, so the inductions are done once, here:

* `invariant_of_run`: a predicate kept by every step is kept by every run;
* `tally_add_potential_le`: the amortised bound. If every step pays its cost out of its gain and a
  potential `Φ`, the total cost of a run is at most its total gain plus the initial potential;
* `tally_add_potential_le_along`: the same when the steps are only promised to do so under a guard
  `G`, for the runs all of whose steps meet the guard (`Along`).
-/

namespace NucBios.Lib

/-- A partial deterministic machine: `step s e` is the state after event `e` in state `s`, or
`none` where the event cannot happen. -/
structure Machine (σ ε : Type*) where
  /-- One event. -/
  step : σ → ε → Option σ

namespace Machine

variable {σ ε : Type*} (m : Machine σ ε)

/-- The state after a sequence of events, or `none` when one of them is refused.
Kind: D -/
def run : σ → List ε → Option σ
  | s, [] => some s
  | s, e :: es => (m.step s e).bind fun t => run t es

@[simp] theorem run_nil (s : σ) : m.run s [] = some s := rfl

@[simp] theorem run_cons (s : σ) (e : ε) (es : List ε) :
    m.run s (e :: es) = (m.step s e).bind fun t => m.run t es := rfl

/-- Inversion of a non-empty run: a first step, then a run. Kind: L -/
theorem run_cons_eq_some {s u : σ} {e : ε} {es : List ε} :
    m.run s (e :: es) = some u ↔ ∃ t, m.step s e = some t ∧ m.run t es = some u := by
  rw [run_cons, Option.bind_eq_some_iff]

/-- A run over `es ++ fs` is a run over `es`, then one over `fs`. Kind: L -/
theorem run_append (s : σ) (es fs : List ε) :
    m.run s (es ++ fs) = (m.run s es).bind fun t => m.run t fs := by
  induction es generalizing s with
  | nil => rfl
  | cons e es ih =>
      rw [List.cons_append, run_cons, run_cons, Option.bind_assoc]
      congr 1
      funext t
      exact ih t

/-- A machine that refuses no event has a run over every sequence. Kind: L -/
theorem exists_run_of_total (htotal : ∀ s e, ∃ t, m.step s e = some t) :
    ∀ (s : σ) (es : List ε), ∃ u, m.run s es = some u
  | s, [] => ⟨s, rfl⟩
  | s, e :: es => by
      obtain ⟨t, ht⟩ := htotal s e
      obtain ⟨u, hu⟩ := exists_run_of_total htotal t es
      exact ⟨u, m.run_cons_eq_some.mpr ⟨t, ht, hu⟩⟩

/-! ### Invariants -/

/-- A predicate kept by every step is kept by every run. Kind: P -/
theorem invariant_of_run (I : σ → Prop)
    (hstep : ∀ s e t, I s → m.step s e = some t → I t) {s u : σ} {es : List ε} (hs : I s)
    (h : m.run s es = some u) : I u := by
  induction es generalizing s with
  | nil =>
      cases h
      exact hs
  | cons e es ih =>
      obtain ⟨t, ht, hu⟩ := m.run_cons_eq_some.mp h
      exact ih (hstep s e t hs ht) hu

/-- Every step of the run from `s` over `es` meets the guard `G` in the state it is taken from.
Kind: D -/
def Along (G : σ → ε → Prop) : σ → List ε → Prop
  | _, [] => True
  | s, e :: es => G s e ∧ ∀ t, m.step s e = some t → Along G t es

lemma along_of_forall {G : σ → ε → Prop} (hG : ∀ s e, G s e) :
    ∀ (s : σ) (es : List ε), m.Along G s es
  | _, [] => trivial
  | s, e :: es => ⟨hG s e, fun t _ => along_of_forall hG t es⟩

lemma along_and {G H : σ → ε → Prop} :
    ∀ {s : σ} {es : List ε}, m.Along G s es → m.Along H s es →
      m.Along (fun s e => G s e ∧ H s e) s es
  | _, [], _, _ => trivial
  | _, _ :: _, hG, hH => ⟨⟨hG.1, hH.1⟩, fun t ht => along_and (hG.2 t ht) (hH.2 t ht)⟩

/-- A guarded run over `es ++ fs` is one over `es`, then one over `fs`. Kind: L -/
theorem along_append {G : σ → ε → Prop} {s u : σ} {es : List ε} (fs : List ε)
    (h : m.run s es = some u) :
    m.Along G s (es ++ fs) ↔ m.Along G s es ∧ m.Along G u fs := by
  induction es generalizing s with
  | nil =>
      cases h
      exact ⟨fun h => ⟨trivial, h⟩, fun h => h.2⟩
  | cons e es ih =>
      obtain ⟨t, ht, hu⟩ := m.run_cons_eq_some.mp h
      have hnext : ∀ (fs : List ε), (∀ t', m.step s e = some t' → m.Along G t' fs) ↔
          m.Along G t fs := by
        intro fs
        constructor
        · exact fun h => h t ht
        · intro h t' ht'
          rw [ht, Option.some.injEq] at ht'
          exact ht' ▸ h
      simp only [List.cons_append, Along, hnext, ih hu, and_assoc]

instance decidableAlong (G : σ → ε → Prop) [∀ s e, Decidable (G s e)] :
    ∀ (s : σ) (es : List ε), Decidable (m.Along G s es)
  | _, [] => inferInstanceAs (Decidable True)
  | s, e :: es =>
      have : ∀ t, Decidable (m.Along G t es) := fun t => decidableAlong G t es
      inferInstanceAs (Decidable (G s e ∧ ∀ t ∈ m.step s e, m.Along G t es))

/-! ### Totals along a run -/

/-- The total of `c` over the steps of the run from `s` over `es` (up to a refused event).
Kind: D -/
def tally (c : σ → ε → ℕ) : σ → List ε → ℕ
  | _, [] => 0
  | s, e :: es => c s e + (m.step s e).elim 0 fun t => tally c t es

@[simp] theorem tally_nil (c : σ → ε → ℕ) (s : σ) : m.tally c s [] = 0 := rfl

lemma tally_cons_of_some (c : σ → ε → ℕ) {s t : σ} {e : ε} (es : List ε)
    (h : m.step s e = some t) : m.tally c s (e :: es) = c s e + m.tally c t es := by
  rw [tally, h, Option.elim_some]

@[simp] theorem tally_zero (s : σ) (es : List ε) : m.tally (fun _ _ => 0) s es = 0 := by
  induction es generalizing s with
  | nil => rfl
  | cons e es ih =>
      rw [tally, Nat.zero_add]
      cases m.step s e with
      | none => rfl
      | some t => exact ih t

/-- Counting events, whatever the state. Kind: L -/
theorem tally_eq_countP (q : ε → Bool) {s u : σ} {es : List ε} (h : m.run s es = some u) :
    m.tally (fun _ e => if q e then 1 else 0) s es = es.countP q := by
  induction es generalizing s with
  | nil => rfl
  | cons e es ih =>
      obtain ⟨t, ht, hu⟩ := m.run_cons_eq_some.mp h
      rw [m.tally_cons_of_some _ es ht, ih hu, List.countP_cons, Nat.add_comm]

/-- The total over `es ++ [e]` is the total over `es` and what the last step adds. Kind: L -/
theorem tally_append_singleton (c : σ → ε → ℕ) {s u : σ} {es : List ε} (e : ε)
    (h : m.run s es = some u) : m.tally c s (es ++ [e]) = m.tally c s es + c u e := by
  induction es generalizing s with
  | nil =>
      cases h
      rw [List.nil_append, tally_nil, Nat.zero_add, tally]
      cases m.step u e with
      | none => rfl
      | some t => rfl
  | cons e' es ih =>
      obtain ⟨t, ht, hu⟩ := m.run_cons_eq_some.mp h
      rw [List.cons_append, m.tally_cons_of_some c _ ht, m.tally_cons_of_some c _ ht, ih hu,
        Nat.add_assoc]

/-- **The amortised bound.** When each guarded step pays its cost from its gain and the drop of
the potential `Φ`, the total cost of a guarded run is at most its total gain plus the potential it
started with.
Kind: P -/
theorem tally_add_potential_le_along (G : σ → ε → Prop) (I : σ → Prop)
    (hI : ∀ s e t, I s → G s e → m.step s e = some t → I t) (cost gain : σ → ε → ℕ) (Φ : σ → ℕ)
    (hΦ : ∀ s e t, I s → G s e → m.step s e = some t → cost s e + Φ t ≤ gain s e + Φ s)
    {s u : σ} {es : List ε} (hs : I s) (hG : m.Along G s es) (h : m.run s es = some u) :
    m.tally cost s es + Φ u ≤ m.tally gain s es + Φ s := by
  induction es generalizing s with
  | nil =>
      cases h
      simp
  | cons e es ih =>
      obtain ⟨t, ht, hu⟩ := m.run_cons_eq_some.mp h
      rw [m.tally_cons_of_some cost es ht, m.tally_cons_of_some gain es ht]
      have hfirst := hΦ s e t hs hG.1 ht
      have hrest := ih (hI s e t hs hG.1 ht) (hG.2 t ht) hu
      omega

/-- The amortised bound without a guard. Kind: P -/
theorem tally_add_potential_le (I : σ → Prop)
    (hI : ∀ s e t, I s → m.step s e = some t → I t) (cost gain : σ → ε → ℕ) (Φ : σ → ℕ)
    (hΦ : ∀ s e t, I s → m.step s e = some t → cost s e + Φ t ≤ gain s e + Φ s)
    {s u : σ} {es : List ε} (hs : I s) (h : m.run s es = some u) :
    m.tally cost s es + Φ u ≤ m.tally gain s es + Φ s :=
  m.tally_add_potential_le_along (fun _ _ => True) I (fun s e t hs _ => hI s e t hs) cost gain Φ
    (fun s e t hs _ => hΦ s e t hs) hs (m.along_of_forall (fun _ _ => trivial) s es) h

end Machine

end NucBios.Lib
