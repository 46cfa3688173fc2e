import HostLayer.Routine

/-!
# Routines Alone

What a routine does that nobody interferes with.

A routine that runs alone takes one step after the other until its call is over
or has to wait. `Walk` is a number of such steps in a row, without the end, and
it is what long ways are put together from: each part of the way is a lemma of
its own, and `runSteps_walk` turns the whole way into a run.

The other direction is an induction. What every step keeps holds wherever a run
has come to, and if the call is over, it held before the last step
(`runSteps_keeps`).

## Main definitions

* `Walk`: Some steps of a routine in a row.

## Theorems

* `Walk.append`: Ways can be put together.
* `runSteps_walk`: A run goes along a way.
* `runSteps_done`: A run ends with the call.
* `runSteps_keeps`: What every step keeps, a run keeps.
* `runSteps_ends`: A run that comes closer to its end with every step.
-/

namespace HostLayer

variable {σ π α : Type}

/-- Alone, the routine goes in `n` steps from the place `p` to the place `q`,
    and the shared state becomes `t`. -/
inductive Walk (step : σ → π → Step σ π α) : Nat → σ → π → σ → π → Prop
  | here (s : σ) (p : π) : Walk step 0 s p s p
  | cons (n : Nat) (s s' t : σ) (p p' q : π) (notes : List Note)
      (first : step s p = .goto s' p' notes) (rest : Walk step n s' p' t q) :
      Walk step (n + 1) s p t q

namespace Walk

variable {step : σ → π → Step σ π α}

theorem one {s t : σ} {p q : π} {notes : List Note} (h : step s p = .goto t q notes) :
    Walk step 1 s p t q :=
  cons 0 s t t p q q notes h (here t q)

/-- A way after a way is a way. -/
theorem append {n k : Nat} {s t u : σ} {p q r : π} (h1 : Walk step n s p t q)
    (h2 : Walk step k t q u r) : Walk step (n + k) s p u r := by
  induction h1 with
  | here _ _ =>
      rw [Nat.zero_add]
      exact h2
  | cons n s s' t p p' q notes first _ ih =>
      rw [show n + 1 + k = n + k + 1 by omega]
      exact cons (n + k) s s' u p p' r notes first (ih h2)

end Walk

/-- A run goes along a way and makes notes. -/
theorem runSteps_walk (step : σ → π → Step σ π α) {n : Nat} {s t : σ} {p q : π}
    (h : Walk step n s p t q) : ∃ more, ∀ fuel notes,
      runSteps step (n + fuel) s p notes = runSteps step fuel t q (notes ++ more) := by
  induction h with
  | here s p =>
      refine ⟨[], fun fuel notes => ?_⟩
      rw [Nat.zero_add, List.append_nil]
  | cons n s s' t p p' q first hfirst _ ih =>
      rcases ih with ⟨more, hmore⟩
      refine ⟨first ++ more, fun fuel notes => ?_⟩
      rw [show n + 1 + fuel = n + fuel + 1 by omega]
      simp only [runSteps, hfirst]
      rw [hmore, List.append_assoc]

/-- A run ends where the call is over. -/
theorem runSteps_done (step : σ → π → Step σ π α) (fuel : Nat) (s t : σ) (p : π) (a : α)
    (notes more : List Note) (h : step s p = .done t a more) :
    runSteps step (fuel + 1) s p notes = ⟨t, .inr a, notes ++ more⟩ := by
  simp only [runSteps, h]

/-- What every step keeps holds wherever a run has come to, and before the last
    step of one whose call is over. -/
theorem runSteps_keeps (step : σ → π → Step σ π α) (I : σ → π → Prop)
    (hstep : ∀ s p s' p' notes, I s p → step s p = .goto s' p' notes → I s' p') :
    ∀ (fuel : Nat) (s : σ) (p : π) (notes : List Note), I s p →
      (∀ q, (runSteps step fuel s p notes).outcome = .inl q →
        I (runSteps step fuel s p notes).state q) ∧
      (∀ a, (runSteps step fuel s p notes).outcome = .inr a → ∃ t q more, I t q ∧
        step t q = .done (runSteps step fuel s p notes).state a more) := by
  intro fuel
  induction fuel with
  | zero =>
      intro s p notes hI
      refine ⟨fun q hq => ?_, fun a ha => ?_⟩
      · simp only [runSteps, Sum.inl.injEq] at hq ⊢
        exact hq ▸ hI
      · exact absurd ha (by simp only [runSteps, reduceCtorEq, not_false_eq_true])
  | succ fuel ih =>
      intro s p notes hI
      cases hs : step s p with
      | goto s' p' more =>
          have hrest := ih s' p' (notes ++ more) (hstep s p s' p' more hI hs)
          simp only [runSteps, hs]
          exact hrest
      | done t a more =>
          rw [runSteps_done step fuel s t p a notes more hs]
          refine ⟨fun q hq => ?_, fun b hb => ?_⟩
          · exact absurd hq (by simp only [reduceCtorEq, not_false_eq_true])
          · simp only [Sum.inr.injEq] at hb
            exact ⟨s, p, more, hI, hb ▸ hs⟩
      | waits =>
          simp only [runSteps, hs]
          refine ⟨fun q hq => ?_, fun a ha => ?_⟩
          · simp only [Sum.inl.injEq] at hq
            exact hq ▸ hI
          · exact absurd ha (by simp only [reduceCtorEq, not_false_eq_true])

/-- A step leads closer to the end of the call, as `toGo` counts. -/
def Step.Closer (toGo : π → Nat) (p : π) : Step σ π α → Prop
  | goto _ q _ => toGo q < toGo p
  | done _ _ _ => 0 < toGo p
  | waits => False

/-- A run that comes closer to the end of the call with every step gets there. -/
theorem runSteps_ends (step : σ → π → Step σ π α) (toGo : π → Nat)
    (hstep : ∀ s p, (step s p).Closer toGo p) :
    ∀ (fuel : Nat) (s : σ) (p : π) (notes : List Note), toGo p ≤ fuel →
      ∃ a, (runSteps step fuel s p notes).outcome = .inr a := by
  intro fuel
  induction fuel with
  | zero =>
      intro s p notes hle
      have hcloser := hstep s p
      cases hs : step s p with
      | goto s' q more =>
          rw [hs] at hcloser
          exact absurd hcloser (by simp only [Step.Closer]; omega)
      | done s' a more =>
          rw [hs] at hcloser
          exact absurd hcloser (by simp only [Step.Closer]; omega)
      | waits =>
          rw [hs] at hcloser
          exact hcloser.elim
  | succ fuel ih =>
      intro s p notes hle
      have hcloser := hstep s p
      cases hs : step s p with
      | goto s' q more =>
          rw [hs] at hcloser
          have hlt : toGo q < toGo p := hcloser
          simp only [runSteps, hs]
          exact ih s' q (notes ++ more) (by omega)
      | done s' a more => exact ⟨a, by rw [runSteps_done step fuel s s' p a notes more hs]⟩
      | waits =>
          rw [hs] at hcloser
          exact hcloser.elim

end HostLayer
