import HostLayer.Routine

/-!
# Rounds

How long a call takes that goes round a loop.

A routine that goes back to a place has begun another round there. `Concludes`
says of a call that runs alone how it ends, after how many steps, and how many
rounds it has begun by then. It is put together from the end of the call
backwards, one step at a time, so a loop is an induction on what is left to be
done.

The steps of a call do not all happen at the same time. `atTimes` makes a
routine whose steps look at a clock one at which time goes on between the steps,
in whatever way.

## Main definitions

* `atTimes`: A routine whose steps are made one after the other in time.
* `visits`: How often a run comes to a place.
* `Concludes`: A call ends, in so many steps and so many rounds.

## Theorems

* `Concludes.last`, `Concludes.before`: The last step of a call, and a step before
  others.
-/

namespace HostLayer

variable {τ σ π α : Type}

/-- The routine whose `n`th step is made at the time `times n`. The steps are
    counted beside the state. -/
def atTimes (step : τ → σ → π → Step σ π α) (times : Nat → τ) (s : σ × Nat) (p : π) :
    Step (σ × Nat) π α :=
  (step (times s.2) s.1 p).lift (fun t => (t, s.2 + 1)) id fun t a notes =>
    .done (t, s.2 + 1) a notes

/-- How often a run of at most `fuel` steps stands at a place that is `here`. -/
def visits (step : σ → π → Step σ π α) (here : π → Bool) : Nat → σ → π → Nat
  | 0, _, _ => 0
  | fuel + 1, s, p =>
      (if here p then 1 else 0) +
        match step s p with
        | .goto s' q _ => visits step here fuel s' q
        | _ => 0

/-- Alone, a call that stands at the place `p` ends with the answer `a` and leaves
    the state `t` behind, after `n` steps and `k` visits of a place that is
    `here`. -/
structure Concludes (step : σ → π → Step σ π α) (here : π → Bool) (s : σ) (p : π) (t : σ) (a : α)
    (n k : Nat) : Prop where
  run : ∃ more, ∀ fuel notes, n ≤ fuel →
    runSteps step fuel s p notes = ⟨t, .inr a, notes ++ more⟩
  rounds : ∀ fuel, n ≤ fuel → visits step here fuel s p = k

namespace Concludes

variable {step : σ → π → Step σ π α} {here : π → Bool}

/-- The last step of a call. -/
theorem last {s t : σ} {p : π} {a : α} {notes : List Note} (h : step s p = .done t a notes) :
    Concludes step here s p t a 1 (if here p then 1 else 0) := by
  refine ⟨⟨notes, fun fuel before hfuel => ?_⟩, fun fuel hfuel => ?_⟩
  · obtain ⟨fuel, rfl⟩ := Nat.exists_eq_add_of_le' hfuel
    simp only [runSteps, h]
  · obtain ⟨fuel, rfl⟩ := Nat.exists_eq_add_of_le' hfuel
    simp only [visits, h, Nat.add_zero]

/-- A step before others. -/
theorem before {s s' t : σ} {p q : π} {a : α} {n k : Nat} {notes : List Note}
    (h : step s p = .goto s' q notes) (hrest : Concludes step here s' q t a n k) :
    Concludes step here s p t a (n + 1) ((if here p then 1 else 0) + k) := by
  rcases hrest.run with ⟨more, hmore⟩
  refine ⟨⟨notes ++ more, fun fuel before hfuel => ?_⟩, fun fuel hfuel => ?_⟩
  · obtain ⟨fuel, rfl⟩ := Nat.exists_eq_add_of_le' (Nat.le_trans (Nat.le_add_left 1 n) hfuel)
    simp only [runSteps, h]
    rw [hmore fuel _ (Nat.le_of_succ_le_succ hfuel), List.append_assoc]
  · obtain ⟨fuel, rfl⟩ := Nat.exists_eq_add_of_le' (Nat.le_trans (Nat.le_add_left 1 n) hfuel)
    simp only [visits, h]
    rw [hrest.rounds fuel (Nat.le_of_succ_le_succ hfuel)]

end Concludes

end HostLayer
