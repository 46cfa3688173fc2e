import HostLayer.Diagnostic

/-!
# Routines

Calls cut into atomic steps.

A call that other tasks can interfere with is written as a routine: a set of
places where the call can stand, and for each place the one step that it takes
from there. A step sees and changes the state that the tasks share, all at
once; between two steps anything can happen to that state. A step may also
find that it has to wait, and then it changes nothing and is tried again
later.

Running a routine alone, step after step, is one way to use it. Any number of
tasks that each stand at some place of some routine, and move one at a time in
any order, is another.

## Main definitions

* `Step`: What one step does.
* `Progress`: Where a routine that ran alone has come to.
* `runSteps`: A routine that runs alone for a number of steps.
-/

namespace HostLayer

/-- What one step of a call does to the shared state `σ`: go on at another
    place of the call, end the call with a result, or wait. -/
inductive Step (σ π α : Type) where
  /-- The call goes on at `place`. -/
  | goto (state : σ) (place : π) (notes : List Note)
  /-- The call is over. -/
  | done (state : σ) (result : α) (notes : List Note)
  /-- The call cannot move now. -/
  | waits

namespace Step

variable {σ π α : Type}

/-- The same step of a larger call over a larger state. -/
def lift {σ' π' α' : Type} (s : Step σ π α) (state : σ → σ') (place : π → π')
    (result : σ → α → List Note → Step σ' π' α') : Step σ' π' α' :=
  match s with
  | goto st p notes => goto (state st) (place p) notes
  | done st a notes => result st a notes
  | waits => waits

end Step

/-- Where a call has come to, with the state and all notes made on the way. -/
structure Progress (σ π α : Type) where
  state : σ
  /-- The place where the call waits, or its result. -/
  outcome : π ⊕ α
  notes : List Note

/-- Run a routine alone until it ends or waits, or for `fuel` steps. -/
def runSteps {σ π α : Type} (step : σ → π → Step σ π α) : Nat → σ → π → List Note → Progress σ π α
  | 0, s, p, notes => ⟨s, .inl p, notes⟩
  | fuel + 1, s, p, notes =>
      match step s p with
      | .goto s' p' more => runSteps step fuel s' p' (notes ++ more)
      | .done s' a more => ⟨s', .inr a, notes ++ more⟩
      | .waits => ⟨s, .inl p, notes⟩

end HostLayer
