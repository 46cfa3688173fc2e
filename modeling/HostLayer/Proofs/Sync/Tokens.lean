import HostLayer.Sync.Semaphore
import Mathlib.Tactic.SplitIfs

/-!
# Tokens

The steps of a wait for a token that has a deadline.

A wait takes a token wherever it finds one, and nothing else changes the semaphore.
What is left are the ways to find none: the host cannot be given the deadline, the
thread sleeps, or its deadline for the host has passed.

## Main definitions

* `Semaphore.Stepped`: What a step of a wait is.

## Theorems

* `Semaphore.step_stepped`: There are no other steps.
-/

namespace HostLayer

namespace Semaphore

/-- The steps of a wait with the deadline `d` on the clock `source`, at a time that
    `clock` shows. -/
inductive Stepped (source : ClockSource) (d : Timer) (clock : Clock) (s : Semaphore) :
    Place → Step Semaphore Place (Answer Unit) → Prop
  /-- There is no deadline for the host. -/
  | refuse (h : clock.wallDeadline? source d = none) :
      Stepped source d clock s .asking (.done s (.error .invalidParam) [])
  /-- A token is there. -/
  | take (p : Place) (s' : Semaphore)
      (hp : p = .asking → ∃ limit, clock.wallDeadline? source d = some limit)
      (h : s.take? = some s') : Stepped source d clock s p (.done s' (.ok ()) [])
  /-- No token is there, and the thread sleeps. -/
  | sleep (limit : HostTime) (h : clock.wallDeadline? source d = some limit)
      (hempty : s.take? = none) :
      Stepped source d clock s .asking (.goto s (.asleep (some limit)) [])
  /-- The deadline for the host has passed. -/
  | tire (limit : Option HostTime) (hempty : s.take? = none) (h : late clock limit = true) :
      Stepped source d clock s (.asleep limit) (.done s (.error .timeout) [])
  | rest (limit : Option HostTime) (hempty : s.take? = none) (h : late clock limit = false) :
      Stepped source d clock s (.asleep limit) .waits

theorem step_stepped (source : ClockSource) (d : Timer) (clock : Clock) (s : Semaphore)
    (p : Place) : Stepped source d clock s p (step source (some d) clock s p) := by
  cases p with
  | asking =>
      cases hl : clock.wallDeadline? source d with
      | none =>
          simp only [step, limit?, hl, Option.map_none]
          exact .refuse hl
      | some limit =>
          cases ht : s.take? with
          | some s' =>
              simp only [step, limit?, hl, Option.map_some, ht]
              exact .take .asking s' (fun _ => ⟨limit, hl⟩) ht
          | none =>
              simp only [step, limit?, hl, Option.map_some, ht]
              exact .sleep limit hl ht
  | asleep limit =>
      cases ht : s.take? with
      | some s' =>
          simp only [step, ht]
          exact .take (.asleep limit) s'
            (fun h => absurd h (by simp only [reduceCtorEq, not_false_eq_true])) ht
      | none =>
          simp only [step, ht]
          split_ifs with h
          · exact .tire limit ht h
          · exact .rest limit ht (Bool.eq_false_iff.mpr h)

end Semaphore

end HostLayer
