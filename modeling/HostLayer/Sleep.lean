import HostLayer.Host.Clock
import HostLayer.Routine

/-!
# Sleeps

Waiting for an instant.

A sleep ends when its clock shows the deadline; a signal does not end it. The
host refuses deadlines before the zero of its clock.

## Main definitions

* `Sleep.Place`, `Sleep.step`: A sleep.
* `Sleep.Refused`: A deadline that cannot be slept for.
* `Sleep.run`: A sleep from its beginning to its end.

## Theorems

* `Sleep.step_ok`: A sleep that ends well has lasted until its deadline.
-/

namespace HostLayer

namespace Sleep

/-- Where a sleep stands. -/
inductive Place
  /-- The deadline is about to be looked at. -/
  | asking
  /-- The thread sleeps. -/
  | asleep
  deriving DecidableEq, Repr

/-- The deadline is not normalized, or the host does not take it. -/
def Refused (deadline : Timer) : Prop :=
  ¬deadline.Normalized ∨ (HostTime.ofTimer deadline).negative = true

instance (deadline : Timer) : Decidable (Refused deadline) :=
  inferInstanceAs (Decidable (_ ∨ _))

/-- One step of a sleep until a deadline on the clock `source`, at a time that
    `clock` shows. -/
def step (source : ClockSource) (deadline : Timer) (clock : Clock) :
    Place → Step Unit Place (Answer Unit)
  | .asking =>
      if Refused deadline then .done () (.error .invalidParam) [] else .goto () .asleep []
  | .asleep =>
      if (HostTime.ofTimer deadline).reached (clock.nanos source) then .done () (.ok ()) []
      else .waits

/-- A sleep that nobody interferes with takes the clocks to its deadline. -/
def run (source : ClockSource) (deadline : Timer) (clock : Clock) : Clock × Answer Unit :=
  if Refused deadline then (clock, .error .invalidParam)
  else (clock.advance (clock.timeLeft source (HostTime.ofTimer deadline)), .ok ())

theorem step_ok {source : ClockSource} {deadline : Timer} {clock : Clock} {p : Place} {s : Unit}
    {notes : List Note} (h : step source deadline clock p = .done s (.ok ()) notes) :
    (HostTime.ofTimer deadline).reached (clock.nanos source) = true := by
  cases p with
  | asking =>
      simp only [step] at h
      split at h <;> simp at h
  | asleep =>
      simp only [step] at h
      split at h
      next hr => exact hr
      next => simp at h

end Sleep

end HostLayer
