import HostLayer.Host.Clock

/-!
# Deadlines

How the host counts a deadline, and how its caller does.

A caller's deadline is a word of seconds and a number of nanoseconds, and it
has passed on a clock once the clock shows no less. The host counts the seconds
with a sign. For the lower half of the words that makes no difference. For the
upper half the deadline of the host lies before the zero of its clocks, so it
has always passed, however far away the caller's is.

## Main definitions

* `Clock.Passed`: A deadline has passed, as its caller counts.
* `Timer.Countable`: The host counts the deadline as its caller does.

## Theorems

* `HostTime.reached_iff`: The lower half.
* `HostTime.reached_of_not_countable`: The upper half.
-/

namespace HostLayer

/-- The deadline has passed on a clock, as its caller counts. -/
def Clock.Passed (source : ClockSource) (d : Timer) (now : Clock) : Prop :=
  d.value ≤ now.nanos source

/-- The seconds of the deadline lie in the lower half of the words. -/
def Timer.Countable (d : Timer) : Prop :=
  d.sec.toNat < word64 / 2

instance (d : Timer) : Decidable d.Countable :=
  inferInstanceAs (Decidable (_ < _))

namespace HostTime

/-- The host counts seconds in the lower half as its caller does. -/
theorem reached_iff (d : Timer) (now : Nat) (h : d.Countable) :
    (ofTimer d).reached now = true ↔ d.value ≤ now := by
  unfold Timer.Countable at h
  unfold ofTimer reached nanos Timer.value
  simp only [if_pos h, decide_eq_true_eq]
  omega

/-- Seconds in the upper half have always passed. -/
theorem reached_of_not_countable (d : Timer) (now : Nat) (hd : d.Normalized)
    (h : ¬d.Countable) : (ofTimer d).reached now = true := by
  have hword : d.sec.toNat < word64 := d.sec.toNat_lt
  unfold Timer.Countable at h
  unfold Timer.Normalized at hd
  unfold ofTimer reached nanos
  simp only [if_neg h, decide_eq_true_eq]
  unfold nanosPerSecond at hd ⊢
  omega

end HostTime

end HostLayer
