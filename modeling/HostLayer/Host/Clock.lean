import HostLayer.Timer

/-!
# Clocks

The two clocks of the host, and the deadlines that it understands.

One clock is steady and one shows the time of day. The host counts the seconds
of a deadline with a sign, so a deadline whose seconds fill the upper half of
the word lies before the clock's zero to it. What the host makes of such a
deadline depends on the call: some treat it as passed, some refuse it.

## Main definitions

* `ClockSource`: The two clocks.
* `Clock`: What they show.
* `Clock.now`: The time on one of them, as a timer.
* `HostTime`: A deadline as the host sees it.
* `HostTime.reached`: The deadline has passed on a clock.
* `Clock.wallDeadline?`: The deadline for calls that know only the time of day.
-/

namespace HostLayer

/-- Which clock deadlines are meant on. -/
inductive ClockSource
  /-- Steady, and not the time of day. -/
  | monotonic
  /-- The time of day, which can jump. -/
  | realtime
  deriving DecidableEq, Repr

/-- The name of a clock. -/
def ClockSource.name : ClockSource → String
  | monotonic => "Monotonic"
  | realtime => "Realtime"

/-- What the clocks of the host show, in nanoseconds. -/
structure Clock where
  monotonic : Nat
  realtime : Nat
  deriving DecidableEq, Repr

/-- An instant with signed seconds, as the host takes it. -/
structure HostTime where
  sec : Int
  nsec : Nat
  deriving DecidableEq, Repr

namespace HostTime

/-- Words with the highest bit set are negative seconds. -/
def ofTimer (t : Timer) : HostTime :=
  ⟨if t.sec.toNat < word64 / 2 then t.sec.toNat else (t.sec.toNat : Int) - word64, t.nsec.toNat⟩

/-- The instant in nanoseconds. -/
def nanos (t : HostTime) : Int :=
  t.sec * nanosPerSecond + t.nsec

/-- The instant lies before the zero of the clock. -/
def negative (t : HostTime) : Bool :=
  t.sec < 0

/-- The instant is not later than `now`. -/
def reached (t : HostTime) (now : Nat) : Bool :=
  t.nanos ≤ now

end HostTime

namespace Clock

/-- The nanoseconds that a clock shows. -/
def nanos (c : Clock) : ClockSource → Nat
  | .monotonic => c.monotonic
  | .realtime => c.realtime

/-- The time that a clock shows. -/
def now (c : Clock) (source : ClockSource) : Timer :=
  ⟨UInt64.ofNat (c.nanos source / nanosPerSecond), UInt64.ofNat (c.nanos source % nanosPerSecond)⟩

/-- Both clocks, some nanoseconds later. -/
def advance (c : Clock) (ns : Nat) : Clock :=
  ⟨c.monotonic + ns, c.realtime + ns⟩

/-- The nanoseconds from now until a clock shows the instant `t`. -/
def timeLeft (c : Clock) (source : ClockSource) (t : HostTime) : Nat :=
  (t.nanos - c.nanos source).toNat

/-- The deadline for calls that know only the time of day.

    A deadline on the steady clock is moved by what is left of it, so that it
    has to be computed anew whenever such a call is made again. A deadline
    that is not normalized has none. -/
def wallDeadline? (c : Clock) (source : ClockSource) (deadline : Timer) : Option HostTime :=
  if deadline.Normalized then
    match source with
    | .realtime => some (HostTime.ofTimer deadline)
    | .monotonic =>
        ((c.now .realtime).addNanos? (deadline.distance (c.now .monotonic))).map HostTime.ofTimer
  else none

end Clock

end HostLayer
