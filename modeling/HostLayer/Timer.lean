import HostLayer.Error
import HostLayer.Limits

/-!
# Timers

Points in time, counted in seconds and nanoseconds.

A timer is normalized when its nanoseconds stay below one second. Every
operation here that yields a timer yields a normalized one, but a caller can
fill in the fields at will, so the operations say what they do with any
fields. Sums are exact: where a field would leave its 64 bits there is no sum.
Counts of nanoseconds saturate instead.

## Main definitions

* `Timer`: A point in time.
* `Timer.value`: The nanoseconds that it denotes, without a bound.
* `Timer.ofParts?`: A timer from seconds and any number of nanoseconds.
* `Timer.ofNanos`: A timer from a count of nanoseconds.
* `Timer.toNanos`: The count of nanoseconds, at most what a word holds.
* `Timer.add?`, `Timer.addNanos?`: Sums.
* `Timer.distance`: The nanoseconds from one timer to a later one.
* `Timer.expired`: Whether a deadline has passed.

## Theorems

* `Timer.ofNanos_nsec_lt`: A count gives a normalized timer.
* `Timer.value_ofNanos`: A count is what its timer denotes.
-/

namespace HostLayer

/-- The sum of two words, if it is a word. -/
def checkedAdd (a b : UInt64) : Option UInt64 :=
  if a.toNat + b.toNat < word64 then some (a + b) else none

/-- A point in time on some clock. -/
structure Timer where
  sec : UInt64
  nsec : UInt64
  deriving DecidableEq, Repr

namespace Timer

/-- The zero of the clock. -/
def zero : Timer := ⟨0, 0⟩

/-- Nanoseconds in a second, as a word. -/
def second : UInt64 := 1000000000

/-- The nanoseconds that a timer denotes. -/
def value (t : Timer) : Nat :=
  t.sec.toNat * nanosPerSecond + t.nsec.toNat

/-- The nanoseconds stay below one second. -/
def Normalized (t : Timer) : Prop :=
  t.nsec.toNat < nanosPerSecond

instance (t : Timer) : Decidable t.Normalized :=
  inferInstanceAs (Decidable (_ < _))

/-- Whole seconds among the nanoseconds are carried over. -/
def ofParts? (sec nsec : UInt64) : Option Timer :=
  (checkedAdd sec (nsec / second)).map fun s => ⟨s, nsec % second⟩

/-- The timer that denotes `ns` nanoseconds. -/
def ofNanos (ns : UInt64) : Timer :=
  ⟨ns / second, ns % second⟩

/-- The nanoseconds that a timer denotes, cut to the largest word. -/
def toNanos (t : Timer) : UInt64 :=
  UInt64.ofNat (min t.value (word64 - 1))

/-- The sum of two timers; the fields of the operands may hold anything. -/
def add? (a b : Timer) : Option Timer := do
  let nsec ← checkedAdd a.nsec b.nsec
  let sec ← checkedAdd a.sec b.sec
  let carried ← checkedAdd sec (nsec / second)
  return ⟨carried, nsec % second⟩

/-- A timer and a count of nanoseconds. -/
def addNanos? (a : Timer) (ns : UInt64) : Option Timer :=
  a.add? (ofNanos ns)

/-- The nanoseconds from `earlier` to `t`, none if `earlier` is the later
    one. -/
def distance (t earlier : Timer) : UInt64 :=
  UInt64.ofNat (t.toNanos.toNat - earlier.toNanos.toNat)

/-- Seconds decide first, then nanoseconds. -/
def lt (a b : Timer) : Bool :=
  a.sec < b.sec || (a.sec == b.sec && a.nsec < b.nsec)

/-- The order of two timers. -/
def compare (a b : Timer) : Ordering :=
  if a.lt b then .lt else if b.lt a then .gt else .eq

/-- A deadline that still lies ahead at the time `now` is fine. -/
def expired (deadline now : Timer) : Answer Unit :=
  if now.lt deadline then .ok () else .error .timeout

/-- The nanoseconds left until the deadline. -/
def remaining (deadline now : Timer) : UInt64 :=
  deadline.distance now

/-- The fields of a timer as text. -/
def describe (t : Timer) : String :=
  "Timer \x7b sec: " ++ toString t.sec.toNat ++ ", nsec: " ++ toString t.nsec.toNat ++ " \x7d"

theorem ofNanos_nsec_lt (ns : UInt64) : (ofNanos ns).Normalized := by
  have h : ns.toNat % 1000000000 < 1000000000 := Nat.mod_lt _ (by decide)
  simpa [Normalized, ofNanos, second, nanosPerSecond, UInt64.toNat_mod] using h

theorem value_ofNanos (ns : UInt64) : (ofNanos ns).value = ns.toNat := by
  have h := Nat.div_add_mod' ns.toNat 1000000000
  simpa [value, ofNanos, second, nanosPerSecond, UInt64.toNat_mod, UInt64.toNat_div] using h

end Timer

end HostLayer
