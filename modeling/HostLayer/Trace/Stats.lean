import HostLayer.Limits
import HostLayer.Numeric.Root

/-!
# Sample Statistics

Mean, spread and largest deviation of a list of samples.

The mean is cut to a whole number before deviations are taken from it. Sums
are kept in words of 128 bits; a sum that does not fit has no statistics.

## Main definitions

* `Stats`: The three numbers.
* `Stats.total`: The sum of a list.
* `Stats.mean`: The whole part of the mean.
* `Stats.deviation`: The distance of a sample from the mean.
* `Stats.ofSamples?`: The statistics of a list of samples.
* `Stats.ofTimes?`: The statistics of the steps between time stamps.

## Theorems

* `Stats.ofSamples?_nil`: No samples give zeros.
-/

namespace HostLayer

/-- Statistics of samples, in the unit of the samples. -/
structure Stats where
  /-- The mean. -/
  avg : Nat
  /-- The root of the mean squared deviation. -/
  avgJitter : Nat
  /-- The largest deviation. -/
  maxJitter : Nat
  deriving DecidableEq, Repr

namespace Stats

/-- How many values a word for sums has. -/
def sumLimit : Nat := word64 * word64

/-- The sum of a list. -/
def total (xs : List Nat) : Nat :=
  xs.foldr (fun x acc => x + acc) 0

/-- A sum that fits its word. -/
def checkedSum (xs : List Nat) : Option Nat :=
  if total xs < sumLimit then some (total xs) else none

/-- The statistics of nothing. -/
def zero : Stats := ⟨0, 0, 0⟩

/-- The whole part of the mean. -/
def mean (xs : List Nat) : Nat :=
  total xs / xs.length

/-- How far a sample is from `avg`. -/
def deviation (avg x : Nat) : Nat :=
  (x - avg) + (avg - x)

/-- The squared deviations from `avg`. -/
def squares (avg : Nat) (xs : List Nat) : List Nat :=
  xs.map fun x => deviation avg x * deviation avg x

/-- The largest deviation from `avg`. -/
def largestDeviation (avg : Nat) (xs : List Nat) : Nat :=
  xs.foldl (fun acc x => max acc (deviation avg x)) 0

/-- The statistics of a list of samples, unless a sum leaves its word. -/
def ofSamples? (xs : List Nat) : Option Stats :=
  if xs.isEmpty then some zero
  else do
    let sum ← checkedSum xs
    let avg := sum / xs.length
    let squareSum ← checkedSum (squares avg xs)
    return {
      avg := avg
      avgJitter := min (Numeric.roundedRoot (squareSum / xs.length)) (word64 - 1)
      maxJitter := largestDeviation avg xs }

/-- The steps from each time stamp to the next, around the end of the word. -/
def steps (times : List UInt64) : List Nat :=
  (times.zip (times.drop 1)).map fun p => (p.2 - p.1).toNat

/-- The statistics of the steps between time stamps. -/
def ofTimes? (times : List UInt64) : Option Stats :=
  ofSamples? (steps times)

/-- The three numbers as text. -/
def describe (s : Stats) : String :=
  "TraceStats \x7b avg: " ++ toString s.avg ++ ", avg_jit: " ++ toString s.avgJitter
    ++ ", max_jit: " ++ toString s.maxJitter ++ " \x7d"

theorem ofSamples?_nil : ofSamples? [] = some zero := rfl

end Stats

end HostLayer
