import HostLayer.Diagnostic
import HostLayer.Host.Clock

/-!
# Kernel

The state that a whole process shares: which clock deadlines are meant on.

The clock can be chosen freely until the first condition variable is made.
From then on it is pinned, so that all condition variables and all deadlines
agree. Starting the library and shutting it down leave the pin alone.

## Main definitions

* `Kernel`: The clock, its pin, and whether the library has been started.
* `Kernel.setClock`, `Kernel.init`, `Kernel.destroy`, `Kernel.pin`: The calls.

## Theorems

* `Kernel.setClock_busy_iff`: Only a pin to the other clock is in the way.
-/

namespace HostLayer

/-- The state of the library in a process. -/
structure Kernel where
  clock : ClockSource
  /-- Condition variables exist that were made on the clock. -/
  pinned : Bool
  initialized : Bool
  deriving DecidableEq, Repr

namespace Kernel

/-- The state at the start of a process. -/
def fresh : Kernel := ⟨.monotonic, false, false⟩

/-- Choose the clock. -/
def setClock (k : Kernel) (clock : ClockSource) : Kernel × Answer Unit :=
  if k.pinned ∧ k.clock ≠ clock then (k, .error .busy)
  else ({ k with clock := clock }, .ok ())

/-- Start the library with a clock. -/
def init (k : Kernel) (clock : ClockSource) : Kernel × Answer Unit × List Note :=
  match k.setClock clock with
  | (k', .error e) => (k', .error e, [])
  | (k', .ok ()) =>
      ({ k' with initialized := true }, .ok (),
        [.debug ("osal initialized with " ++ clock.name ++ " clock")])

/-- Shut the library down. -/
def destroy (k : Kernel) : Kernel :=
  { k with initialized := false }

/-- Pin the clock for a condition variable, which is to be made on the clock
    that is given back. -/
def pin (k : Kernel) : Kernel × ClockSource :=
  ({ k with pinned := true }, k.clock)

theorem setClock_busy_iff (k : Kernel) (clock : ClockSource) :
    (k.setClock clock).2 = .error .busy ↔ k.pinned ∧ k.clock ≠ clock := by
  unfold setClock
  split
  next h => simp [h]
  next h => simp [h]

end Kernel

end HostLayer
