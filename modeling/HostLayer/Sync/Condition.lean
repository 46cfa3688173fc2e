import HostLayer.Host.Clock
import HostLayer.Routine
import HostLayer.Sync.Mutex

/-!
# Condition Variables

Waiting for a signal with a mutex given up.

A wait is a routine of three steps: give up one hold of the mutex and go to
sleep, wake up, take the mutex again. A signal takes the thread that sleeps
longest out of the sleepers, a broadcast takes out all. A sleeper wakes when it
is no longer among them, or when its deadline has passed; it returns only after
it has the mutex again, and where that fails the failure is what it returns.

Every condition variable measures deadlines on the clock that it was made on.

## Main definitions

* `Condition`: A condition variable.
* `Condition.signal`, `Condition.broadcast`: Waking sleepers.
* `Condition.Place`: Where a wait stands.
* `Condition.step`: The steps of a wait.
* `Condition.Place.recalled`: A wait that is cut short.

## Theorems

* `Condition.signal_sleepers_subset`: A signal puts nobody to sleep.
-/

namespace HostLayer

/-- A condition variable: its clock and the threads that sleep on it, the one
    that sleeps longest first. -/
structure Condition where
  clock : ClockSource
  sleepers : List ThreadId
  deriving DecidableEq, Repr

namespace Condition

/-- A new condition variable on which nobody sleeps. -/
def create (clock : ClockSource) : Condition := ⟨clock, []⟩

/-- Wake the thread that sleeps longest. -/
def signal (c : Condition) : Condition :=
  { c with sleepers := c.sleepers.drop 1 }

/-- Wake all threads. -/
def broadcast (c : Condition) : Condition :=
  { c with sleepers := [] }

/-- A thread goes to sleep. -/
def putToSleep (c : Condition) (t : ThreadId) : Condition :=
  { c with sleepers := c.sleepers ++ [t] }

/-- A thread stops sleeping without a signal. -/
def remove (c : Condition) (t : ThreadId) : Condition :=
  { c with sleepers := c.sleepers.filter (· != t) }

/-- Where a wait stands. -/
inductive Place
  /-- The mutex has not been given up yet. -/
  | entering
  /-- The thread sleeps. -/
  | asleep
  /-- The thread is awake, with the reason for it, and takes the mutex. -/
  | returning (why : Except Errno Unit)

/-- Where a sleeper goes on that is told to end. -/
def Place.recalled : Place := .returning (.ok ())

/-- The causes for the host's reasons at the end of a wait. -/
def waitCause : Errno.Table
  | .timedOut => some .timeout
  | e => lockCause e

/-- A condition variable together with the mutex that a wait gives up. -/
structure WaitState where
  condition : Condition
  mutex : Host.Mutex

/-- A wait can have the deadline: it is normalized, if there is one. -/
def accepts : Option Timer → Bool
  | none => true
  | some t => t.Normalized

/-- The deadline of a wait has passed. -/
def late (c : Condition) (clock : Clock) : Option Timer → Bool
  | none => false
  | some t => (HostTime.ofTimer t).reached (clock.nanos c.clock)

/-- The host call for a wait, with a deadline or without. -/
def call : Option Timer → String
  | none => "pthread_cond_wait"
  | some _ => "pthread_cond_timedwait"

/-- The end of a wait. -/
def finish (deadline : Option Timer) (s : WaitState) (r : Except Errno Unit) :
    Step WaitState Place (Answer Unit) :=
  let (answer, notes) := Errno.answer waitCause (call deadline) r
  .done s answer notes

/-- One step of the wait of the thread `c`, at a time that `clock` shows. -/
def step (c : Caller) (deadline : Option Timer) (clock : Clock) (s : WaitState) :
    Place → Step WaitState Place (Answer Unit)
  | .entering =>
      if !accepts deadline then .done s (.error .invalidParam) []
      else match s.mutex.releaseToWait c.thread with
        | (m, .ok ()) => .goto ⟨s.condition.putToSleep c.thread, m⟩ .asleep []
        | (m, .error e) => finish deadline { s with mutex := m } (.error e)
  | .asleep =>
      if !s.condition.sleepers.contains c.thread then .goto s (.returning (.ok ())) []
      else if s.condition.late clock deadline then
        .goto { s with condition := s.condition.remove c.thread } (.returning (.error .timedOut)) []
      else .waits
  | .returning why =>
      match s.mutex.retake c with
      | .waiting => .waits
      | .settled m (.ok ()) => finish deadline { s with mutex := m } why
      | .settled m (.error e) => finish deadline { s with mutex := m } (.error e)

/-- The condition variable as text. -/
def describe : String := "Condvar \x7b .. \x7d"

theorem signal_sleepers_subset (c : Condition) : c.signal.sleepers ⊆ c.sleepers :=
  List.drop_subset 1 c.sleepers

end Condition

end HostLayer
