import HostLayer.Host.Clock
import HostLayer.Host.Errno
import HostLayer.Routine
import HostLayer.Word.SyncAttr

/-!
# Counting Semaphores

Tokens that tasks put down and take.

Waiting is a routine. With a deadline, each attempt computes the deadline for
the host anew, because the host takes it on the clock of the day; a signal that
interrupts the sleep starts a new attempt, so that the wait ends neither early
nor late. Without a deadline a signal ends the wait. A token that is there is
taken even if the deadline has passed.

## Main definitions

* `Semaphore`: The number of tokens.
* `Semaphore.maximum`: The largest number of tokens.
* `Semaphore.create`, `Semaphore.post`, `Semaphore.tryWait`: The calls that do
  not wait.
* `Semaphore.take?`: One token less, if there is one.
* `Semaphore.Place`, `Semaphore.step`: Waiting, with or without a deadline.
* `Semaphore.interrupted`: A signal during a wait.

## Theorems

* `Semaphore.put_value`: Putting a token down adds one.
* `Semaphore.take?_value`: Taking a token takes one away.
* `Semaphore.value_of_take?_none`: If there is none to take, there is none.
-/

namespace HostLayer

/-- A semaphore with a number of tokens. -/
structure Semaphore where
  value : Nat
  deriving DecidableEq, Repr

namespace Semaphore

/-- The largest number of tokens. -/
def maximum : Nat := 2147483647

/-- The causes for the host's reasons when a token is put down. -/
def postCause : Errno.Table
  | .overflow => some .operationFailed
  | .invalid => some .invalidParam
  | _ => none

/-- The causes for the host's reasons when a token is taken. -/
def waitCause : Errno.Table
  | .interrupted => some .interrupted
  | .tryAgain => some .busy
  | .timedOut => some .timeout
  | .invalid => some .invalidParam
  | _ => none

/-- A semaphore with `value` tokens. -/
def create (value : Nat) : Answer Semaphore :=
  if value ≤ maximum then .ok ⟨value⟩ else .error .invalidParam

/-- The host puts one more token down. -/
def put (s : Semaphore) : Except Errno Semaphore :=
  if s.value < maximum then .ok ⟨s.value + 1⟩ else .error .overflow

/-- One token less, if there is one. -/
def take? (s : Semaphore) : Option Semaphore :=
  match s.value with
  | 0 => none
  | n + 1 => some ⟨n⟩

/-- Put one token down. -/
def post (s : Semaphore) : Semaphore × Answer Unit :=
  match s.put with
  | .ok s' => (s', .ok ())
  | .error e => (s, .error (Errno.translate postCause "sem_post" e).1)

/-- Take a token if there is one. -/
def tryWait (s : Semaphore) : Semaphore × Answer Unit :=
  match s.take? with
  | some s' => (s', .ok ())
  | none => (s, .error .busy)

/-- Where a wait stands. -/
inductive Place
  /-- The host is about to be asked. -/
  | asking
  /-- The thread sleeps, at most until the given time of day if there is one. -/
  | asleep (limit : Option HostTime)
  deriving DecidableEq, Repr

/-- The deadline for the host, if it takes the one that the caller gave. -/
def limit? (source : ClockSource) (deadline : Option Timer) (clock : Clock) :
    Option (Option HostTime) :=
  match deadline with
  | none => some none
  | some d => (clock.wallDeadline? source d).map some

/-- The time of day is not before the limit, if there is one. -/
def late (clock : Clock) : Option HostTime → Bool
  | none => false
  | some limit => limit.reached clock.realtime

/-- One step of a wait with or without a deadline on the clock `source`, at a
    time that `clock` shows. -/
def step (source : ClockSource) (deadline : Option Timer) (clock : Clock) (s : Semaphore) :
    Place → Step Semaphore Place (Answer Unit)
  | .asking =>
      match limit? source deadline clock with
      | none => .done s (.error .invalidParam) []
      | some limit =>
          match s.take? with
          | some s' => .done s' (.ok ()) []
          | none => .goto s (.asleep limit) []
  | .asleep limit =>
      match s.take? with
      | some s' => .done s' (.ok ()) []
      | none => if late clock limit then .done s (.error .timeout) [] else .waits

/-- A signal arrives: a wait without a deadline ends, one with a deadline asks
    the host again. -/
def interrupted (deadline : Option Timer) : Place → Place ⊕ Error
  | .asking => .inl .asking
  | .asleep _ => if deadline.isNone then .inr .interrupted else .inl .asking

/-- The semaphore as text. -/
def describe (s : Semaphore) : String :=
  "Semaphore \x7b value: Some(" ++ toString s.value ++ ") \x7d"

theorem put_value {s s' : Semaphore} (h : s.put = .ok s') : s'.value = s.value + 1 := by
  unfold put at h
  split at h
  next => rw [← Except.ok.inj h]
  next => exact absurd h (by simp)

theorem take?_value {s s' : Semaphore} (h : s.take? = some s') : s.value = s'.value + 1 := by
  unfold take? at h
  split at h
  next => exact absurd h (by simp)
  next n hn => rw [← Option.some.inj h, hn]

theorem value_of_take?_none {s : Semaphore} (h : s.take? = none) : s.value = 0 := by
  unfold take? at h
  split at h
  next hn => exact hn
  next => exact absurd h (by simp)

end Semaphore

end HostLayer
