import HostLayer.Ipc.Queue
import HostLayer.Proofs.Ipc.Transfer
import HostLayer.Proofs.Slot.Moves
import HostLayer.Proofs.Timed.Call
import HostLayer.Sleep
import HostLayer.Sync.Semaphore

/-!
# Kinds of Timed Calls

The calls of the library that have a deadline.

There are five kinds. A token of a semaphore is taken, the token of a slot is
taken, a wait on a condition variable is signalled, a message is sent or received,
and a sleep ends. The first and the fourth give the host a deadline on the time of
day and ask again after a signal; for the others a signal changes nothing.

Not everything can happen to what a call works on. The clock of a slot and that of
a condition variable are those that they were made on. The mutex of a slot is a
plain one, and nobody takes it from a thread that holds it. The mutex of a
condition variable, the tokens of a semaphore and a queue are at the mercy of
others at any time.

## Main definitions

* `TimedCall.tokens`: Taking a token of a semaphore.
* `TimedCall.slot`: Taking the token of a slot.
* `TimedCall.condition`: Waiting on a condition variable.
* `TimedCall.transfer`: Sending or receiving a message.
* `TimedCall.sleep`: Sleeping.
-/

namespace HostLayer

instance (m : Host.Mutex) : Decidable m.Plain :=
  decidable_of_iff
    (m.kind = .normal ∧ m.robust = false ∧ m.protocol = .none ∧ m.health = .sound)
    ⟨fun h => ⟨h.1, h.2.1, h.2.2.1, h.2.2.2⟩,
      fun h => ⟨h.kind_eq, h.robust_eq, h.protocol_eq, h.health_eq⟩⟩

namespace TimedCall

variable (source : ClockSource)

/-- Taking a token of a semaphore. -/
@[reducible] def tokens : TimedCall where
  source := source
  State := Semaphore
  Place := Semaphore.Place
  Result := Unit
  start := .asking
  step d clock _ s p := Semaphore.step source (some d) clock s p
  signalled d p := Semaphore.interrupted (some d) p
  Sane _ _ _ := True
  Faulty _ := False
  Expires r := r = .error .timeout
  decideSane _ _ _ := instDecidableTrue

/-- Taking the token of a slot. -/
@[reducible] def slot : TimedCall where
  source := source
  State := BinarySemaphore
  Place := BinarySemaphore.Place
  Result := Unit
  start := .entering
  step d clock c s p := BinarySemaphore.step c (.timedWait d) clock s p
  signalled _ p := .inl p
  Sane t p s := s.condition.clock = source ∧ s.mutex.Plain ∧
    (p.inside = true → s.mutex.holder = some t)
  Faulty _ := False
  Expires r := r = .error .timeout
  decideSane _ _ _ := inferInstanceAs (Decidable (_ ∧ _ ∧ (_ → _)))

/-- Waiting on a condition variable. A mutex with a ceiling does not let
    everybody come back. -/
@[reducible] def condition : TimedCall where
  source := source
  State := Condition.WaitState
  Place := Condition.Place
  Result := Unit
  start := .entering
  step d clock c s p := Condition.step c (some d) clock s p
  signalled _ p := .inl p
  Sane _ _ s := s.condition.clock = source
  Faulty s := s.mutex.protocol = .protect
  Expires r := r = .error .timeout
  decideSane _ _ _ := inferInstanceAs (Decidable (_ = _))

/-- Sending or receiving a message over a handle. A message can be too long, a
    buffer too short, and a priority can be none. -/
@[reducible] def transfer (h : QueueHandle) (r : QueueHandle.Request) : TimedCall where
  source := source
  State := Host.Queue
  Place := QueueHandle.Place
  Result := Option Host.QueueMessage
  start := .checking
  step d clock _ q p := h.step r source (some d) clock q p
  signalled d p := QueueHandle.interrupted (some d) p
  Sane _ _ _ := True
  Faulty q := h.fits r = false ∨ r.Malformed q
  Expires r := r = .error .timeout
  decideSane _ _ _ := instDecidableTrue

/-- Sleeping until a deadline. What is said of a timeout elsewhere is said of the
    end of the sleep here. -/
@[reducible] def sleep : TimedCall where
  source := source
  State := Unit
  Place := Sleep.Place
  Result := Unit
  start := .asking
  step d clock _ _ p := Sleep.step source d clock p
  signalled _ p := .inl p
  Sane _ _ _ := True
  Faulty _ := False
  Expires r := r = .ok ()
  decideSane _ _ _ := instDecidableTrue

end TimedCall

end HostLayer
