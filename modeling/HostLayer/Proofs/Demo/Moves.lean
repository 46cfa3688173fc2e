import HostLayer.Demo.Mailbox
import HostLayer.Proofs.Host.PlainMutex

/-!
# Mailbox Moves

The steps of the two sides of a mailbox, with nothing of the host in them.

A step runs through the rules of the mutex and of the semaphores. Here it is taken
apart for the only situation that comes up: the mutex is plain, whoever wants it
finds it free, and there is room for one more token. Then a side does one of a few
things, which do not depend on where in its text it stands. `Tally` counts them, so
that a place of either side is a tally, and `Move` says what they do to the mailbox
and to the tally.

The two sides differ only in their names for things. What is free to the producer is
filled to the consumer, so the moves are written for a side that takes free slots
and puts down filled ones, and the consumer makes them on the mailbox that is
`turned`.

## Main definitions

* `Demo.Mailbox.Access`: A use of the slot.
* `Demo.Mailbox.Tally`: What a side has done so far.
* `Demo.Mailbox.Producer.Stands`, `Demo.Mailbox.Consumer.Stands`: The tally of a place.
* `Demo.Mailbox.Tally.Able`: A side can go on.
* `Demo.Mailbox.Manner`: How a side uses the slot.
* `Demo.Mailbox.Move`: One thing that a side does.
* `Demo.Mailbox.Ready`: What a side relies on.

## Theorems

* `Demo.Mailbox.Producer.stands_move`, `Demo.Mailbox.Consumer.stands_move`: A step is a
  move.
* `Demo.Mailbox.Producer.stands_signal`, `Demo.Mailbox.Consumer.stands_signal`: A signal
  changes nothing that counts.
* `Demo.Mailbox.Producer.Stands.steady`, `Demo.Mailbox.Consumer.Stands.steady`: How the
  numbers of a tally lie.
* `Demo.Mailbox.Move.closer`, `Demo.Mailbox.Move.full_le`: A side that can go on comes
  closer to its end, and no side takes the other's tokens.
-/

namespace HostLayer

namespace Demo

namespace Mailbox

/-- A use of the slot. -/
inductive Access
  /-- The number is put into the slot. -/
  | stored (n : Nat)
  /-- The number is found in the slot. -/
  | loaded (n : Nat)
  deriving DecidableEq, Repr

/-- What a side has done so far, and how it stands. -/
structure Tally where
  /-- The tokens that it has taken. -/
  taken : Nat
  /-- How often it has used the slot. -/
  used : Nat
  /-- What its counter shows. -/
  counted : Nat
  /-- The tokens that it has put down. -/
  posted : Nat
  /-- It holds the mutex. -/
  inside : Bool
  /-- It needs a token to go on. -/
  asks : Bool
  /-- The steps up to its end, without those in which it finds no token. -/
  ahead : Nat

/-- A wait at this place has no deadline. -/
def Undated (place : Semaphore.Place) : Prop :=
  place = .asking ∨ place = .asleep none

/-- The producer stands somewhere in `rounds` numbers, of which it has handed over `n` and
    has `m` more to begin. -/
inductive Producer.Stands (rounds : Nat) : Side Producer → Tally → Prop
  | waiting (n m : Nat) (place : Semaphore.Place) (h : n + m = rounds) (hplace : Undated place) :
      Stands rounds (.inl (.waiting (n + 1) place)) ⟨n, n, n, n, false, decide (0 < m), 8 * m + 1⟩
  | locking (n m : Nat) (h : n + 1 + m = rounds) :
      Stands rounds (.inl (.locking (n + 1))) ⟨n + 1, n, n, n, false, false, 8 * m + 8⟩
  | storing (n m : Nat) (h : n + 1 + m = rounds) :
      Stands rounds (.inl (.storing (n + 1))) ⟨n + 1, n, n, n, true, false, 8 * m + 7⟩
  | unlocking (n m : Nat) (h : n + 1 + m = rounds) :
      Stands rounds (.inl (.unlocking (n + 1))) ⟨n + 1, n + 1, n, n, true, false, 8 * m + 6⟩
  | counting (n m : Nat) (h : n + 1 + m = rounds) :
      Stands rounds (.inl (.counting (n + 1))) ⟨n + 1, n + 1, n, n, false, false, 8 * m + 5⟩
  | posting (n m : Nat) (h : n + 1 + m = rounds) :
      Stands rounds (.inl (.posting (n + 1))) ⟨n + 1, n + 1, n + 1, n, false, false, 8 * m + 4⟩
  | printing (n m : Nat) (h : n + 1 + m = rounds) :
      Stands rounds (.inl (.printing (n + 1)))
        ⟨n + 1, n + 1, n + 1, n + 1, false, false, 8 * m + 3⟩
  | pausing (n m : Nat) (h : n + 1 + m = rounds) :
      Stands rounds (.inl (.pausing (n + 1)))
        ⟨n + 1, n + 1, n + 1, n + 1, false, false, 8 * m + 2⟩
  | ended : Stands rounds (.inr (.ok ())) ⟨rounds, rounds, rounds, rounds, false, false, 0⟩

/-- The same for the consumer. The number that it carries is not looked at. -/
inductive Consumer.Stands (rounds : Nat) : Side Consumer → Tally → Prop
  | waiting (n m : Nat) (place : Semaphore.Place) (h : n + m = rounds) (hplace : Undated place) :
      Stands rounds (.inl (.waiting m place)) ⟨n, n, n, n, false, decide (0 < m), 7 * m + 1⟩
  | locking (n m : Nat) (h : n + 1 + m = rounds) :
      Stands rounds (.inl (.locking m)) ⟨n + 1, n, n, n, false, false, 7 * m + 7⟩
  | loading (n m : Nat) (h : n + 1 + m = rounds) :
      Stands rounds (.inl (.loading m)) ⟨n + 1, n, n, n, true, false, 7 * m + 6⟩
  | unlocking (n m v : Nat) (h : n + 1 + m = rounds) :
      Stands rounds (.inl (.unlocking m v)) ⟨n + 1, n + 1, n, n, true, false, 7 * m + 5⟩
  | posting (n m v : Nat) (h : n + 1 + m = rounds) :
      Stands rounds (.inl (.posting m v)) ⟨n + 1, n + 1, n, n, false, false, 7 * m + 4⟩
  | counting (n m v : Nat) (h : n + 1 + m = rounds) :
      Stands rounds (.inl (.counting m v)) ⟨n + 1, n + 1, n, n + 1, false, false, 7 * m + 3⟩
  | printing (n m v : Nat) (h : n + 1 + m = rounds) :
      Stands rounds (.inl (.printing m v))
        ⟨n + 1, n + 1, n + 1, n + 1, false, false, 7 * m + 2⟩
  | ended : Stands rounds (.inr (.ok ())) ⟨rounds, rounds, rounds, rounds, false, false, 0⟩

/-- What the producer is about to do with the slot. -/
def Producer.access : Side Producer → List Access
  | .inl (.storing n) => [.stored n]
  | _ => []

/-- What the consumer is about to do with the slot. -/
def Consumer.access (s : Mailbox) : Side Consumer → List Access
  | .inl (.loading _) => [.loaded s.slot]
  | _ => []

/-- The mailbox as it looks from the other side. -/
def turned (s : Mailbox) : Mailbox :=
  { s with full := s.empty, empty := s.full, produced := s.consumed, consumed := s.produced }

section Tallies

variable {rounds : Nat} {d : Tally}

/-- How the numbers of a tally lie. No number is more than one ahead of another, and a side
    that holds the mutex has a token that it has not passed on. -/
structure Tally.Steady (rounds : Nat) (d : Tally) : Prop where
  taken_le : d.taken ≤ rounds
  used_le : d.used ≤ d.taken
  posted_le : d.posted ≤ d.used
  taken_near : d.taken ≤ d.posted + 1
  counted_le : d.counted ≤ d.used
  counted_near : d.used ≤ d.counted + 1
  inside_taken : d.inside = true → d.taken = d.posted + 1
  asks_even : d.asks = true → d.taken = d.posted ∧ d.taken < rounds
  arrived : d.ahead = 0 → d.posted = rounds ∧ d.counted = rounds
  ahead_le : d.ahead ≤ 8 * rounds + 1

theorem Producer.Stands.steady {side : Side Producer} (h : Stands rounds side d) :
    d.Steady rounds := by
  -- A few numbers to be compared at each place, none of which needs an argument.
  cases h <;> constructor <;> intros <;>
    simp_all only [decide_eq_true_eq, reduceCtorEq, true_and] <;> omega

theorem Consumer.Stands.steady {side : Side Consumer} (h : Stands rounds side d) :
    d.Steady rounds := by
  cases h <;> constructor <;> intros <;>
    simp_all only [decide_eq_true_eq, reduceCtorEq, true_and] <;> omega

/-- A side that has no steps ahead has ended well. -/
theorem Producer.Stands.ahead_eq_zero {side : Side Producer} (h : Stands rounds side d)
    (hzero : d.ahead = 0) : side = .inr (.ok ()) := by
  cases h with
  | ended => rfl
  | _ => exact absurd hzero (Nat.succ_ne_zero _)

theorem Consumer.Stands.ahead_eq_zero {side : Side Consumer} (h : Stands rounds side d)
    (hzero : d.ahead = 0) : side = .inr (.ok ()) := by
  cases h with
  | ended => rfl
  | _ => exact absurd hzero (Nat.succ_ne_zero _)

/-- A side that has ended has ended well, after all its rounds. -/
theorem Producer.Stands.of_ended {r : Answer Unit} (h : Stands rounds (.inr r) d) :
    r = .ok () ∧ d = ⟨rounds, rounds, rounds, rounds, false, false, 0⟩ := by
  cases h with
  | ended => exact ⟨rfl, rfl⟩

theorem Consumer.Stands.of_ended {r : Answer Unit} (h : Stands rounds (.inr r) d) :
    r = .ok () ∧ d = ⟨rounds, rounds, rounds, rounds, false, false, 0⟩ := by
  cases h with
  | ended => exact ⟨rfl, rfl⟩

end Tallies

/-- A side that takes free slots has not ended, and if it needs a token, there is one. -/
def Tally.Able (d : Tally) (s : Mailbox) : Prop :=
  0 < d.ahead ∧ (d.asks = true → 0 < s.empty.value)

theorem Tally.able_or (d : Tally) (s : Mailbox) :
    d.Able s ∨ d.ahead = 0 ∨ (d.asks = true ∧ s.empty.value = 0) := by
  rcases Nat.eq_zero_or_pos d.ahead with hzero | hpos
  · exact Or.inr (Or.inl hzero)
  · rcases Nat.eq_zero_or_pos s.empty.value with hnone | hsome
    · cases hasks : d.asks with
      | true => exact Or.inr (Or.inr ⟨rfl, hnone⟩)
      | false => exact Or.inl ⟨hpos, fun h => absurd (hasks ▸ h) Bool.false_ne_true⟩
    · exact Or.inl ⟨hpos, fun _ => hsome⟩

/-- How a side uses the slot. -/
structure Manner where
  thread : ThreadId
  /-- What is in the slot afterwards and what is seen of that, from what is in it before and
      how often the side has then used it. -/
  use : Nat → Nat → Nat × Access

/-- The producer puts its numbers into the slot. -/
def Producer.manner : Manner := ⟨producerThread.thread, fun _ n => (n, .stored n)⟩

/-- The consumer finds a number there and leaves it. -/
def Consumer.manner : Manner := ⟨consumerThread.thread, fun slot _ => (slot, .loaded slot)⟩

/-- One thing that a side does, which takes free slots and puts down filled ones. -/
inductive Move (me : Manner) (s : Mailbox) (d : Tally) : Mailbox → Tally → List Access → Prop
  /-- It cannot go on. -/
  | idle (h : ¬ d.Able s) : Move me s d s d []
  /-- It does something that does not count here. -/
  | proceed (lines : List String) (asks : Bool) (less : Nat) (h : less < d.ahead) :
      Move me s d { s with lines := lines } { d with asks := asks, ahead := less } []
  /-- It takes a token. -/
  | take (e : Semaphore) (less : Nat) (he : s.empty.value = e.value + 1) (h : less < d.ahead) :
      Move me s d { s with empty := e }
        { d with taken := d.taken + 1, asks := false, ahead := less } []
  /-- It takes the mutex. -/
  | lock (less : Nat) (htaken : d.taken = d.posted + 1) (h : less < d.ahead) :
      Move me s d { s with lock := { s.lock with raw := s.lock.raw.taken me.thread } }
        { d with inside := true, ahead := less } []
  /-- It uses the slot. -/
  | use (less : Nat) (htaken : d.used < d.taken) (h : less < d.ahead) :
      Move me s d { s with slot := (me.use s.slot (d.used + 1)).1 }
        { d with used := d.used + 1, ahead := less } [(me.use s.slot (d.used + 1)).2]
  /-- It gives the mutex up. -/
  | unlock (less : Nat) (hinside : d.inside = true) (h : less < d.ahead) :
      Move me s d { s with lock := { s.lock with raw := s.lock.raw.freed } }
        { d with inside := false, ahead := less } []
  /-- It counts. -/
  | count (less : Nat) (h : less < d.ahead) :
      Move me s d { s with produced := s.produced + 1 }
        { d with counted := d.counted + 1, ahead := less } []
  /-- It puts a token down. -/
  | post (f : Semaphore) (less : Nat) (hf : f.value = s.full.value + 1) (h : less < d.ahead) :
      Move me s d { s with full := f } { d with posted := d.posted + 1, ahead := less } []

namespace Move

variable {me : Manner} {s s' : Mailbox} {d d' : Tally} {new : List Access}

/-- No move leads away from the end, and a side that can go on comes closer to it. -/
theorem closer (h : Move me s d s' d' new) :
    d'.ahead ≤ d.ahead ∧ (d.Able s → d'.ahead < d.ahead) := by
  cases h with
  | idle hnot => exact ⟨Nat.le_refl _, fun hable => absurd hable hnot⟩
  | _ => exact ⟨Nat.le_of_lt ‹_›, fun _ => ‹_›⟩

/-- The tokens for the other side do not get fewer. -/
theorem full_le (h : Move me s d s' d' new) : s.full.value ≤ s'.full.value := by
  cases h with
  | post f less hf _ => exact hf ▸ Nat.le_succ _
  | _ => exact Nat.le_refl _

/-- The slot is used by one kind of move only. -/
theorem used_cases (h : Move me s d s' d' new) :
    (d'.used = d.used ∧ s'.slot = s.slot ∧ new = []) ∨
      (d.used < d.taken ∧ d'.used = d.used + 1 ∧ s'.slot = (me.use s.slot (d.used + 1)).1 ∧
        new = [(me.use s.slot (d.used + 1)).2]) := by
  cases h with
  | use less htaken _ => exact Or.inr ⟨htaken, rfl, rfl, rfl⟩
  | _ => exact Or.inl ⟨rfl, rfl, rfl⟩

end Move

/-- What a side relies on when it gets a turn. -/
structure Ready (me : Manner) (s : Mailbox) (d : Tally) : Prop where
  plain : s.lock.raw.Plain
  /-- With a token that it has not passed on it finds the mutex free. -/
  free : d.taken = d.posted + 1 → d.inside = false → s.lock.raw.holder = none
  held : d.inside = true → s.lock.raw.holder = some me.thread
  room : s.full.value < Semaphore.maximum

section Steps

variable {π : Type} {s s' : Mailbox} {step : Mailbox → π → Step Mailbox π (Answer Unit)}

theorem moved_goto {p q : π} {notes : List Note} (h : step s p = .goto s' q notes) :
    moved s (.inl p) step = (s', .inl q) := by
  rw [moved]
  simp only [h]

theorem moved_done {p : π} {r : Answer Unit} {notes : List Note} (h : step s p = .done s' r notes) :
    moved s (.inl p) step = (s', .inr r) := by
  rw [moved]
  simp only [h]

theorem moved_waits {p : π} (h : step s p = .waits) : moved s (.inl p) step = (s, .inl p) := by
  rw [moved]
  simp only [h]

/-- A wait without a deadline takes a token if there is one, and else nothing is changed that
    counts. -/
theorem moved_awaited {sem : Semaphore} {put : Semaphore → Mailbox} {next : π}
    {at_ : Semaphore.Place → π} {place : Semaphore.Place} (hplace : Undated place)
    (hstep : step s (at_ place) = awaited sem put next at_ place) (hput : put sem = s) :
    (∃ e, sem.value = e.value + 1 ∧ moved s (.inl (at_ place)) step = (put e, .inl next)) ∨
      (sem.value = 0 ∧ ∃ place', Undated place' ∧
        moved s (.inl (at_ place)) step = (s, .inl (at_ place'))) := by
  cases htake : sem.take? with
  | some e =>
      have hgoto : step s (at_ place) = .goto (put e) next [] := by
        rcases hplace with rfl | rfl <;>
          simp only [hstep, awaited, Semaphore.step, Semaphore.limit?, htake, Step.lift, afterWait]
      exact Or.inl ⟨e, Semaphore.take?_value htake, moved_goto hgoto⟩
  | none =>
      refine Or.inr ⟨Semaphore.value_of_take?_none htake, .asleep none, Or.inr rfl, ?_⟩
      rcases hplace with rfl | rfl
      · have hgoto : step s (at_ .asking) = .goto s (at_ (.asleep none)) [] := by
          simp only [hstep, awaited, Semaphore.step, Semaphore.limit?, htake, Step.lift, hput]
        exact moved_goto hgoto
      · have hwaits : step s (at_ (.asleep none)) = .waits := by
          simp only [hstep, awaited, Semaphore.step, htake, Semaphore.late, Bool.false_eq_true,
            if_false, Step.lift]
        exact moved_waits hwaits

/-- A signal during a wait without a deadline begins the wait again at most. -/
theorem moved_signalled {next : π} {at_ : Semaphore.Place → π} {place : Semaphore.Place}
    (hplace : Undated place) (hstep : step s (at_ place) = signalled s next at_ place) :
    moved s (.inl (at_ place)) step = (s, .inl (at_ .asking)) := by
  have hgoto : step s (at_ place) = .goto s (at_ .asking) [] := by
    rcases hplace with rfl | rfl <;> rw [hstep] <;> rfl
  exact moved_goto hgoto

/-- A step that takes the mutex when it is free. -/
theorem moved_locked {c : Caller} {p next : π} (hstep : step s p = locked c s next)
    (hplain : s.lock.raw.Plain) (hfree : s.lock.raw.holder = none) :
    moved s (.inl p) step
      = ({ s with lock := { s.lock with raw := s.lock.raw.taken c.thread } }, .inl next) := by
  have hgoto : step s p
      = .goto { s with lock := { s.lock with raw := s.lock.raw.taken c.thread } } next [] := by
    rw [hstep, locked, Mutex.lock, hplain.lock_free c hfree]
    rfl
  exact moved_goto hgoto

/-- A step of the holder that gives the mutex up. -/
theorem moved_unlocked {c : Caller} {p next : π} (hstep : step s p = unlocked c s next)
    (hplain : s.lock.raw.Plain) (hheld : s.lock.raw.holder = some c.thread) :
    moved s (.inl p) step
      = ({ s with lock := { s.lock with raw := s.lock.raw.freed } }, .inl next) := by
  have hgoto : step s p
      = .goto { s with lock := { s.lock with raw := s.lock.raw.freed } } next [] := by
    rw [hstep, unlocked, Mutex.dropGuard, Mutex.unlock, hplain.unlock_holder c.thread hheld]
    rfl
  exact moved_goto hgoto

theorem post_room {f : Semaphore} (h : f.value < Semaphore.maximum) :
    f.post = (⟨f.value + 1⟩, .ok ()) := by
  rw [Semaphore.post, Semaphore.put, if_pos h]

end Steps

section Sides

variable {rounds : Nat} {s : Mailbox} {d : Tally}

/-- A step of the producer is a move. -/
theorem Producer.stands_move {side : Side Producer} (h : Stands rounds side d)
    (hready : Ready manner s d) :
    ∃ d', Move manner s d (moved s side (producerStep rounds)).1 d' (access side) ∧
      Stands rounds (moved s side (producerStep rounds)).2 d' := by
  cases h with
  | waiting n m place h hplace =>
      cases m with
      | zero =>
          -- All numbers have been handed over.
          have hstep : producerStep rounds s (.waiting (n + 1) place) = .done s (.ok ()) [] :=
            if_pos (by omega)
          rw [moved_done hstep, show n = rounds from h]
          exact ⟨_, .proceed s.lines false 0 (Nat.succ_pos _), .ended⟩
      | succ m =>
          have hstep : producerStep rounds s (.waiting (n + 1) place)
              = awaited s.empty (fun e => { s with empty := e }) (.locking (n + 1))
                  (.waiting (n + 1)) place :=
            if_neg (by omega)
          rcases moved_awaited hplace hstep rfl with
            ⟨e, he, hmoved⟩ | ⟨hzero, place', hplace', hmoved⟩
          · rw [hmoved]
            exact ⟨_, .take e (8 * m + 8) he (Nat.lt_succ_self _), .locking n m (by omega)⟩
          · rw [hmoved]
            refine ⟨_, .idle fun hable => ?_, .waiting n (m + 1) place' h hplace'⟩
            have hpos : 0 < s.empty.value := hable.2 (decide_eq_true (Nat.succ_pos m))
            omega
  | locking n m h =>
      have hstep : producerStep rounds s (.locking (n + 1))
          = locked producerThread s (.storing (n + 1)) := rfl
      rw [moved_locked hstep hready.plain (hready.free rfl rfl)]
      exact ⟨_, .lock (8 * m + 7) rfl (Nat.lt_succ_self _), .storing n m h⟩
  | storing n m h =>
      exact ⟨_, .use (8 * m + 6) (Nat.lt_succ_self _) (Nat.lt_succ_self _), .unlocking n m h⟩
  | unlocking n m h =>
      have hstep : producerStep rounds s (.unlocking (n + 1))
          = unlocked producerThread s (.counting (n + 1)) := rfl
      rw [moved_unlocked hstep hready.plain (hready.held rfl)]
      exact ⟨_, .unlock (8 * m + 5) rfl (Nat.lt_succ_self _), .counting n m h⟩
  | counting n m h =>
      exact ⟨_, .count (8 * m + 4) (Nat.lt_succ_self _), .posting n m h⟩
  | posting n m h =>
      have hstep : producerStep rounds s (.posting (n + 1))
          = .goto { s with full := ⟨s.full.value + 1⟩ } (.printing (n + 1)) [] := by
        rw [producerStep, post_room hready.room]
      rw [moved_goto hstep]
      exact ⟨_, .post _ (8 * m + 3) rfl (Nat.lt_succ_self _), .printing n m h⟩
  | printing n m h =>
      exact ⟨_, .proceed _ false (8 * m + 2) (Nat.lt_succ_self _), .pausing n m h⟩
  | pausing n m h =>
      exact ⟨_, .proceed s.lines (decide (0 < m)) (8 * m + 1) (Nat.lt_succ_self _),
        .waiting (n + 1) m .asking h (Or.inl rfl)⟩
  | ended => exact ⟨_, .idle fun hable => Nat.lt_irrefl 0 hable.1, .ended⟩

/-- A step of the consumer is a move on the mailbox as the consumer sees it. -/
theorem Consumer.stands_move {side : Side Consumer} (h : Stands rounds side d)
    (hready : Ready manner s.turned d) :
    ∃ d', Move manner s.turned d (moved s side consumerStep).1.turned d' (access s side) ∧
      Stands rounds (moved s side consumerStep).2 d' := by
  cases h with
  | waiting n m place h hplace =>
      cases m with
      | zero =>
          rw [show n = rounds from h]
          exact ⟨_, .proceed s.lines false 0 (Nat.succ_pos _), .ended⟩
      | succ m =>
          have hstep : consumerStep s (.waiting (m + 1) place)
              = awaited s.full (fun f => { s with full := f }) (.locking m) (.waiting (m + 1))
                  place := rfl
          rcases moved_awaited hplace hstep rfl with
            ⟨f, hf, hmoved⟩ | ⟨hzero, place', hplace', hmoved⟩
          · rw [hmoved]
            exact ⟨_, .take f (7 * m + 7) hf (Nat.lt_succ_self _), .locking n m (by omega)⟩
          · rw [hmoved]
            refine ⟨_, .idle fun hable => ?_, .waiting n (m + 1) place' h hplace'⟩
            have hpos : 0 < s.full.value := hable.2 (decide_eq_true (Nat.succ_pos m))
            omega
  | locking n m h =>
      have hstep : consumerStep s (.locking m) = locked consumerThread s (.loading m) := rfl
      rw [moved_locked hstep hready.plain (hready.free rfl rfl)]
      exact ⟨_, .lock (7 * m + 6) rfl (Nat.lt_succ_self _), .loading n m h⟩
  | loading n m h =>
      exact ⟨_, .use (7 * m + 5) (Nat.lt_succ_self _) (Nat.lt_succ_self _), .unlocking n m s.slot h⟩
  | unlocking n m v h =>
      have hstep : consumerStep s (.unlocking m v) = unlocked consumerThread s (.posting m v) := rfl
      rw [moved_unlocked hstep hready.plain (hready.held rfl)]
      exact ⟨_, .unlock (7 * m + 4) rfl (Nat.lt_succ_self _), .posting n m v h⟩
  | posting n m v h =>
      have hstep : consumerStep s (.posting m v)
          = .goto { s with empty := ⟨s.empty.value + 1⟩ } (.counting m v) [] := by
        have hroom : s.empty.value < Semaphore.maximum := hready.room
        rw [consumerStep, post_room hroom]
      rw [moved_goto hstep]
      exact ⟨_, .post _ (7 * m + 3) rfl (Nat.lt_succ_self _), .counting n m v h⟩
  | counting n m v h =>
      exact ⟨_, .count (7 * m + 2) (Nat.lt_succ_self _), .printing n m v h⟩
  | printing n m v h =>
      exact ⟨_, .proceed _ (decide (0 < m)) (7 * m + 1) (Nat.lt_succ_self _),
        .waiting (n + 1) m .asking h (Or.inl rfl)⟩
  | ended => exact ⟨_, .idle fun hable => Nat.lt_irrefl 0 hable.1, .ended⟩

/-- A signal leaves the mailbox and the tally of the producer as they are. -/
theorem Producer.stands_signal {side : Side Producer} (h : Stands rounds side d) :
    (moved s side producerSignal).1 = s ∧ Stands rounds (moved s side producerSignal).2 d := by
  cases h with
  | waiting n m place h hplace =>
      rw [moved_signalled hplace rfl]
      exact ⟨rfl, .waiting n m .asking h (Or.inl rfl)⟩
  | locking n m h => exact ⟨rfl, .locking n m h⟩
  | storing n m h => exact ⟨rfl, .storing n m h⟩
  | unlocking n m h => exact ⟨rfl, .unlocking n m h⟩
  | counting n m h => exact ⟨rfl, .counting n m h⟩
  | posting n m h => exact ⟨rfl, .posting n m h⟩
  | printing n m h => exact ⟨rfl, .printing n m h⟩
  | pausing n m h => exact ⟨rfl, .pausing n m h⟩
  | ended => exact ⟨rfl, .ended⟩

theorem Consumer.stands_signal {side : Side Consumer} (h : Stands rounds side d) :
    (moved s side consumerSignal).1 = s ∧ Stands rounds (moved s side consumerSignal).2 d := by
  cases h with
  | waiting n m place h hplace =>
      cases m with
      | zero => exact ⟨rfl, .waiting n 0 place h hplace⟩
      | succ m =>
          rw [moved_signalled hplace rfl]
          exact ⟨rfl, .waiting n (m + 1) .asking h (Or.inl rfl)⟩
  | locking n m h => exact ⟨rfl, .locking n m h⟩
  | loading n m h => exact ⟨rfl, .loading n m h⟩
  | unlocking n m v h => exact ⟨rfl, .unlocking n m v h⟩
  | posting n m v h => exact ⟨rfl, .posting n m v h⟩
  | counting n m v h => exact ⟨rfl, .counting n m v h⟩
  | printing n m v h => exact ⟨rfl, .printing n m v h⟩
  | ended => exact ⟨rfl, .ended⟩

end Sides

end Mailbox

end Demo

end HostLayer
