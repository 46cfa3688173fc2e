import HostLayer.Demo.Output
import HostLayer.Sync.Mutex
import HostLayer.Sync.Semaphore

/-!
# Mailbox Program

A producer and a consumer with one slot between them.

One semaphore counts the free slots and one the filled ones; both never exceed
one. The producer waits for a free slot, fills it with the mutex held and puts
down a token for a filled one. The consumer does the reverse. Each step of
either side is written as a step of a routine. A signal can end a wait for a
token, and a side whose wait has been ended so begins it again.

## Main definitions

* `Demo.Mailbox`: What the two sides share.
* `Demo.Mailbox.afterWait`, `Demo.Mailbox.awaited`, `Demo.Mailbox.signalled`: A wait for
  a token, and a signal during one.
* `Demo.Mailbox.Producer`, `Demo.Mailbox.producerStep`: The producer.
* `Demo.Mailbox.Consumer`, `Demo.Mailbox.consumerStep`: The consumer.
* `Demo.Exchange`, `Demo.Exchange.Act`, `Demo.Exchange.next`: Both sides, what can
  happen to them, and what becomes of them.
* `Demo.Mailbox.run`: The program.
-/

namespace HostLayer

namespace Demo

/-- What the producer and the consumer share. -/
structure Mailbox where
  lock : Mutex
  /-- Filled slots. -/
  full : Semaphore
  /-- Free slots. -/
  empty : Semaphore
  slot : Nat
  produced : Nat
  consumed : Nat
  /-- What both have printed. -/
  lines : List String
  deriving DecidableEq, Repr

namespace Mailbox

/-- The numbers that the program hands over. -/
def rounds : Nat := 10

/-- The thread of the producer. -/
def producerThread : Caller := ⟨2, .other, 0, 0⟩

/-- The thread of the consumer. -/
def consumerThread : Caller := ⟨3, .other, 0, 0⟩

/-- An empty mailbox with a mutex. -/
def fresh (lock : Mutex) : Mailbox where
  lock := lock
  full := ⟨0⟩
  empty := ⟨1⟩
  slot := 0
  produced := 0
  consumed := 0
  lines := []

/-- Where the producer stands, on its way with the number `n`. -/
inductive Producer
  /-- The producer waits for a free slot, if there is such a number. -/
  | waiting (n : Nat) (place : Semaphore.Place)
  | locking (n : Nat)
  | storing (n : Nat)
  | unlocking (n : Nat)
  | counting (n : Nat)
  | posting (n : Nat)
  | printing (n : Nat)
  | pausing (n : Nat)
  deriving DecidableEq, Repr

/-- Where the consumer stands, with `left` numbers still to come. -/
inductive Consumer
  /-- The consumer waits for a filled slot, if a number is to come. -/
  | waiting (left : Nat) (place : Semaphore.Place)
  | locking (left : Nat)
  | loading (left : Nat)
  | unlocking (left n : Nat)
  | posting (left n : Nat)
  | counting (left n : Nat)
  | printing (left n : Nat)
  deriving DecidableEq, Repr

section Steps

variable {π : Type}

/-- A step that takes the mutex. -/
def locked (c : Caller) (s : Mailbox) (next : π) : Step Mailbox π (Answer Unit) :=
  match s.lock.lock c with
  | none => .waits
  | some (m, .ok (), notes) => .goto { s with lock := m } next notes
  | some (m, .error e, notes) => .done { s with lock := m } (.error e) notes

/-- A step that gives the mutex up. -/
def unlocked (c : Caller) (s : Mailbox) (next : π) : Step Mailbox π (Answer Unit) :=
  let (m, notes) := s.lock.dropGuard c.thread
  .goto { s with lock := m } next notes

/-- A wait for a token is over with an answer. One that a signal has ended is begun
    again. -/
def afterWait (s : Mailbox) (next again : π) (notes : List Note) :
    Answer Unit → Step Mailbox π (Answer Unit)
  | .ok () => .goto s next notes
  | .error .interrupted => .goto s again notes
  | .error e => .done s (.error e) notes

/-- One step of a wait for a token of `sem`, which has no deadline and so looks at no
    clock. The mailbox with the semaphore as it then is is given by `put`, and the
    wait stands `at_` a place of the side. -/
def awaited (sem : Semaphore) (put : Semaphore → Mailbox) (next : π) (at_ : Semaphore.Place → π)
    (place : Semaphore.Place) : Step Mailbox π (Answer Unit) :=
  (sem.step .monotonic none ⟨0, 0⟩ place).lift put at_ fun sem' r notes =>
    afterWait (put sem') next (at_ .asking) notes r

/-- A signal arrives during a wait for a token. -/
def signalled (s : Mailbox) (next : π) (at_ : Semaphore.Place → π) (place : Semaphore.Place) :
    Step Mailbox π (Answer Unit) :=
  match Semaphore.interrupted none place with
  | .inl place' => .goto s (at_ place') []
  | .inr e => afterWait s next (at_ .asking) [] (.error e)

end Steps

/-- One step of the producer. -/
def producerStep (rounds : Nat) (s : Mailbox) : Producer → Step Mailbox Producer (Answer Unit)
  | .waiting n place =>
      if rounds < n then .done s (.ok ()) []
      else awaited s.empty (fun e => { s with empty := e }) (.locking n) (.waiting n) place
  | .locking n => locked producerThread s (.storing n)
  | .storing n => .goto { s with slot := n } (.unlocking n) []
  | .unlocking n => unlocked producerThread s (.counting n)
  | .counting n => .goto { s with produced := s.produced + 1 } (.posting n) []
  | .posting n =>
      match s.full.post with
      | (f, .ok ()) => .goto { s with full := f } (.printing n) []
      | (_, .error e) => .done s (.error e) []
  | .printing n =>
      .goto { s with lines := s.lines ++ ["[P] produced #" ++ toString n] } (.pausing n) []
  | .pausing n => .goto s (.waiting (n + 1) .asking) []

/-- One step of the consumer. -/
def consumerStep (s : Mailbox) : Consumer → Step Mailbox Consumer (Answer Unit)
  | .waiting 0 _ => .done s (.ok ()) []
  | .waiting (left + 1) place =>
      awaited s.full (fun f => { s with full := f }) (.locking left) (.waiting (left + 1)) place
  | .locking left => locked consumerThread s (.loading left)
  | .loading left => .goto s (.unlocking left s.slot) []
  | .unlocking left n => unlocked consumerThread s (.posting left n)
  | .posting left n =>
      match s.empty.post with
      | (e, .ok ()) => .goto { s with empty := e } (.counting left n) []
      | (_, .error e) => .done s (.error e) []
  | .counting left n => .goto { s with consumed := s.consumed + 1 } (.printing left n) []
  | .printing left n =>
      .goto { s with lines := s.lines ++ ["[C] consumed #" ++ toString n] } (.waiting left .asking)
        []

/-- A signal arrives at the producer. Only its waits for a token notice it. -/
def producerSignal (s : Mailbox) : Producer → Step Mailbox Producer (Answer Unit)
  | .waiting n place => signalled s (.locking n) (.waiting n) place
  | _ => .waits

/-- A signal arrives at the consumer. -/
def consumerSignal (s : Mailbox) : Consumer → Step Mailbox Consumer (Answer Unit)
  | .waiting (left + 1) place => signalled s (.locking left) (.waiting (left + 1)) place
  | _ => .waits

/-- A side is still on its way, or has ended with an answer. -/
abbrev Side (π : Type) := π ⊕ Answer Unit

/-- A side after one step, or as it was if it waits or has ended. -/
def moved {π : Type} (s : Mailbox) (side : Side π)
    (step : Mailbox → π → Step Mailbox π (Answer Unit)) : Mailbox × Side π :=
  match side with
  | .inr r => (s, .inr r)
  | .inl p =>
      match step s p with
      | .goto s' p' _ => (s', .inl p')
      | .done s' r _ => (s', .inr r)
      | .waits => (s, .inl p)

/-- The answer of a side that has come to its end. -/
def answer {π : Type} : Side π → Answer Unit
  | .inr r => r
  | .inl _ => .ok ()

/-- The last line of the program. -/
def summary (s : Mailbox) : String :=
  "produced " ++ toString s.produced ++ ", consumed " ++ toString s.consumed

/-- The lines of a program as one text. -/
def text (lines : List String) : String :=
  String.join (lines.map (· ++ "\n"))

end Mailbox

/-- The program while it runs: the mailbox and its two sides. -/
structure Exchange where
  box : Mailbox
  producer : Mailbox.Side Mailbox.Producer
  consumer : Mailbox.Side Mailbox.Consumer

namespace Exchange

open Mailbox

/-- What can happen to the program. -/
inductive Act
  /-- The producer gets a turn. -/
  | produce
  /-- The consumer gets a turn. -/
  | consume
  /-- A signal arrives at the producer. -/
  | signalProducer
  /-- A signal arrives at the consumer. -/
  | signalConsumer
  deriving DecidableEq, Repr

/-- The producer after a step of some kind. -/
def withProducer (k : Exchange) (step : Mailbox → Producer → Step Mailbox Producer (Answer Unit)) :
    Exchange :=
  let (box, side) := moved k.box k.producer step
  { k with box := box, producer := side }

/-- The consumer after a step of some kind. -/
def withConsumer (k : Exchange) (step : Mailbox → Consumer → Step Mailbox Consumer (Answer Unit)) :
    Exchange :=
  let (box, side) := moved k.box k.consumer step
  { k with box := box, consumer := side }

/-- What becomes of the program. A side that waits or has ended does nothing with its
    turn. -/
def next (rounds : Nat) (k : Exchange) : Act → Exchange
  | .produce => k.withProducer (producerStep rounds)
  | .consume => k.withConsumer consumerStep
  | .signalProducer => k.withProducer producerSignal
  | .signalConsumer => k.withConsumer consumerSignal

/-- What becomes of the program after several acts. -/
def play (rounds : Nat) (k : Exchange) (acts : List Act) : Exchange :=
  acts.foldl (next rounds) k

/-- Both sides are about to begin, with an empty mailbox. -/
def start (lock : Mutex) (rounds : Nat) : Exchange where
  box := Mailbox.fresh lock
  producer := .inl (.waiting 1 .asking)
  consumer := .inl (.waiting rounds .asking)

/-- Both sides in turns, so many times. -/
def alternating : Nat → List Act
  | 0 => []
  | n + 1 => .produce :: .consume :: alternating n

/-- Enough turns for a number of rounds. -/
def turns (rounds : Nat) : Nat := 16 * (rounds + 1)

end Exchange

namespace Mailbox

/-- The program, which has no use for arguments. -/
def run : Output :=
  let title := "Producer-Consumer Demo"
  match Mutex.create SyncAttr.plain with
  | .error e => .returned (text [title]) (.error e)
  | .ok lock =>
      let k := (Exchange.start lock rounds).play rounds
        (Exchange.alternating (Exchange.turns rounds))
      match answer k.producer, answer k.consumer with
      | .ok (), .ok () => .success (text (title :: k.box.lines ++ [k.box.summary]))
      | .ok (), .error e => .returned (text (title :: k.box.lines)) (.error e)
      | .error e, _ => .returned (text (title :: k.box.lines)) (.error e)

end Mailbox

end Demo

end HostLayer
