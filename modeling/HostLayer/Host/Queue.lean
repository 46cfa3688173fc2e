import HostLayer.Host.Clock
import HostLayer.Host.Errno

/-!
# Host Queues

The rules of the host's message queues.

A queue holds a bounded number of messages of bounded length, each with a
priority. What is received is the oldest of the messages with the highest
priority. A queue is reached through a descriptor, which says in which
directions it may be used and whether its calls may wait.

The host looks at a call in a fixed order: first at the deadline, then at the
priority of a message to send, at the direction, at the length of the message
or of the buffer, and only then at the queue itself.

## Main definitions

* `QueueMessage`: A message and its priority.
* `Queue`: A queue, its messages in the order of their arrival.
* `QueueLimits`: How large a queue can be.
* `Descriptor`: How a queue was opened.
* `Queue.send`, `Queue.receive`: The calls.
* `Queue.pick`: The message that is received next.

## Theorems

* `Queue.pick_isSome`: A queue with messages has a next one.
-/

namespace HostLayer

namespace Host

/-- A message in a queue. -/
structure QueueMessage where
  body : List UInt8
  priority : Nat
  deriving DecidableEq, Repr

/-- A message queue. -/
structure Queue where
  maxMessages : Nat
  maxMessageSize : Nat
  /-- The messages in the order of their arrival. -/
  pending : List QueueMessage
  deriving DecidableEq, Repr

/-- How large a new queue can be, which is a setting of the host. -/
structure QueueLimits where
  messages : Nat
  messageSize : Nat
  deriving DecidableEq, Repr

/-- How a queue was opened. -/
structure Descriptor where
  canReceive : Bool
  canSend : Bool
  /-- Calls fail where they would have to wait. -/
  nonblocking : Bool
  deriving DecidableEq, Repr

/-- What became of a queue call. -/
inductive QueueAttempt (α : Type) where
  /-- The call has succeeded. -/
  | done (q : Queue) (result : α)
  /-- The call has failed and changed nothing. -/
  | refused (e : Errno)
  /-- The call has to wait. -/
  | waiting

namespace Queue

/-- The number of priorities. -/
def priorities : Nat := 32768

/-- An empty queue, if the host accepts its geometry. -/
def create (limits : QueueLimits) (maxMessages maxMessageSize : Nat) : Except Errno Queue :=
  if 1 ≤ maxMessages ∧ maxMessages ≤ limits.messages ∧
      1 ≤ maxMessageSize ∧ maxMessageSize ≤ limits.messageSize
  then .ok ⟨maxMessages, maxMessageSize, []⟩
  else .error .invalid

/-- The oldest message of the highest priority, and the others. -/
def pick : List QueueMessage → Option (QueueMessage × List QueueMessage)
  | [] => none
  | m :: ms =>
      match pick ms with
      | none => some (m, ms)
      | some (best, rest) => if m.priority < best.priority then some (best, m :: rest) else some (m, ms)

/-- A deadline that the host does not take. -/
def badDeadline : Option HostTime → Bool
  | none => false
  | some t => t.negative

/-- The deadline of a call has passed. -/
def late (wall : Nat) : Option HostTime → Bool
  | none => false
  | some t => t.reached wall

/-- What a call does that the queue cannot serve now. -/
def stall {α : Type} (d : Descriptor) (deadline : Option HostTime) (wall : Nat) : QueueAttempt α :=
  if d.nonblocking then .refused .tryAgain
  else if late wall deadline then .refused .timedOut
  else .waiting

/-- Send a message at the time of day `wall`. -/
def send (q : Queue) (d : Descriptor) (m : QueueMessage) (deadline : Option HostTime)
    (wall : Nat) : QueueAttempt Unit :=
  if badDeadline deadline then .refused .invalid
  else if priorities ≤ m.priority then .refused .invalid
  else if !d.canSend then .refused .badDescriptor
  else if q.maxMessageSize < m.body.length then .refused .messageSize
  else if q.pending.length < q.maxMessages then .done { q with pending := q.pending ++ [m] } ()
  else stall d deadline wall

/-- Receive a message into a buffer of `room` bytes at the time of day
    `wall`. -/
def receive (q : Queue) (d : Descriptor) (room : Nat) (deadline : Option HostTime)
    (wall : Nat) : QueueAttempt QueueMessage :=
  if badDeadline deadline then .refused .invalid
  else if !d.canReceive then .refused .badDescriptor
  else if room < q.maxMessageSize then .refused .messageSize
  else match pick q.pending with
    | some (m, rest) => .done { q with pending := rest } m
    | none => stall d deadline wall

theorem pick_isSome (m : QueueMessage) (ms : List QueueMessage) : (pick (m :: ms)).isSome := by
  simp only [pick]
  split
  next => rfl
  next => split <;> rfl

end Queue

end Host

end HostLayer
