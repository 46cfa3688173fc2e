import HostLayer.Ring.Contents
import HostLayer.Sync.Semaphore

/-!
# Ring Parties

Writers and readers of a ring, step by step.

A writer inserts its message under the lock and then, in a step of its own,
puts down a token that wakes a reader. A reader takes a token and then, in a
step of its own, removes the oldest message under the lock. Messages that were
dropped leave tokens behind, so a reader may find a token and no message; it
then goes back to waiting. A token that cannot be put down costs the writer
only a note.

## Main definitions

* `Ring.tokens`: The tokens of a ring.
* `Ring.Write`, `Ring.writeStep`: A writer.
* `Ring.Read`, `Ring.readStep`: A reader.
* `Ring.write`: A writer that runs alone.
* `Ring.read`: A reader that runs alone.
* `Ring.readInterrupted`: A signal arrives at a reader.
-/

namespace HostLayer

namespace Ring

/-- The tokens of a ring. -/
def tokens (m : Memory) : Semaphore :=
  ⟨m.loadNat tokensAt 4⟩

/-- The memory with another number of tokens. -/
def setTokens (m : Memory) (s : Semaphore) : Memory :=
  m.storeNat tokensAt 4 s.value

/-- Where a writer stands. -/
inductive Write
  /-- The message is about to be inserted. -/
  | storing
  /-- The message is in the ring, and a reader is about to be woken. -/
  | posting
  deriving DecidableEq, Repr

/-- One step of a writer. -/
def writeStep (g : Geometry) (msg : List UInt8) (m : Memory) :
    Write → Step Memory Write (Answer Unit)
  | .storing =>
      let (m', notes) := insert g m msg
      .goto m' .posting notes
  | .posting =>
      match (tokens m).post with
      | (s, .ok ()) => .done (setTokens m s) (.ok ()) []
      | (_, .error e) => .done m (.ok ()) [.error ("log ring wakeup failed: " ++ e.message)]

/-- The number of steps of a writer. -/
def writeSteps : Nat := 2

/-- A writer that runs alone. -/
def write (g : Geometry) (msg : List UInt8) (m : Memory) : Progress Memory Write (Answer Unit) :=
  runSteps (writeStep g msg) writeSteps m .storing []

/-- Where a reader stands. -/
inductive Read
  /-- The reader waits for a token. -/
  | waiting (p : Semaphore.Place)
  /-- The reader has a token and is about to look for a message. -/
  | holding
  deriving DecidableEq, Repr

/-- Where a reader starts. -/
def Read.start : Read := .waiting .asking

/-- How a reader answers when its wait for a token fails. -/
def waitFailure : Error → Error
  | .timeout => .unavailable
  | e => e

/-- One step of a reader with a buffer of `room` bytes. -/
def readStep (g : Geometry) (room : Nat) (source : ClockSource) (deadline : Option Timer)
    (clock : Clock) (m : Memory) : Read → Step Memory Read (Answer (List UInt8))
  | .waiting p =>
      match Semaphore.step source deadline clock (tokens m) p with
      | .goto _ p' notes => .goto m (.waiting p') notes
      | .done s (.ok ()) notes => .goto (setTokens m s) .holding notes
      | .done _ (.error e) notes => .done m (.error (waitFailure e)) notes
      | .waits => .waits
  | .holding =>
      match remove g m with
      | (m', some msg, notes) => .done m' (.ok (msg.take room)) notes
      | (m', none, notes) => .goto m' .start notes

/-- The number of steps that a reader that runs alone makes at most, before it
    has an answer or sleeps: two for each token and two more. -/
def readSteps (m : Memory) : Nat :=
  2 * (tokens m).value + 2

/-- A reader that runs alone. -/
def read (g : Geometry) (room : Nat) (source : ClockSource) (deadline : Option Timer)
    (clock : Clock) (m : Memory) : Progress Memory Read (Answer (List UInt8)) :=
  runSteps (readStep g room source deadline clock) (readSteps m) m .start []

/-- A signal arrives at a reader: whatever it waits for, it asks again. -/
def readInterrupted : Read → Read
  | .waiting _ => .start
  | .holding => .holding

end Ring

end HostLayer
