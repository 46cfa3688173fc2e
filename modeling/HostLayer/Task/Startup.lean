import HostLayer.Routine
import HostLayer.Sync.Semaphore
import HostLayer.Task.Control

/-!
# Task Startup

How a new task tells its creator that it has started.

The two share a block. The new thread gives itself the attributes that were
asked for, fills in its number, the status word of the outcome and a mark that
both are there, and then puts down a token. Only if all attributes have been
granted does it go on to its entry; else it ends at once.

The creator waits for the token for short times only. Whenever such a wait ends
without one, for whatever reason, it looks at the mark, so that a lost token
costs time and nothing else. It then reads the status word. For a failure it
waits until the thread has ended.

## Main definitions

* `Startup`: The shared block, with what both sides have done.
* `Startup.Thread`, `Startup.threadStep`: The new thread.
* `Startup.Creator`, `Startup.creatorStep`: The creator.
* `Startup.Wake`: How a wait for the token ends.
* `Startup.run`: Both sides, one after the other.
-/

namespace HostLayer

/-- The block that a new thread and its creator share. -/
structure Startup where
  threads : Host.Threads
  /-- The token that wakes the creator. -/
  ready : Semaphore
  /-- The status word of the outcome. -/
  status : Int
  /-- The number of the new thread. -/
  number : ThreadId
  /-- Status and number have been filled in. -/
  reported : Bool
  /-- How often the entry has been started. -/
  entries : Nat
  /-- The new thread has ended without an entry. -/
  ended : Bool

namespace Startup

/-- The block before the thread starts. -/
def fresh (threads : Host.Threads) : Startup where
  threads := threads
  ready := ⟨0⟩
  status := 0
  number := 0
  reported := false
  entries := 0
  ended := false

/-- Where the new thread stands. -/
inductive Thread
  /-- The attributes are about to be applied. -/
  | applying
  /-- The number is about to be filled in. -/
  | numbering (r : Answer Unit)
  /-- The status word is about to be filled in. -/
  | stating (r : Answer Unit)
  /-- The mark is about to be set. -/
  | marking (r : Answer Unit)
  /-- The token is about to be put down. -/
  | waking (r : Answer Unit)
  /-- The report is made, and the entry or the end comes next. -/
  | leaving (r : Answer Unit)

/-- One step of the new thread with the number `number`, which gives itself its
    attributes by `apply`. A token that cannot be put down, for the cause `lost`, is
    only noted. -/
def threadStep (apply : Host.Threads → Control.Change) (number : ThreadId) (lost : Option Error)
    (s : Startup) : Thread → Step Startup Thread Unit
  | .applying =>
      let (threads, r, notes) := apply s.threads
      .goto { s with threads := threads } (.numbering r) notes
  | .numbering r => .goto { s with number := number } (.stating r) []
  | .stating r => .goto { s with status := r.status } (.marking r) []
  | .marking r => .goto { s with reported := true } (.waking r) []
  | .waking r =>
      match lost with
      | none => .goto { s with ready := s.ready.post.1 } (.leaving r) []
      | some e => .goto s (.leaving r) [.error ("task startup wakeup failed: " ++ e.message)]
  | .leaving (.ok ()) => .done { s with entries := s.entries + 1 } () []
  | .leaving (.error _) => .done { s with ended := true } () []

/-- How a wait for the token ends. -/
inductive Wake
  /-- With the token. -/
  | token
  /-- Without the token, because time is up or a signal arrived. -/
  | early
  /-- With a failure. -/
  | failed (e : Error)
  deriving DecidableEq, Repr

/-- Where the creator stands. -/
inductive Creator
  /-- The mark is about to be looked at. -/
  | checking
  /-- The creator waits for the token. -/
  | waiting
  /-- The creator pauses after a wait that has failed. -/
  | resting
  /-- The status word is about to be read. -/
  | reading
  /-- The creator waits for the end of the thread. -/
  | joining (e : Error)
  deriving DecidableEq, Repr

/-- The note about a task that has started. -/
def startedNote (name : String) (number : ThreadId) : Note :=
  .debug ("task '" ++ name ++ "' started as tid " ++ toString number)

/-- The note about a task that could not start. -/
def failedNote (name : String) (e : Error) : Note :=
  .warn ("task '" ++ name ++ "' failed to start: " ++ e.message)

/-- One step of the creator of a task with a name. -/
def creatorStep (name : String) (wake : Wake) (s : Startup) :
    Creator → Step Startup Creator (Answer ThreadId)
  | .checking => .goto s (if s.reported then .reading else .waiting) []
  | .waiting =>
      match wake with
      | .early => .goto s .checking []
      | .failed e => .goto s .resting [.error ("task startup wait failed: " ++ e.message)]
      | .token =>
          match s.ready.take? with
          | some ready => .goto { s with ready := ready } .reading []
          | none => .waits
  | .resting => .goto s .checking []
  | .reading =>
      match Error.ofCode? s.status with
      | some e => .goto s (.joining e) [failedNote name e]
      | none => .done s (.ok s.number) [startedNote name s.number]
  | .joining e => if s.ended then .done s (.error e) [] else .waits

/-- The number of steps of the new thread up to its entry or its end. -/
def threadSteps : Nat := 6

/-- The number of steps of a creator that finds the report made. -/
def creatorSteps : Nat := 3

/-- Both sides, one after the other: the threads, the answer to the creator,
    and the notes made. -/
def run (t : Control.Target) (a : TaskAttr) (threads : Host.Threads) :
    Host.Threads × Answer ThreadId × List Note :=
  let apply := fun threads => Control.applyWishes t threads a
  let p := runSteps (threadStep apply t.caller none) threadSteps (fresh threads) .applying []
  let q := runSteps (creatorStep a.name .token) creatorSteps p.state .checking p.notes
  match q.outcome with
  | .inr r => (q.state.threads, r, q.notes)
  | .inl _ => (q.state.threads, .error .operationFailed, q.notes)

end Startup

/-- Make a task: a thread that starts as a copy of its creator, and then the
    startup of it. Without memory for a stack there is no thread. -/
def launch (creator t : ThreadId) (r : Host.Rights) (a : TaskAttr) (threads : Host.Threads) :
    Host.Threads × Answer ThreadId × List Note :=
  if r.stackLeft then Startup.run ⟨t, t, r⟩ a (threads.spawn creator t)
  else (threads, .error .systemLimitReached, [])

end HostLayer
