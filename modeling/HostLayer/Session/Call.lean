import HostLayer.Demo.Output
import HostLayer.Ring.Layout
import HostLayer.Task.Attr
import HostLayer.Timer
import HostLayer.Trace.Stats
import HostLayer.Diagnostic
import HostLayer.Host.Clock
import HostLayer.Host.Queue
import HostLayer.Word.QueueAttr
import HostLayer.Word.ShmAttr

/-!
# Calls

What the threads of a session can ask for, and what they can be told.

Objects are named by strings of the session's own. A call names the object that
it works on and says what is to be done with it.

## Main definitions

* `Session.Deadline`: A deadline, stated or relative to the time of the call.
* `Session.MutexCall` and its likes: What can be done with each kind of object.
* `Session.Call`: All calls of a thread.
* `Session.Value`, `Session.Outcome`: What a call comes to.
-/

namespace HostLayer

namespace Session

/-- The session's name for an object. -/
abbrev Id := String

/-- A deadline in a call. -/
inductive Deadline
  /-- The deadline itself. -/
  | stated (t : Timer)
  /-- A number of nanoseconds from the time of the call. -/
  | after (ns : UInt64)
  deriving DecidableEq, Repr

/-- What can be done with a mutex. -/
inductive MutexCall
  | create (attr : SyncAttr)
  | lock
  | tryLock
  | unlock
  | consistent
  | destroy
  | attr
  | describe
  /-- Lock it, and unlock it when the guard of a name is dropped. -/
  | guard (guard : Id)
  /-- Lock it, sleep, and unlock it. -/
  | sleepGuarded (ns : UInt64)

/-- What can be done with a guard. -/
inductive GuardCall
  | drop
  /-- Try to lock the guarded mutex once more. -/
  | tryLock

/-- What can be done with a spinlock. -/
inductive SpinCall
  | create (attr : SyncAttr)
  | lock
  | tryLock
  | unlock
  | destroy
  | describe

/-- What can be done with a counting semaphore. -/
inductive SemaphoreCall
  | create (value : Nat)
  | post
  | tryWait
  /-- Wait, with or without a deadline. -/
  | wait (deadline : Option Deadline)
  | value
  | destroy
  | describe

/-- What can be done with a binary semaphore. -/
inductive BinaryCall
  | create (attr : SyncAttr)
  | post
  | tryWait
  /-- Wait, with or without a deadline. -/
  | wait (deadline : Option Deadline)
  | destroy
  | describe

/-- What can be done with a condition variable. -/
inductive ConditionCall
  | create
  | signal
  | broadcast
  /-- Wait with a mutex, with or without a deadline. -/
  | wait (mutex : Id) (deadline : Option Deadline)
  /-- Lock a mutex, wait with it, and unlock it. -/
  | cycle (mutex : Id)
  | destroy
  | describe

/-- What can be done with a recorder of time stamps. -/
inductive RecorderCall
  | create (count : Nat)
  /-- Record stamps, one after the other. -/
  | record (stamps : List UInt64)
  /-- Record the time. -/
  | point
  | last
  | length
  | analyze
  | analyzeSteps
  | wait (deadline : Deadline)
  | describe

/-- What can be done with a message queue. -/
inductive QueueCall
  | open (name : String) (attr : QueueAttr)
  /-- Send a message, with or without a deadline. -/
  | send (m : Host.QueueMessage) (deadline : Option Deadline)
  /-- Receive a message into a buffer, with or without a deadline. -/
  | receive (room : Nat) (deadline : Option Deadline)
  | attr
  | name
  | maxMessageSize
  | close

/-- What can be done with a shared object. -/
inductive SharedCall
  | open (name : String) (attr : ShmAttr) (size : Nat)
  | size
  | name
  /-- Whether the descriptor is one. -/
  | descriptor
  /-- Map it; the mapping gets a name of its own. -/
  | map (mapping : Id) (flags : UInt32)
  | close

/-- What can be done with a mapping. -/
inductive MappingCall
  | length
  | read (off n : Nat)
  | write (off : Nat) (bytes : List UInt8)
  | unmap

/-- What can be done with a log ring. -/
inductive RingCall
  | create (name : String) (geometry : Ring.Geometry)
  | attach (name : String)
  | write (message : List UInt8)
  /-- Take a message into a buffer, with or without a deadline. -/
  | get (room : Nat) (deadline : Option Deadline)
  | hasMessage
  | describe
  | drop

/-- What can be done with the sink of the process. -/
inductive SinkCall
  | setup (name : String) (geometry : Ring.Geometry)
  | close
  /-- The geometry of its ring, if it has one. -/
  | present
  | get (room : Nat) (deadline : Option Deadline)
  /-- Print a line. -/
  | line (text : String) (deviceFull : Bool)
  /-- Print fragments as one message. -/
  | parts (parts : List String) (deviceFull : Bool)

/-- What can be done with the state of the process. -/
inductive KernelCall
  | init (clock : ClockSource)
  | destroy
  | clock
  | setClock (clock : ClockSource)

/-- What can be done with time alone. -/
inductive TimeCall
  | sleep (ns : UInt64)
  | sleepUntil (deadline : Deadline)
  | expired (deadline : Deadline)

/-- What can be done with programs beside the process. -/
inductive ProgramCall
  /-- Run a program to its end. -/
  | run (program : String) (args : List String)
  /-- Start a collector for a ring. -/
  | start (id : Id) (ring : String)
  /-- Pick up bytes that it has printed. -/
  | read (id : Id) (n : Nat)
  /-- Listen to it no longer. -/
  | close (id : Id)
  /-- Wait for its end. -/
  | wait (id : Id)

/-- What can be read or changed about a task. -/
inductive ControlCall
  | policy
  | setPolicy (p : Policy)
  | priority
  | setPriority (n : Int)
  | affinity
  | setAffinity (cpus : CpuSet)
  /-- Whether it may run where the first thread may. -/
  | sameAffinity
  | attr
  | setAttr (a : TaskAttr)
  | state
  | suspend
  | resume

/-- What a thread asks for, apart from the life of tasks. -/
inductive Call
  | mutex (id : Id) (call : MutexCall)
  | guard (id : Id) (call : GuardCall)
  | spin (id : Id) (call : SpinCall)
  | semaphore (id : Id) (call : SemaphoreCall)
  | binary (id : Id) (call : BinaryCall)
  | condition (id : Id) (call : ConditionCall)
  | recorder (id : Id) (call : RecorderCall)
  | queue (id : Id) (call : QueueCall)
  | queueUnlink (name : String)
  | shared (id : Id) (call : SharedCall)
  | sharedUnlink (name : String)
  | mapping (id : Id) (call : MappingCall)
  | ring (id : Id) (call : RingCall)
  | sink (call : SinkCall)
  | kernel (call : KernelCall)
  | time (call : TimeCall)
  | program (call : ProgramCall)

/-- A value that a call can give back. -/
inductive Value
  | unit
  | flag (b : Bool)
  | number (n : Int)
  /-- A number that can fill a word of 64 bits. -/
  | word (n : Nat)
  | text (s : String)
  | bytes (bs : List UInt8)
  | stats (s : Stats)
  | message (m : Host.QueueMessage)
  | syncAttr (a : SyncAttr)
  | geometry (g : Option Ring.Geometry)
  /-- Limits of a queue, and the messages in it. -/
  | fill (maxMessages maxMessageSize current : Nat)
  /-- A length, and whether it is zero. -/
  | length (n : Nat)
  /-- Attributes, and whether they name exactly one CPU. -/
  | taskAttr (a : TaskAttr)
  | notes (ns : List Note)
  /-- What a program left. -/
  | output (o : Demo.Output)
  /-- The end of a program whose output has been picked up already. -/
  | ending (o : Demo.Output)

/-- What a call comes to. -/
inductive Outcome
  | answer (r : Answer Value)
  /-- An answer, and what reached the standard output. -/
  | printed (r : Answer Value) (bytes : List UInt8)
  /-- A number left its word. -/
  | overflow
  /-- The object that the call names does not exist. -/
  | skipped

namespace Outcome

/-- The outcome of a call without a value. -/
def unit (r : Answer Unit) : Outcome := .answer (r.map fun _ => .unit)

/-- A value. -/
def ok (v : Value) : Outcome := .answer (.ok v)

/-- A failure. -/
def failed (e : Error) : Outcome := .answer (.error e)

/-- Statistics, unless a sum left its word. -/
def stats : Option Stats → Outcome
  | some s => .ok (.stats s)
  | none => .overflow

end Outcome

end Session

end HostLayer
