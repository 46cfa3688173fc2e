import HostLayer.Demo.Collector
import HostLayer.Ipc.Queue
import HostLayer.Kernel
import HostLayer.Session.Call
import HostLayer.Sink
import HostLayer.Sync.Spinlock
import HostLayer.Trace.Recorder

/-!
# World

Everything that the threads of a session share.

Objects live in a table and are found by the session's names for them. A name
that is given away a second time stands for the new object; the old one lives
on for whoever is still in a call on it, except that a guard whose name is given
away is dropped.

Time does not pass by itself: it goes a little further with each call, and as
far as need be when everybody waits.

## Main definitions

* `Session.Entity`: An object of any kind.
* `Session.World`: The shared state.
* `Session.World.bind`, `Session.World.unbind`: Names.
* `Session.World.find?`: The object of a name.
* `Session.World.deadline`: A deadline at the time of a call.
* `Session.World.threadEnded`: The end of a thread.
* `Session.World.directorySize`: What the host states for a directory.
* `Session.World.collect`: What programs beside the process do.
-/

namespace HostLayer

namespace Session

/-- The place of an object in the table. -/
abbrev Ref := Nat

/-- An object of any kind. -/
inductive Entity
  | mutex (m : Mutex)
  /-- A guard of the mutex at a place. -/
  | guard (mutex : Ref)
  | spin (s : Spinlock)
  | semaphore (s : Semaphore)
  | binary (s : BinarySemaphore)
  | condition (c : Condition)
  | recorder (r : Recorder)
  | queue (h : QueueHandle)
  | shared (h : ShmHandle)
  | mapping (m : Mapping)
  | ring (h : RingHandle)
  /-- A program beside the process, or why it did not start. -/
  | program (p : Answer Demo.Collector)
  | task (t : ThreadId)

/-- What the threads of a session share. -/
structure World where
  kernel : Kernel
  clock : Clock
  threads : Host.Threads
  queues : QueueShelf
  objects : ObjectShelf
  /-- The highest ceiling to which the host has tried in vain to raise a thread. -/
  risen : ThreadId → Nat
  /-- The names of objects that have been asked for, with their slashes. -/
  asked : List String
  sink : Sink
  entities : Array Entity
  names : List (Id × Ref)

/-- The first thread. -/
def mainThread : ThreadId := 1

namespace World

/-- The CPUs of the host. -/
def cpus : CpuSet := CpuSet.ofList [0, 1, 2, 3]

/-- How far time goes with each call, in nanoseconds. -/
def tick : Nat := 500

/-- How large a queue of the host can be. -/
def queueLimits : Host.QueueLimits := ⟨10, 8192⟩

/-- A process has just started, on a host without named objects. -/
def fresh : World where
  kernel := Kernel.fresh
  clock := ⟨1000 * nanosPerSecond, 1700000000 * nanosPerSecond⟩
  threads := ⟨fun _ => ⟨"main", .other, 0, cpus, false⟩⟩
  queues := QueueShelf.empty queueLimits
  objects := ObjectShelf.empty
  risen _ := 0
  asked := []
  sink := Sink.fresh
  entities := #[]
  names := []

/-- Time goes on. -/
def later (w : World) (ns : Nat) : World :=
  { w with clock := w.clock.advance ns }

/-- A thread as it calls the host. Those with a priority can rise to any ceiling. -/
def caller (w : World) (t : ThreadId) : Caller :=
  let v := w.threads.thread t
  ⟨t, v.policy, v.priority,
    if v.policy.isRealtime then Host.Mutex.ceilingRange.2 else w.risen t⟩

/-- A thread has been told what has become of its call for a mutex. If it could not
    rise to the ceiling, the host counts it as risen from now on. -/
def told (w : World) (t : ThreadId) (m : Mutex) : Answer Unit → World
  | .error .invalidParam =>
      if m.raw.protocol = .protect ∧ (w.caller t).priority ≤ m.raw.ceiling then
        { w with risen := fun u => if u = t then max (w.risen t) m.raw.ceiling else w.risen u }
      else w
  | _ => w

/-- The object at a place. -/
def get? (w : World) (r : Ref) : Option Entity := w.entities[r]?

/-- The place of a name. -/
def place? (w : World) (id : Id) : Option Ref := w.names.lookup id

/-- The object of a name, with its place. -/
def find? (w : World) (id : Id) : Option (Ref × Entity) := do
  let r ← w.place? id
  let e ← w.get? r
  return (r, e)

/-- Another state for the object at a place. -/
def put (w : World) (r : Ref) (e : Entity) : World :=
  { w with entities := w.entities.setIfInBounds r e }

/-- A name stands for nothing any more. -/
def unbind (w : World) (id : Id) : World :=
  { w with names := w.names.filter (·.1 != id) }

/-- The mutex at a place is unlocked for a guard. -/
def dropGuard (w : World) (t : ThreadId) (mutex : Ref) : World × List Note :=
  match w.get? mutex with
  | some (.mutex m) =>
      let (m', notes) := m.dropGuard t
      (w.put mutex (.mutex m'), notes)
  | _ => (w, [])

/-- A name stands for a new object. The thread `t` drops the old one. -/
def bind (w : World) (t : ThreadId) (id : Id) (e : Entity) : World × List Note :=
  let w' := { w with
    entities := w.entities.push e
    names := (id, w.entities.size) :: w.names.filter (·.1 != id) }
  match w.find? id with
  | some (_, .guard mutex) => w'.dropGuard t mutex
  | _ => (w', [])

/-- The time on the clock that deadlines are meant on. -/
def now (w : World) : Timer := w.clock.now w.kernel.clock

/-- A deadline at the time of a call, if it is a time at all. -/
def deadline (w : World) : Deadline → Option Timer
  | .stated t => some t
  | .after ns => w.now.addNanos? ns

/-- The clock is pinned for a condition variable to be made on it. -/
def pin (w : World) : World × ClockSource :=
  let (k, source) := w.kernel.pin
  ({ w with kernel := k }, source)

/-- An object after the end of a thread. -/
def afterEnd (t : ThreadId) : Entity → Entity
  | .mutex m => .mutex (m.holderEnded t)
  | .binary s => .binary (s.threadEnded t)
  | .condition c => .condition (c.remove t)
  | .recorder r => .recorder (r.threadEnded t)
  | e => e

/-- A thread has ended, and the process goes on. -/
def threadEnded (w : World) (t : ThreadId) : World :=
  { w with threads := w.threads.leave t, entities := w.entities.map (afterEnd t) }

/-- Somebody asks for an object. -/
def asking (w : World) (name : String) : World :=
  { w with asked := w.asked.insert (ObjectName.withSlash name) }

/-- What the host states for the directory above the one of the objects. -/
def parentSize : Nat := 2220

/-- The size that the host states for a directory: the one of the objects grows
    with each name in it. -/
def directorySize (w : World) (name : String) : Nat :=
  if ObjectName.withSlash name == "/.." then parentSize
  else 40 + 20 * w.asked.countP fun n => !ObjectShelf.reserved n && (w.objects.names n).isSome

/-- The host states the size of a directory for somebody who asks for it. -/
def stating (w : World) (name : String) : World :=
  { w with objects := w.objects.stated (w.directorySize name) }

/-- The memory of a ring. -/
def ringMemory (w : World) (h : RingHandle) : Memory := w.objects.memory h.object

/-- Another memory for a ring. -/
def putRingMemory (w : World) (h : RingHandle) (m : Memory) : World :=
  { w with objects := w.objects.put h.object m }

/-- The collector at a place passes on what is there. -/
def collectAt (w : World) (r : Ref) : World :=
  match w.get? r with
  | some (.program (.ok c)) =>
      if c.ended.isSome then w
      else
        let (c', m) := c.collect w.clock (w.ringMemory c.ring)
        (w.putRingMemory c.ring m).put r (.program (.ok c'))
  | _ => w

/-- All collectors pass on what is there. -/
def collect (w : World) : World :=
  (List.range w.entities.size).foldl collectAt w

end World

end Session

end HostLayer
