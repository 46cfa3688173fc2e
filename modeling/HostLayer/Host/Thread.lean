import HostLayer.CpuSet
import HostLayer.Host.Mutex
import HostLayer.Text.Cut

/-!
# Host Threads

What the host keeps about threads, and who may change it.

A thread has a name of a few bytes, a policy with a priority, and a set of CPUs
on which it may run. A new thread starts with all of them as its creator has
them. The host stores what it accepts and changes nothing when it refuses.

A thread that has ended is gone even before anybody has asked for its result.
The host then finds no policy and no name for it any more. A CPU set is looked
up by a number that the host resets at the end of a thread, and the number that
is left stands for whoever asks.

## Main definitions

* `Host.Thread`: What the host keeps about one thread.
* `Host.Threads`: All threads.
* `Host.Rights`: What the host lets the process do at the moment.
* `Host.Threads.spawn`, `Host.Threads.leave`: The start and the end of a thread.
* `Host.Threads.setName`, `Host.Threads.setSched`, `Host.Threads.setAffinity`:
  The setters, with their getters.
* `Host.nameLimit`: Bytes of a name.

## Theorems

* `Host.Threads.put_self`, `Host.Threads.put_other`: What a change affects.
-/

namespace HostLayer

namespace Host

/-- Bytes of a thread's name. -/
def nameLimit : Nat := 15

/-- What the host keeps about a thread. -/
structure Thread where
  name : String
  policy : Policy
  priority : Int
  affinity : CpuSet
  /-- The thread has ended. -/
  gone : Bool
  deriving DecidableEq, Repr

/-- What the host lets the process do at the moment. -/
structure Rights where
  /-- Policies with priorities may be used. -/
  realtime : Bool
  /-- A descriptor is left to be opened. -/
  descriptorLeft : Bool
  /-- There is memory for the stack of one more thread. -/
  stackLeft : Bool
  /-- The CPUs that there are. -/
  cpus : CpuSet
  deriving DecidableEq, Repr

/-- The threads of a process. -/
structure Threads where
  thread : ThreadId → Thread

namespace Threads

/-- The threads with one of them changed. -/
def put (s : Threads) (t : ThreadId) (v : Thread) : Threads :=
  ⟨fun u => if u = t then v else s.thread u⟩

/-- The thread `t` starts as a copy of its creator. -/
def spawn (s : Threads) (creator t : ThreadId) : Threads :=
  s.put t { s.thread creator with gone := false }

/-- The thread `t` has ended. -/
def leave (s : Threads) (t : ThreadId) : Threads :=
  s.put t { s.thread t with gone := true }

/-- A name is reached through a file of the thread, which a thread does not
    need for itself. -/
def reachName (s : Threads) (r : Rights) (caller t : ThreadId) : Except Errno Unit :=
  if caller = t then .ok ()
  else if !r.descriptorLeft then .error .tooManyOpen
  else if (s.thread t).gone then .error .noEntry
  else .ok ()

/-- Give a thread a name that is short enough. -/
def setName (s : Threads) (r : Rights) (caller t : ThreadId) (name : String) :
    Except Errno Threads := do
  reachName s r caller t
  .ok (s.put t { s.thread t with name := name })

/-- The name of a thread. -/
def name (s : Threads) (r : Rights) (caller t : ThreadId) : Except Errno String := do
  reachName s r caller t
  .ok (s.thread t).name

/-- The policy and the priority of a thread. -/
def sched (s : Threads) (t : ThreadId) : Except Errno (Policy × Int) :=
  let v := s.thread t
  if v.gone then .error .noProcess else .ok (v.policy, v.priority)

/-- Give a thread a policy and a priority. -/
def setSched (s : Threads) (r : Rights) (t : ThreadId) (policy : Policy) (priority : Int) :
    Except Errno Threads :=
  if (s.thread t).gone then .error .noProcess
  else if priority < policy.range.1 ∨ policy.range.2 < priority then .error .invalid
  else if policy.isRealtime && !r.realtime then .error .notPermitted
  else .ok (s.put t { s.thread t with policy := policy, priority := priority })

/-- The thread whose CPU set is meant. -/
def placed (s : Threads) (caller t : ThreadId) : ThreadId :=
  if (s.thread t).gone then caller else t

/-- The CPUs on which a thread may run. -/
def affinity (s : Threads) (caller t : ThreadId) : CpuSet :=
  (s.thread (s.placed caller t)).affinity

/-- Let a thread run only on the CPUs of a set, as far as they exist. -/
def setAffinity (s : Threads) (r : Rights) (caller t : ThreadId) (cpus : CpuSet) :
    Except Errno Threads :=
  let usable := cpus.inter r.cpus
  let u := s.placed caller t
  if usable.isEmpty then .error .invalid
  else .ok (s.put u { s.thread u with affinity := usable })

@[simp]
theorem put_self (s : Threads) (t : ThreadId) (v : Thread) : (s.put t v).thread t = v := by
  simp [put]

theorem put_other (s : Threads) {t u : ThreadId} (v : Thread) (h : u ≠ t) :
    (s.put t v).thread u = s.thread u := by
  simp [put, h]

end Threads

end Host

end HostLayer
