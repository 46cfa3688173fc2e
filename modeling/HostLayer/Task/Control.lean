import HostLayer.Host.Errno
import HostLayer.Task.Attr
import HostLayer.Text.Decode

/-!
# Task Control

Reading and changing the attributes of tasks that run.

A priority is always moved into the range of its policy before the host sees
it. Changing the policy keeps the priority as far as the new range allows, and
changing the priority keeps the policy. Setting all attributes works on the
name first, then on policy and priority, then on the CPU set, and stops at the
first refusal, with what came before it in effect.

The host hands out a name as bytes in a buffer, which are read as text up to the
first NUL.

## Main definitions

* `Control.Target`: Who asks, about whom, and with which rights.
* `Control.setName`, `Control.setSched`, `Control.setAffinity`: Single changes.
* `Control.setPolicy`, `Control.setPriority`: Changes that keep the rest.
* `Control.nameBuffer`, `Control.readName`: How a name comes back from the host.
* `Control.attr`, `Control.setAttr`: All attributes.
* `Control.applyWishes`: What a new task does to itself before anything else.
-/

namespace HostLayer

namespace Control

/-- The causes for the host's reasons around names. -/
def nameCause : Errno.Table
  | .outOfRange => some .invalidParam
  | .noProcess => some .notFound
  | _ => none

/-- The causes for the host's reasons when policy and priority are read. -/
def schedCause : Errno.Table
  | .noProcess => some .notFound
  | _ => none

/-- The causes for the host's reasons when policy and priority are set. -/
def setSchedCause : Errno.Table
  | .notPermitted => some .permissionDenied
  | .invalid => some .invalidParam
  | .noProcess => some .notFound
  | .notSupported => some .notImplemented
  | _ => none

/-- The causes for the host's reasons around CPU sets. -/
def affinityCause : Errno.Table
  | .invalid => some .invalidParam
  | .noProcess => some .notFound
  | .notPermitted => some .permissionDenied
  | _ => none

/-- Who asks, about whom, and with which rights. -/
structure Target where
  caller : ThreadId
  target : ThreadId
  rights : Host.Rights
  deriving DecidableEq, Repr

/-- What a change comes to. -/
abbrev Change := Host.Threads × Answer Unit × List Note

/-- A change that the host has answered. -/
def change (table : Errno.Table) (call : String) (s : Host.Threads)
    (r : Except Errno Host.Threads) : Change :=
  match r with
  | .ok s' => (s', .ok (), [])
  | .error e =>
      let (cause, notes) := Errno.translate table call e
      (s, .error cause, notes)

/-- A change and then, if it has succeeded, another one. -/
def andThen (first : Change) (second : Host.Threads → Change) : Change :=
  match first with
  | (s, .ok (), notes) =>
      let (s', r, more) := second s
      (s', r, notes ++ more)
  | failed => failed

/-- Nothing is to be changed. -/
def unchanged (s : Host.Threads) : Change := (s, .ok (), [])

/-- Name a task, with as much of the name as the host keeps. -/
def setName (t : Target) (s : Host.Threads) (name : String) : Change :=
  match TaskAttr.hostName name with
  | .error e => (s, .error e, [])
  | .ok host =>
      change nameCause "pthread_setname_np" s (s.setName t.rights t.caller t.target host)

/-- Give a task a policy and the nearest priority that the policy has. -/
def setSched (t : Target) (s : Host.Threads) (policy : Policy) (priority : Int) : Change :=
  change setSchedCause "pthread_setschedparam" s
    (s.setSched t.rights t.target policy (policy.clamp priority))

/-- Let a task run on the CPUs of a set; the empty set changes nothing. -/
def setAffinity (t : Target) (s : Host.Threads) (cpus : CpuSet) : Change :=
  if cpus.isEmpty then unchanged s
  else change affinityCause "pthread_setaffinity_np" s
    (s.setAffinity t.rights t.caller t.target cpus)

/-- Policy and priority of a task. -/
def sched (t : Target) (s : Host.Threads) : Answer (Policy × Int) × List Note :=
  Errno.answer schedCause "pthread_getschedparam" (s.sched t.target)

/-- The buffer after the host has put a name into it: the bytes of the name, and the
    zeros that were there. -/
def nameBuffer (name : String) : List UInt8 :=
  let bs := Text.bytes name
  bs ++ List.replicate (Limits.taskName - bs.length) 0

/-- The name in a buffer. -/
def readName (buffer : List UInt8) : String :=
  String.ofList (Text.decode (buffer.takeWhile fun b => b != 0))

/-- The name of a task. -/
def name (t : Target) (s : Host.Threads) : Answer String × List Note :=
  let (kept, notes) :=
    Errno.answer nameCause "pthread_getname_np" (s.name t.rights t.caller t.target)
  (kept.map fun n => readName (nameBuffer n), notes)

/-- The CPUs on which a task may run. -/
def affinity (t : Target) (s : Host.Threads) : CpuSet :=
  s.affinity t.caller t.target

/-- A change that depends on policy and priority as they are. -/
def reschedule (t : Target) (s : Host.Threads) (wish : Policy → Int → Policy × Int) : Change :=
  match sched t s with
  | (.error e, notes) => (s, .error e, notes)
  | (.ok (policy, priority), notes) =>
      let (policy', priority') := wish policy priority
      andThen (s, .ok (), notes) fun s => setSched t s policy' priority'

/-- Give a task another policy. -/
def setPolicy (t : Target) (s : Host.Threads) (policy : Policy) : Change :=
  reschedule t s fun _ priority => (policy, priority)

/-- Give a task another priority. -/
def setPriority (t : Target) (s : Host.Threads) (priority : Int) : Change :=
  reschedule t s fun policy _ => (policy, priority)

/-- The attributes of a task as the host keeps them. -/
def attr (t : Target) (s : Host.Threads) : Answer TaskAttr × List Note :=
  match sched t s with
  | (.error e, notes) => (.error e, notes)
  | (.ok (policy, priority), notes) =>
      match name t s with
      | (.error e, more) => (.error e, notes ++ more)
      | (.ok n, more) =>
          (.ok { TaskAttr.ofName n with
            policy := policy
            priority := priority
            affinity := affinity t s }, notes ++ more)

/-- Name a task, unless the name is empty. -/
def setNameWish (t : Target) (s : Host.Threads) (name : String) : Change :=
  if name.isEmpty then unchanged s else setName t s name

/-- Change all attributes of a task. -/
def setAttr (t : Target) (s : Host.Threads) (a : TaskAttr) : Change :=
  andThen (setNameWish t s a.name) fun s =>
    andThen (setSched t s a.policy a.priority) fun s => setAffinity t s a.affinity

/-- What a new task does to itself: only what is asked for. -/
def applyWishes (t : Target) (s : Host.Threads) (a : TaskAttr) : Change :=
  andThen (setNameWish t s a.name) fun s =>
    andThen (if a.wantsSched then setSched t s a.policy a.priority else unchanged s) fun s =>
      setAffinity t s a.affinity

end Control

end HostLayer
