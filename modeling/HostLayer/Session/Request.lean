import HostLayer.Session.Tasks
import HostLayer.Task.State

/-!
# Requests

What a session can be asked to do, and what it replies.

A request is a call, made by the first thread or handed to a task, or it is
about a task itself: to start one, to tell it to end, to look what it is doing,
or to read and change its attributes. A request that names a task that never
started, or a handle that has been given away, is skipped.

## Main definitions

* `Session.TaskCall`: What can be done with tasks.
* `Session.Request`: A request.
* `Session.Reply`: What a session replies.
* `Session.State.handle`: A request is carried out.
* `Session.run`: A list of requests.
-/

namespace HostLayer

namespace Session

/-- What can be done with a task. -/
inductive TaskCall (α : Type) where
  | create (attr : TaskAttr)
  /-- The idle task comes to its end with a value. -/
  | finish (value : α)
  /-- The idle task ends itself. -/
  | exit
  | join
  /-- The task joins itself. -/
  | joinSelf
  | destroy
  | detach
  /-- Wait for the outcome of its call. -/
  | await
  /-- Look what it is doing. -/
  | poll
  /-- Send it a signal, and look what it is doing. -/
  | signal
  /-- Wait until the host has let go of it. -/
  | gone
  /-- Read or change its attributes, or those of the caller. -/
  | control (self : Bool) (call : ControlCall)

/-- What is to be done. -/
inductive Action (α : Type) where
  | call (c : Call)
  | task (id : Id) (c : TaskCall α)
  /-- Notes are wanted from now on. -/
  | logOn
  /-- Pick up the notes. -/
  | logTake

/-- A request. -/
structure Request (α : Type) where
  /-- The task that is to do it; without one, the first thread does it. -/
  on : Option Id
  rights : Host.Rights
  action : Action α

/-- What a session replies. -/
inductive Reply (α : Type) where
  | outcome (o : Outcome)
  /-- The task waits in the call. -/
  | blocked
  /-- The task has ended. -/
  | ended
  /-- The task is in no call. -/
  | idle
  /-- What a joined task left. -/
  | joined (value : Option α)

namespace Reply

variable {α : Type}

/-- A value. -/
def ok (v : Value) : Reply α := .outcome (.ok v)

/-- Nothing was done. -/
def skipped : Reply α := .outcome .skipped

end Reply

namespace State

variable {α : Type}

/-- The task of a name. -/
def named? (s : State α) (id : Id) : Option (TaskEntry α) :=
  match s.world.find? id with
  | some (_, .task t) => s.task? t
  | _ => none

/-- What a task is doing; an outcome is handed out once. -/
def report (s : State α) (t : ThreadId) : State α × Reply α :=
  match s.task? t with
  | none => (s, .skipped)
  | some e =>
      match e.activity with
      | .finished o => (s.putTask { e with activity := .idle }, .outcome o)
      | .working _ => (s, .blocked)
      | .leaving _ => (s, .blocked)
      | .cut => (s, .ended)
      | .idle =>
          match e.life with
          | .running _ => (s, .idle)
          | .ended _ => (s, .ended)

/-- A call of the first thread. -/
def callMain (s : State α) (r : Host.Rights) (c : Call) : State α × Reply α :=
  match perform r mainThread s.world c with
  | .done w o notes => ((s.withWorld w notes).settle, .outcome o)
  | .goto w work notes =>
      match runMain s.jumps (s.withWorld w notes) work with
      | (s, some o) => (s.settle, .outcome o)
      | (s, none) => (s, .blocked)
  | .waits => (s, .blocked)

/-- A call is handed to a task. -/
def callOn (s : State α) (r : Host.Rights) (e : TaskEntry α) (c : Call) : State α × Reply α :=
  match e.life, e.activity with
  | .ended _, _ => (s, .ended)
  | .running _, .working _ => (s, .blocked)
  | .running _, .leaving _ => (s, .blocked)
  | .running _, _ =>
      match perform r e.thread s.world c with
      | .done w o notes => ((s.withWorld w notes).settle, .outcome o)
      | .goto w work notes =>
          ((s.withWorld w notes).putTask { e with activity := .working work }).settle.report e.thread
      | .waits => (s, .blocked)

/-- A thread makes a task. -/
def createTask (s : State α) (r : Host.Rights) (creator : ThreadId) (id : Id) (a : TaskAttr) :
    State α × Reply α :=
  let t := s.tasks.length + 2
  let (threads, answer, notes) := launch creator t r a s.world.threads
  match answer with
  | .error e => (s.withWorld { s.world with threads := threads } notes, .outcome (.failed e))
  | .ok t =>
      let (w, more) := { s.world with threads := threads }.bind creator id (.task t)
      let s := s.withWorld w (notes ++ more)
      ({ s with tasks := s.tasks ++ [⟨t, .running false, .idle, true, none⟩] }, .ok .unit)

/-- The task is to come to its end, now or as soon as it is idle. -/
def conclude (s : State α) (e : TaskEntry α) (value : Option α) : State α :=
  match e.activity with
  | .working _ => s.putTask { e with afterwards := some value }
  | .leaving _ => s
  | a =>
      match value with
      | some v => s.ended e (e.life.finish v) a
      | none => s.ended e e.life.exit a

/-- The word that a task has left. -/
def wordOf (t : ThreadId) (s : State α) : Option (RawWord α) :=
  (s.task? t).bind (·.life.word?)

/-- Wait for the end of a task and take what it left. -/
def join (s : State α) (id : Id) (e : TaskEntry α) : State α × Reply α :=
  match waitFor (wordOf e.thread) s.jumps s with
  | (s, none) => (s, .blocked)
  | (s, some word) =>
      let s := { s with world := s.world.unbind id }
      match word.deliver with
      | .ok v => (s, .joined v)
      | .error err => (s, .outcome (.failed err))

/-- What a task is doing. -/
def activityOf (s : State α) (t : ThreadId) : Activity :=
  match s.task? t with
  | some e => e.activity
  | none => .idle

/-- A task is no longer in a call. -/
def outOfCall (t : ThreadId) (s : State α) : Option Unit :=
  match s.activityOf t with
  | .working _ => none
  | .leaving _ => none
  | _ => some ()

/-- A signal arrives at a task. -/
def signalled (s : State α) (e : TaskEntry α) : State α :=
  match e.activity with
  | .working work =>
      match work.interrupted with
      | .inl work' => s.putTask { e with activity := .working work' }
      | .inr err => s.settled e (.failed err)
  | _ => s

/-- The letter with which the host tells what a thread does. -/
def letter (s : State α) (caller t : ThreadId) : Char :=
  let spins := match s.activityOf t with
    | .working (.spin _) => true
    | _ => false
  if caller = t || spins then 'R' else 'S'

/-- The state of a thread, as the host tells it. -/
def stateOf (s : State α) (r : Host.Rights) (caller t : ThreadId) : Answer TaskState × List Note :=
  let v := s.world.threads.thread t
  TaskState.ask r.descriptorLeft v.gone t
    (TaskState.line t v.name.toList (s.letter caller t) " 1".toList)

/-- Something is read about a task. -/
def told (s : State α) (r : Answer Value × List Note) : State α × Reply α :=
  (s.noted r.2, .outcome (.answer r.1))

/-- Something has been changed about a task. -/
def changed (s : State α) (c : Control.Change) : State α × Reply α :=
  (s.withWorld { s.world with threads := c.1 } c.2.2, .outcome (.unit c.2.1))

/-- The attributes of the thread `t` are read or changed by `caller`. -/
def control (s : State α) (r : Host.Rights) (caller t : ThreadId) (c : ControlCall) :
    State α × Reply α :=
  let who : Control.Target := ⟨caller, t, r⟩
  let threads := s.world.threads
  match c with
  | .policy =>
      let (a, notes) := Control.sched who threads
      told s (a.map fun p => .text p.1.name, notes)
  | .priority =>
      let (a, notes) := Control.sched who threads
      told s (a.map fun p => .number p.2, notes)
  | .affinity => (s, .ok (.word (Control.affinity who threads).mask.toNat))
  | .sameAffinity =>
      let mine := Control.affinity who threads
      let first := (threads.thread mainThread).affinity
      (s, .ok (.flag (mine == first)))
  | .attr =>
      let (a, notes) := Control.attr who threads
      told s (a.map .taskAttr, notes)
  | .state =>
      let (a, notes) := s.stateOf r caller t
      told s (a.map fun v => .text v.name, notes)
  | .setPolicy p => changed s (Control.setPolicy who threads p)
  | .setPriority n => changed s (Control.setPriority who threads n)
  | .setAffinity cpus => changed s (Control.setAffinity who threads cpus)
  | .setAttr a => changed s (Control.setAttr who threads a)
  | .suspend => (s, .outcome (.failed .notImplemented))
  | .resume => (s, .outcome (.failed .notImplemented))

/-- A request about a task that exists. -/
def onTask (s : State α) (r : Host.Rights) (caller : ThreadId) (id : Id) (e : TaskEntry α)
    (c : TaskCall α) : State α × Reply α :=
  match c with
  | .create a => createTask s r caller id a
  | .finish value => (s.conclude e (some value), .ok .unit)
  | .exit => (s.conclude e none, .ok .unit)
  | .await =>
      let (s, _) := waitFor (outOfCall e.thread) s.jumps s
      s.report e.thread
  | .poll => s.report e.thread
  | .signal => (s.signalled e).settle.report e.thread
  | .gone =>
      match waitFor (wordOf e.thread) s.jumps s with
      | (s, some _) => (s, .ok (.flag true))
      | (s, none) => (s, .blocked)
  | .control true c => s.control r caller caller c
  | .join => if e.handle then s.join id e else (s, .skipped)
  | .joinSelf =>
      if e.handle then (s.putTask { e with handle := false }, .outcome (.failed .deadLock))
      else (s, .skipped)
  | .destroy =>
      if e.handle then ((s.putTask { e with life := e.life.cancel }).settle, .ok .unit)
      else (s, .skipped)
  | .detach =>
      if e.handle then (s.putTask { e with handle := false }, .ok .unit) else (s, .skipped)
  | .control false c => if e.handle then s.control r caller e.thread c else (s, .skipped)

/-- A request about a task. -/
def taskCall (s : State α) (r : Host.Rights) (caller : ThreadId) (id : Id) (c : TaskCall α) :
    State α × Reply α :=
  match c, s.named? id with
  | .create a, _ => createTask s r caller id a
  | .control true c, none => s.control r caller caller c
  | _, none => (s, .skipped)
  | c, some e => s.onTask r caller id e c

/-- The notes are picked up. -/
def takeNotes (s : State α) : State α × Reply α :=
  match s.log with
  | none => (s, .ok (.notes []))
  | some notes => ({ s with log := some [] }, .ok (.notes notes))

/-- A request is carried out by the first thread. -/
def byMain (s : State α) (r : Host.Rights) : Action α → State α × Reply α
  | .call c => s.callMain r c
  | .task id c => s.taskCall r mainThread id c
  | .logOn => ({ s with log := some [] }, .ok .unit)
  | .logTake => s.takeNotes

/-- A request is carried out by a task. -/
def byTask (s : State α) (r : Host.Rights) (e : TaskEntry α) : Action α → State α × Reply α
  | .call c => s.callOn r e c
  | .task id c => s.taskCall r e.thread id c
  | a => s.byMain r a

/-- A request is carried out, and everybody else does what there is to do. -/
def handle (s : State α) (q : Request α) : State α × Reply α :=
  let s := { s with world := s.world.later World.tick }
  let (s, reply) := match q.on with
    | none => s.byMain q.rights q.action
    | some id =>
        match s.named? id with
        | some e => s.byTask q.rights e q.action
        | none => (s, .skipped)
  let s := s.settle
  ({ s with world := s.world.collect }, reply)

end State

/-- The replies to a list of requests. -/
def run {α : Type} (s : State α) : List (Request α) → List (Reply α)
  | [] => []
  | q :: qs =>
      let (s', reply) := s.handle q
      reply :: run s' qs

end Session

end HostLayer
