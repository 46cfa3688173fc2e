import HostLayer.Session.Perform
import HostLayer.Task.Ending

/-!
# Session Tasks

The tasks of a session and how they move.

A task does what it is told, one call at a time, and is idle in between. Tasks
move whenever they can: after each call, all of them go on until each is idle or
waits. When the one who drives the session waits too, the clocks jump to the
next deadline of anybody.

A task that has been asked to end does so where it waits. It may have to take a
mutex first, and is then on its way out until it has it.

## Main definitions

* `Session.Activity`: What a task is doing.
* `Session.TaskEntry`: A task.
* `Session.State`: A session.
* `Session.State.move`: One step of a task.
* `Session.State.settle`: All tasks go on as far as they can.
* `Session.State.waitFor`: Time passes until something has come about.
-/

namespace HostLayer

namespace Session

/-- What a task is doing. -/
inductive Activity
  /-- It waits to be told something. -/
  | idle
  /-- It is in a call. -/
  | working (work : Work)
  /-- It ends as soon as it has come out of a wait. -/
  | leaving (work : Work)
  /-- It has come to the end of a call, and nobody has asked for the outcome. -/
  | finished (o : Outcome)
  /-- It has ended in a call. -/
  | cut

/-- A task of a session, with results of type `α`. -/
structure TaskEntry (α : Type) where
  thread : ThreadId
  life : Life α
  activity : Activity
  /-- The handle of the task has not been given away. -/
  handle : Bool
  /-- What the task does as soon as it is idle: come to its end, with a value or
      without one. -/
  afterwards : Option (Option α)

/-- A session, with tasks whose results have type `α`. -/
structure State (α : Type) where
  world : World
  tasks : List (TaskEntry α)
  /-- The notes since they were last picked up, if anybody wants them. -/
  log : Option (List Note)

namespace State

variable {α : Type}

/-- A session at its start. -/
def fresh : State α := ⟨World.fresh, [], none⟩

/-- Notes with numbers of the host's choosing, which no log keeps. -/
def unstable (n : Note) : Bool :=
  n.level == .debug && "task '".toList.isPrefixOf n.text.toList

/-- The session after some notes. -/
def noted (s : State α) (notes : List Note) : State α :=
  { s with log := s.log.map (· ++ notes.filter (!unstable ·)) }

/-- The session with another world, after some notes. -/
def withWorld (s : State α) (w : World) (notes : List Note) : State α :=
  noted { s with world := w } notes

/-- The task of a thread. -/
def task? (s : State α) (t : ThreadId) : Option (TaskEntry α) :=
  s.tasks.find? (·.thread == t)

/-- The session with another entry for a task. -/
def putTask (s : State α) (e : TaskEntry α) : State α :=
  { s with tasks := s.tasks.map fun old => if old.thread == e.thread then e else old }

/-- The session after the end of a task, which leaves its life and an activity. -/
def ended (s : State α) (e : TaskEntry α) (life : Life α) (a : Activity) : State α :=
  { s with world := s.world.threadEnded e.thread }.putTask { e with life := life, activity := a }

/-- A task has come to the end of a call. -/
def settled (s : State α) (e : TaskEntry α) (o : Outcome) : State α :=
  match e.afterwards with
  | none => s.putTask { e with activity := .finished o }
  | some none => s.ended e e.life.exit (.finished o)
  | some (some a) => s.ended e (e.life.finish a) (.finished o)

/-- The task has been asked to end. -/
def TaskEntry.asked (e : TaskEntry α) : Bool :=
  match e.life with
  | .running asked => asked
  | .ended _ => false

/-- One step of a task in a call. -/
def stepWork (s : State α) (e : TaskEntry α) (work : Work) : Option (State α) :=
  match work.step e.thread s.world with
  | .waits => none
  | .goto w work' notes => some ((s.withWorld w notes).putTask { e with activity := .working work' })
  | .done w o notes => some ((s.withWorld w notes).settled e o)

/-- One step of a task on its way out. -/
def stepLeaving (s : State α) (e : TaskEntry α) (work : Work) : Option (State α) :=
  match work.step e.thread s.world with
  | .waits => none
  | .goto w work' notes =>
      let s := s.withWorld w notes
      some (if work'.awake then s.ended e (.ended .cancelled) .cut
        else s.putTask { e with activity := .leaving work' })
  | .done w _ notes => some ((s.withWorld w notes).ended e (.ended .cancelled) .cut)

/-- One step of a task, if it can move. -/
def move (s : State α) (e : TaskEntry α) : Option (State α) :=
  match e.activity with
  | .working work =>
      if TaskEntry.asked e then
        match work.cut e.thread s.world with
        | .later => s.stepWork e work
        | .ends w notes => some ((s.withWorld w notes).ended e (.ended .cancelled) .cut)
        | .returns w work' => some ((s.withWorld w []).putTask { e with activity := .leaving work' })
      else s.stepWork e work
  | .leaving work => s.stepLeaving e work
  | _ => none

/-- A task moves for at most `fuel` steps. -/
def moveOn (t : ThreadId) : Nat → State α → State α
  | 0, s => s
  | fuel + 1, s =>
      match (s.task? t).bind s.move with
      | some s' => moveOn t fuel s'
      | none => s

/-- How many steps a task can make before it waits or ends its call. -/
def stepsOf (s : State α) (e : TaskEntry α) : Nat :=
  match e.activity with
  | .working work => work.bound s.world + 2
  | .leaving work => work.bound s.world + 2
  | _ => 0

/-- Each task moves as far as it can, one after the other. -/
def pass (s : State α) : State α :=
  s.tasks.foldl (fun s e =>
    match s.task? e.thread with
    | some e => moveOn e.thread (s.stepsOf e) s
    | none => s) s

/-- A number of passes. -/
def passes : Nat → State α → State α
  | 0, s => s
  | n + 1, s => passes n s.pass

/-- All tasks go on as far as they can. A pass in which no task moves changes
    nothing, and a task moves in few passes only before its call ends. -/
def settle (s : State α) : State α :=
  passes (2 * s.tasks.length + 2) s

/-- How many nanoseconds a task sleeps if nothing happens. -/
def wakesIn (s : State α) (e : TaskEntry α) : Option Nat :=
  match e.activity with
  | .working work => work.wakesIn s.world
  | _ => none

/-- The shortest of some times. -/
def earliest (times : List (Option Nat)) : Option Nat :=
  times.foldl (fun best t =>
    match best, t with
    | none, t => t
    | best, none => best
    | some a, some b => some (min a b)) none

/-- The clocks go on to the next deadline of a task, or of somebody else who
    sleeps. -/
def jump (s : State α) (other : Option Nat) : Option (State α) :=
  (earliest (other :: s.tasks.map s.wakesIn)).map fun ns =>
    { s with world := s.world.later ns }.settle

/-- Time passes until something has come about, with at most `fuel` jumps. -/
def waitFor {β : Type} (done : State α → Option β) : Nat → State α → State α × Option β
  | 0, s => (s, done s)
  | fuel + 1, s =>
      match done s with
      | some b => (s, some b)
      | none =>
          match s.jump none with
          | some s' => waitFor done fuel s'
          | none => (s, none)

/-- How many jumps can matter: each of them ends a sleep. -/
def jumps (s : State α) : Nat := 4 * (s.tasks.length + 2)

/-- A call of the first thread goes on until it ends, with at most `fuel`
    jumps. -/
def runMain : Nat → State α → Work → State α × Option Outcome
  | 0, s, _ => (s, none)
  | fuel + 1, s, work =>
      let p := runSteps (Work.step mainThread) (work.bound s.world) s.world work []
      let s := s.withWorld p.state p.notes
      match p.outcome with
      | .inr o => (s, some o)
      | .inl work =>
          let s := s.settle
          match (work.step mainThread s.world) with
          | .waits =>
              match s.jump (work.wakesIn s.world) with
              | some s => runMain fuel s work
              | none => (s, none)
          | _ => runMain fuel s work

end State

end Session

end HostLayer
