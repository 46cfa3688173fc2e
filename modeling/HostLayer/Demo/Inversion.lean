import HostLayer.Demo.Output
import HostLayer.Routine
import HostLayer.Sync.Mutex
import HostLayer.Task.Startup

/-!
# Priority Inversion Program

Three tasks of different priority on one CPU.

The lowest task holds a mutex for which the highest one waits, while the middle
one keeps the CPU busy. A mutex that hands priorities on lets the highest task
wait only for the lowest one. The tasks need a right that few processes have;
without it the program ends at its first task.

What a task does is a list of orders. The CPU belongs to the task that no other
one outranks, among those that have orders left and do not wait for the mutex.
Work is work up to a time, so whoever has been kept from the CPU for that long
has no work left. Time is counted in milliseconds and goes on with each turn of
work, or when nobody has anything to do.

The first thread has another CPU. It sleeps until the lowest task holds the
mutex, makes the two others, and then waits for the end of all three.

## Main definitions

* `Demo.Inversion.Role`, `Demo.Inversion.Order`, `Demo.Inversion.orders`: The tasks,
  and what they do.
* `Demo.Inversion.Course`: How far the three tasks have come.
* `Demo.Inversion.Course.lent`, `Demo.Inversion.Course.rank`,
  `Demo.Inversion.Course.running?`: Who has the CPU.
* `Demo.Inversion.Course.obey`: What becomes of an order.
* `Demo.Inversion.Place`, `Demo.Inversion.step`: The first thread.
* `Demo.Inversion.run`: The program.
-/

namespace HostLayer

namespace Demo

namespace Inversion

/-- The argument against handing priorities on. -/
def plainArgument : String := "--no-inherit"

/-- The tasks. -/
inductive Role
  | low
  | middle
  | high
  deriving DecidableEq, Repr

namespace Role

/-- The tasks in the order in which they are made. -/
def all : List Role := [.low, .middle, .high]

/-- The name of a task. -/
def name : Role → String
  | low => "low"
  | middle => "med"
  | high => "high"

/-- The thread of a task. -/
def thread : Role → ThreadId
  | low => 2
  | middle => 3
  | high => 4

/-- The priority of a task. -/
def priority : Role → Nat
  | low => 1
  | middle => 2
  | high => 3

/-- A real-time task on the first CPU. -/
def attr (r : Role) : TaskAttr :=
  { TaskAttr.ofName r.name with
    policy := .fifo, priority := r.priority, affinity := CpuSet.ofList [0] }

/-- A task as it calls the host. -/
def caller (r : Role) : Caller := ⟨r.thread, .fifo, r.priority, Host.Mutex.ceilingRange.2⟩

end Role

/-- What a task can have to do. -/
inductive Order
  /-- Take the mutex, with a guard. -/
  | take
  /-- Say that the mutex is held. -/
  | announce
  /-- Keep the CPU busy for so many milliseconds from now. -/
  | work (ms : Nat)
  /-- Keep the CPU busy up to a time. -/
  | workUntil (time : Nat)
  /-- Take down the time of coming for the mutex. -/
  | come
  /-- Take down how long ago that was. -/
  | measure
  /-- Drop the guard. -/
  | drop
  deriving DecidableEq, Repr

/-- What a task does. -/
def orders (work : Role → Nat) : Role → List Order
  | .low => [.take, .announce, .work (work .low), .drop]
  | .middle => [.work (work .middle)]
  | .high => [.come, .take, .measure, .drop]

/-- How far the three tasks have come. -/
structure Course where
  /-- Milliseconds since the lowest task was made. -/
  now : Nat
  threads : Host.Threads
  mutex : Mutex
  /-- What the lowest task has still to do. -/
  low : List Order
  middle : List Order
  high : List Order
  /-- The lowest task has said that it holds the mutex. -/
  held : Bool
  /-- When the highest task came for the mutex. -/
  came : Nat
  /-- What the highest task returns: how long it has waited. -/
  waited : Answer Nat

namespace Course

/-- What a task has still to do. -/
def todo (s : Course) : Role → List Order
  | .low => s.low
  | .middle => s.middle
  | .high => s.high

/-- A task has something else to do. -/
def assign (s : Course) (r : Role) (rest : List Order) : Course :=
  match r with
  | .low => { s with low := rest }
  | .middle => { s with middle := rest }
  | .high => { s with high := rest }

/-- A task waits for the mutex. -/
def waits (s : Course) (r : Role) : Bool :=
  match s.todo r with
  | .take :: _ => (s.mutex.lock r.caller).isNone
  | _ => false

/-- A task can use the CPU. -/
def ready (s : Course) (r : Role) : Bool :=
  !(s.todo r).isEmpty && !s.waits r

/-- The highest priority among those who wait for a mutex that a task holds and that
    hands priorities on. -/
def lent (s : Course) (r : Role) : Nat :=
  if s.mutex.raw.heldBy r.thread && s.mutex.raw.protocol == .inherit then
    ((Role.all.filter s.waits).map Role.priority).max?.getD 0
  else 0

/-- The rank of a task: its priority, or what is lent to it if that is more. -/
def rank (s : Course) (r : Role) : Nat := max r.priority (s.lent r)

/-- A task can use the CPU, and no other task that can outranks it. -/
def leads (s : Course) (r : Role) : Bool :=
  s.ready r && Role.all.all fun q => !s.ready q || s.rank q ≤ s.rank r

/-- The task that has the CPU. -/
def running? (s : Course) : Option Role := Role.all.find? s.leads

/-- A task obeys its next order. -/
def obey (s : Course) (r : Role) : Course :=
  match s.todo r with
  | [] => s
  | .take :: rest =>
      match s.mutex.lock r.caller with
      | some (m, .ok (), _) => { s with mutex := m }.assign r rest
      | some (m, .error e, _) =>
          -- The task returns the error at once.
          { s with mutex := m, waited := if r = Role.high then .error e else s.waited }.assign r []
      | none => s
  | .announce :: rest => { s with held := true }.assign r rest
  | .work ms :: rest => s.assign r (.workUntil (s.now + ms) :: rest)
  | .workUntil time :: rest =>
      if s.now < time then { s with now := s.now + 1 } else s.assign r rest
  | .come :: rest => { s with came := s.now }.assign r rest
  | .measure :: rest => { s with waited := .ok (s.now - s.came) }.assign r rest
  | .drop :: rest => { s with mutex := (s.mutex.dropGuard r.thread).1 }.assign r rest

/-- The task that has the CPU gets a turn, if there is one. -/
def turn (s : Course) : Option Course := s.running?.map s.obey

/-- A turn before a time, or that time if nobody has anything to do. -/
def before (s : Course) (time : Nat) : Course := s.turn.getD { s with now := time }

/-- The mutex is there, and no task has been made. -/
def fresh (threads : Host.Threads) (m : Mutex) : Course where
  now := 0
  threads := threads
  mutex := m
  low := []
  middle := []
  high := []
  held := false
  came := 0
  waited := .ok 0

/-- The thread 1 makes a task, unless the host refuses that, and it gets its orders. -/
def make (rights : Host.Rights) (work : Role → Nat) (s : Course) (r : Role) : Answer Course :=
  match launch 1 r.thread rights r.attr s.threads with
  | (threads, .ok _, _) => .ok ({ s with threads := threads }.assign r (orders work r))
  | (_, .error e, _) => .error e

end Course

/-- Where the first thread stands. -/
inductive Place
  /-- It sleeps, and looks for the lowest task at a time. -/
  | looking (time : Nat)
  /-- It has made the middle task, and goes on at a time. -/
  | making (time : Nat)
  /-- It waits for the end of the tasks. -/
  | joining

/-- One step of the first thread, or of the tasks while it sleeps or waits. To sleep
    takes it a millisecond, and so does it to make a task. -/
def step (rights : Host.Rights) (work : Role → Nat) (s : Course) :
    Place → Step Course Place (Answer Nat)
  | .looking time =>
      if s.now < time then .goto (s.before time) (.looking time) []
      else if s.held then
        match s.make rights work .middle with
        | .ok s' => .goto s' (.making (s.now + 1)) []
        | .error e => .done s (.error e) []
      else .goto s (.looking (s.now + 1)) []
  | .making time =>
      if s.now < time then .goto (s.before time) (.making time) []
      else
        match s.make rights work .high with
        | .ok s' => .goto s' .joining []
        | .error e => .done s (.error e) []
  | .joining =>
      match s.turn with
      | some s' => .goto s' .joining []
      | none => if Role.all.all fun r => (s.todo r).isEmpty then .done s s.waited [] else .waits

/-- More steps than the tasks and the first thread need for their work. -/
def steps (work : Role → Nat) : Nat := work .low + work .middle + 24

/-- How long each task works in the program. -/
def programWork : Role → Nat
  | .low => 1000
  | .middle => 5000
  | .high => 0

/-- The attribute word of the mutex. -/
def word (inherits : Bool) : SyncAttr :=
  SyncAttr.plain.withProtocol (if inherits then .inherit else .none)

/-- The first line of the program. -/
def title (inherits : Bool) : String :=
  "Priority Inversion Demo: H(3) M(2) L(1), protocol "
    ++ (if inherits then "inherit" else "none") ++ "\n"

/-- The last line of the program. -/
def report (ms : Nat) : String := "[HIGH] acquired after " ++ toString ms ++ " ms\n"

/-- What the program has printed when the highest task has not reported yet. -/
def printed (inherits : Bool) (s : Course) : String :=
  title inherits ++ if s.held then "[LOW] holding\n" else ""

/-- The program. -/
def run (rights : Host.Rights) (threads : Host.Threads) (args : List String) : Output :=
  let inherits := !args.contains plainArgument
  match Mutex.create (word inherits) with
  | .error e => .returned (title inherits) (.error e)
  | .ok m =>
      match (Course.fresh threads m).make rights programWork .low with
      | .error e => .returned (title inherits) (.error e)
      | .ok s =>
          let p := runSteps (step rights programWork) (steps programWork) s (.looking 0) []
          match p.outcome with
          | .inr (.ok ms) => .success (printed inherits p.state ++ report ms)
          | .inr (.error e) => .returned (printed inherits p.state) (.error e)
          | .inl _ => .returned (printed inherits p.state) (.error .operationFailed)

end Inversion

end Demo

end HostLayer
