import HostLayer.Demo.Banner
import HostLayer.Demo.Inversion
import HostLayer.Demo.Mailbox
import HostLayer.Session.Work

/-!
# Performing Calls

What each call of a thread does, or how it begins.

A call that never waits is over at once. A call that may have to wait becomes
work, which the thread then does step by step. A call on a name that stands for
nothing, or for an object of another kind, is skipped. Where an object cannot be
made, its name keeps standing for what it stood for.

## Main definitions

* `Session.perform`: The beginning of a call.
-/

namespace HostLayer

namespace Session

namespace Perform

/-- A call that is over, with an answer. -/
def atOnce (w : World) (o : Outcome) (notes : List Note) : Move := .done w o notes

/-- A call that has given back a value. -/
def gave (w : World) (v : Value) : Move := .done w (.ok v) []

/-- A call that is skipped. -/
def skip (w : World) : Move := .done w .skipped []

/-- A call that goes on as work. -/
def toWork (w : World) (work : Work) : Move := .goto w work []

/-- A new object gets a name, and the caller a value. -/
def made (t : ThreadId) (w : World) (id : Id) (e : Entity) (v : Value) (notes : List Note) : Move :=
  let (w', more) := w.bind t id e
  .done w' (.ok v) (notes ++ more)

/-- A new object gets a name, if it could be made. -/
def create (t : ThreadId) (w : World) (id : Id) (r : Answer Entity) : Move :=
  match r with
  | .ok e => made t w id e .unit []
  | .error e => atOnce w (.failed e) []

/-- A call with a deadline goes on as work, unless the deadline is no time. -/
def timed (w : World) (deadline : Option Deadline) (work : Option Timer → Work) : Move :=
  match deadline with
  | none => toWork w (work none)
  | some d =>
      match w.deadline d with
      | some t => toWork w (work (some t))
      | none => atOnce w .overflow []

/-- A call on a mutex. -/
def mutex (t : ThreadId) (w : World) (id : Id) (call : MutexCall) : Move :=
  match call, w.find? id with
  | .create attr, _ => create t w id ((Mutex.create attr).map .mutex)
  | .lock, some (r, .mutex _) => toWork w (.lock r)
  | .tryLock, some (r, .mutex m) =>
      let (m', a, notes) := m.tryLock (w.caller t)
      atOnce ((w.told t m a).put r (.mutex m')) (.unit a) notes
  | .unlock, some (r, .mutex m) =>
      let (m', a, notes) := m.unlock t
      atOnce (w.put r (.mutex m')) (.unit a) notes
  | .consistent, some (r, .mutex m) =>
      let (m', a) := m.consistent
      atOnce (w.put r (.mutex m')) (.unit a) []
  | .destroy, some (_, .mutex m) => atOnce (w.unbind id) (.unit m.destroy) []
  | .attr, some (_, .mutex m) => gave w (.syncAttr m.attr)
  | .describe, some (_, .mutex m) => gave w (.text m.describe)
  | .guard g, some (r, .mutex _) => toWork w (.guard r g)
  | .sleepGuarded ns, some (r, .mutex _) => toWork w (.guardForSleep r ns)
  | _, _ => skip w

/-- A call on a guard. -/
def guard (t : ThreadId) (w : World) (id : Id) (call : GuardCall) : Move :=
  match call, w.find? id with
  | .drop, some (_, .guard m) =>
      let (w', notes) := (w.unbind id).dropGuard t m
      atOnce w' (.ok .unit) notes
  | .tryLock, some (_, .guard r) =>
      match w.get? r with
      | some (.mutex m) =>
          let (m', a, notes) := m.tryLock (w.caller t)
          atOnce ((w.told t m a).put r (.mutex m')) (.unit a) notes
      | _ => skip w
  | _, _ => skip w

/-- A call on a spinlock. -/
def spin (t : ThreadId) (w : World) (id : Id) (call : SpinCall) : Move :=
  match call, w.find? id with
  | .create attr, _ => create t w id ((Spinlock.create attr).map .spin)
  | .lock, some (r, .spin _) => toWork w (.spin r)
  | .tryLock, some (r, .spin s) =>
      let (s', a) := s.tryLock
      atOnce (w.put r (.spin s')) (.unit a) []
  | .unlock, some (r, .spin s) =>
      let (s', a) := s.unlock
      atOnce (w.put r (.spin s')) (.unit a) []
  | .destroy, some (_, .spin _) => atOnce (w.unbind id) (.ok .unit) []
  | .describe, some (_, .spin _) => gave w (.text Spinlock.describe)
  | _, _ => skip w

/-- A call on a counting semaphore. -/
def semaphore (t : ThreadId) (w : World) (id : Id) (call : SemaphoreCall) : Move :=
  match call, w.find? id with
  | .create value, _ => create t w id ((Semaphore.create value).map .semaphore)
  | .post, some (r, .semaphore s) =>
      let (s', a) := s.post
      atOnce (w.put r (.semaphore s')) (.unit a) []
  | .tryWait, some (r, .semaphore s) =>
      let (s', a) := s.tryWait
      atOnce (w.put r (.semaphore s')) (.unit a) []
  | .wait deadline, some (r, .semaphore _) =>
      timed w deadline fun d => .semaphore r d .asking
  | .value, some (_, .semaphore s) => gave w (.number s.value)
  | .destroy, some (_, .semaphore _) => atOnce (w.unbind id) (.ok .unit) []
  | .describe, some (_, .semaphore s) => gave w (.text s.describe)
  | _, _ => skip w

/-- A call on a binary semaphore. -/
def binary (t : ThreadId) (w : World) (id : Id) (call : BinaryCall) : Move :=
  match call, w.find? id with
  | .create attr, _ =>
      let (w', source) := w.pin
      create t w' id ((BinarySemaphore.create source attr).map .binary)
  | .post, some (r, .binary _) => toWork w (.binary r .post .entering)
  | .tryWait, some (r, .binary _) => toWork w (.binary r .tryWait .entering)
  | .wait deadline, some (r, .binary _) =>
      timed w deadline fun d =>
        match d with
        | none => .binary r .wait .entering
        | some time => .binary r (.timedWait time) .entering
  | .destroy, some (_, .binary s) => atOnce (w.unbind id) (.unit s.destroy) []
  | .describe, some (_, .binary _) => gave w (.text BinarySemaphore.describe)
  | _, _ => skip w

/-- The mutex of a name. -/
def mutexAt (w : World) (id : Id) : Option Ref :=
  match w.find? id with
  | some (r, .mutex _) => some r
  | _ => none

/-- A call on a condition variable. -/
def condition (t : ThreadId) (w : World) (id : Id) (call : ConditionCall) : Move :=
  match call, w.find? id with
  | .create, _ =>
      let (w', source) := w.pin
      made t w' id (.condition (Condition.create source)) .unit []
  | .signal, some (r, .condition c) => atOnce (w.put r (.condition c.signal)) (.ok .unit) []
  | .broadcast, some (r, .condition c) => atOnce (w.put r (.condition c.broadcast)) (.ok .unit) []
  | .wait m deadline, some (r, .condition _) =>
      match mutexAt w m with
      | some m => timed w deadline fun d => .condition r m d .entering
      | none => skip w
  | .cycle m, some (r, .condition _) =>
      match mutexAt w m with
      | some m => toWork w (.lockForWait r m)
      | none => skip w
  | .destroy, some (_, .condition _) => atOnce (w.unbind id) (.ok .unit) []
  | .describe, some (_, .condition _) => gave w (.text Condition.describe)
  | _, _ => skip w

/-- A new recorder. The clock is pinned only for one that has a number of slots
    in range. -/
def createRecorder (t : ThreadId) (w : World) (id : Id) (count : Nat) : Move :=
  let (w', source) := if Recorder.CountInRange count then w.pin else (w, w.kernel.clock)
  create t w' id ((Recorder.create source count).map .recorder)

/-- A call on a recorder. -/
def recorder (t : ThreadId) (w : World) (id : Id) (call : RecorderCall) : Move :=
  match call, w.find? id with
  | .create count, _ => createRecorder t w id count
  | .record stamps, some (r, .recorder _) =>
      match stamps with
      | [] => gave w .unit
      | stamp :: left => toWork w (.record r stamp left .unit .looking)
  | .point, some (r, .recorder _) =>
      let stamp := w.now.toNanos
      toWork w (.record r stamp [] (.flag (stamp != 0)) .looking)
  | .last, some (_, .recorder v) => gave w (.word v.last.toNat)
  | .length, some (_, .recorder v) => gave w (.length v.count)
  | .analyze, some (_, .recorder v) => atOnce w (.stats v.analyze) []
  | .analyzeSteps, some (_, .recorder v) => atOnce w (.stats v.analyzeSteps) []
  | .wait deadline, some (r, .recorder _) =>
      match w.deadline deadline with
      | some d => toWork w (.filled r d .entering)
      | none => atOnce w .overflow []
  | .describe, some (_, .recorder v) => gave w (.text v.describe)
  | _, _ => skip w

/-- A call on a message queue. -/
def queue (r : Host.Rights) (t : ThreadId) (w : World) (id : Id) (call : QueueCall) : Move :=
  match call, w.find? id with
  | .open name attr, _ =>
      let (queues, a, notes) := w.queues.open r.descriptorLeft name attr
      let w := { w with queues := queues }
      match a with
      | .ok h => made t w id (.queue h) .unit notes
      | .error e => atOnce w (.failed e) notes
  | .send m deadline, some (_, .queue h) => timed w deadline fun d => .queue h (.send m) d .checking
  | .receive room deadline, some (_, .queue h) =>
      timed w deadline fun d => .queue h (.receive room) d .checking
  | .attr, some (_, .queue h) =>
      match w.queues.status h with
      | some q => gave w (.fill q.maxMessages q.maxMessageSize q.currentMessages)
      | none => skip w
  | .name, some (_, .queue h) => gave w (.text h.name)
  | .maxMessageSize, some (_, .queue h) => gave w (.number h.maxMessageSize)
  | .close, some (_, .queue _) => atOnce (w.unbind id) (.ok .unit) []
  | _, _ => skip w

/-- A call on a shared object. -/
def shared (r : Host.Rights) (t : ThreadId) (w : World) (id : Id) (call : SharedCall) : Move :=
  match call, w.find? id with
  | .open name attr size, _ =>
      let w := (w.stating name).asking name
      let (objects, a, notes) := ShmHandle.open w.objects r.descriptorLeft name attr size
      let w := { w with objects := objects }
      match a with
      | .ok h => made t w id (.shared h) .unit notes
      | .error e => atOnce w (.failed e) notes
  | .size, some (_, .shared h) => gave w (.word h.size)
  | .name, some (_, .shared h) => gave w (.text h.name)
  | .descriptor, some (_, .shared _) => gave w (.flag true)
  | .map m flags, some (_, .shared h) =>
      match h.map flags with
      | (.ok mapping, notes) => made t w m (.mapping mapping) .unit notes
      | (.error e, notes) => atOnce w (.failed e) notes
  | .close, some (_, .shared _) => atOnce (w.unbind id) (.ok .unit) []
  | _, _ => skip w

/-- A call on a mapping. -/
def mapping (w : World) (id : Id) (call : MappingCall) : Move :=
  match call, w.find? id with
  | .length, some (_, .mapping m) => gave w (.length m.length)
  | .read off n, some (_, .mapping m) => gave w (.bytes (m.load w.objects off n))
  | .write off bytes, some (r, .mapping m) =>
      let (objects, m') := m.store w.objects off bytes
      atOnce ({ w with objects := objects }.put r (.mapping m')) (.ok .unit) []
  | .unmap, some (_, .mapping _) => atOnce (w.unbind id) (.ok .unit) []
  | _, _ => skip w

/-- A ring is opened or made for some purpose. -/
def opened (w : World) (result : ObjectShelf × Answer RingHandle × List Note)
    (next : World → RingHandle → List Note → Move) : Move :=
  let (objects, a, notes) := result
  let w := { w with objects := objects }
  match a with
  | .ok h => next w h notes
  | .error e => atOnce w (.failed e) notes

/-- A call on a log ring. -/
def ring (r : Host.Rights) (t : ThreadId) (w : World) (id : Id) (call : RingCall) : Move :=
  match call, w.find? id with
  | .create name g, _ =>
      opened (w.asking name) (RingHandle.create w.objects r.descriptorLeft name g) fun w h notes =>
        made t w id (.ring h) (.geometry (some h.geometry)) notes
  | .attach name, _ =>
      opened w (RingHandle.attach w.objects r.descriptorLeft name) fun w h notes =>
        made t w id (.ring h) (.geometry (some h.geometry)) notes
  | .write message, some (_, .ring h) =>
      let (objects, a, notes) := h.write w.objects message
      atOnce { w with objects := objects } (.unit a) notes
  | .get room deadline, some (_, .ring h) =>
      timed w deadline fun d => .ring h (List.replicate room 0) d .start
  | .hasMessage, some (_, .ring h) => gave w (.flag (Ring.hasMessage (w.ringMemory h)))
  | .describe, some (_, .ring h) => gave w (.text h.describe)
  | .drop, some (_, .ring _) => atOnce (w.unbind id) (.ok .unit) []
  | _, _ => skip w

/-- A message goes to the sink. -/
def emit (w : World) (fragments : List (List UInt8)) (deviceFull : Bool) : Move :=
  let e := w.sink.emit w.objects deviceFull fragments
  atOnce { w with objects := e.objects } (.printed (e.answer.map fun _ => .unit) e.printed) e.notes

/-- A call on the sink of the process. -/
def sink (r : Host.Rights) (w : World) : SinkCall → Move
  | .setup name g =>
      let (k, objects, a, notes) := w.sink.setup w.objects r.descriptorLeft name g
      atOnce { w.asking name with sink := k, objects := objects } (.unit a) notes
  | .close => gave { w with sink := w.sink.close } .unit
  | .present => gave w (.geometry (w.sink.load.ring?.map (·.geometry)))
  | .get room deadline =>
      match w.sink.source with
      | .ok h => timed w deadline fun d => .ring h (List.replicate room 0) d .start
      | .error e => atOnce w (.failed e) []
  | .line text deviceFull => emit w (Sink.line text) deviceFull
  | .parts parts deviceFull => emit w (parts.map Text.bytes) deviceFull

/-- A call on the state of the process. -/
def kernel (w : World) : KernelCall → Move
  | .init clock =>
      let (k, a, notes) := w.kernel.init clock
      atOnce { w with kernel := k } (.unit a) notes
  | .destroy => gave { w with kernel := w.kernel.destroy } .unit
  | .clock => gave w (.text w.kernel.clock.name)
  | .setClock clock =>
      let (k, a) := w.kernel.setClock clock
      atOnce { w with kernel := k } (.unit a) []

/-- A call on time alone. -/
def time (w : World) : TimeCall → Move
  | .sleep ns =>
      match w.now.addNanos? ns with
      | some d => toWork w (.sleep d .asking)
      | none => atOnce w .overflow []
  | .sleepUntil deadline =>
      match w.deadline deadline with
      | some d => toWork w (.sleep d .asking)
      | none => atOnce w .overflow []
  | .expired deadline =>
      match w.deadline deadline with
      | some d => atOnce w (.unit (d.expired w.now)) []
      | none => atOnce w .overflow []

/-- The number of a process beside this one. -/
def otherProcess : Nat := 4242

/-- The first descriptor that such a process opens. -/
def firstDescriptor : Nat := 3

/-- A program is run to its end. -/
def runProgram (r : Host.Rights) (w : World) (program : String) (args : List String) : Move :=
  match program with
  | "shmtest" =>
      let (objects, o) := Demo.Banner.run otherProcess firstDescriptor true w.objects args
      gave { args.foldl World.asking w with objects := objects } (.output o)
  | "logger" => gave w (.output (Demo.Collector.run w.objects true args))
  | "producer_consumer" => gave w (.output Demo.Mailbox.run)
  | "priority_inversion" => gave w (.output (Demo.Inversion.run r World.fresh.threads args))
  | _ => skip w

/-- A call on programs beside the process. -/
def program (r : Host.Rights) (t : ThreadId) (w : World) : ProgramCall → Move
  | .run name args => runProgram r w name args
  | .start id name =>
      match Demo.Collector.start w.objects true name with
      | .ok (c, line) => made t w id (.program (.ok c)) (.text line) []
      | .error e => made t w id (.program (.error e)) (.text "") []
  | .read id n =>
      match w.find? id with
      | some (place, .program (.ok c)) =>
          atOnce (w.put place (.program (.ok { c with printed := c.printed.drop n })))
            (.ok (.bytes (c.printed.take n))) []
      | some (_, .program (.error _)) => gave w (.bytes [])
      | _ => skip w
  | .close id =>
      match w.find? id with
      | some (place, .program (.ok c)) =>
          gave (w.put place (.program (.ok { c with closed := true }))) .unit
      | some (_, .program (.error _)) => gave w .unit
      | _ => skip w
  | .wait id =>
      match w.find? id with
      | some (_, .program (.error e)) => gave w (.ending (Demo.Collector.output e))
      | some (_, .program (.ok c)) =>
          match c.ended with
          | some e => gave w (.ending (Demo.Collector.output e))
          | none => skip w
      | _ => skip w

end Perform

/-- The beginning of a call of the thread `t`, with the rights it has. -/
def perform (r : Host.Rights) (t : ThreadId) (w : World) : Call → Move
  | .mutex id call => Perform.mutex t w id call
  | .guard id call => Perform.guard t w id call
  | .spin id call => Perform.spin t w id call
  | .semaphore id call => Perform.semaphore t w id call
  | .binary id call => Perform.binary t w id call
  | .condition id call => Perform.condition t w id call
  | .recorder id call => Perform.recorder t w id call
  | .queue id call => Perform.queue r t w id call
  | .queueUnlink name =>
      let (queues, a, notes) := w.queues.unlink name
      .done { w with queues := queues } (.unit a) notes
  | .shared id call => Perform.shared r t w id call
  | .sharedUnlink name =>
      let (objects, a, notes) := ShmHandle.unlink w.objects name
      .done { w with objects := objects } (.unit a) notes
  | .mapping id call => Perform.mapping w id call
  | .ring id call => Perform.ring r t w id call
  | .sink call => Perform.sink r w call
  | .kernel call => Perform.kernel w call
  | .time call => Perform.time w call
  | .program call => Perform.program r t w call

end Session

end HostLayer
