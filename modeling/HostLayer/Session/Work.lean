import HostLayer.Ring.Buffer
import HostLayer.Session.World
import HostLayer.Sleep

/-!
# Work

Calls that may have to wait, and where each of them stands.

Every such call is one of the library's routines, working on an object in the
table or on something that the host keeps, or a chain of them: locking, waiting
and unlocking, or locking, sleeping and dropping a guard.

A request to end finds a thread only where it waits in a way that can be cut
short. Most waits end there and then. A wait on a condition variable first
takes its mutex again, and the thread ends with it. A guard that is held is
dropped on the way out.

## Main definitions

* `Session.Work`: A call that may have to wait.
* `Session.Work.step`: One step of it.
* `Session.Work.bound`: How many steps it can make before it waits or ends.
* `Session.Work.wakesIn`: How long a sleep lasts if nothing happens.
* `Session.Work.interrupted`: A signal arrives.
* `Session.Work.cut`: A request to end is acted upon.
-/

namespace HostLayer

namespace Session

/-- A call that may have to wait. -/
inductive Work
  | lock (mutex : Ref)
  /-- The guard gets a name. -/
  | guard (mutex : Ref) (id : Id)
  /-- A mutex is locked for a sleep of some nanoseconds. -/
  | guardForSleep (mutex : Ref) (ns : UInt64)
  /-- The sleep, with the mutex held. -/
  | guardedSleep (mutex : Ref) (deadline : Timer) (p : Sleep.Place)
  | spin (s : Ref)
  | semaphore (s : Ref) (deadline : Option Timer) (p : Semaphore.Place)
  | binary (s : Ref) (use : BinarySemaphore.Use) (p : BinarySemaphore.Place)
  | condition (c mutex : Ref) (deadline : Option Timer) (p : Condition.Place)
  /-- A mutex is locked for a wait. -/
  | lockForWait (c mutex : Ref)
  /-- The wait, with the mutex to be unlocked afterwards. -/
  | lockedWait (c mutex : Ref) (p : Condition.Place)
  /-- The mutex is unlocked after a wait. -/
  | unlockAfter (mutex : Ref) (r : Answer Unit)
  /-- A stamp is recorded, others are to follow, and then comes the reply. -/
  | record (r : Ref) (stamp : UInt64) (left : List UInt64) (reply : Value) (p : Recorder.Place)
  /-- A buffer of a recorder is waited for. -/
  | filled (r : Ref) (deadline : Timer) (p : BinarySemaphore.Place)
  | queue (h : QueueHandle) (request : QueueHandle.Request) (deadline : Option Timer)
      (p : QueueHandle.Place)
  | ring (h : RingHandle) (buffer : List UInt8) (deadline : Option Timer) (p : Ring.Read)
  | sleep (deadline : Timer) (p : Sleep.Place)

/-- A step of a thread of a session. -/
abbrev Move := Step World Work Outcome

namespace Work

/-- The object at a place is gone or of another kind. -/
def lost (w : World) : Move := .done w .skipped []

/-- The mutex at a place is taken, and then something follows. -/
def locking (t : ThreadId) (w : World) (mutex : Ref) (next : World → List Note → Move) : Move :=
  match w.get? mutex with
  | some (.mutex m) =>
      match m.lock (w.caller t) with
      | none => .waits
      | some (m', .ok (), notes) => next (w.put mutex (.mutex m')) notes
      | some (m', .error e, notes) =>
          .done ((w.told t m (.error e)).put mutex (.mutex m')) (.failed e) notes
  | _ => lost w

/-- A sleep that ends as the outcome of a call. -/
def sleeping (w : World) (deadline : Timer) (p : Sleep.Place) (place : Sleep.Place → Work)
    (finish : World → Answer Unit → Move) : Move :=
  match Sleep.step w.kernel.clock deadline w.clock p with
  | .goto _ p' notes => .goto w (place p') notes
  | .done _ r _ => finish w r
  | .waits => .waits

/-- A step of a binary semaphore, wherever it is kept. -/
def binaryStep (t : ThreadId) (w : World) (s : BinarySemaphore) (use : BinarySemaphore.Use)
    (p : BinarySemaphore.Place) (keep : BinarySemaphore → World)
    (place : BinarySemaphore.Place → Work) : Move :=
  (BinarySemaphore.step (w.caller t) use w.clock s p).lift keep place
    fun s' r notes => .done (keep s') (.unit r) notes

/-- A step of a wait on a condition variable. -/
def conditionStep (t : ThreadId) (w : World) (c mutex : Ref) (deadline : Option Timer)
    (p : Condition.Place) (place : Condition.Place → Work)
    (finish : World → Answer Unit → List Note → Move) : Move :=
  match w.get? c, w.get? mutex with
  | some (.condition cv), some (.mutex m) =>
      let keep (s : Condition.WaitState) : World :=
        (w.put c (.condition s.condition)).put mutex (.mutex { m with raw := s.mutex })
      (Condition.step (w.caller t) deadline w.clock ⟨cv, m.raw⟩ p).lift keep place
        fun s r notes =>
          -- Before the sleep the caller has only been refused its deadline.
          match p with
          | .returning _ => finish ((keep s).told t m r) r notes
          | .entering | .asleep => finish (keep s) r notes
  | _, _ => lost w

/-- What a queue call gives back. -/
def received : Answer (Option Host.QueueMessage) → Outcome
  | .ok (some m) => .ok (.message m)
  | .ok none => .ok .unit
  | .error e => .failed e

/-- One step of a call of the thread `t`. -/
def step (t : ThreadId) (w : World) : Work → Move
  | .lock mutex => locking t w mutex fun w notes => .done w (.ok .unit) notes
  | .guard mutex id =>
      locking t w mutex fun w notes =>
        let (w, more) := w.bind t id (.guard mutex)
        .done w (.ok .unit) (notes ++ more)
  | .guardForSleep mutex ns =>
      locking t w mutex fun w notes =>
        match w.now.addNanos? ns with
        | some d => .goto w (.guardedSleep mutex d .asking) notes
        | none =>
            let (w, more) := w.dropGuard t mutex
            .done w .overflow (notes ++ more)
  | .guardedSleep mutex d p =>
      sleeping w d p (.guardedSleep mutex d) fun w r =>
        let (w, notes) := w.dropGuard t mutex
        .done w (.unit r) notes
  | .spin s =>
      match w.get? s with
      | some (.spin v) =>
          match v.lock? with
          | some v' => .done (w.put s (.spin v')) (.ok .unit) []
          | none => .waits
      | _ => lost w
  | .semaphore s deadline p =>
      match w.get? s with
      | some (.semaphore v) =>
          (Semaphore.step w.kernel.clock deadline w.clock v p).lift
            (fun v' => w.put s (.semaphore v')) (.semaphore s deadline)
            fun v' r notes => .done (w.put s (.semaphore v')) (.unit r) notes
      | _ => lost w
  | .binary s use p =>
      match w.get? s with
      | some (.binary v) =>
          binaryStep t w v use p (fun v' => w.put s (.binary v')) (.binary s use)
      | _ => lost w
  | .condition c mutex deadline p =>
      conditionStep t w c mutex deadline p (.condition c mutex deadline) fun w r notes =>
        .done w (.unit r) notes
  | .lockForWait c mutex =>
      locking t w mutex fun w notes => .goto w (.lockedWait c mutex .entering) notes
  | .lockedWait c mutex p =>
      conditionStep t w c mutex none p (.lockedWait c mutex) fun w r notes =>
        .goto w (.unlockAfter mutex r) notes
  | .unlockAfter mutex r =>
      match w.get? mutex with
      | some (.mutex m) =>
          let (m', _, notes) := m.unlock t
          .done (w.put mutex (.mutex m')) (.unit r) notes
      | _ => lost w
  | .record r stamp left reply p =>
      match w.get? r with
      | some (.recorder v) =>
          (Recorder.step (w.caller t) w.clock stamp v p).lift
            (fun v' => w.put r (.recorder v')) (.record r stamp left reply)
            fun v' _ notes =>
              match left with
              | [] => .done (w.put r (.recorder v')) (.ok reply) notes
              | next :: rest =>
                  .goto (w.put r (.recorder v')) (.record r next rest reply .looking) notes
      | _ => lost w
  | .filled r deadline p =>
      match w.get? r with
      | some (.recorder v) =>
          binaryStep t w v.filledMark (.timedWait deadline) p
            (fun s => w.put r (.recorder (v.withMark s))) (.filled r deadline)
      | _ => lost w
  | .queue h request deadline p =>
      match w.queues.queues h.queue with
      | none => lost w
      | some q =>
          let keep (q' : Host.Queue) : World := { w with queues := w.queues.put h.queue q' }
          (QueueHandle.step h request w.kernel.clock deadline w.clock q p).lift keep
            (.queue h request deadline) fun q' r notes => .done (keep q') (received r) notes
  | .ring h buffer deadline p =>
      (Ring.receiveStep h.geometry w.kernel.clock deadline w.clock ⟨w.ringMemory h, buffer⟩ p).lift
        (fun s => w.putRingMemory h s.memory) (.ring h buffer deadline)
        fun s r notes => .done (w.putRingMemory h s.memory)
          (.answer (r.map fun n => .bytes (s.buffer.take n))) notes
  | .sleep d p => sleeping w d p (.sleep d) fun w r => .done w (.unit r) []

/-- How many steps a call can make before it waits or ends. -/
def bound (w : World) : Work → Nat
  | .record _ _ left _ _ => (left.length + 1) * (Recorder.steps + 1)
  | .ring h _ _ _ => Ring.readSteps (w.ringMemory h) + 1
  | _ => 12

/-- The nanoseconds until a time of day, if there is one. -/
def untilLimit (w : World) : Option HostTime → Option Nat
  | none => none
  | some limit => some (w.clock.timeLeft .realtime limit)

/-- The nanoseconds until a deadline on a clock. -/
def untilDeadline (w : World) (source : ClockSource) (deadline : Timer) : Nat :=
  w.clock.timeLeft source (HostTime.ofTimer deadline)

/-- How long a wait on a binary semaphore lasts if nothing happens. -/
def binaryWakesIn (w : World) (s : BinarySemaphore) (deadline : Option Timer) :
    BinarySemaphore.Place → Option Nat
  | .waiting .asleep => deadline.map (untilDeadline w s.condition.clock)
  | _ => none

/-- How long a wait on a condition variable lasts if nothing happens. -/
def conditionWakesIn (w : World) (c : Ref) (deadline : Option Timer) : Condition.Place → Option Nat
  | .asleep =>
      match w.get? c with
      | some (.condition cv) => deadline.map (untilDeadline w cv.clock)
      | _ => none
  | _ => none

/-- How many nanoseconds a call sleeps if nothing happens, if that is not for
    ever. -/
def wakesIn (w : World) : Work → Option Nat
  | .guardedSleep _ d .asleep => some (untilDeadline w w.kernel.clock d)
  | .sleep d .asleep => some (untilDeadline w w.kernel.clock d)
  | .semaphore _ _ (.asleep limit) => untilLimit w limit
  | .queue _ _ _ (.asleep limit) => untilLimit w limit
  | .ring _ _ _ (.waiting (.asleep limit)) => untilLimit w limit
  | .binary s use p =>
      match w.get? s with
      | some (.binary v) => binaryWakesIn w v (BinarySemaphore.deadline? use) p
      | _ => none
  | .filled r deadline p =>
      match w.get? r with
      | some (.recorder v) => binaryWakesIn w v.filledMark (some deadline) p
      | _ => none
  | .condition c _ deadline p => conditionWakesIn w c deadline p
  | _ => none

/-- A signal arrives at a call that sleeps: it goes on, or ends with a cause. -/
def interrupted : Work → Work ⊕ Error
  | .semaphore s deadline p =>
      match Semaphore.interrupted deadline p with
      | .inl p' => .inl (.semaphore s deadline p')
      | .inr e => .inr e
  | .queue h request deadline p =>
      match QueueHandle.interrupted deadline p with
      | .inl p' => .inl (.queue h request deadline p')
      | .inr e => .inr e
  | .ring h buffer deadline p => .inl (.ring h buffer deadline (Ring.readInterrupted p))
  | work => .inl work

/-- What a request to end does to a call. -/
inductive Cut
  /-- The call stands where it cannot be cut short. -/
  | later
  /-- The thread ends, with the world as it then is. -/
  | ends (w : World) (notes : List Note)
  /-- The thread ends as soon as it has come to the end of the call. -/
  | returns (w : World) (work : Work)

/-- A thread that has been asked to end has come to a call, or is in it. -/
def cut (t : ThreadId) (w : World) : Work → Cut
  | .guardedSleep mutex _ _ =>
      let (w, notes) := w.dropGuard t mutex
      .ends w notes
  | .sleep d _ => if d.Normalized then .ends w [] else .later
  | .semaphore _ deadline p => waitOf deadline p
  | .ring _ _ deadline (.waiting p) => waitOf deadline p
  | .queue _ _ _ (.asleep _) => .ends w []
  | .queue _ _ deadline .asking =>
      if (Semaphore.limit? w.kernel.clock deadline w.clock).isSome then .ends w [] else .later
  | .binary s use (.waiting .asleep) =>
      match w.get? s with
      | some (.binary v) =>
          let (v', p) := v.recallThread t
          .returns (w.put s (.binary v')) (.binary s use p)
      | _ => .later
  | .filled r deadline (.waiting .asleep) =>
      match w.get? r with
      | some (.recorder v) =>
          let (s, p) := v.filledMark.recallThread t
          .returns (w.put r (.recorder (v.withMark s))) (.filled r deadline p)
      | _ => .later
  | .condition c mutex deadline .asleep =>
      match w.get? c with
      | some (.condition cv) =>
          .returns (w.put c (.condition (cv.remove t))) (.condition c mutex deadline .recalled)
      | _ => .later
  | .lockedWait c mutex .asleep =>
      match w.get? c with
      | some (.condition cv) =>
          .returns (w.put c (.condition (cv.remove t))) (.lockedWait c mutex .recalled)
      | _ => .later
  | _ => .later
where
  /-- The same for a wait on a semaphore. -/
  waitOf (deadline : Option Timer) : Semaphore.Place → Cut
    | .asleep _ => .ends w []
    | .asking =>
        if (Semaphore.limit? w.kernel.clock deadline w.clock).isSome then .ends w [] else .later

/-- The wait on a condition variable inside a call is over. -/
def awake : Work → Bool
  | .binary _ _ (.waiting _) => false
  | .filled _ _ (.waiting _) => false
  | .condition _ _ _ _ => false
  | .lockedWait _ _ _ => false
  | _ => true

end Work

end Session

end HostLayer
