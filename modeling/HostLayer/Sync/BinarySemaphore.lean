import HostLayer.Sync.Condition

/-!
# Binary Semaphores

A slot that holds one token or none.

The slot is a flag that is only touched with a mutex held; a condition variable
wakes those who wait for it. Putting a token into a full slot leaves it full.
Each call is a routine: take the mutex, look at the flag, perhaps wait and look
again, give the mutex up.

The mutex is not tied to anything on the stack of a thread. A thread that is
cancelled while it sleeps takes the mutex again like any sleeper that wakes,
and then ends with it.

## Main definitions

* `BinarySemaphore`: The slot with its mutex and its condition variable.
* `BinarySemaphore.Use`: The calls.
* `BinarySemaphore.Place`: Where a call stands.
* `BinarySemaphore.step`: One step of a call.
* `BinarySemaphore.recallThread`: A thread is told to end while it sleeps.
* `BinarySemaphore.threadEnded`: The end of a thread.
-/

namespace HostLayer

/-- A slot for one token. -/
structure BinarySemaphore where
  mutex : Host.Mutex
  condition : Condition
  /-- The token is there. -/
  flag : Bool
  deriving DecidableEq, Repr

namespace BinarySemaphore

/-- What a thread can do with the slot. -/
inductive Use
  /-- Put the token in. -/
  | post
  /-- Take the token, waiting for it. -/
  | wait
  /-- Take the token if it is there. -/
  | tryWait
  /-- Take the token, waiting until a deadline at most. -/
  | timedWait (deadline : Timer)
  deriving DecidableEq, Repr

/-- Where a call stands. -/
inductive Place
  /-- The mutex is about to be taken. -/
  | entering
  /-- The mutex is held, and the flag is about to be looked at or set. -/
  | testing
  /-- The flag has been set, and a sleeper is about to be woken. -/
  | announcing
  /-- The thread waits on the condition variable. -/
  | waiting (p : Condition.Place)
  /-- The deadline has passed; the mutex is held for a last look. -/
  | lastLook
  /-- The mutex is held and about to be given up. -/
  | leaving (r : Answer Unit)

/-- An empty slot whose waits are measured on a clock. Only the shared mark of
    the word matters, and the host treats shared and private ones alike. -/
def create (clock : ClockSource) (attr : SyncAttr) : Answer BinarySemaphore := do
  let mutex ← Mutex.createRaw (SyncAttr.plain.withProcessShared attr.processShared)
  return ⟨mutex, Condition.create clock, false⟩

/-- The part of the slot that a wait on the condition variable works on. -/
def waitState (s : BinarySemaphore) : Condition.WaitState := ⟨s.condition, s.mutex⟩

/-- The slot after a wait has worked on its part. -/
def withWaitState (s : BinarySemaphore) (w : Condition.WaitState) : BinarySemaphore :=
  { s with condition := w.condition, mutex := w.mutex }

/-- The deadline of a call, if it has one. -/
def deadline? : Use → Option Timer
  | .timedWait deadline => some deadline
  | _ => none

/-- Where a call goes on after a wait that has ended with `r`. -/
def afterWait : Use → Answer Unit → Place
  | _, .ok () => .testing
  | .timedWait _, .error .timeout => .lastLook
  | _, .error e => .leaving (.error e)

/-- Where a call goes on that finds the slot empty. -/
def whenEmpty : Use → Place
  | .post => .leaving (.ok ())
  | .wait => .waiting .entering
  | .tryWait => .leaving (.error .timeout)
  | .timedWait _ => .waiting .entering

/-- One step of the call `use` of the thread `c`, at a time that `clock`
    shows. -/
def step (c : Caller) (use : Use) (clock : Clock) (s : BinarySemaphore) :
    Place → Step BinarySemaphore Place (Answer Unit)
  | .entering =>
      match s.mutex.lock c with
      | .waiting => .waits
      | .settled m (.ok ()) => .goto { s with mutex := m } .testing []
      | .settled m (.error e) =>
          let (cause, notes) := Errno.translate lockCause "pthread_mutex_lock" e
          .done { s with mutex := m } (.error cause) notes
  | .testing =>
      match use with
      | .post => .goto { s with flag := true } .announcing []
      | _ =>
          if s.flag then .goto { s with flag := false } (.leaving (.ok ())) []
          else .goto s (whenEmpty use) []
  | .announcing => .goto { s with condition := s.condition.signal } (.leaving (.ok ())) []
  | .waiting p =>
      (Condition.step c (deadline? use) clock s.waitState p).lift s.withWaitState
        .waiting fun w r notes => .goto (s.withWaitState w) (afterWait use r) notes
  | .lastLook =>
      if s.flag then .goto { s with flag := false } (.leaving (.ok ())) []
      else .goto s (.leaving (.error .timeout)) []
  | .leaving r =>
      match s.mutex.unlock c.thread with
      | (m, .ok ()) => .done { s with mutex := m } r []
      | (m, .error e) =>
          let (cause, notes) := Errno.translate unlockCause "pthread_mutex_unlock" e
          .done { s with mutex := m } (.error cause) notes

/-- The thread sleeps in its call. -/
def asleep : Place → Bool
  | .waiting .asleep => true
  | _ => false

/-- A thread that sleeps in a call is told to end: it wakes, and goes on as far
    as to have the mutex again. -/
def recallThread (s : BinarySemaphore) (t : ThreadId) : BinarySemaphore × Place :=
  ({ s with condition := s.condition.remove t }, .waiting .recalled)

/-- A thread has ended. -/
def threadEnded (s : BinarySemaphore) (t : ThreadId) : BinarySemaphore :=
  { s with mutex := s.mutex.holderEnded t, condition := s.condition.remove t }

/-- The end of the slot, unless its mutex is in use. -/
def destroy (s : BinarySemaphore) : Answer Unit :=
  (Errno.answer mutexDestroyCause "pthread_mutex_destroy" s.mutex.destroy).1

/-- The slot as text. -/
def describe : String := "BinarySemaphore \x7b .. \x7d"

end BinarySemaphore

end HostLayer
