import HostLayer.Host.Errno
import HostLayer.Policy
import HostLayer.Word.SyncAttr

/-!
# Host Mutexes

The rules of the host's mutexes.

A mutex has at most one holder, which may hold it several times if the mutex
is recursive. What a call does depends on the kind of the mutex, on its
protocol, and on whether it is robust. The rules are written for one thread
that makes one call; a call that has to wait changes nothing and is made again
when the mutex has changed.

A robust mutex outlives its holder. When the holder ends, the mutex is
orphaned: the next thread to take it is told so and holds it unrepaired. If
that thread gives it up without declaring it consistent, it is lost for good.
A mutex that is not robust stays held by the thread that has ended, with one
exception: if the mutex hands priorities on and somebody waits for it, the host
gives up the whole process.

Whoever takes a mutex with a ceiling has to rise to it, so it must not stand above
the ceiling already, and the host must let it rise. A thread without a priority
cannot rise. The host tells it so only once, though: it has counted the thread as
risen by then and goes on counting it so. How far a thread can rise is therefore
something that the host states anew with each call.

## Main definitions

* `Caller`: A thread with its scheduling, as far as it matters to a mutex.
* `Health`: What a robust mutex remembers of a dead holder.
* `Mutex`: A mutex.
* `Attempt`: The result of a call that may have to wait.
* `Mutex.create`, `Mutex.lock`, `Mutex.tryLock`, `Mutex.unlock`,
  `Mutex.makeConsistent`, `Mutex.destroy`: The calls.
* `Mutex.releaseToWait`, `Mutex.retake`: Giving a mutex up for the time of a
  wait on a condition.
* `Mutex.admits`: Who may rise to a ceiling.
* `Mutex.holderEnded`, `Mutex.aborts`: The end of a thread.

## Theorems

* `Mutex.barrier_cases`: Why a ceiling keeps a thread out.
* `Mutex.tryLock_settled`: Trying never waits.
-/

namespace HostLayer

/-- The host's name for a thread. -/
abbrev ThreadId := Nat

/-- A thread that makes a call, and how it is scheduled. -/
structure Caller where
  thread : ThreadId
  policy : Policy
  priority : Int
  /-- The highest ceiling to which the host lets it rise, or counts it as risen. -/
  reach : Nat
  deriving DecidableEq, Repr

namespace Host

/-- What a mutex remembers of a holder that ended. -/
inductive Health
  /-- No holder has ended, or the damage has been repaired. -/
  | sound
  /-- The last holder has ended; nobody holds the mutex. -/
  | orphaned
  /-- The holder knows that the one before it has ended. -/
  | unrepaired
  /-- Nobody can hold the mutex again. -/
  | lost
  deriving DecidableEq, Repr

/-- A mutex of the host. -/
structure Mutex where
  kind : MutexKind
  robust : Bool
  protocol : MutexProtocol
  ceiling : Nat
  /-- The thread that holds the mutex. -/
  holder : Option ThreadId
  /-- How many times it holds it. -/
  depth : Nat
  health : Health
  /-- Threads that gave the mutex up for a wait and will come back for it. -/
  awaited : Nat
  deriving DecidableEq, Repr

/-- What became of a call that may have to wait. -/
inductive Attempt
  /-- The call is over, with the mutex as it is now and an answer. -/
  | settled (m : Mutex) (answer : Except Errno Unit)
  /-- The call cannot be answered yet. -/
  | waiting

namespace Mutex

/-- The lowest and the highest ceiling that the host accepts. -/
def ceilingRange : Nat × Nat := (1, 99)

/-- How many times a thread can hold a mutex. -/
def depthLimit : Nat := 4294967295

/-- A new mutex for a word whose two-bit fields have a meaning. A ceiling out
    of range is refused before the combination of ceiling and robustness. -/
def create (attr : SyncAttr) : Except Errno Mutex :=
  let protect := attr.protocol == .protect
  let ceiling := attr.ceiling.toNat
  if protect && !(ceilingRange.1 ≤ ceiling && ceiling ≤ ceilingRange.2) then .error .invalid
  else if protect && attr.robust then .error .notSupported
  else .ok {
    kind := attr.kind
    robust := attr.robust
    protocol := attr.protocol
    ceiling := if protect then ceiling else 0
    holder := none
    depth := 0
    health := .sound
    awaited := 0 }

/-- The thread holds the mutex. -/
def heldBy (m : Mutex) (t : ThreadId) : Bool :=
  m.holder == some t

/-- The mutex with a new holder. -/
def taken (m : Mutex) (t : ThreadId) : Mutex :=
  { m with holder := some t, depth := 1 }

/-- The mutex without a holder. -/
def freed (m : Mutex) : Mutex :=
  { m with holder := none, depth := 0 }

/-- A ceiling admits the threads that do not stand above it and can rise to it. -/
def admits (m : Mutex) (c : Caller) : Bool :=
  m.protocol != .protect || (c.priority ≤ m.ceiling && m.ceiling ≤ c.reach)

/-- Why a ceiling does not admit a thread: it stands above the ceiling, or it has no
    priority to rise with, or it has no right to rise so far. -/
def barrier (m : Mutex) (c : Caller) : Errno :=
  if c.priority ≤ m.ceiling ∧ c.policy.isRealtime then .notPermitted else .invalid

/-- The holder takes the mutex once more. -/
def nest (m : Mutex) : Attempt :=
  if m.depth < depthLimit then .settled { m with depth := m.depth + 1 } (.ok ())
  else .settled m (.error .tryAgain)

/-- A thread takes a mutex that nobody holds. -/
def takeFree (m : Mutex) (t : ThreadId) : Attempt :=
  match m.health with
  | .lost => .settled m (.error .notRecoverable)
  | .orphaned => .settled { m.taken t with health := .unrepaired } (.error .ownerDead)
  | .sound | .unrepaired => .settled (m.taken t) (.ok ())

/-- Take the mutex, waiting until it is free. -/
def lock (m : Mutex) (c : Caller) : Attempt :=
  if m.heldBy c.thread then
    match m.kind with
    | .errorCheck => .settled m (.error .deadlock)
    | .recursive => m.nest
    | .normal | .invalid => if m.admits c then .waiting else .settled m (.error (m.barrier c))
  else if !m.admits c then .settled m (.error (m.barrier c))
  else match m.holder with
    | none => m.takeFree c.thread
    | some _ => .waiting

/-- The reason why a holder cannot take an error-checking mutex again without
    waiting. Only a plain one does not see the deadlock, and says that it is taken. -/
def retryReason (m : Mutex) : Errno :=
  if m.robust || m.protocol != .none then .deadlock else .busy

/-- A thread takes a mutex that nobody holds, as far as it can be had without
    waiting. A thread that finds a lost mutex so is stuck with it: it has not
    taken the mutex, and nobody else can look at it any more. Only where the
    host itself keeps track of the holder is the mutex left alone. -/
def tryFree (m : Mutex) (t : ThreadId) : Attempt :=
  if m.health = .lost ∧ m.protocol ≠ .inherit then
    .settled { m with holder := some t, depth := 0 } (.error .notRecoverable)
  else m.takeFree t

/-- Take the mutex if that needs no waiting. -/
def tryLock (m : Mutex) (c : Caller) : Attempt :=
  if m.heldBy c.thread && m.kind == .recursive then m.nest
  else if m.heldBy c.thread && m.kind == .errorCheck then .settled m (.error m.retryReason)
  else if !m.admits c then .settled m (.error (m.barrier c))
  else match m.holder with
    | none => m.tryFree c.thread
    | some _ => .settled m (.error .busy)

/-- The host checks on release that the caller is the holder. -/
def checksHolder (m : Mutex) : Bool :=
  m.kind != .normal || m.robust || m.protocol == .inherit

/-- The last hold is given up; an unrepaired mutex is lost with it. -/
def release (m : Mutex) : Mutex :=
  if m.health = .unrepaired then { m.freed with health := .lost } else m.freed

/-- Give up one hold. Inner holds of an unrepaired mutex are given up, too,
    but the host reports that the mutex is going to be lost. A lost mutex has no
    holder who could give it up. -/
def unlock (m : Mutex) (t : ThreadId) : Mutex × Except Errno Unit :=
  if m.heldBy t && m.health != .lost then
    if m.kind = .recursive ∧ 1 < m.depth then
      ({ m with depth := m.depth - 1 },
        if m.health = .unrepaired then .error .notRecoverable else .ok ())
    else (m.release, .ok ())
  else if m.checksHolder then (m, .error .notPermitted)
  else (m.freed, .ok ())

/-- Declare that what the mutex protects has been repaired. -/
def makeConsistent (m : Mutex) : Mutex × Except Errno Unit :=
  if m.robust ∧ m.health = .unrepaired then ({ m with health := .sound }, .ok ())
  else (m, .error .invalid)

/-- Only robust mutexes can be destroyed while someone uses them. -/
def destroy (m : Mutex) : Except Errno Unit :=
  if !m.robust && (m.holder.isSome || 0 < m.awaited) then .error .busy else .ok ()

/-- Give up one hold for the time of a wait on a condition. -/
def releaseToWait (m : Mutex) (t : ThreadId) : Mutex × Except Errno Unit :=
  match m.unlock t with
  | (m', .ok ()) => ({ m' with awaited := m'.awaited + 1 }, .ok ())
  | (m', .error e) => (m', .error e)

/-- Take the mutex again after a wait. -/
def retake (m : Mutex) (c : Caller) : Attempt :=
  match m.lock c with
  | .settled m' r => .settled { m' with awaited := m'.awaited - 1 } r
  | .waiting => .waiting

/-- A thread has ended, and the process goes on. -/
def holderEnded (m : Mutex) (t : ThreadId) : Mutex :=
  if m.heldBy t && m.robust && m.health != .lost then { m.freed with health := .orphaned } else m

/-- The process does not go on after the end of a thread: the thread holds the mutex,
    and a `waiter` would be handed it although its holder has died. -/
def aborts (m : Mutex) (t : ThreadId) (waiter : Bool) : Bool :=
  waiter && m.heldBy t && m.protocol == .inherit && !m.robust

/-- A ceiling has two reasons to keep a thread out. -/
theorem barrier_cases (m : Mutex) (c : Caller) :
    m.barrier c = .invalid ∨ m.barrier c = .notPermitted := by
  unfold barrier
  split
  next => exact Or.inr rfl
  next => exact Or.inl rfl

theorem tryLock_settled (m : Mutex) (c : Caller) : ∃ m' r, m.tryLock c = .settled m' r := by
  have hnest : ∃ m' r, m.nest = .settled m' r := by
    unfold nest
    split <;> exact ⟨_, _, rfl⟩
  have hfree : ∃ m' r, m.takeFree c.thread = .settled m' r := by
    unfold takeFree
    split <;> exact ⟨_, _, rfl⟩
  have htry : ∃ m' r, m.tryFree c.thread = .settled m' r := by
    unfold tryFree
    split
    next => exact ⟨_, _, rfl⟩
    next => exact hfree
  unfold tryLock
  split
  next => exact hnest
  next =>
    split
    next => exact ⟨_, _, rfl⟩
    next =>
      split
      next => exact ⟨_, _, rfl⟩
      next =>
        split
        next => exact htry
        next => exact ⟨_, _, rfl⟩

end Mutex

end Host

end HostLayer
