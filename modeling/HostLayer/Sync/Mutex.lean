import HostLayer.Host.Mutex

/-!
# Mutexes

Mutexes of the library: a host mutex and the attribute word it was made from.

The library refuses words without a meaning and turns the host's reasons into
causes. A guard holds a mutex until it is dropped, which gives up exactly the
hold that the guard stands for; a failure to do so is only noted.

## Main definitions

* `Mutex`: A mutex.
* `Mutex.create`: A new mutex for an attribute word.
* `Mutex.lock`, `Mutex.tryLock`, `Mutex.unlock`, `Mutex.consistent`: The calls.
* `Mutex.dropGuard`: The end of a guard.
* `Mutex.destroy`: The end of a mutex.
* `lockCause`: The causes for the host's reasons on locking and waiting.
-/

namespace HostLayer

/-- The causes for the host's reasons when a mutex is taken. -/
def lockCause : Errno.Table
  | .ownerDead => some .ownerDead
  | .notRecoverable => some .notRecoverable
  | .deadlock => some .deadLock
  | .tryAgain => some .systemLimitReached
  | .invalid => some .invalidParam
  | .notPermitted => some .permissionDenied
  | _ => none

/-- The same for a call that does not wait. -/
def tryLockCause : Errno.Table
  | .busy => some .busy
  | e => lockCause e

/-- The causes for the host's reasons when a mutex is given up. -/
def unlockCause : Errno.Table
  | .notPermitted => some .permissionDenied
  | .invalid => some .invalidParam
  | _ => none

/-- The causes for the host's reasons when a mutex is made. -/
def mutexInitCause : Errno.Table
  | .tryAgain => some .systemLimitReached
  | .noMemory => some .outOfMemory
  | .notPermitted => some .permissionDenied
  | .invalid => some .invalidParam
  | .notSupported => some .notImplemented
  | _ => none

/-- The causes for the host's reasons when a mutex is declared consistent. -/
def consistentCause : Errno.Table
  | .invalid => some .invalidParam
  | _ => none

/-- The causes for the host's reasons when a mutex is destroyed. -/
def mutexDestroyCause : Errno.Table
  | .busy => some .mutexIsLocked
  | .invalid => some .invalidParam
  | _ => none

/-- A mutex and the word that it was made from. -/
structure Mutex where
  attr : SyncAttr
  raw : Host.Mutex
  deriving DecidableEq, Repr

namespace Mutex

/-- A host mutex for an attribute word; a word without a meaning has none. -/
def createRaw (attr : SyncAttr) : Answer Host.Mutex :=
  if attr.valid then
    (Errno.answer mutexInitCause "pthread_mutex_init" (Host.Mutex.create attr)).1
  else .error .invalidParam

/-- A new mutex that nobody holds. -/
def create (attr : SyncAttr) : Answer Mutex := do
  return ⟨attr, ← createRaw attr⟩

/-- Take the mutex; there is no result while the caller has to wait. -/
def lock (m : Mutex) (c : Caller) : Option (Mutex × Answer Unit × List Note) :=
  match m.raw.lock c with
  | .settled raw r =>
      let (answer, notes) := Errno.answer lockCause "pthread_mutex_lock" r
      some ({ m with raw := raw }, answer, notes)
  | .waiting => none

/-- Take the mutex if that needs no waiting. -/
def tryLock (m : Mutex) (c : Caller) : Mutex × Answer Unit × List Note :=
  match m.raw.tryLock c with
  | .settled raw r =>
      let (answer, notes) := Errno.answer tryLockCause "pthread_mutex_trylock" r
      ({ m with raw := raw }, answer, notes)
  | .waiting => (m, .error .busy, [])

/-- What a thread is told that a ceiling does not admit. -/
def barrier (m : Mutex) (c : Caller) : Error :=
  if m.raw.barrier c = .notPermitted then .permissionDenied else .invalidParam

/-- Give up one hold. -/
def unlock (m : Mutex) (t : ThreadId) : Mutex × Answer Unit × List Note :=
  let (raw, r) := m.raw.unlock t
  let (answer, notes) := Errno.answer unlockCause "pthread_mutex_unlock" r
  ({ m with raw := raw }, answer, notes)

/-- Declare the mutex repaired after its owner died. -/
def consistent (m : Mutex) : Mutex × Answer Unit :=
  let (raw, r) := m.raw.makeConsistent
  ({ m with raw := raw }, (Errno.answer consistentCause "pthread_mutex_consistent" r).1)

/-- The end of a guard: its hold is given up, and a failure is noted. -/
def dropGuard (m : Mutex) (t : ThreadId) : Mutex × List Note :=
  match m.unlock t with
  | (m', .ok (), notes) => (m', notes)
  | (m', .error e, notes) =>
      (m', notes ++ [.error ("mutex guard unlock failed: " ++ e.message)])

/-- The end of the mutex, unless someone still uses it. -/
def destroy (m : Mutex) : Answer Unit :=
  (Errno.answer mutexDestroyCause "pthread_mutex_destroy" m.raw.destroy).1

/-- A thread has ended. -/
def holderEnded (m : Mutex) (t : ThreadId) : Mutex :=
  { m with raw := m.raw.holderEnded t }

/-- The mutex as text. -/
def describe (m : Mutex) : String :=
  "Mutex \x7b attr: " ++ m.attr.describe ++ " \x7d"

end Mutex

end HostLayer
