import HostLayer.Error
import HostLayer.Host.Mutex

/-!
# Spinlocks

Locks that are waited for in a loop.

A spinlock is either held or not; the host does not know by whom. Of the
attribute word only the shared mark has a meaning, and a word that asks for
anything else is refused.

## Main definitions

* `Spinlock`: A spinlock.
* `Spinlock.create`, `Spinlock.tryLock`, `Spinlock.lock?`, `Spinlock.unlock`: The calls.
-/

namespace HostLayer

/-- A spinlock. -/
structure Spinlock where
  held : Bool
  deriving DecidableEq, Repr

namespace Spinlock

/-- A new spinlock that nobody holds. -/
def create (attr : SyncAttr) : Answer Spinlock :=
  if !attr.valid then .error .invalidParam
  else if attr.robust || attr.kind != .normal || attr.protocol != .none then
    .error .notImplemented
  else .ok ⟨false⟩

/-- Take the lock; there is no result while someone holds it. -/
def lock? (s : Spinlock) : Option Spinlock :=
  if s.held then none else some ⟨true⟩

/-- Take the lock if nobody holds it. -/
def tryLock (s : Spinlock) : Spinlock × Answer Unit :=
  if s.held then (s, .error .busy) else (⟨true⟩, .ok ())

/-- Give the lock up. -/
def unlock (_ : Spinlock) : Spinlock × Answer Unit :=
  (⟨false⟩, .ok ())

/-- The spinlock as text. -/
def describe : String := "Spinlock \x7b .. \x7d"

end Spinlock

end HostLayer
