import HostLayer.Error

/-!
# Task Endings

How a task ends, and what its end delivers to whoever joins it.

A thread hands back a raw word when it ends: nothing if it ended itself, a mark
if it was cancelled, else a box. A box holds the value of the entry, or just a
token if the task never came to its entry. The one who joins opens the box and
expects a value.

A cancellation is only a request. It takes effect at the next place where the
task waits; a task that reaches no such place ends as if nobody had asked.

## Main definitions

* `Box`, `RawWord`: What a thread hands back.
* `RawWord.deliver`: What joining makes of it.
* `Life`: The life of a task.
* `Life.finish`, `Life.exit`, `Life.cancel`, `Life.reachWait`: What happens in it.

## Theorems

* `Life.cancel_ended`: A request after the end changes nothing.
-/

namespace HostLayer

/-- What a thread leaves in memory. -/
inductive Box (α : Type) where
  /-- The value of the entry. -/
  | value (a : α)
  /-- The sign of a task that never came to its entry. -/
  | token

/-- The raw word that a thread hands back. -/
inductive RawWord (α : Type) where
  /-- The thread ended itself. -/
  | null
  /-- The thread was cancelled. -/
  | cancelled
  /-- The thread came to the end of its work. -/
  | box (b : Box α)

/-- What joining makes of the word of a thread. -/
def RawWord.deliver {α : Type} : RawWord α → Answer (Option α)
  | .null => .ok none
  | .cancelled => .ok none
  | .box (.value a) => .ok (some a)
  | .box .token => .error .operationFailed

/-- The life of a task that has come to its entry. -/
inductive Life (α : Type) where
  /-- The task runs, with or without a request to end. -/
  | running (asked : Bool)
  /-- The task has ended and left a word. -/
  | ended (w : RawWord α)

namespace Life

variable {α : Type}

/-- The entry comes to its end with a value. -/
def finish (a : α) : Life α → Life α
  | running _ => ended (.box (.value a))
  | ended w => ended w

/-- The task ends itself. -/
def exit : Life α → Life α
  | running _ => ended .null
  | ended w => ended w

/-- Somebody asks the task to end. -/
def cancel : Life α → Life α
  | running _ => running true
  | ended w => ended w

/-- The task comes to a place where it waits. -/
def reachWait : Life α → Life α
  | running true => ended .cancelled
  | l => l

/-- The word of a task that has ended. -/
def word? : Life α → Option (RawWord α)
  | running _ => none
  | ended w => some w

theorem cancel_ended (w : RawWord α) : (ended w).cancel = ended w := rfl

end Life

end HostLayer
