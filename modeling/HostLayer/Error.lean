/-!
# Errors

The reasons for which a call of the library can fail.

Every cause has a number, the same one that a program that ends with it hands
back to the shell, and a fixed text. A status word packs the outcome of a call
into one number: zero is success, the number of a cause is that failure, and
no other number stands for anything.

## Main definitions

* `Error`: The causes.
* `Error.code`: The number of a cause, from -1 downwards.
* `Error.ofCode?`: The cause with a given number.
* `Error.message`: The text shown for a cause.
* `Error.exitStatus`: What the shell sees of a program that ends with a cause.
* `Answer`: A value, or the cause why there is none.
* `Answer.status`: The status word of an answer.

## Theorems

* `Error.ofCode?_code`: A cause is found again by its number.
* `Error.ofCode?_eq_some_iff`: Only its own number finds a cause.
* `Error.ofCode?_status`: A status word tells failures apart and success from all.
-/

namespace HostLayer

/-- Why a call of the library failed. -/
inductive Error
  /-- The host refused for a reason without a class of its own. -/
  | operationFailed
  /-- A value out of range, or a malformed name. -/
  | invalidParam
  /-- Access rights or ownership do not allow it. -/
  | permissionDenied
  /-- No descriptor, thread or object is left. -/
  | systemLimitReached
  /-- The deadline has passed. -/
  | timeout
  /-- Nothing is there at the moment. -/
  | unavailable
  /-- The host has no memory left. -/
  | outOfMemory
  /-- A robust mutex was given up without repair after its owner died. -/
  | notRecoverable
  /-- The previous owner died; the caller now owns the mutex. -/
  | ownerDead
  /-- The caller waits for itself. -/
  | deadLock
  /-- The call would have had to wait. -/
  | busy
  /-- There is no such object. -/
  | notFound
  /-- The host cannot do this. -/
  | notImplemented
  /-- There is nothing to report. -/
  | noData
  /-- A signal arrived during the call. -/
  | interrupted
  /-- A mutex in use cannot be destroyed. -/
  | mutexIsLocked
  deriving DecidableEq, Repr

namespace Error

/-- All causes, in the order of their numbers. -/
def all : List Error :=
  [operationFailed, invalidParam, permissionDenied, systemLimitReached, timeout, unavailable,
    outOfMemory, notRecoverable, ownerDead, deadLock, busy, notFound, notImplemented, noData,
    interrupted, mutexIsLocked]

/-- The number of a cause. -/
def code : Error → Int
  | operationFailed => -1
  | invalidParam => -2
  | permissionDenied => -3
  | systemLimitReached => -4
  | timeout => -5
  | unavailable => -6
  | outOfMemory => -7
  | notRecoverable => -8
  | ownerDead => -9
  | deadLock => -10
  | busy => -11
  | notFound => -12
  | notImplemented => -13
  | noData => -14
  | interrupted => -15
  | mutexIsLocked => -16

/-- The cause with the number `n`, if there is one. -/
def ofCode? (n : Int) : Option Error :=
  all.find? fun e => e.code = n

/-- The text shown for a cause. -/
def message : Error → String
  | operationFailed => "operation failed"
  | invalidParam => "invalid parameter"
  | permissionDenied => "permission denied"
  | systemLimitReached => "system limit reached"
  | timeout => "timeout"
  | unavailable => "unavailable"
  | outOfMemory => "out of memory"
  | notRecoverable => "not recoverable"
  | ownerDead => "owner dead"
  | deadLock => "deadlock"
  | busy => "busy"
  | notFound => "not found"
  | notImplemented => "not implemented"
  | noData => "no data"
  | interrupted => "interrupted"
  | mutexIsLocked => "mutex is locked"

/-- The name of a cause, as a program prints it that gives up with it. -/
def name : Error → String
  | operationFailed => "OperationFailed"
  | invalidParam => "InvalidParam"
  | permissionDenied => "PermissionDenied"
  | systemLimitReached => "SystemLimitReached"
  | timeout => "Timeout"
  | unavailable => "Unavailable"
  | outOfMemory => "OutOfMemory"
  | notRecoverable => "NotRecoverable"
  | ownerDead => "OwnerDead"
  | deadLock => "DeadLock"
  | busy => "Busy"
  | notFound => "NotFound"
  | notImplemented => "NotImplemented"
  | noData => "NoData"
  | interrupted => "Interrupted"
  | mutexIsLocked => "MutexIsLocked"

/-- The low byte of the number, which is what the shell sees. -/
def exitStatus (e : Error) : Nat :=
  (e.code % 256).toNat

theorem ofCode?_code (e : Error) : ofCode? e.code = some e := by
  cases e <;> rfl

theorem ofCode?_eq_some_iff {n : Int} {e : Error} : ofCode? n = some e ↔ n = e.code := by
  constructor
  · intro h
    have := List.find?_some h
    exact (of_decide_eq_true this).symm
  · intro h
    rw [h, ofCode?_code]

end Error

/-- What a call of the library gives back. -/
abbrev Answer (α : Type) := Except Error α

/-- The status word of an answer: zero for success, else the number of the
    cause. -/
def Answer.status {α : Type} : Answer α → Int
  | .ok _ => 0
  | .error e => e.code

/-- A status word gives back the cause of a failure, and none for success. -/
theorem Error.ofCode?_status {α : Type} (r : Answer α) :
    Error.ofCode? r.status = match r with
      | .ok _ => none
      | .error e => some e := by
  cases r with
  | ok _ => rfl
  | error e => exact Error.ofCode?_code e

end HostLayer
