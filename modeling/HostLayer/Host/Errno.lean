import HostLayer.Diagnostic
import HostLayer.Error

/-!
# Host Errors

The reasons that the host gives when it refuses a call.

Each kind of call has a table that turns the host's reasons into causes of the
library. A reason that the table does not list becomes the general cause, and
a note names the call and the reason's number.

## Main definitions

* `Errno`: The host's reasons.
* `Errno.number`: The number of a reason.
* `Errno.translate`: The cause for a reason, with the note it may need.
-/

namespace HostLayer

/-- Why the host refused a call. -/
inductive Errno
  | notPermitted
  | noEntry
  | noProcess
  | interrupted
  | badDescriptor
  | tryAgain
  | noMemory
  | accessDenied
  | busy
  | alreadyExists
  | noDevice
  | directory
  | invalid
  | systemTableFull
  | tooManyOpen
  | tooLarge
  | noSpace
  | outOfRange
  | deadlock
  | nameTooLong
  | noSystemCall
  | overflow
  | messageSize
  | notSupported
  | timedOut
  | ownerDead
  | notRecoverable
  deriving DecidableEq, Repr

namespace Errno

/-- The number of a reason. -/
def number : Errno → Nat
  | notPermitted => 1
  | noEntry => 2
  | noProcess => 3
  | interrupted => 4
  | badDescriptor => 9
  | tryAgain => 11
  | noMemory => 12
  | accessDenied => 13
  | busy => 16
  | alreadyExists => 17
  | noDevice => 19
  | directory => 21
  | invalid => 22
  | systemTableFull => 23
  | tooManyOpen => 24
  | tooLarge => 27
  | noSpace => 28
  | outOfRange => 34
  | deadlock => 35
  | nameTooLong => 36
  | noSystemCall => 38
  | overflow => 75
  | messageSize => 90
  | notSupported => 95
  | timedOut => 110
  | ownerDead => 130
  | notRecoverable => 131

/-- A table of the causes that the reasons of one kind of call stand for. -/
abbrev Table := Errno → Option Error

/-- The cause that a table gives for a reason. A reason without one is noted
    with the name of the call. -/
def translate (table : Table) (call : String) (e : Errno) : Error × List Note :=
  match table e with
  | some cause => (cause, [])
  | none =>
      (.operationFailed,
        [.warn (call ++ " failed with unmapped errno " ++ toString e.number)])

/-- The answer to a call that the host has answered. -/
def answer {α : Type} (table : Table) (call : String) : Except Errno α → Answer α × List Note
  | .ok a => (.ok a, [])
  | .error e =>
      let (cause, notes) := translate table call e
      (.error cause, notes)

end Errno

end HostLayer
