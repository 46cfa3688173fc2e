import HostLayer.CpuSet
import HostLayer.Error
import HostLayer.Host.Thread
import HostLayer.Limits

/-!
# Task Attributes

What a task is asked to be like.

The name of a task is kept up to a limit that is larger than what the host
keeps; the rest is cut when the name is handed to the host. An empty name and an
empty CPU set stand for no wish. The policy and the priority stand for no wish
together, where both are those of an ordinary task.

## Main definitions

* `TaskAttr`: The attributes.
* `TaskAttr.setName`, `TaskAttr.ofName`: Attributes with a name.
* `TaskAttr.wantsSched`: A policy or a priority is asked for.
* `TaskAttr.hostName`: The name for the host, if it takes it.

## Theorems

* `TaskAttr.hostName_eq_ok_iff`: A name is refused exactly for a NUL in the part
  that the host keeps.
-/

namespace HostLayer

/-- What a task is asked to be like. -/
structure TaskAttr where
  name : String
  policy : Policy
  priority : Int
  affinity : CpuSet
  deriving DecidableEq, Repr

namespace TaskAttr

/-- No wishes. -/
def none : TaskAttr := ⟨"", .other, 0, CpuSet.empty⟩

/-- The longest name in bytes. -/
def nameLimit : Nat := Limits.taskName - 1

/-- The attributes with another name. -/
def setName (a : TaskAttr) (name : String) : TaskAttr :=
  { a with name := Text.cut nameLimit name }

/-- A name and no other wishes. -/
def ofName (name : String) : TaskAttr := none.setName name

/-- A policy or a priority is asked for. -/
def wantsSched (a : TaskAttr) : Bool :=
  a.policy != .other || a.priority != 0

/-- The part of a name that the host keeps, unless there is a NUL in it. -/
def hostName (name : String) : Answer String :=
  let kept := Text.cut Host.nameLimit name
  if '\x00' ∈ kept.toList then .error .invalidParam else .ok kept

theorem hostName_eq_ok_iff {name host : String} :
    hostName name = .ok host ↔
      '\x00' ∉ (Text.cut Host.nameLimit name).toList ∧ host = Text.cut Host.nameLimit name := by
  unfold hostName
  by_cases h : '\x00' ∈ (Text.cut Host.nameLimit name).toList
  · simp [h]
  · simp [h, eq_comm]

end TaskAttr

end HostLayer
