import HostLayer.Limits

/-!
# CPU Sets

Sets of CPUs, kept as the bits of one 64-bit mask.

Only the CPUs 0 to 63 have a bit. A CPU beyond them is never in a set, and
adding or removing one changes nothing. An empty set stands for no wish at
all wherever a set says where a task may run.

## Main definitions

* `CpuSet`: A mask.
* `CpuSet.bit`: The mask of one CPU.
* `CpuSet.contains`, `CpuSet.insert`, `CpuSet.erase`: The set operations.
* `CpuSet.toList`: The CPUs of a set in ascending order.
* `CpuSet.ofList`: The set of the CPUs of a list.
-/

namespace HostLayer

/-- A set of the CPUs 0 to 63. -/
structure CpuSet where
  mask : UInt64
  deriving DecidableEq, Repr

namespace CpuSet

/-- The set without CPUs. -/
def empty : CpuSet := ⟨0⟩

/-- The mask of one CPU, which must be one that has a bit. -/
def bit (cpu : Nat) : UInt64 :=
  1 <<< UInt64.ofNat cpu

/-- The CPU is in the set. -/
def contains (s : CpuSet) (cpu : Nat) : Bool :=
  cpu < Limits.cpus && s.mask &&& bit cpu != 0

/-- The set with one more CPU. -/
def insert (s : CpuSet) (cpu : Nat) : CpuSet :=
  if cpu < Limits.cpus then ⟨s.mask ||| bit cpu⟩ else s

/-- The set without a CPU. -/
def erase (s : CpuSet) (cpu : Nat) : CpuSet :=
  if cpu < Limits.cpus then ⟨s.mask &&& ~~~(bit cpu)⟩ else s

/-- There is no CPU in the set. -/
def isEmpty (s : CpuSet) : Bool :=
  s.mask == 0

/-- The CPUs of the set in ascending order. -/
def toList (s : CpuSet) : List Nat :=
  (List.range Limits.cpus).filter s.contains

/-- How many of the lowest `n` bits of `w` are set. -/
def onesBelow (w : UInt64) : Nat → Nat
  | 0 => 0
  | n + 1 => onesBelow w n + if w &&& bit n != 0 then 1 else 0

/-- The number of CPUs in the set. -/
def count (s : CpuSet) : Nat :=
  onesBelow s.mask Limits.cpus

/-- The lowest set bit of `w` at or above `i`, looking at `n` bits. -/
def lowestFrom (w : UInt64) (i : Nat) : Nat → Option Nat
  | 0 => none
  | n + 1 => if w &&& bit i != 0 then some i else lowestFrom w (i + 1) n

/-- The lowest CPU of the set. -/
def first? (s : CpuSet) : Option Nat :=
  lowestFrom s.mask 0 Limits.cpus

/-- The set of the CPUs of a list, as far as they have a bit. -/
def ofList (cpus : List Nat) : CpuSet :=
  cpus.foldl insert empty

/-- The CPUs of both sets. -/
def inter (a b : CpuSet) : CpuSet :=
  ⟨a.mask &&& b.mask⟩

end CpuSet

end HostLayer
