/-!
# Scheduling Policies

The policies under which a task can run, and their priorities.

## Main definitions

* `Policy`: The policies.
* `Policy.range`: The lowest and the highest priority of a policy.
* `clampPriority`: A priority moved into a range.
* `Policy.clamp`: A priority moved into the range of a policy.

## Theorems

* `Policy.clamp_mem`: A moved priority lies in the range.
* `Policy.clamp_of_mem`: A priority of the range stays.
-/

namespace HostLayer

/-- How the host shares out the CPU. -/
inductive Policy
  /-- Time sharing, without priorities. -/
  | other
  /-- Real time, first come first served. -/
  | fifo
  /-- Real time, in turns. -/
  | roundRobin
  deriving DecidableEq, Repr

/-- The nearest priority from `lo` to `hi`; where `hi` is the smaller of the
    two, it wins. -/
def clampPriority (priority lo hi : Int) : Int :=
  min (max priority lo) hi

namespace Policy

/-- The name of a policy. -/
def name : Policy → String
  | other => "Other"
  | fifo => "Fifo"
  | roundRobin => "RoundRobin"

/-- The number of a policy. -/
def number : Policy → Nat
  | other => 0
  | fifo => 1
  | roundRobin => 2

/-- All policies. -/
def all : List Policy := [other, fifo, roundRobin]

/-- The lowest and the highest priority. -/
def range : Policy → Int × Int
  | other => (0, 0)
  | fifo => (1, 99)
  | roundRobin => (1, 99)

/-- The nearest priority that the policy has. -/
def clamp (p : Policy) (priority : Int) : Int :=
  clampPriority priority p.range.1 p.range.2

/-- A policy with priorities of its own needs a right. -/
def isRealtime (p : Policy) : Bool :=
  p != other

theorem clamp_mem (p : Policy) (priority : Int) :
    p.range.1 ≤ p.clamp priority ∧ p.clamp priority ≤ p.range.2 := by
  cases p <;> simp only [clamp, clampPriority, range] <;> omega

theorem clamp_of_mem {p : Policy} {priority : Int} (lo : p.range.1 ≤ priority)
    (hi : priority ≤ p.range.2) : p.clamp priority = priority := by
  simp only [clamp, clampPriority]
  omega

end Policy

end HostLayer
