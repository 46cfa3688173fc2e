import HostLayer.CpuSet
import Mathlib.Data.Nat.Bitwise

/-!
# CPU Sets by their Members

A mask is told by the CPUs that it contains.

The host leaves out the CPUs that it does not have. A set of CPUs that it has is
kept as it is.

## Theorems

* `CpuSet.toNat_bit`: The mask of one CPU as a number.
* `CpuSet.contains_eq_testBit`: What is in a set is a bit of its mask.
* `CpuSet.ext_contains`: Sets with the same members are the same.
* `CpuSet.contains_inter`: What is in both sets.
* `CpuSet.inter_eq_self`: A set without the CPUs that are not in it.
-/

namespace HostLayer

namespace CpuSet

variable {a b : CpuSet}

theorem toNat_bit {cpu : Nat} (h : cpu < Limits.cpus) : (bit cpu).toNat = 2 ^ cpu := by
  have hlt : cpu < 64 := h
  rw [bit, UInt64.toNat_shiftLeft, UInt64.toNat_ofNat', Nat.mod_eq_of_lt (by omega : cpu < 2 ^ 64),
    Nat.mod_eq_of_lt hlt, UInt64.toNat_one, Nat.one_shiftLeft]
  exact Nat.mod_eq_of_lt (Nat.pow_lt_pow_right (by decide) hlt)

/-- What is in a set is a bit of its mask, also beyond the CPUs that have one. -/
theorem contains_eq_testBit (s : CpuSet) (cpu : Nat) :
    s.contains cpu = s.mask.toNat.testBit cpu := by
  by_cases h : cpu < Limits.cpus
  · rw [contains, decide_eq_true h, Bool.true_and, Bool.eq_iff_iff, bne_iff_ne, ne_eq,
      ← UInt64.toNat_inj, UInt64.toNat_and, toNat_bit h, Nat.and_two_pow]
    rcases s.mask.toNat.testBit cpu with _ | _
    · simp
    · simp
  · have hlow : s.mask.toNat < 2 ^ cpu :=
      Nat.lt_of_lt_of_le s.mask.toNat_lt
        (Nat.pow_le_pow_right (by decide) (Nat.le_of_not_lt h))
    rw [contains, decide_eq_false h, Bool.false_and, Nat.testBit_lt_two_pow hlow]

/-- Sets with the same members are the same. -/
theorem ext_contains (h : ∀ cpu, a.contains cpu = b.contains cpu) : a = b := by
  refine congrArg CpuSet.mk (UInt64.toNat_inj.mp (Nat.eq_of_testBit_eq fun cpu => ?_))
  rw [← contains_eq_testBit, ← contains_eq_testBit, h]

theorem contains_inter (a b : CpuSet) (cpu : Nat) :
    (a.inter b).contains cpu = (a.contains cpu && b.contains cpu) := by
  simp only [contains_eq_testBit, inter, UInt64.toNat_and, Nat.testBit_and]

/-- Nothing is left out of a set whose CPUs there are. -/
theorem inter_eq_self (h : ∀ cpu, a.contains cpu = true → b.contains cpu = true) :
    a.inter b = a := by
  refine ext_contains fun cpu => ?_
  rw [contains_inter]
  rcases ha : a.contains cpu with _ | _
  · rfl
  · rw [h cpu ha, Bool.and_true]

end CpuSet

end HostLayer
