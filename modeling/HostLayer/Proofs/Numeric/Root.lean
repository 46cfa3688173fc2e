import HostLayer.Numeric.Root
import Mathlib.Algebra.Order.Ring.Nat
import Mathlib.Tactic.Ring

/-!
# Bounds of Rounded Roots

A rounded root does not leave the range of the exact one.

A power of two has one significant bit, so the unit has it as it is, and
rounding, which goes to the nearest number that the unit has, does not cross
it. That holds of both roundings, the one of the number and the one of its root.

## Theorems

* `Numeric.roundTo_le_two_pow`: Rounding a number does not cross a power of two.
* `Numeric.nearestRoot_le_two_pow`: Neither does the nearest root.
* `Numeric.roundedRoot_le_two_pow`: The rounded root of a number up to `2 ^ (2 * k)`
  is at most `2 ^ k`.
-/

namespace HostLayer

namespace Numeric

/-- A number up to `c` times the divisor has a rounded quotient up to `c`. -/
theorem divideNearest_le (n d c : Nat) (hd : 0 < d) (h : n ≤ c * d) : divideNearest n d ≤ c := by
  rcases Nat.lt_or_eq_of_le h with hlt | heq
  · have hq : n / d < c := (Nat.div_lt_iff_lt_mul hd).mpr hlt
    simp only [divideNearest]
    split_ifs <;> omega
  · have hq : n / d = c := by rw [heq, Nat.mul_div_cancel _ hd]
    have hr : n % d = 0 := by rw [heq, Nat.mul_mod_left]
    simp only [divideNearest, hr, Nat.mul_zero, hd, if_true, hq, Nat.le_refl]

theorem roundTo_le_two_pow (n b : Nat) (h : n ≤ 2 ^ b) : roundTo n ≤ 2 ^ b := by
  have hlog : n.log2 ≤ b := by
    rcases Nat.eq_zero_or_pos n with rfl | hn
    · exact Nat.zero_le b
    · exact (Nat.pow_le_pow_iff_right (by decide)).mp
        (Nat.le_trans (Nat.log2_self_le (Nat.ne_of_gt hn)) h)
  simp only [roundTo]
  generalize he : n.log2 + 1 - significand = e
  have heb : e ≤ b := by
    unfold significand at he
    omega
  have hsplit : 2 ^ b = 2 ^ (b - e) * 2 ^ e := by rw [← Nat.pow_add, Nat.sub_add_cancel heb]
  rw [Nat.shiftLeft_eq, Nat.shiftLeft_eq, Nat.one_mul, hsplit]
  exact Nat.mul_le_mul_right _ (divideNearest_le n (2 ^ e) _ (Nat.two_pow_pos e) (hsplit ▸ h))

theorem root_le (n c : Nat) (h : n ≤ c * c) : root n ≤ c :=
  Nat.mul_self_le_mul_self_iff.mp (Nat.le_trans (rootBits_sq_le n _ 0 (Nat.zero_le n)) h)

-- A whole number that is at most half a unit above a bound is not above it.
theorem succ_le_of_half (t c : Nat) (h : (2 * t + 1) * (2 * t + 1) ≤ 4 * (c * c)) : t + 1 ≤ c := by
  have hsq : (2 * t + 1) * (2 * t + 1) ≤ (2 * c) * (2 * c) := by
    rw [show 2 * c * (2 * c) = 4 * (c * c) by ring]
    exact h
  have hle := Nat.mul_self_le_mul_self_iff.mp hsq
  omega

/-- The root to the nearest whole number is not above a bound of the root. -/
theorem nearest_le (n c : Nat) (h : n ≤ c * c) :
    (if (2 * root n + 1) * (2 * root n + 1) < 4 * n then root n + 1 else root n) ≤ c := by
  split_ifs with hup
  · exact succ_le_of_half _ _ (Nat.le_trans (Nat.le_of_lt hup) (Nat.mul_le_mul_left 4 h))
  · exact root_le n c h

/-- The same in units of which `d` squares make the number, with a middle that
    goes to the even side. -/
theorem nearest_even_le (m d t c : Nat) (hd : 0 < d) (h : m ≤ c * c * d) (ht : t ≤ c) :
    (if (2 * t + 1) * (2 * t + 1) * d < 4 * m then t + 1
      else if 4 * m < (2 * t + 1) * (2 * t + 1) * d then t else t + t % 2) ≤ c := by
  have hnext : (2 * t + 1) * (2 * t + 1) * d ≤ 4 * m → t + 1 ≤ c := fun hup =>
    succ_le_of_half t c (Nat.le_of_mul_le_mul_right (Nat.le_trans hup
      (by rw [Nat.mul_assoc]; exact Nat.mul_le_mul_left 4 h)) hd)
  split_ifs with hup hdown
  · exact hnext (Nat.le_of_lt hup)
  · exact ht
  · have hle := hnext (Nat.le_of_not_lt hdown)
    omega

theorem nearestRoot_le_two_pow (m k : Nat) (h : m ≤ 2 ^ (2 * k)) : nearestRoot m ≤ 2 ^ k := by
  have hhalf : m.log2 / 2 ≤ k := by
    rcases Nat.eq_zero_or_pos m with rfl | hm
    · exact Nat.zero_le k
    · have hlog : m.log2 ≤ 2 * k := (Nat.pow_le_pow_iff_right (by decide)).mp
        (Nat.le_trans (Nat.log2_self_le (Nat.ne_of_gt hm)) h)
      omega
  have hsquare : ∀ j, 2 ^ (2 * j) = 2 ^ j * 2 ^ j := fun j => by rw [Nat.two_mul, Nat.pow_add]
  by_cases hfew : m.log2 / 2 < significand
  · -- The root is found in small units, of which `2 ^ fine` make one.
    simp only [nearestRoot, hfew, if_true]
    generalize significand - 1 - m.log2 / 2 = fine
    have hscaled : m <<< (2 * fine) ≤ 2 ^ (k + fine) * 2 ^ (k + fine) := by
      rw [Nat.shiftLeft_eq, ← hsquare, Nat.mul_add, Nat.pow_add]
      exact Nat.mul_le_mul_right _ h
    have hnear := nearest_le _ _ hscaled
    rw [Nat.pow_add, Nat.mul_comm (2 ^ k)] at hnear
    rw [Nat.shiftRight_eq_div_pow]
    exact Nat.div_le_of_le_mul hnear
  · -- The root is found in units of `2 ^ coarse`.
    simp only [nearestRoot, hfew, if_false]
    generalize hc : m.log2 / 2 + 1 - significand = coarse
    have hck : coarse ≤ k := by
      unfold significand at hc
      omega
    have hk : 2 ^ k = 2 ^ (k - coarse) * 2 ^ coarse := by
      rw [← Nat.pow_add, Nat.sub_add_cancel hck]
    have hm : m ≤ 2 ^ (k - coarse) * 2 ^ (k - coarse) * 2 ^ (2 * coarse) := by
      rw [← hsquare, ← Nat.pow_add, ← Nat.mul_add, Nat.sub_add_cancel hck]
      exact h
    have hroot : root (m >>> (2 * coarse)) ≤ 2 ^ (k - coarse) := by
      rw [Nat.shiftRight_eq_div_pow]
      exact root_le _ _ (Nat.div_le_of_le_mul (by rw [Nat.mul_comm]; exact hm))
    rw [Nat.shiftLeft_eq, Nat.shiftLeft_eq, hk]
    exact Nat.mul_le_mul_right _ (nearest_even_le m _ _ _ (Nat.two_pow_pos _) hm hroot)

/-- The root of a number up to `2 ^ (2 * k)` is at most `2 ^ k`, also when it is
    rounded twice. -/
theorem roundedRoot_le_two_pow (n k : Nat) (h : n ≤ 2 ^ (2 * k)) : roundedRoot n ≤ 2 ^ k :=
  nearestRoot_le_two_pow _ k (roundTo_le_two_pow n _ h)

end Numeric

end HostLayer
