/-!
# Rounded Roots

Square roots as a binary floating-point unit gives them.

Such a unit keeps 53 significant bits. A large number is first rounded to
them, and the root of the rounded number is the nearest number of 53 bits
again; of two nearest numbers the even one is taken. Everything here is exact
arithmetic on natural numbers.

## Main definitions

* `Numeric.divideNearest`: A quotient rounded to the nearest whole number.
* `Numeric.roundTo`: A number rounded to the bits of the unit.
* `Numeric.root`: The whole part of the square root.
* `Numeric.roundedRoot`: The whole part of the rounded root of a rounded number.

## Theorems

* `Numeric.rootBits_sq_le`: The root from single bits is not too large.
-/

namespace HostLayer

namespace Numeric

/-- The significant bits of the floating-point unit. -/
def significand : Nat := 53

/-- The quotient of `n` by `d`, rounded to the nearest whole number; of two
    nearest ones, the even one. -/
def divideNearest (n d : Nat) : Nat :=
  let q := n / d
  let twice := 2 * (n % d)
  if twice < d then q else if d < twice then q + 1 else q + q % 2

/-- The number rounded to the significant bits of the unit. -/
def roundTo (n : Nat) : Nat :=
  let excess := n.log2 + 1 - significand
  divideNearest n (1 <<< excess) <<< excess

/-- The largest number below `2 ^ b + r` that starts from `r` in steps of
    single bits and has a square up to `n`. -/
def rootBits (n : Nat) : Nat → Nat → Nat
  | 0, r => r
  | b + 1, r =>
      let larger := r + (1 <<< b)
      if larger * larger ≤ n then rootBits n b larger else rootBits n b r

/-- The whole part of the square root. -/
def root (n : Nat) : Nat :=
  rootBits n (n.log2 / 2 + 1) 0

/-- The whole part of the nearest number of the unit to the root of `m`.

    The root has `half + 1` bits before the point. With fewer than the unit
    keeps, it is found in units of `2 ^ -(52 - half)`, else in units of
    `2 ^ (half - 52)`. -/
def nearestRoot (m : Nat) : Nat :=
  let half := m.log2 / 2
  if half < significand then
    let fine := significand - 1 - half
    let t := root (m <<< (2 * fine))
    let up := (2 * t + 1) * (2 * t + 1) < 4 * (m <<< (2 * fine))
    (if up then t + 1 else t) >>> fine
  else
    let coarse := half + 1 - significand
    let t := root (m >>> (2 * coarse))
    let middle := ((2 * t + 1) * (2 * t + 1)) <<< (2 * coarse)
    let t' := if middle < 4 * m then t + 1 else if 4 * m < middle then t else t + t % 2
    t' <<< coarse

/-- The root of a number, both rounded by the unit, cut to a whole number. -/
def roundedRoot (n : Nat) : Nat :=
  nearestRoot (roundTo n)

theorem rootBits_sq_le (n b r : Nat) (h : r * r ≤ n) : rootBits n b r * rootBits n b r ≤ n := by
  induction b generalizing r with
  | zero => simpa [rootBits] using h
  | succ b ih =>
      simp only [rootBits]
      split
      next hl => exact ih _ hl
      next => exact ih _ h

end Numeric

end HostLayer
