import Mathlib.Tactic.Ring

/-!
# Rounding to the nearest integer

A quotient is rounded to the nearest integer, up in the middle.  Sums of rounded
quotients are compared through the amounts that were rounded up.
-/

namespace PrinterSdk.Data

/-- The quotient, rounded to the nearest integer. -/
def rounded (divisor value : Int) : Int := (value + divisor / 2) / divisor

/-- What rounding has added to the value; it is negative when the value was rounded down. -/
def roundedUp (divisor value : Int) : Int := divisor / 2 - (value + divisor / 2) % divisor

theorem mul_rounded (divisor value : Int) :
    divisor * rounded divisor value = value + roundedUp divisor value := by
  have split := Int.mul_ediv_add_emod (value + divisor / 2) divisor
  unfold rounded roundedUp
  omega

theorem le_rounded_iff {divisor : Int} (positive : 0 < divisor) (count value : Int) :
    count ≤ rounded divisor value ↔ divisor * count ≤ value + divisor / 2 := by
  unfold rounded
  rw [Int.le_ediv_iff_mul_le positive, Int.mul_comm]

/-- Two rounded quotients and a number of units fit into a third one when rounding up adds
no more than the room between them and half a unit. -/
theorem rounded_add_le_iff {divisor : Int} (positive : 0 < divisor)
    (first second third units : Int) :
    rounded divisor first + rounded divisor second + units ≤ rounded divisor third ↔
      roundedUp divisor first + roundedUp divisor second + divisor * units ≤
        third - first - second + divisor / 2 := by
  have total : divisor * (rounded divisor first + rounded divisor second + units) =
      first + roundedUp divisor first + (second + roundedUp divisor second) + divisor * units := by
    rw [← mul_rounded, ← mul_rounded]
    ring
  rw [le_rounded_iff positive, total]
  constructor <;> intro bound <;> omega

/-- A quotient is rounded to less than a number of units when it is half a unit below. -/
theorem rounded_lt_iff {divisor : Int} (positive : 0 < divisor) (value units : Int) :
    rounded divisor value < units ↔ value + divisor / 2 < divisor * units := by
  rw [← not_le, le_rounded_iff positive, not_le]

/-- Rounding keeps the order. -/
theorem rounded_le_rounded {divisor : Int} (positive : 0 < divisor) {first second : Int}
    (le : first ≤ second) : rounded divisor first ≤ rounded divisor second :=
  Int.ediv_le_ediv positive (Int.add_le_add_right le _)

/-- The quotient of numbers that are not negative is rounded by truncating division. -/
theorem tdiv_eq_rounded {divisor value : Int} (positive : 0 < divisor) (nonneg : 0 ≤ value) :
    (value + divisor.tdiv 2).tdiv divisor = rounded divisor value := by
  have half : divisor.tdiv 2 = divisor / 2 := Int.tdiv_eq_ediv_of_nonneg (Int.le_of_lt positive)
  have sum : 0 ≤ value + divisor / 2 := by omega
  rw [half, Int.tdiv_eq_ediv_of_nonneg sum, rounded]

end PrinterSdk.Data
