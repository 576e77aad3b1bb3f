import Mathlib.Algebra.Order.Group.Unbundled.Int
import Mathlib.Tactic.Ring

/-!
# Rounding half away from zero

A quotient is rounded to the nearest integer, and away from zero in the middle.  Distances
are compared after multiplying with the divisor, so that they are integers themselves.
-/

namespace PrinterSdk.Data

/-- `result` is the integer nearest to `numerator / divisor`, away from zero in the
middle. -/
structure NearestAway (divisor numerator result : Int) : Prop where
  nearest : ∀ other : Int,
    (numerator - divisor * result).natAbs ≤ (numerator - divisor * other).natAbs
  away : ∀ other : Int,
    (numerator - divisor * other).natAbs = (numerator - divisor * result).natAbs →
      other.natAbs ≤ result.natAbs

namespace NearestAway

variable {divisor numerator larger result next : Int}

/-- A quotient that is at most a half away, and in the middle only on the side away from
zero. -/
theorem of_bounds (positive : 0 < divisor)
    (least : 2 * (divisor * result) - divisor ≤ 2 * numerator)
    (most : 2 * numerator ≤ 2 * (divisor * result) + divisor)
    (low : 2 * numerator = 2 * (divisor * result) - divisor → 0 < result)
    (high : 2 * numerator = 2 * (divisor * result) + divisor → result < 0) :
    NearestAway divisor numerator result := by
  have apart : ∀ other : Int, other < result → divisor * other + divisor ≤ divisor * result := by
    intro other below
    have step := Int.mul_le_mul_of_nonneg_left (Int.add_one_le_of_lt below) (Int.le_of_lt positive)
    rwa [Int.mul_add, Int.mul_one] at step
  have beyond : ∀ other : Int, result < other → divisor * result + divisor ≤ divisor * other := by
    intro other above
    have step := Int.mul_le_mul_of_nonneg_left (Int.add_one_le_of_lt above) (Int.le_of_lt positive)
    rwa [Int.mul_add, Int.mul_one] at step
  refine ⟨?_, ?_⟩
  · intro other
    rcases Int.lt_trichotomy other result with below | rfl | above
    · have room := apart other below
      omega
    · exact Nat.le_refl _
    · have room := beyond other above
      omega
  · intro other same
    rcases Int.lt_trichotomy other result with below | rfl | above
    · have room := apart other below
      have far := low (by omega)
      have next : divisor * other + divisor = divisor * result := by omega
      have close : other + 1 = result := by
        have product : divisor * (other + 1) = divisor * result := by
          rw [Int.mul_add, Int.mul_one]
          exact next
        exact Int.eq_of_mul_eq_mul_left (Int.ne_of_gt positive) product
      omega
    · exact Nat.le_refl _
    · have room := beyond other above
      have far := high (by omega)
      have next : divisor * result + divisor = divisor * other := by omega
      have close : result + 1 = other := by
        have product : divisor * (result + 1) = divisor * other := by
          rw [Int.mul_add, Int.mul_one]
          exact next
        exact Int.eq_of_mul_eq_mul_left (Int.ne_of_gt positive) product
      omega

/-- A rounded quotient is at most a half away, and in the middle it is away from zero. -/
theorem bounds (positive : 0 < divisor) (rounds : NearestAway divisor numerator result) :
    2 * (divisor * result) - divisor ≤ 2 * numerator ∧
      2 * numerator ≤ 2 * (divisor * result) + divisor ∧
      (2 * numerator = 2 * (divisor * result) - divisor → 0 < result) ∧
      (2 * numerator = 2 * (divisor * result) + divisor → result < 0) := by
  have below := rounds.nearest (result - 1)
  have above := rounds.nearest (result + 1)
  have lower := rounds.away (result - 1)
  have upper := rounds.away (result + 1)
  rw [Int.mul_sub, Int.mul_one] at below lower
  rw [Int.mul_add, Int.mul_one] at above upper
  refine ⟨?_, ?_, ?_, ?_⟩
  · clear above lower upper
    omega
  · clear below lower upper
    omega
  · clear below above upper
    intro middle
    have far := lower (by omega)
    clear lower middle
    omega
  · clear below above lower
    intro middle
    have far := upper (by omega)
    clear upper middle
    omega

/-- Rounding keeps the order. -/
theorem mono (positive : 0 < divisor) (rounds : NearestAway divisor numerator result)
    (rounded : NearestAway divisor larger next) (most : numerator ≤ larger) : result ≤ next := by
  obtain ⟨least, -, low, -⟩ := rounds.bounds positive
  obtain ⟨-, greatest, -, high⟩ := rounded.bounds positive
  by_contra below
  have step := Int.mul_le_mul_of_nonneg_left
    (Int.add_one_le_of_lt (Int.lt_of_not_ge below)) (Int.le_of_lt positive)
  rw [Int.mul_add, Int.mul_one] at step
  -- Both quotients are in the middle of the same two integers, on either side of zero.
  have first := low (by omega)
  have second := high (by omega)
  have wide : next + 1 + 1 ≤ result := by omega
  have apart := Int.mul_le_mul_of_nonneg_left wide (Int.le_of_lt positive)
  rw [Int.mul_add, Int.mul_add, Int.mul_one] at apart
  omega

/-- A quotient is rounded to one integer. -/
theorem unique (positive : 0 < divisor) (rounds : NearestAway divisor numerator result)
    (rounded : NearestAway divisor numerator next) : result = next :=
  Int.le_antisymm (rounds.mono positive rounded (Int.le_refl _))
    (rounded.mono positive rounds (Int.le_refl _))

/-- Rounding is odd. -/
theorem neg (rounds : NearestAway divisor numerator result) :
    NearestAway divisor (-numerator) (-result) := by
  have turned : ∀ other : Int,
      (-numerator - divisor * other).natAbs = (numerator - divisor * -other).natAbs := by
    intro other
    rw [Int.mul_neg, ← Int.natAbs_neg]
    congr 1
    omega
  refine ⟨?_, ?_⟩
  · intro other
    rw [turned, turned, Int.neg_neg]
    exact rounds.nearest (-other)
  · intro other same
    rw [turned, turned, Int.neg_neg] at same
    rw [← Int.natAbs_neg, Int.natAbs_neg result]
    exact rounds.away (-other) same

/-- The integer below the numerator and half the divisor rounds a quotient that is not
negative. -/
theorem of_nonneg (positive : 0 < divisor) (nonneg : 0 ≤ numerator) :
    NearestAway divisor numerator ((numerator + divisor / 2) / divisor) := by
  have split := Int.mul_ediv_add_emod (numerator + divisor / 2) divisor
  have least := Int.emod_nonneg (numerator + divisor / 2) (Int.ne_of_gt positive)
  have most := Int.emod_lt_of_pos (numerator + divisor / 2) positive
  have quotient : 0 ≤ (numerator + divisor / 2) / divisor :=
    Int.ediv_nonneg (by omega) (Int.le_of_lt positive)
  generalize (numerator + divisor / 2) / divisor = result at split quotient
  apply of_bounds positive (by omega) (by omega)
  · intro middle
    rcases Int.lt_or_eq_of_le quotient with far | none
    · exact far
    · rw [← none, Int.mul_zero] at middle
      omega
  · intro middle
    omega

/-- A quotient that is not negative is rounded up from half a divisor on. -/
theorem of_split {quotient remainder : Int} (positive : 0 < divisor)
    (split : numerator = divisor * quotient + remainder) (least : 0 ≤ remainder)
    (most : remainder < divisor) (nonneg : 0 ≤ quotient) :
    NearestAway divisor numerator
      (if divisor ≤ 2 * remainder then quotient + 1 else quotient) := by
  split
  · next up =>
      have step : divisor * (quotient + 1) = divisor * quotient + divisor := by
        rw [Int.mul_add, Int.mul_one]
      apply of_bounds positive (by omega) (by omega)
      · intro _
        omega
      · intro middle
        omega
  · next down =>
      apply of_bounds positive (by omega) (by omega)
      · intro middle
        omega
      · intro middle
        omega

end NearestAway

end PrinterSdk.Data
