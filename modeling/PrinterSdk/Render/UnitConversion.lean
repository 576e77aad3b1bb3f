import PrinterSdk.Data.NearestAway
import PrinterSdk.Data.Tracked
import PrinterSdk.Render.Dots

/-!
# Exact dots

`round_ratio` rounds half away from zero, as the coordinate system of a document says,
as long as its quotient is an `i64`; a longer one is cut off by the cast.
-/

namespace PrinterSdk.Render

open PrinterSdk.Data

section

variable {numerator divisor : Int} (positive : 0 < divisor)

include positive

theorem roundedRatio_nearestAway (numerator : Int) :
    NearestAway divisor numerator (roundedRatio numerator divisor) := by
  by_cases negative : numerator < 0
  · have turned : roundedRatio numerator divisor = -((-numerator + divisor / 2) / divisor) := by
      rw [roundedRatio, if_pos negative, Int.neg_one_mul, Int.ofNat_natAbs_of_nonpos
        (Int.le_of_lt negative)]
    rw [turned, ← Int.neg_neg numerator, Int.neg_neg (-numerator)]
    have rounds := NearestAway.of_nonneg positive (Int.neg_nonneg_of_nonpos (Int.le_of_lt negative))
    exact rounds.neg
  · have upright : roundedRatio numerator divisor = (numerator + divisor / 2) / divisor := by
      rw [roundedRatio, if_neg negative, Int.one_mul, Int.natAbs_of_nonneg (Int.not_lt.mp negative)]
    rw [upright]
    exact NearestAway.of_nonneg positive (Int.not_lt.mp negative)

/-- A rounded quotient is what `round_ratio` computes. -/
theorem roundedRatio_eq_iff {result : Int} :
    roundedRatio numerator divisor = result ↔ NearestAway divisor numerator result := by
  constructor
  · rintro rfl
    exact roundedRatio_nearestAway positive numerator
  · exact (roundedRatio_nearestAway positive numerator).unique positive

theorem roundedRatio_mono {larger : Int} (most : numerator ≤ larger) :
    roundedRatio numerator divisor ≤ roundedRatio larger divisor :=
  (roundedRatio_nearestAway positive numerator).mono positive
    (roundedRatio_nearestAway positive larger) most

/-- A multiple of the divisor is not rounded. -/
theorem roundedRatio_mul (count : Int) : roundedRatio (divisor * count) divisor = count := by
  apply (roundedRatio_eq_iff positive).mpr
  apply NearestAway.of_bounds positive
  all_goals omega

end

theorem toInt_roundRatio {numerator divisor : Int} (fits : IsI64 (roundedRatio numerator divisor)) :
    (roundRatio numerator divisor).toInt = roundedRatio numerator divisor :=
  toInt_ofInt64 fits

/-- The cast is harmless for an `i64`, and only for one. -/
theorem roundRatio_nearestAway_iff {numerator divisor : Int} (positive : 0 < divisor) :
    NearestAway divisor numerator (roundRatio numerator divisor).toInt ↔
      IsI64 (roundedRatio numerator divisor) := by
  rw [← roundedRatio_eq_iff positive]
  constructor
  · intro same
    rw [same]
    exact isI64_toInt _
  · intro fits
    exact (toInt_roundRatio fits).symm

/-! ## Dots -/

/-- A length in dots is exact when it is an `i64`, and only then. -/
theorem micrometresToDots_nearestAway_iff (value : Int64) (dpi : UInt16) :
    NearestAway 25400 (value.toInt * dpi.toNat) (micrometresToDots value dpi).toInt ↔
      IsI64 (roundedRatio (value.toInt * dpi.toNat) 25400) :=
  roundRatio_nearestAway_iff (by decide)

theorem isI64_dots_iff (numerator : Int) :
    IsI64 (roundedRatio numerator 25400) ↔
      -25400 * 2 ^ 63 - 12700 < numerator ∧ numerator < 25400 * 2 ^ 63 - 12700 := by
  unfold IsI64 roundedRatio
  by_cases negative : numerator < 0
  · simp only [negative, ↓reduceIte]
    omega
  · simp only [negative, ↓reduceIte]
    omega

/-- At a resolution of at most one dot a micrometre, every length has an `i64` of dots. -/
theorem isI64_dots (value : Int64) {dpi : UInt16} (coarse : dpi.toNat ≤ 25400) :
    IsI64 (roundedRatio (value.toInt * dpi.toNat) 25400) := by
  have positive : (0 : Int) < 25400 := by decide
  have least := value.le_toInt
  have most := value.toInt_lt
  have bound : (dpi.toNat : Int) ≤ 25400 := by exact_mod_cast coarse
  have zero : roundedRatio 0 25400 = 0 := roundedRatio_mul positive 0
  have whole : roundedRatio (25400 * value.toInt) 25400 = value.toInt :=
    roundedRatio_mul positive value.toInt
  rcases Int.le_total 0 value.toInt with nonneg | nonpos
  · have above : value.toInt * dpi.toNat ≤ 25400 * value.toInt := by
      rw [Int.mul_comm 25400]
      exact Int.mul_le_mul_of_nonneg_left bound nonneg
    have below : 0 ≤ value.toInt * dpi.toNat := Int.mul_nonneg nonneg (Int.natCast_nonneg _)
    have lower := roundedRatio_mono positive below
    have upper := roundedRatio_mono positive above
    rw [zero] at lower
    rw [whole] at upper
    exact ⟨by omega, by omega⟩
  · have below : 25400 * value.toInt ≤ value.toInt * dpi.toNat := by
      rw [Int.mul_comm 25400]
      exact Int.mul_le_mul_of_nonpos_left nonpos bound
    have above : value.toInt * dpi.toNat ≤ 0 :=
      Int.mul_nonpos_of_nonpos_of_nonneg nonpos (Int.natCast_nonneg _)
    have lower := roundedRatio_mono positive below
    have upper := roundedRatio_mono positive above
    rw [whole] at lower
    rw [zero] at upper
    exact ⟨by omega, by omega⟩

/-- At a finer resolution, the longest length has not. -/
theorem not_isI64_dots {dpi : UInt16} (fine : 25400 < dpi.toNat) :
    ¬IsI64 (roundedRatio (Int64.maxValue.toInt * dpi.toNat) 25400) := by
  have positive : (0 : Int) < 25400 := by decide
  have longest : Int64.maxValue.toInt = 2 ^ 63 - 1 := by decide
  have bound : (25401 : Int) ≤ dpi.toNat := by exact_mod_cast fine
  have product : Int64.maxValue.toInt * 25401 ≤ Int64.maxValue.toInt * dpi.toNat :=
    Int.mul_le_mul_of_nonneg_left bound (by decide)
  have long : 25400 * 2 ^ 63 ≤ Int64.maxValue.toInt * dpi.toNat := by
    rw [longest] at product ⊢
    exact Int.le_trans (by decide) product
  have least := roundedRatio_mono positive long
  rw [roundedRatio_mul positive] at least
  intro fits
  exact absurd fits.2 (Int.not_lt.mpr least)

end PrinterSdk.Render
