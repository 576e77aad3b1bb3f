import Mathlib.Algebra.Order.Ring.Abs
import Mathlib.Tactic.Linarith
import Mathlib.Tactic.LinearCombination
import PrinterSdk.Render.UnitConversion

/-!
# Fixed-point rotation

The renderer turns vectors with a sine and a cosine that it computes in fixed point, by
CORDIC rotations.  The vectors on the way have axes of at most one and a half, far within
`i64` (`cordic_norm`, `abs_le_of_square`), so they are pairs of integers here.
-/

namespace PrinterSdk.Render

open PrinterSdk.Data

/-- `TRIG_SCALE`. -/
def trigScale : Int := 1000000000

/-- `ATAN_MDEG`. -/
def atanMdeg : List Int :=
  [45000, 26565, 14036, 7125, 3576, 1790, 895, 448, 224, 112, 56, 28, 14, 7, 3, 2, 1]

/-- The loop of `fixed_trig`, from a shift on.  Division truncates. -/
def cordic : Nat → List Int → Int → Int → Int → Int × Int
  | _, [], x, y, _ => (x, y)
  | shift, step :: steps, x, y, remaining =>
      let divisor := 2 ^ shift
      if 0 ≤ remaining then
        cordic (shift + 1) steps (x - y.tdiv divisor) (y + x.tdiv divisor) (remaining - step)
      else
        cordic (shift + 1) steps (x + y.tdiv divisor) (y - x.tdiv divisor) (remaining + step)

/-- The sign that turns an angle back by half a turn, and the angle within a quarter. -/
def quarterAngle (angle : Int) : Int × Int :=
  if angle > 90000 then (-1, angle - 180000)
  else if angle < -90000 then (-1, angle + 180000)
  else (1, angle)

/-- `fixed_trig`: the cosine and the sine. -/
def fixedTrig (millidegrees : Int32) : Int × Int :=
  let turned := millidegrees.toInt % 360000
  if turned = 0 then (trigScale, 0)
  else if turned = 90000 then (0, trigScale)
  else if turned = 180000 then (-trigScale, 0)
  else if turned = 270000 then (0, -trigScale)
  else
    let quarter := quarterAngle (if turned > 180000 then turned - 360000 else turned)
    let vector := cordic 0 atanMdeg 607252935 0 quarter.2
    (vector.1 * quarter.1, vector.2 * quarter.1)

/-! ## The length of the vectors -/

section

variable {divisor : Int} (positive : 0 < divisor)

include positive

theorem mul_abs_tdiv_le (value : Int) : divisor * |value.tdiv divisor| ≤ |value| := by
  rw [Int.abs_eq_natAbs, Int.abs_eq_natAbs, Int.natAbs_tdiv]
  calc divisor * ((value.natAbs / divisor.natAbs : Nat) : Int)
      = ((divisor.natAbs * (value.natAbs / divisor.natAbs) : Nat) : Int) := by
        rw [Int.natCast_mul, Int.natAbs_of_nonneg (Int.le_of_lt positive)]
    _ ≤ value.natAbs := Int.ofNat_le.mpr (Nat.mul_div_le _ _)

theorem abs_tmod_le (value : Int) : |value.tmod divisor| ≤ divisor :=
  abs_le.mpr ⟨Int.le_of_lt (Int.lt_tmod_of_pos value positive),
    Int.le_of_lt (Int.tmod_lt_of_pos value positive)⟩

/-- What a rotation moves from one axis to the other nearly cancels. -/
theorem abs_cross_le (x y : Int) :
    |y * x.tdiv divisor - x * y.tdiv divisor| ≤ |x| + |y| := by
  have across : y * x.tdiv divisor - x * y.tdiv divisor =
      y.tmod divisor * x.tdiv divisor - x.tmod divisor * y.tdiv divisor := by
    have first := Int.mul_tdiv_add_tmod x divisor
    have second := Int.mul_tdiv_add_tmod y divisor
    linear_combination (y.tdiv divisor) * first - (x.tdiv divisor) * second
  have rest : ∀ left right : Int, |left.tmod divisor * right.tdiv divisor| ≤ |right| := by
    intro left right
    rw [abs_mul]
    exact (mul_le_mul_of_nonneg_right (abs_tmod_le positive left) (abs_nonneg _)).trans
      (mul_abs_tdiv_le positive right)
  rw [across]
  apply (abs_sub _ _).trans
  exact add_le_add (rest y x) (rest x y)

/-- The square of the length of a vector that is moved by a rotation of a step. -/
theorem square_tdiv_le {x y bound : Int} (short : x * x + y * y ≤ bound) :
    x.tdiv divisor * x.tdiv divisor + y.tdiv divisor * y.tdiv divisor ≤
      bound / (divisor * divisor) := by
  have square : ∀ value : Int,
      divisor * divisor * (value.tdiv divisor * value.tdiv divisor) ≤ value * value := by
    intro value
    have within := mul_abs_tdiv_le positive value
    have lengthened := mul_self_le_mul_self
      (mul_nonneg (Int.le_of_lt positive) (abs_nonneg (value.tdiv divisor))) within
    rw [abs_mul_abs_self] at lengthened
    calc divisor * divisor * (value.tdiv divisor * value.tdiv divisor)
        = divisor * |value.tdiv divisor| * (divisor * |value.tdiv divisor|) := by
          rw [mul_mul_mul_comm divisor |value.tdiv divisor|, abs_mul_abs_self]
      _ ≤ value * value := lengthened
  apply (Int.le_ediv_iff_mul_le (mul_pos positive positive)).mpr
  have first := square x
  have second := square y
  linarith

end

/-- The axes of a vector whose square is at most two. -/
theorem abs_le_of_square {x bound : Int} (short : x * x ≤ bound) (limit : bound ≤ 2 * 10 ^ 18) :
    |x| ≤ 1500000000 := by
  apply abs_le_of_sq_le_sq _ (by decide)
  rw [sq]
  exact short.trans (limit.trans (by decide))

/-- The square of a vector after one more rotation. -/
def normBound (shift : Nat) (bound : Int) : Int := bound + bound / (2 ^ shift * 2 ^ shift) + 6000000000

/-- The square of a vector after the rotations of some steps. -/
def normBoundAfter : Nat → Nat → Int → Int
  | _, 0, bound => bound
  | shift, steps + 1, bound => normBoundAfter (shift + 1) steps (normBound shift bound)

section

variable {x y bound : Int} (shift : Nat) (short : x * x + y * y ≤ bound)
  (limit : bound ≤ 2 * 10 ^ 18)

include short limit

/-- A rotation by a step, in either direction. -/
theorem norm_rotate {across down : Int}
    (turns : across = x - y.tdiv (2 ^ shift) ∧ down = y + x.tdiv (2 ^ shift) ∨
      across = x + y.tdiv (2 ^ shift) ∧ down = y - x.tdiv (2 ^ shift)) :
    across * across + down * down ≤ normBound shift bound := by
  have positive : (0 : Int) < 2 ^ shift := Int.pow_pos (by decide)
  have moved := square_tdiv_le positive short
  have cancels := abs_le.mp (abs_cross_le positive x y)
  have wide : |x| ≤ 1500000000 :=
    abs_le_of_square (by linarith [mul_self_nonneg y] : x * x ≤ bound) limit
  have high : |y| ≤ 1500000000 :=
    abs_le_of_square (by linarith [mul_self_nonneg x] : y * y ≤ bound) limit
  unfold normBound
  rcases turns with ⟨rfl, rfl⟩ | ⟨rfl, rfl⟩
  · have expand : (x - y.tdiv (2 ^ shift)) * (x - y.tdiv (2 ^ shift)) +
        (y + x.tdiv (2 ^ shift)) * (y + x.tdiv (2 ^ shift)) = x * x + y * y +
        (x.tdiv (2 ^ shift) * x.tdiv (2 ^ shift) + y.tdiv (2 ^ shift) * y.tdiv (2 ^ shift)) +
        2 * (y * x.tdiv (2 ^ shift) - x * y.tdiv (2 ^ shift)) := by ring
    linarith
  · have expand : (x + y.tdiv (2 ^ shift)) * (x + y.tdiv (2 ^ shift)) +
        (y - x.tdiv (2 ^ shift)) * (y - x.tdiv (2 ^ shift)) = x * x + y * y +
        (x.tdiv (2 ^ shift) * x.tdiv (2 ^ shift) + y.tdiv (2 ^ shift) * y.tdiv (2 ^ shift)) -
        2 * (y * x.tdiv (2 ^ shift) - x * y.tdiv (2 ^ shift)) := by ring
    linarith

end

theorem le_normBound {bound : Int} (nonneg : 0 ≤ bound) (shift : Nat) :
    bound ≤ normBound shift bound := by
  have moved : 0 ≤ bound / (2 ^ shift * 2 ^ shift) :=
    Int.ediv_nonneg nonneg (mul_nonneg (Int.le_of_lt (Int.pow_pos (by decide)))
      (Int.le_of_lt (Int.pow_pos (by decide))))
  unfold normBound
  linarith

theorem le_normBoundAfter {bound : Int} (nonneg : 0 ≤ bound) (shift steps : Nat) :
    bound ≤ normBoundAfter shift steps bound := by
  induction steps generalizing shift bound with
  | zero => exact Int.le_refl _
  | succ steps ih =>
      have longer := le_normBound nonneg shift
      exact longer.trans (ih (nonneg.trans longer) (shift + 1))

/-- The vector of a computation within the range stays within it. -/
theorem cordic_norm {shift : Nat} {steps : List Int} {x y remaining bound : Int}
    (short : x * x + y * y ≤ bound)
    (limit : normBoundAfter shift steps.length bound ≤ 2 * 10 ^ 18) :
    (cordic shift steps x y remaining).1 * (cordic shift steps x y remaining).1 +
        (cordic shift steps x y remaining).2 * (cordic shift steps x y remaining).2 ≤
      normBoundAfter shift steps.length bound := by
  induction steps generalizing shift x y remaining bound with
  | nil => exact short
  | cons step steps ih =>
      have nonneg : 0 ≤ bound := (add_nonneg (mul_self_nonneg x) (mul_self_nonneg y)).trans short
      have within : bound ≤ 2 * 10 ^ 18 := (le_normBoundAfter nonneg _ _).trans limit
      rw [cordic]
      split
      · exact ih (norm_rotate shift short within (.inl ⟨rfl, rfl⟩)) limit
      · exact ih (norm_rotate shift short within (.inr ⟨rfl, rfl⟩)) limit

/-- The square of the length of a vector. -/
def squareLength (vector : Int × Int) : Int := vector.1 * vector.1 + vector.2 * vector.2

theorem squareLength_mul_unit (vector : Int × Int) {sign : Int} (unit : sign * sign = 1) :
    squareLength (vector.1 * sign, vector.2 * sign) = squareLength vector := by
  unfold squareLength
  linear_combination (vector.1 * vector.1 + vector.2 * vector.2) * unit

theorem quarterAngle_unit (angle : Int) : (quarterAngle angle).1 * (quarterAngle angle).1 = 1 := by
  unfold quarterAngle
  split
  · rfl
  · split
    · rfl
    · rfl

/-- The vector that the loop leaves is not much longer than one. -/
theorem squareLength_cordic_le (remaining : Int) :
    squareLength (cordic 0 atanMdeg 607252935 0 remaining) ≤ 1100000000000000000 := by
  have start : (607252935 : Int) * 607252935 + 0 * 0 ≤ 368756127067514225 := by decide
  have limit : normBoundAfter 0 atanMdeg.length 368756127067514225 ≤ 1100000000000000000 := by
    decide +kernel
  exact (cordic_norm start (limit.trans (by decide))).trans limit

/-- The cosine and the sine are not much longer than one. -/
theorem squareLength_fixedTrig_le (millidegrees : Int32) :
    squareLength (fixedTrig millidegrees) ≤ 1100000000000000000 := by
  have unit : squareLength (trigScale, 0) ≤ 1100000000000000000 := by decide
  unfold fixedTrig
  generalize millidegrees.toInt % 360000 = turned
  by_cases right : turned = 0
  · rw [if_pos right]
    exact unit
  by_cases down : turned = 90000
  · rw [if_neg right, if_pos down]
    exact unit
  by_cases left : turned = 180000
  · rw [if_neg right, if_neg down, if_pos left]
    exact unit
  by_cases up : turned = 270000
  · rw [if_neg right, if_neg down, if_neg left, if_pos up]
    exact unit
  rw [if_neg right, if_neg down, if_neg left, if_neg up]
  dsimp only
  rw [squareLength_mul_unit _ (quarterAngle_unit _)]
  exact squareLength_cordic_le _

/-- The two parts of a rotation lengthen an axis by at most a half. -/
theorem abs_add_abs_fixedTrig_le (millidegrees : Int32) :
    |(fixedTrig millidegrees).1| + |(fixedTrig millidegrees).2| ≤ 1500000000 := by
  have short := squareLength_fixedTrig_le millidegrees
  unfold squareLength at short
  generalize fixedTrig millidegrees = vector at short
  rw [← abs_mul_abs_self vector.1, ← abs_mul_abs_self vector.2] at short
  have mean := mul_self_nonneg (|vector.1| - |vector.2|)
  apply abs_le_of_sq_le_sq' _ (by decide) |>.2
  rw [sq, sq]
  linarith

end PrinterSdk.Render
