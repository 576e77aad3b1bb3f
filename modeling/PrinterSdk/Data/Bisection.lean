import Mathlib.Algebra.Order.Ring.Nat
import Mathlib.Order.Bounds.Basic
import Mathlib.Order.Interval.Set.Defs

/-!
# Bisection

The least number with a property is found by halving a range, when the property holds of all
numbers behind one that has it.
-/

namespace PrinterSdk.Data

/-- Halve the range from `low` to `high` until nothing is left of it, within some rounds. -/
def bisect (holds : Nat → Bool) : Nat → Nat → Nat → Option Nat
  | 0, _, _ => none
  | rounds + 1, low, high =>
      if low < high then
        let middle := low + (high - low) / 2
        if holds middle then bisect holds rounds low middle
        else bisect holds rounds (middle + 1) high
      else some low

/-- The least number with the property is searched for in a range. -/
structure Brackets (holds : Nat → Bool) (low high : Nat) : Prop where
  ordered : low ≤ high
  below : ∀ number < low, holds number = false
  reached : holds high = true

variable {holds : Nat → Bool}

/-- One half of a range brackets what the range brackets. -/
theorem Brackets.half (upward : Monotone holds) {low high : Nat}
    (brackets : Brackets holds low high) (apart : low < high) :
    if holds (low + (high - low) / 2) then Brackets holds low (low + (high - low) / 2)
    else Brackets holds (low + (high - low) / 2 + 1) high := by
  split
  · next reached => exact ⟨Nat.le_add_right _ _, brackets.below, reached⟩
  · next missed =>
      refine ⟨by omega, ?_, brackets.reached⟩
      intro number before
      have later := upward (Nat.le_of_lt_succ before)
      rw [Bool.eq_false_of_not_eq_true missed] at later
      exact Bool.eq_false_of_le_false later

/-- A bracket of one number has found the least one. -/
theorem Brackets.isLeast {low : Nat} (brackets : Brackets holds low low) :
    IsLeast {number | holds number = true} low := by
  refine ⟨brackets.reached, ?_⟩
  intro number has
  apply Nat.le_of_not_lt
  intro before
  have missed := brackets.below number before
  exact Bool.false_ne_true (missed.symm.trans has)

/-- Bisection ends at the least number of a bracket, in a round for each bit of its size and
one more. -/
theorem bisect_least (upward : Monotone holds) {rounds low high : Nat}
    (brackets : Brackets holds low high) (narrow : high - low < 2 ^ rounds) :
    ∃ least, bisect holds (rounds + 1) low high = some least ∧
      IsLeast {number | holds number = true} least := by
  have ordered := brackets.ordered
  induction rounds generalizing low high with
  | zero =>
      have met : low = high := by omega
      subst met
      exact ⟨low, if_neg (Nat.lt_irrefl low), brackets.isLeast⟩
  | succ rounds ih =>
      by_cases apart : low < high
      · have half := brackets.half upward apart
        rw [Nat.pow_succ] at narrow
        rw [bisect, if_pos apart]
        by_cases reached : holds (low + (high - low) / 2) = true
        · rw [if_pos reached] at half
          simp only [reached, if_true]
          exact ih half (by omega) half.ordered
        · rw [if_neg reached] at half
          simp only [reached]
          exact ih half (by omega) half.ordered
      · have met : low = high := Nat.le_antisymm ordered (Nat.le_of_not_lt apart)
        subst met
        exact ⟨low, if_neg apart, brackets.isLeast⟩

end PrinterSdk.Data
