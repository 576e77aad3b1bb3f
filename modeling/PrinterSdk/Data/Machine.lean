import Mathlib.Algebra.GroupWithZero.Nat

/-!
# Fixed-width machine arithmetic

Counters and lengths are natural numbers; the operations that can reach the end
of a machine range are stated here with their Rust behaviour.  `usize` is the
64-bit native one.
-/

namespace PrinterSdk.Data

/-- `usize::MAX` on a 64-bit target, which is also `u64::MAX`. -/
def usizeMax : Nat := 2 ^ 64 - 1

/-- `isize::MAX` on a 64-bit target; no vector holds more bytes. -/
def isizeMax : Nat := 2 ^ 63 - 1

/-- `checked_add` on `usize`. -/
def checkedAdd (left right : Nat) : Option Nat :=
  if left + right ≤ usizeMax then some (left + right) else none

/-- `checked_mul` on `usize`. -/
def checkedMul (left right : Nat) : Option Nat :=
  if left * right ≤ usizeMax then some (left * right) else none

/-- `saturating_add` on `u64` and `usize`. -/
def saturatingAdd (left right : Nat) : Nat :=
  min (left + right) usizeMax

theorem checkedAdd_eq_some {left right total : Nat} :
    checkedAdd left right = some total ↔
      left + right ≤ usizeMax ∧ left + right = total := by
  unfold checkedAdd
  split
  · simp_all
  · simp only [reduceCtorEq, false_iff]
    omega

/-- Two checked additions in a row. -/
theorem checkedAdd_bind {first second third : Nat} (fits : first + second + third ≤ usizeMax) :
    (checkedAdd first second).bind (checkedAdd · third) = some (first + second + third) := by
  have partly : checkedAdd first second = some (first + second) :=
    checkedAdd_eq_some.mpr ⟨Nat.le_trans (Nat.le_add_right _ _) fits, rfl⟩
  rw [partly, Option.bind_some]
  exact checkedAdd_eq_some.mpr ⟨fits, rfl⟩

theorem checkedMul_eq_some {left right total : Nat} :
    checkedMul left right = some total ↔
      left * right ≤ usizeMax ∧ left * right = total := by
  unfold checkedMul
  split
  · simp_all
  · simp only [reduceCtorEq, false_iff]
    omega

theorem saturatingAdd_eq {left right : Nat} (fits : left + right ≤ usizeMax) :
    saturatingAdd left right = left + right :=
  Nat.min_eq_left fits

/-- A saturating sum exceeds a machine limit only when the exact sum does, or when
the sum does not fit the machine at all. -/
theorem saturatingAdd_le_iff {left right limit : Nat} (machine : limit ≤ usizeMax) :
    ¬limit < saturatingAdd left right ∧ ¬usizeMax < left + right ↔
      left + right ≤ limit := by
  unfold saturatingAdd
  omega

end PrinterSdk.Data
