import PrinterSdk.Data.Bisection
import PrinterSdk.Data.Tracked
import PrinterSdk.Render.Draw

/-!
# Integer square roots

`integer_sqrt_ceil` on machine numbers bisects a range of 33 bits.  It never overflows, and a
product that saturates is compared as if it were exact.
-/

namespace PrinterSdk.Render

open PrinterSdk.Data

/-- `saturating_mul` on `u64`. -/
def saturatingMul (left right : UInt64) : UInt64 :=
  if left.toNat * right.toNat < 2 ^ 64 then left * right else .ofNat usizeMax

/-- The loop of `integer_sqrt_ceil`, for a number of rounds. -/
def sqrtCeilSearch (value : UInt64) : Nat → UInt64 → UInt64 → Tracked (Option UInt64)
  | 0, _, _ => pure none
  | rounds + 1, low, high =>
      if low < high then do
        let width ← Tracked.subU64 high low
        let middle ← Tracked.addU64 low (width / 2)
        if saturatingMul middle middle ≥ value then sqrtCeilSearch value rounds low middle
        else do
          let next ← Tracked.addU64 middle 1
          sqrtCeilSearch value rounds next high
      else pure (some low)

/-- `integer_sqrt_ceil`, with a record of its overflows. -/
def integerSqrtCeilTracked (rounds : Nat) (value : UInt64) : Tracked (Option UInt64) :=
  if value ≤ 1 then pure (some value)
  else sqrtCeilSearch value rounds 1 (min value 4294967296)

/-- The square of a number reaches a value. -/
def squareReaches (value number : Nat) : Bool := value ≤ number * number

theorem squareReaches_monotone (value : Nat) : Monotone (squareReaches value) := by
  intro first second ordered reached
  have square : first * first ≤ second * second := Nat.mul_le_mul ordered ordered
  exact decide_eq_true ((of_decide_eq_true reached).trans square)

/-- The comparison with a saturating product is the one with the product. -/
theorem le_saturatingMul {value left right : UInt64} :
    value ≤ saturatingMul left right ↔ value.toNat ≤ left.toNat * right.toNat := by
  have most := value.toNat_lt
  rw [UInt64.le_iff_toNat_le, saturatingMul]
  split
  · next small => rw [UInt64.toNat_mul, Nat.mod_eq_of_lt small]
  · next large =>
      have top : (UInt64.ofNat usizeMax).toNat = 2 ^ 64 - 1 := rfl
      rw [top]
      constructor
      · intro _
        omega
      · intro _
        omega

/-- A number below another one has a next one. -/
theorem toNat_succ {number high : UInt64} (before : number.toNat < high.toNat) :
    (number + 1).toNat = number.toNat + 1 := by
  have most := high.toNat_lt
  rw [UInt64.toNat_add, UInt64.toNat_one, Nat.mod_eq_of_lt (by omega)]

/-- Half of a range. -/
theorem toNat_half {low high : UInt64} (ordered : low.toNat ≤ high.toNat) :
    ((high - low) / 2).toNat = (high.toNat - low.toNat) / 2 := by
  have two : (2 : UInt64).toNat = 2 := rfl
  rw [UInt64.toNat_div, two, UInt64.toNat_sub_of_le _ _ (UInt64.le_iff_toNat_le.mpr ordered)]

/-- The loop bisects its range, exactly. -/
theorem sqrtCeilSearch_eq (value : UInt64) (rounds : Nat) (low high : UInt64) :
    sqrtCeilSearch value rounds low high =
      ⟨(bisect (squareReaches value.toNat) rounds low.toNat high.toNat).map .ofNat, true⟩ := by
  induction rounds generalizing low high with
  | zero => rfl
  | succ rounds ih =>
      rw [sqrtCeilSearch, bisect]
      by_cases apart : low < high
      · have before := UInt64.lt_iff_toNat_lt.mp apart
        have most := high.toNat_lt
        have half := toNat_half (Nat.le_of_lt before)
        have fits : low.toNat + ((high - low) / 2).toNat < 2 ^ 64 := by omega
        have middle : (low + (high - low) / 2).toNat =
            low.toNat + (high.toNat - low.toNat) / 2 := by
          rw [UInt64.toNat_add, Nat.mod_eq_of_lt fits, half]
        have inside : (low + (high - low) / 2).toNat < high.toNat := by omega
        rw [if_pos apart, if_pos before, Tracked.subU64_eq (Nat.le_of_lt before),
          Tracked.bind_of_pure, Tracked.addU64_eq fits, Tracked.bind_of_pure]
        generalize low + (high - low) / 2 = centre at *
        rw [← middle]
        by_cases reached : value ≤ saturatingMul centre centre
        · have square : squareReaches value.toNat centre.toNat = true :=
            decide_eq_true (le_saturatingMul.mp reached)
          rw [if_pos reached, if_pos square, ih]
        · have square : ¬squareReaches value.toNat centre.toNat = true := by
            intro reaches
            exact reached (le_saturatingMul.mpr (of_decide_eq_true reaches))
          have next : centre.toNat + (1 : UInt64).toNat < 2 ^ 64 := by
            rw [UInt64.toNat_one]
            omega
          rw [if_neg reached, if_neg square, Tracked.addU64_eq next, Tracked.bind_of_pure, ih,
            toNat_succ inside]
      · have met := mt UInt64.lt_iff_toNat_lt.mpr apart
        rw [if_neg apart, if_neg met, Option.map_some, UInt64.ofNat_toNat]
        rfl

/-- The start of the search brackets the root of a value. -/
theorem brackets_root {value : UInt64} (large : ¬value ≤ 1) :
    Brackets (squareReaches value.toNat) (1 : UInt64).toNat (min value 4294967296).toNat := by
  have most := value.toNat_lt
  have two : 1 < value.toNat := by
    rw [UInt64.le_iff_toNat_le, UInt64.toNat_one] at large
    omega
  have limit : (min value 4294967296).toNat = min value.toNat (2 ^ 32) := UInt64.toNat_min ..
  constructor
  · rw [limit, UInt64.toNat_one]
    omega
  · intro number before
    rw [UInt64.toNat_one, Nat.lt_one_iff] at before
    rw [before]
    exact decide_eq_false (by omega)
  · rw [limit]
    apply decide_eq_true
    rcases Nat.le_total value.toNat (2 ^ 32) with small | large
    · rw [Nat.min_eq_left small]
      exact Nat.le_mul_self _
    · rw [Nat.min_eq_right large]
      omega

/-- For every `u64`, the search stops after 33 rounds, without an overflow, at the least number
whose square is not below the value; the radius of a turned layer is computed from it. -/
theorem integerSqrtCeil_least (value : UInt64) :
    ∃ root : UInt64,
      (∀ rounds, 33 ≤ rounds → integerSqrtCeilTracked rounds value = ⟨some root, true⟩) ∧
      IsLeast {number : Nat | value.toNat ≤ number * number} root.toNat ∧
      integerSqrtCeil value.toNat = root.toNat := by
  have machine : value.toNat ≤ usizeMax := Nat.le_of_lt_succ value.toNat_lt
  obtain ⟨reaches, least⟩ := integerSqrtCeil_spec machine
  have isLeast : IsLeast {number : Nat | value.toNat ≤ number * number}
      (integerSqrtCeil value.toNat) := by
    refine ⟨reaches, ?_⟩
    intro number square
    apply Nat.le_of_not_lt
    intro before
    exact absurd (least number before) (Nat.not_lt.mpr square)
  by_cases small : value ≤ 1
  · have root : integerSqrtCeil value.toNat = value.toNat :=
      if_pos (UInt64.le_iff_toNat_le.mp small)
    rw [root] at isLeast
    exact ⟨value, fun rounds _ => if_pos small, isLeast, root⟩
  · have brackets := brackets_root small
    have sets : {number | squareReaches value.toNat number = true} =
        {number : Nat | value.toNat ≤ number * number} := by
      ext number
      exact decide_eq_true_iff
    have found (rounds : Nat) (enough : 33 ≤ rounds) :
        integerSqrtCeilTracked rounds value =
          ⟨some (.ofNat (integerSqrtCeil value.toNat)), true⟩ := by
      obtain ⟨more, rfl⟩ := Nat.exists_eq_add_of_le' enough
      have narrow : (min value 4294967296).toNat - (1 : UInt64).toNat < 2 ^ (more + 32) := by
        have range : (min value 4294967296).toNat ≤ 2 ^ 32 :=
          (UInt64.toNat_min ..).trans_le (Nat.min_le_right ..)
        have bits : 2 ^ 32 ≤ 2 ^ (more + 32) := Nat.pow_le_pow_right (by decide) (by omega)
        rw [UInt64.toNat_one]
        omega
      obtain ⟨root, searched, isRoot⟩ :=
        bisect_least (squareReaches_monotone value.toNat) brackets narrow
      rw [sets] at isRoot
      rw [integerSqrtCeilTracked, if_neg small, sqrtCeilSearch_eq, searched,
        isRoot.unique isLeast]
      rfl
    have bound : integerSqrtCeil value.toNat ≤ 2 ^ 32 := by
      apply isLeast.2
      exact Nat.le_of_lt value.toNat_lt
    have exact : (UInt64.ofNat (integerSqrtCeil value.toNat)).toNat =
        integerSqrtCeil value.toNat := UInt64.toNat_ofNat_of_lt' (by
      change _ < 2 ^ 64
      omega)
    refine ⟨.ofNat (integerSqrtCeil value.toNat), found, ?_, exact.symm⟩
    rw [exact]
    exact isLeast

end PrinterSdk.Render
