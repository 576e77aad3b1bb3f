import Mathlib.Algebra.Group.Int.Defs
import Mathlib.Algebra.GroupWithZero.Nat
import Mathlib.Data.Int.Notation

/-!
# Machine arithmetic with a record of what it loses

Operations on machine integers wrap, and casts cut off.  A tracked computation has the
value that the machine computes, and says whether every operation on the way to it was
exact.
-/

namespace PrinterSdk.Data

/-- The value is an `i64`. -/
def IsI64 (value : Int) : Prop := -2 ^ 63 ≤ value ∧ value < 2 ^ 63

/-- The value is an `i32`. -/
def IsI32 (value : Int) : Prop := -2 ^ 31 ≤ value ∧ value < 2 ^ 31

instance (value : Int) : Decidable (IsI64 value) := inferInstanceAs (Decidable (_ ∧ _))

instance (value : Int) : Decidable (IsI32 value) := inferInstanceAs (Decidable (_ ∧ _))

theorem isI64_toInt (value : Int64) : IsI64 value.toInt := ⟨value.le_toInt, value.toInt_lt⟩

theorem IsI32.isI64 {value : Int} (fits : IsI32 value) : IsI64 value := by
  obtain ⟨least, most⟩ := fits
  exact ⟨by omega, by omega⟩

theorem toInt_ofInt64 {value : Int} (fits : IsI64 value) : (Int64.ofInt value).toInt = value :=
  Int64.toInt_ofInt_of_le fits.1 fits.2

theorem toInt_ofInt32 {value : Int} (fits : IsI32 value) : (Int32.ofInt value).toInt = value :=
  Int32.toInt_ofInt_of_le fits.1 fits.2

theorem toInt_min64 (left right : Int64) :
    (min left right).toInt = min left.toInt right.toInt := by
  change (if left ≤ right then left else right).toInt = _
  simp only [Int64.le_iff_toInt_le, Int.min_def]
  split <;> rfl

theorem toInt_max64 (left right : Int64) :
    (max left right).toInt = max left.toInt right.toInt := by
  change (if left ≤ right then right else left).toInt = _
  simp only [Int64.le_iff_toInt_le, Int.max_def]
  split <;> rfl

theorem toInt_max32 (left right : Int32) :
    (max left right).toInt = max left.toInt right.toInt := by
  change (if left ≤ right then right else left).toInt = _
  simp only [Int32.le_iff_toInt_le, Int.max_def]
  split <;> rfl

theorem toInt_abs32 {number : Int32} (fits : IsI32 number.toInt.natAbs) :
    number.abs.toInt = number.toInt.natAbs := by
  apply BitVec.toInt_abs_eq_natAbs_of_ne_intMin
  intro least
  have same : number.toInt = -2 ^ 31 := by
    change number.toBitVec.toInt = _
    rw [least]
    rfl
  rw [same] at fits
  exact absurd fits.2 (by decide)

/-- A `u32` is the same number as an `i64`. -/
theorem toInt_ofU32 (number : UInt32) : number.toUInt64.toInt64.toInt = number.toNat := by
  have bound := number.toNat_lt
  change number.toUInt64.toBitVec.toInt = _
  rw [BitVec.toInt_eq_toNat_of_lt]
  · simp
  · simp
    omega

/-- A value that a machine computes, and whether nothing was lost on the way to it. -/
structure Tracked (α : Type) where
  value : α
  exact : Bool
  deriving DecidableEq, Repr

namespace Tracked

variable {α β : Type}

/-- Continue with the value that was computed. -/
def bind (computed : Tracked α) (next : α → Tracked β) : Tracked β :=
  ⟨(next computed.value).value, computed.exact && (next computed.value).exact⟩

instance : Monad Tracked where
  pure value := ⟨value, true⟩
  bind := bind

@[simp] theorem value_pure (value : α) : (pure value : Tracked α).value = value := rfl

@[simp] theorem exact_pure (value : α) : (pure value : Tracked α).exact = true := rfl

@[simp] theorem value_bind (computed : Tracked α) (next : α → Tracked β) :
    (computed >>= next).value = (next computed.value).value := rfl

theorem exact_bind (computed : Tracked α) (next : α → Tracked β) :
    (computed >>= next).exact = true ↔
      computed.exact = true ∧ (next computed.value).exact = true :=
  Bool.and_eq_true_iff

/-! ## Operations -/

/-- The cast of a number to `i64`. -/
def asI64 (number : Int) : Tracked Int64 := ⟨.ofInt number, decide (IsI64 number)⟩

/-- The cast of an `i64` to `i32`. -/
def asI32 (number : Int64) : Tracked Int32 := ⟨number.toInt32, decide (IsI32 number.toInt)⟩

/-- `left + right` on `i64`. -/
def add64 (left right : Int64) : Tracked Int64 :=
  ⟨left + right, decide (IsI64 (left.toInt + right.toInt))⟩

/-- `left - right` on `i64`. -/
def sub64 (left right : Int64) : Tracked Int64 :=
  ⟨left - right, decide (IsI64 (left.toInt - right.toInt))⟩

/-- `left * right` on `i64`. -/
def mul64 (left right : Int64) : Tracked Int64 :=
  ⟨left * right, decide (IsI64 (left.toInt * right.toInt))⟩

/-- `left / right` on `i64`, which is exact only where it is defined. -/
def div64 (left right : Int64) : Tracked Int64 :=
  ⟨left / right, decide (right.toInt ≠ 0 ∧ IsI64 (left.toInt.tdiv right.toInt))⟩

/-- `2 * number` on `i64`. -/
def double64 (number : Int64) : Tracked Int64 :=
  ⟨2 * number, decide (IsI64 (2 * number.toInt))⟩

/-- `left + right` on `i32`. -/
def add32 (left right : Int32) : Tracked Int32 :=
  ⟨left + right, decide (IsI32 (left.toInt + right.toInt))⟩

/-- `left * right` on `i32`. -/
def mul32 (left right : Int32) : Tracked Int32 :=
  ⟨left * right, decide (IsI32 (left.toInt * right.toInt))⟩

/-- `-number` on `i32`. -/
def neg32 (number : Int32) : Tracked Int32 := ⟨-number, decide (IsI32 (-number.toInt))⟩

/-- `number.abs()` on `i32`. -/
def abs32 (number : Int32) : Tracked Int32 :=
  ⟨number.abs, decide (IsI32 number.toInt.natAbs)⟩

/-- `left * right + extra` on `u32`. -/
def mulAddU32 (left right extra : UInt32) : Tracked UInt32 :=
  ⟨left * right + extra, decide (left.toNat * right.toNat + extra.toNat < 2 ^ 32)⟩

/-- A computation for every item of a list, which is exact when all of them are. -/
def each (items : List α) (turn : α → Tracked β) : Tracked (List β) :=
  ⟨items.map fun item => (turn item).value, items.all fun item => (turn item).exact⟩

theorem exact_each (items : List α) (turn : α → Tracked β) :
    (each items turn).exact = true ↔ ∀ item ∈ items, (turn item).exact = true :=
  List.all_eq_true

/-- `left - right` on `i32`. -/
def sub32 (left right : Int32) : Tracked Int32 :=
  ⟨left - right, decide (IsI32 (left.toInt - right.toInt))⟩

/-- `left + right` on `u64`. -/
def addU64 (left right : UInt64) : Tracked UInt64 :=
  ⟨left + right, decide (left.toNat + right.toNat < 2 ^ 64)⟩

/-- `left - right` on `u64`. -/
def subU64 (left right : UInt64) : Tracked UInt64 :=
  ⟨left - right, decide (right.toNat ≤ left.toNat)⟩

@[simp] theorem value_add64 (left right : Int64) : (add64 left right).value = left + right := rfl

@[simp] theorem value_sub64 (left right : Int64) : (sub64 left right).value = left - right := rfl

@[simp] theorem value_mul64 (left right : Int64) : (mul64 left right).value = left * right := rfl

@[simp] theorem value_double64 (number : Int64) : (double64 number).value = 2 * number := rfl

@[simp] theorem value_add32 (left right : Int32) : (add32 left right).value = left + right := rfl

@[simp] theorem value_mul32 (left right : Int32) : (mul32 left right).value = left * right := rfl

@[simp] theorem value_sub32 (left right : Int32) : (sub32 left right).value = left - right := rfl

@[simp] theorem value_neg32 (number : Int32) : (neg32 number).value = -number := rfl

@[simp] theorem value_abs32 (number : Int32) : (abs32 number).value = number.abs := rfl

@[simp] theorem value_mulAddU32 (left right extra : UInt32) :
    (mulAddU32 left right extra).value = left * right + extra := rfl

@[simp] theorem value_each (items : List α) (turn : α → Tracked β) :
    (each items turn).value = items.map fun item => (turn item).value := rfl

theorem addU64_eq {left right : UInt64} (fits : left.toNat + right.toNat < 2 ^ 64) :
    addU64 left right = pure (left + right) := by
  rw [addU64, decide_eq_true fits]
  rfl

theorem subU64_eq {left right : UInt64} (fits : right.toNat ≤ left.toNat) :
    subU64 left right = pure (left - right) := by
  rw [subU64, decide_eq_true fits]
  rfl

theorem bind_of_pure (value : α) (next : α → Tracked β) : (pure value >>= next) = next value := by
  change (⟨(next value).value, true && (next value).exact⟩ : Tracked β) = next value
  rw [Bool.true_and]

/-- A fold of computations has the value of the fold of their values. -/
theorem value_foldlM {σ : Type} (step : σ → α → Tracked σ) (items : List α) (start : σ) :
    (items.foldlM step start).value =
      items.foldl (fun state item => (step state item).value) start := by
  induction items generalizing start with
  | nil => rfl
  | cons item rest ih => exact ih (step start item).value

/-! ## What a computation yields -/

/-- A computation is exact under a condition, and only then, and under the condition its
value is as stated. -/
structure Yields (computed : Tracked α) (fits : Prop) (post : α → Prop) : Prop where
  exact_iff : computed.exact = true ↔ fits
  value : fits → post computed.value

theorem yields_pure (value : α) (post : α → Prop) (holds : post value) :
    Yields (pure value) True post where
  exact_iff := by simp
  value := fun _ => holds

/-- Sequencing rule: what follows may assume what the first computation yields. -/
theorem Yields.bind {computed : Tracked α} {next : α → Tracked β} {fits later : Prop}
    {middle : α → Prop} {post : β → Prop} (first : Yields computed fits middle)
    (rest : ∀ value, middle value → Yields (next value) later post) :
    Yields (computed >>= next) (fits ∧ later) post where
  exact_iff := by
    rw [exact_bind, first.exact_iff]
    constructor
    · rintro ⟨fits, exact⟩
      exact ⟨fits, (rest _ (first.value fits)).exact_iff.mp exact⟩
    · rintro ⟨fits, later⟩
      exact ⟨fits, (rest _ (first.value fits)).exact_iff.mpr later⟩
  value := by
    rintro ⟨fits, later⟩
    exact (rest _ (first.value fits)).value later

/-- Consequence rule. -/
theorem Yields.mono {computed : Tracked α} {fits fits' : Prop} {post post' : α → Prop}
    (yields : Yields computed fits post) (same : fits ↔ fits')
    (implies : fits' → ∀ value, post value → post' value) : Yields computed fits' post' where
  exact_iff := yields.exact_iff.trans same
  value := fun fits => implies fits _ (yields.value (same.mpr fits))

/-- A computation that is exact, with the value that it yields. -/
theorem Yields.eq_exact {computed : Tracked α} {value : α}
    (yields : Yields computed True fun result => result = value) : computed = ⟨value, true⟩ := by
  obtain ⟨exact_iff, found⟩ := yields
  cases computed with
  | mk result exact =>
      have same : result = value := found trivial
      have yes : exact = true := exact_iff.mpr trivial
      rw [same, yes]

theorem yields_asI64 (number : Int) :
    Yields (asI64 number) (IsI64 number) fun result => result.toInt = number where
  exact_iff := decide_eq_true_iff
  value := toInt_ofInt64

theorem yields_asI32 {number : Int64} {exact : Int} (same : number.toInt = exact) :
    Yields (asI32 number) (IsI32 exact) fun result => result.toInt = exact where
  exact_iff := by rw [asI32, decide_eq_true_iff, same]
  value := by
    intro fits
    have cut : (asI32 number).value = Int32.ofInt exact := by
      rw [← same, asI32, ← Int64.toInt32_ofInt, Int64.ofInt_toInt]
    rw [cut]
    exact toInt_ofInt32 fits

section

variable {left right : Int64} {first second : Int}

theorem yields_add64 (same : left.toInt = first) (other : right.toInt = second) :
    Yields (add64 left right) (IsI64 (first + second)) fun result =>
      result.toInt = first + second where
  exact_iff := by rw [add64, decide_eq_true_iff, same, other]
  value := by
    intro fits
    rw [add64, Int64.toInt_add, same, other]
    exact Int.bmod_eq_of_le fits.1 fits.2

theorem yields_sub64 (same : left.toInt = first) (other : right.toInt = second) :
    Yields (sub64 left right) (IsI64 (first - second)) fun result =>
      result.toInt = first - second where
  exact_iff := by rw [sub64, decide_eq_true_iff, same, other]
  value := by
    intro fits
    rw [sub64, Int64.toInt_sub, same, other]
    exact Int.bmod_eq_of_le fits.1 fits.2

theorem yields_mul64 (same : left.toInt = first) (other : right.toInt = second) :
    Yields (mul64 left right) (IsI64 (first * second)) fun result =>
      result.toInt = first * second where
  exact_iff := by rw [mul64, decide_eq_true_iff, same, other]
  value := by
    intro fits
    rw [mul64, Int64.toInt_mul, same, other]
    exact Int.bmod_eq_of_le fits.1 fits.2

theorem yields_div64 (same : left.toInt = first) (other : right.toInt = second) :
    Yields (div64 left right) (second ≠ 0 ∧ IsI64 (first.tdiv second)) fun result =>
      result.toInt = first.tdiv second where
  exact_iff := by rw [div64, decide_eq_true_iff, same, other]
  value := by
    intro fits
    rw [div64, Int64.toInt_div, same, other]
    exact Int.bmod_eq_of_le fits.2.1 fits.2.2

theorem yields_double64 (same : left.toInt = first) :
    Yields (double64 left) (IsI64 (2 * first)) fun result => result.toInt = 2 * first where
  exact_iff := by rw [double64, decide_eq_true_iff, same]
  value := by
    intro fits
    rw [double64, Int64.toInt_mul, same]
    exact Int.bmod_eq_of_le fits.1 fits.2

end

theorem yields_add32 {left right : Int32} {first second : Int} (same : left.toInt = first)
    (other : right.toInt = second) :
    Yields (add32 left right) (IsI32 (first + second)) fun result =>
      result.toInt = first + second where
  exact_iff := by rw [add32, decide_eq_true_iff, same, other]
  value := by
    intro fits
    rw [add32, Int32.toInt_add, same, other]
    exact Int.bmod_eq_of_le fits.1 fits.2

theorem yields_mul32 {left right : Int32} {first second : Int} (same : left.toInt = first)
    (other : right.toInt = second) :
    Yields (mul32 left right) (IsI32 (first * second)) fun result =>
      result.toInt = first * second where
  exact_iff := by rw [mul32, decide_eq_true_iff, same, other]
  value := by
    intro fits
    rw [mul32, Int32.toInt_mul, same, other]
    exact Int.bmod_eq_of_le fits.1 fits.2

theorem yields_neg32 {number : Int32} {first : Int} (same : number.toInt = first) :
    Yields (neg32 number) (IsI32 (-first)) fun result => result.toInt = -first where
  exact_iff := by rw [neg32, decide_eq_true_iff, same]
  value := by
    intro fits
    rw [neg32, Int32.toInt_neg, same]
    exact Int.bmod_eq_of_le fits.1 fits.2

theorem yields_abs32 {number : Int32} {first : Int} (same : number.toInt = first) :
    Yields (abs32 number) (IsI32 first.natAbs) fun result => result.toInt = first.natAbs where
  exact_iff := by rw [abs32, decide_eq_true_iff, same]
  value := by
    intro fits
    rw [← same] at fits ⊢
    exact toInt_abs32 fits

theorem yields_sub32 {left right : Int32} {first second : Int} (same : left.toInt = first)
    (other : right.toInt = second) :
    Yields (sub32 left right) (IsI32 (first - second)) fun result =>
      result.toInt = first - second where
  exact_iff := by rw [sub32, decide_eq_true_iff, same, other]
  value := by
    intro fits
    rw [sub32, Int32.toInt_sub, same, other]
    exact Int.bmod_eq_of_le fits.1 fits.2

end Tracked

end PrinterSdk.Data
