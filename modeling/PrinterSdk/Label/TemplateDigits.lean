import PrinterSdk.Label.Template

/-!
# Numbers in templates

The digits that a template parses, and the number that they denote.
-/

namespace PrinterSdk.Label

open PrinterSdk.Data PrinterSdk.Brother
open PrinterSdk.Render (utf8Length)

/-- The number that digits denote in base ten. -/
def numberOf (digits : Characters) : Nat := Nat.ofDigitChars 10 digits 0

theorem digitValue_eq_some {character : Char} {digit : Nat} :
    digitValue 10 character = some digit ↔
      isAsciiDigit character = true ∧ character.toNat - 0x30 = digit := by
  unfold digitValue isAsciiDigit
  by_cases inside : 0x30 ≤ character.toNat ∧ character.toNat ≤ 0x39
  · simp [inside]
  · have outside : ¬((0x30 ≤ character.toNat && character.toNat ≤ 0x39) = true) := by
      simpa using inside
    simp [inside, outside]

theorem digitsFold_eq_some {digits : Characters} {start number : Nat} :
    digits.foldlM (fun value digit => (digitValue 10 digit).map (value * 10 + ·)) start =
        some number ↔
      digits.all isAsciiDigit = true ∧ Nat.ofDigitChars 10 digits start = number := by
  induction digits generalizing start with
  | nil => simp [Nat.ofDigitChars_nil]
  | cons first rest ih =>
      rw [List.foldlM_cons, List.all_cons, Nat.ofDigitChars_cons, Bool.and_eq_true, and_assoc]
      cases read : digitValue 10 first with
      | none =>
          have outside : ¬isAsciiDigit first = true := by
            intro inside
            rw [digitValue_eq_some.mpr ⟨inside, rfl⟩] at read
            cases read
          constructor
          · intro failed
            cases failed
          · intro inside
            exact absurd inside.1 outside
      | some digit =>
          obtain ⟨inside, rfl⟩ := digitValue_eq_some.mp read
          change rest.foldlM _ (start * 10 + (first.toNat - 0x30)) = some number ↔ _
          rw [ih, Nat.mul_comm start 10]
          exact (and_iff_right inside).symm

theorem digitsValue_eq_some {digits : Characters} {number : Nat} :
    digitsValue 10 digits = some number ↔
      digits ≠ [] ∧ digits.all isAsciiDigit = true ∧ numberOf digits = number := by
  unfold digitsValue numberOf
  cases digits with
  | nil => simp
  | cons first rest =>
      rw [List.isEmpty_cons, if_neg Bool.false_ne_true, digitsFold_eq_some]
      exact (and_iff_right (List.cons_ne_nil first rest)).symm

/-- Digits denote less than the power of ten with as many zeros. -/
theorem numberOf_lt {digits : Characters} (all : digits.all isAsciiDigit = true) :
    numberOf digits < 10 ^ digits.length := by
  induction digits with
  | nil => exact Nat.one_pos
  | cons first rest ih =>
      rw [List.all_cons, Bool.and_eq_true] at all
      have small : first.toNat - '0'.toNat ≤ 9 := by
        have inside := all.1
        simp only [isAsciiDigit, Bool.and_eq_true, decide_eq_true_eq] at inside
        exact Nat.sub_le_of_le_add inside.2
      have tail := ih all.2
      unfold numberOf at tail ⊢
      rw [Nat.ofDigitChars_cons, Nat.ofDigitChars_eq_ofDigitChars_zero, List.length_cons,
        Nat.pow_succ, Nat.mul_zero, Nat.zero_add]
      calc 10 ^ rest.length * (first.toNat - '0'.toNat) + Nat.ofDigitChars 10 rest 0
          < 10 ^ rest.length * (first.toNat - '0'.toNat) + 10 ^ rest.length :=
            Nat.add_lt_add_left tail _
        _ = 10 ^ rest.length * (first.toNat - '0'.toNat + 1) := (Nat.mul_succ _ _).symm
        _ ≤ 10 ^ rest.length * 10 := Nat.mul_le_mul_left _ (Nat.succ_le_succ small)

/-- The text without a plus in front. -/
def afterPlus : Characters → Characters
  | '+' :: digits => digits
  | digits => digits

/-- An unsigned number is parsed from digits, with or without a plus in front. -/
theorem parseUnsigned_eq_some {size number : Nat} {text : Characters} :
    parseUnsigned size text = some number ↔
      afterPlus text ≠ [] ∧ (afterPlus text).all isAsciiDigit = true ∧
        numberOf (afterPlus text) = number ∧ number < size := by
  change (digitsValue 10 (afterPlus text) >>= fun value =>
    if value < size then some value else none) = some number ↔ _
  cases read : digitsValue 10 (afterPlus text) with
  | none =>
      constructor
      · intro failed
        cases failed
      · intro parts
        rw [digitsValue_eq_some.mpr ⟨parts.1, parts.2.1, rfl⟩] at read
        cases read
  | some value =>
      obtain ⟨filled, all, rfl⟩ := digitsValue_eq_some.mp read
      change (if numberOf (afterPlus text) < size then some (numberOf (afterPlus text)) else none) =
        some number ↔ _
      constructor
      · intro fits
        split at fits
        · next small =>
            cases fits
            exact ⟨filled, all, rfl, small⟩
        · cases fits
      · intro parts
        obtain ⟨-, -, rfl, small⟩ := parts
        exact if_pos small

theorem afterPlus_of_digits {digits : Characters} (all : digits.all isAsciiDigit = true) :
    afterPlus digits = digits := by
  unfold afterPlus
  split
  · rw [List.all_cons, Bool.and_eq_true] at all
    exact absurd all.1 (by decide)
  · rfl

end PrinterSdk.Label
