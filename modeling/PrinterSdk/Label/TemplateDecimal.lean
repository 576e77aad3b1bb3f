import PrinterSdk.Data.NearestAway
import PrinterSdk.Label.TemplateDigits
import Mathlib.Tactic.IntervalCases

/-!
# Decimal numbers in templates

A decimal number has a sign, digits, and digits behind the point.  It is rounded to a number
of decimals by a carry through its digits, which is compared with rounding in whole numbers.
-/

namespace PrinterSdk.Label

open PrinterSdk.Data PrinterSdk.Brother
open PrinterSdk.Render (utf8Length)

/-! ## Numbers -/

/-- A decimal number, as it is written. -/
structure Decimal where
  negative : Bool
  whole : Characters
  fraction : Characters
  filled : whole ≠ []
  wholeDigits : whole.all isAsciiDigit = true
  fractionDigits : fraction.all isAsciiDigit = true

namespace Decimal

/-- The number, in units of its last decimal. -/
def scaled (number : Decimal) : Int :=
  if number.negative then -(numberOf (number.whole ++ number.fraction) : Int)
  else numberOf (number.whole ++ number.fraction)

/-- The number with a separator in front of its decimals, if it has any. -/
def text (separator : Char) (number : Decimal) : Characters :=
  (if number.negative then ['-'] else []) ++ number.whole ++
    if number.fraction = [] then [] else separator :: number.fraction

/-- The text gives the number with a point or a comma, which may be the last character. -/
def Spelled (number : Decimal) (text : Characters) : Prop :=
  text = (if number.negative then ['-'] else []) ++ number.whole ∧ number.fraction = [] ∨
    ∃ separator, (separator = '.' ∨ separator = ',') ∧
      text = (if number.negative then ['-'] else []) ++ number.whole ++
        separator :: number.fraction

/-- Both numbers have the same value. -/
def SameValue (left right : Decimal) : Prop :=
  left.scaled * 10 ^ right.fraction.length = right.scaled * 10 ^ left.fraction.length

/-- The first number is the second one, rounded to decimals with ties away from zero, and it
is no negative zero. -/
structure Rounds (decimals : Nat) (output input : Decimal) : Prop where
  nearest : NearestAway (10 ^ input.fraction.length) (input.scaled * 10 ^ decimals) output.scaled
  length : output.fraction.length = decimals
  signed : output.negative = true → output.scaled ≠ 0

end Decimal

/-! ## Digits -/

/-- The number that a list of digits denotes, the first digit weighing most. -/
def digitsNumber : List Nat → Nat
  | [] => 0
  | digit :: rest => digit * 10 ^ rest.length + digitsNumber rest

theorem digitsNumber_append (left right : List Nat) :
    digitsNumber (left ++ right) =
      digitsNumber left * 10 ^ right.length + digitsNumber right := by
  induction left with
  | nil => rw [List.nil_append, digitsNumber, Nat.zero_mul, Nat.zero_add]
  | cons digit rest ih =>
      rw [List.cons_append, digitsNumber, digitsNumber, ih, List.length_append, Nat.pow_add]
      ring

theorem digitsNumber_replicate_zero (count : Nat) : digitsNumber (List.replicate count 0) = 0 := by
  induction count with
  | zero => rfl
  | succ count ih => rw [List.replicate_succ, digitsNumber, ih, Nat.zero_mul]

theorem digitsNumber_lt {digits : List Nat} (small : ∀ digit ∈ digits, digit < 10) :
    digitsNumber digits < 10 ^ digits.length := by
  induction digits with
  | nil => exact Nat.one_pos
  | cons digit rest ih =>
      obtain ⟨here, later⟩ := List.forall_mem_cons.mp small
      have tail := ih later
      rw [digitsNumber, List.length_cons, Nat.pow_succ]
      calc digit * 10 ^ rest.length + digitsNumber rest
          < digit * 10 ^ rest.length + 10 ^ rest.length := Nat.add_lt_add_left tail _
        _ = 10 ^ rest.length * (digit + 1) := by ring
        _ ≤ 10 ^ rest.length * 10 := Nat.mul_le_mul_left _ here

/-- The carry adds one in the last place. -/
theorem carryDigits_spec {digits kept : List Nat} {carry : Bool}
    (small : ∀ digit ∈ digits, digit < 10) (carried : carryDigits digits = (kept, carry)) :
    kept.length = digits.length ∧ (∀ digit ∈ kept, digit < 10) ∧
      (if carry = true then 10 ^ digits.length else 0) + digitsNumber kept =
        digitsNumber digits + 1 := by
  induction digits generalizing kept carry with
  | nil =>
      cases carried
      exact ⟨rfl, nofun, rfl⟩
  | cons digit rest ih =>
      obtain ⟨here, later⟩ := List.forall_mem_cons.mp small
      cases tail : carryDigits rest with
      | mk after left =>
          obtain ⟨length, digits, sum⟩ := ih later tail
          rw [carryDigits, tail] at carried
          cases left with
          | false =>
              cases carried
              rw [if_neg Bool.false_ne_true, Nat.zero_add] at sum ⊢
              refine ⟨congrArg Nat.succ length, List.forall_mem_cons.mpr ⟨here, digits⟩, ?_⟩
              rw [digitsNumber, digitsNumber, length, sum, Nat.add_assoc]
          | true =>
              rw [if_pos rfl] at sum
              by_cases below : digit < 9
              · simp only [below, ↓reduceIte, Prod.mk.injEq] at carried
                obtain ⟨rfl, rfl⟩ := carried
                have next : digit + 1 < 10 := Nat.succ_lt_succ below
                refine ⟨congrArg Nat.succ length, List.forall_mem_cons.mpr ⟨next, digits⟩, ?_⟩
                rw [if_neg Bool.false_ne_true, digitsNumber, digitsNumber, length, Nat.succ_mul]
                omega
              · simp only [below, ↓reduceIte, Prod.mk.injEq] at carried
                obtain ⟨rfl, rfl⟩ := carried
                have nine : digit = 9 := by omega
                refine ⟨congrArg Nat.succ length, List.forall_mem_cons.mpr ⟨by decide, digits⟩, ?_⟩
                rw [if_pos rfl, digitsNumber, digitsNumber, length, nine, List.length_cons,
                  Nat.pow_succ]
                omega

theorem isAsciiDigit_iff {character : Char} :
    isAsciiDigit character = true ↔ 0x30 ≤ character.toNat ∧ character.toNat ≤ 0x39 := by
  simp only [isAsciiDigit, Bool.and_eq_true, decide_eq_true_eq]

theorem digitOf_lt {digits : Characters} (all : digits.all isAsciiDigit = true) :
    ∀ digit ∈ digits.map digitOf, digit < 10 := by
  intro digit member
  obtain ⟨character, inside, rfl⟩ := List.mem_map.mp member
  have bounds := isAsciiDigit_iff.mp (List.all_eq_true.mp all character inside)
  unfold digitOf
  omega

theorem numberOf_eq (digits : Characters) :
    numberOf digits = digitsNumber (digits.map digitOf) := by
  induction digits with
  | nil => rfl
  | cons first rest ih =>
      unfold numberOf at ih ⊢
      rw [Nat.ofDigitChars_cons, Nat.ofDigitChars_eq_ofDigitChars_zero, ih, List.map_cons,
        digitsNumber, List.length_map, Nat.mul_zero, Nat.zero_add, Nat.mul_comm]
      rfl

theorem numberOf_append (left right : Characters) :
    numberOf (left ++ right) = numberOf left * 10 ^ right.length + numberOf right := by
  rw [numberOf_eq, numberOf_eq, numberOf_eq, List.map_append, digitsNumber_append,
    List.length_map]

theorem digitOf_digitText {digit : Nat} (small : digit < 10) :
    digitOf (digitText digit) = digit ∧ isAsciiDigit (digitText digit) = true := by
  interval_cases digit <;> exact ⟨rfl, rfl⟩

theorem map_digitText {digits : List Nat} (small : ∀ digit ∈ digits, digit < 10) :
    (digits.map digitText).all isAsciiDigit = true ∧
      numberOf (digits.map digitText) = digitsNumber digits := by
  constructor
  · rw [List.all_map, List.all_eq_true]
    intro digit member
    exact (digitOf_digitText (small digit member)).2
  · have restored : digits.map (digitOf ∘ digitText) = digits.map id :=
      List.map_congr_left fun digit member => (digitOf_digitText (small digit member)).1
    rw [numberOf_eq, List.map_map, restored, List.map_id]

theorem toDigits_digits (number : Nat) : (Nat.toDigits 10 number).all isAsciiDigit = true := by
  rw [List.all_eq_true]
  intro character member
  have digit := Nat.isDigit_of_mem_toDigits (by decide) (by decide) member
  rw [Char.isDigit, Bool.and_eq_true, decide_eq_true_eq, decide_eq_true_eq] at digit
  exact isAsciiDigit_iff.mpr digit

theorem numberOf_toDigits (number : Nat) : numberOf (Nat.toDigits 10 number) = number :=
  Nat.ofDigitChars_ten_toDigits

/-! ## Rounding -/

theorem keptDigits_eq (fraction : Characters) (decimals : Nat) :
    keptDigits fraction decimals = (fraction.take decimals).map digitOf ++
      List.replicate (decimals - (fraction.take decimals).length) 0 := by
  simp only [keptDigits, List.length_map]

theorem length_keptDigits (fraction : Characters) (decimals : Nat) :
    (keptDigits fraction decimals).length = decimals := by
  unfold keptDigits
  rw [List.length_append, List.length_replicate]
  apply Nat.add_sub_cancel'
  rw [List.length_map]
  exact List.length_take_le decimals fraction

theorem keptDigits_lt {fraction : Characters} (digits : fraction.all isAsciiDigit = true)
    (decimals : Nat) : ∀ digit ∈ keptDigits fraction decimals, digit < 10 := by
  intro digit member
  rcases List.mem_append.mp member with kept | zero
  · rw [List.map_take] at kept
    exact digitOf_lt digits digit (List.mem_of_mem_take kept)
  · rw [(List.mem_replicate.mp zero).2]
    decide

/-- Half of a power of ten is reached by a first digit of five or more. -/
theorem half_iff (digit : Nat) {tail : List Nat} (small : ∀ digit ∈ tail, digit < 10) :
    10 ^ (tail.length + 1) ≤ 2 * digitsNumber (digit :: tail) ↔ 5 ≤ digit := by
  have rest := digitsNumber_lt small
  rw [digitsNumber, Nat.pow_succ]
  constructor
  · intro half
    by_contra low
    have most : digit * 10 ^ tail.length ≤ 4 * 10 ^ tail.length :=
      Nat.mul_le_mul_right _ (by omega)
    omega
  · intro five
    have least : 5 * 10 ^ tail.length ≤ digit * 10 ^ tail.length := Nat.mul_le_mul_right _ five
    omega

/-- The kept digits are the quotient of a number by a power of ten, and the digits that are
left out decide about the rounding. -/
theorem fraction_split (fraction : Characters) (digits : fraction.all isAsciiDigit = true)
    (decimals : Nat) :
    ∃ remainder : Nat, numberOf fraction * 10 ^ decimals =
        10 ^ fraction.length * digitsNumber (keptDigits fraction decimals) + remainder ∧
      remainder < 10 ^ fraction.length ∧
      (roundsUp fraction decimals = true ↔ 10 ^ fraction.length ≤ 2 * remainder) := by
  have powers {low high : Nat} (below : low ≤ high) : 10 ^ high = 10 ^ (high - low) * 10 ^ low := by
    rw [← Nat.pow_add, Nat.sub_add_cancel below]
  by_cases inside : decimals < fraction.length
  · -- The fraction is cut in front of its digit at the index `decimals`.
    have kept : keptDigits fraction decimals = (fraction.take decimals).map digitOf := by
      rw [keptDigits_eq, List.length_take_of_le (Nat.le_of_lt inside), Nat.sub_self]
      exact List.append_nil _
    have cut : fraction.map digitOf = (fraction.take decimals).map digitOf ++
        digitOf fraction[decimals] :: (fraction.drop (decimals + 1)).map digitOf := by
      rw [← List.map_cons, ← List.map_append, ← List.drop_eq_getElem_cons inside,
        List.take_append_drop]
    have tailSmall : ∀ digit ∈ (fraction.drop (decimals + 1)).map digitOf, digit < 10 := by
      intro digit member
      rw [List.map_drop] at member
      exact digitOf_lt digits digit (List.mem_of_mem_drop member)
    have tailLength : ((fraction.drop (decimals + 1)).map digitOf).length + 1 =
        fraction.length - decimals := by
      rw [List.length_map, List.length_drop]
      omega
    have left : digitOf fraction[decimals] < 10 :=
      digitOf_lt digits _ (List.mem_map_of_mem (List.getElem_mem inside))
    generalize tailDigits : (fraction.drop (decimals + 1)).map digitOf = tail at *
    have rest : digitsNumber (digitOf fraction[decimals] :: tail) <
        10 ^ (fraction.length - decimals) := by
      rw [← tailLength]
      exact digitsNumber_lt (List.forall_mem_cons.mpr ⟨left, tailSmall⟩)
    have positive : 0 < 10 ^ decimals := Nat.pow_pos (by decide)
    refine ⟨digitsNumber (digitOf fraction[decimals] :: tail) * 10 ^ decimals, ?_, ?_, ?_⟩
    · rw [numberOf_eq, cut, digitsNumber_append, List.length_cons, tailLength, kept,
        powers (Nat.le_of_lt inside)]
      ring
    · rw [powers (Nat.le_of_lt inside)]
      exact Nat.mul_lt_mul_of_pos_right rest positive
    · have half := half_iff (digitOf fraction[decimals]) tailSmall
      rw [tailLength] at half
      rw [powers (Nat.le_of_lt inside), ← Nat.mul_assoc, Nat.mul_le_mul_right_iff positive, half,
        roundsUp, List.getElem?_eq_getElem inside]
      have digit := isAsciiDigit_iff.mp (List.all_eq_true.mp digits _ (List.getElem_mem inside))
      simp only [Option.any_some, decide_eq_true_eq, digitOf]
      change 53 ≤ _ ↔ _
      omega
  · have short := Nat.le_of_not_lt inside
    have kept : keptDigits fraction decimals =
        fraction.map digitOf ++ List.replicate (decimals - fraction.length) 0 := by
      rw [keptDigits_eq, List.take_of_length_le short]
    refine ⟨0, ?_, Nat.pow_pos (by decide), ?_⟩
    · rw [kept, digitsNumber_append, digitsNumber_replicate_zero, List.length_replicate,
        numberOf_eq, powers short]
      ring
    · have positive : 0 < 10 ^ fraction.length := Nat.pow_pos (by decide)
      rw [roundsUp, List.getElem?_eq_none short]
      simp only [Option.any_none, Bool.false_eq_true, Nat.mul_zero, Nat.le_zero_eq, false_iff]
      exact Nat.ne_of_gt positive

/-- Rounding the digits adds one in the last place when the rest is half a unit or more. -/
theorem roundedDigits_spec {fraction : Characters} (digits : fraction.all isAsciiDigit = true)
    (decimals : Nat) :
    (roundedDigits fraction decimals).1.length = decimals ∧
      (∀ digit ∈ (roundedDigits fraction decimals).1, digit < 10) ∧
      (if (roundedDigits fraction decimals).2 = true then 10 ^ decimals else 0) +
          digitsNumber (roundedDigits fraction decimals).1 =
        digitsNumber (keptDigits fraction decimals) +
          if roundsUp fraction decimals = true then 1 else 0 := by
  have small := keptDigits_lt digits decimals
  have length := length_keptDigits fraction decimals
  unfold roundedDigits
  by_cases up : roundsUp fraction decimals = true
  · rw [if_pos up, if_pos up]
    have spec := carryDigits_spec small (Prod.eta (carryDigits (keptDigits fraction decimals))).symm
    rw [length] at spec
    exact spec
  · rw [if_neg up, if_neg up]
    refine ⟨length, small, ?_⟩
    rw [if_neg Bool.false_ne_true, Nat.zero_add, Nat.add_zero]

theorem digitsNumber_eq_zero {digits : List Nat} :
    digitsNumber digits = 0 ↔ ∀ digit ∈ digits, digit = 0 := by
  induction digits with
  | nil => exact ⟨fun _ => nofun, fun _ => rfl⟩
  | cons digit rest ih =>
      have positive : 10 ^ rest.length ≠ 0 := Nat.ne_of_gt (Nat.pow_pos (by decide))
      rw [digitsNumber, Nat.add_eq_zero_iff, Nat.mul_eq_zero, or_iff_left positive, ih,
        List.forall_mem_cons]

namespace Decimal

/-- The number without its sign, in units of its last decimal. -/
def magnitude (number : Decimal) : Nat := numberOf (number.whole ++ number.fraction)

theorem scaled_eq (number : Decimal) :
    number.scaled = if number.negative then -(number.magnitude : Int) else number.magnitude := rfl

/-- The whole number behind the carry and the kept digits are the rounded number. -/
theorem nearest_magnitude (input : Decimal) (decimals : Nat) :
    NearestAway (10 ^ input.fraction.length) (input.magnitude * 10 ^ decimals)
      (((numberOf input.whole + if (roundedDigits input.fraction decimals).2 = true then 1 else 0) *
        10 ^ decimals + digitsNumber (roundedDigits input.fraction decimals).1 : Nat) : Int) := by
  obtain ⟨remainder, parted, small, half⟩ :=
    fraction_split input.fraction input.fractionDigits decimals
  obtain ⟨-, -, sum⟩ := roundedDigits_spec input.fractionDigits decimals
  have quotient : (numberOf input.whole +
        if (roundedDigits input.fraction decimals).2 = true then 1 else 0) * 10 ^ decimals +
          digitsNumber (roundedDigits input.fraction decimals).1 =
      numberOf input.whole * 10 ^ decimals + digitsNumber (keptDigits input.fraction decimals) +
        if roundsUp input.fraction decimals = true then 1 else 0 := by
    rw [Nat.add_assoc, ← sum, Nat.add_mul]
    split <;> omega
  have whole : input.magnitude * 10 ^ decimals = 10 ^ input.fraction.length *
      (numberOf input.whole * 10 ^ decimals + digitsNumber (keptDigits input.fraction decimals)) +
        remainder := by
    rw [magnitude, numberOf_append, Nat.add_mul, parted]
    ring
  have rounds : NearestAway (10 ^ input.fraction.length) (input.magnitude * 10 ^ decimals)
      (if (10 ^ input.fraction.length : Int) ≤ 2 * (remainder : Int) then
        ((numberOf input.whole * 10 ^ decimals +
          digitsNumber (keptDigits input.fraction decimals) : Nat) : Int) + 1
      else (numberOf input.whole * 10 ^ decimals +
        digitsNumber (keptDigits input.fraction decimals) : Nat)) := by
    apply NearestAway.of_split (by positivity) (by exact_mod_cast whole) (Int.natCast_nonneg _)
      (by exact_mod_cast small) (Int.natCast_nonneg _)
  rw [quotient]
  by_cases up : roundsUp input.fraction decimals = true
  · have reached : (10 ^ input.fraction.length : Int) ≤ 2 * (remainder : Int) := by
      exact_mod_cast half.mp up
    rw [if_pos reached] at rounds
    rw [if_pos up, Int.natCast_add]
    exact rounds
  · have below : ¬(10 ^ input.fraction.length : Int) ≤ 2 * (remainder : Int) := by
      intro reached
      exact up (half.mpr (by exact_mod_cast reached))
    rw [if_neg below] at rounds
    rw [if_neg up, Nat.add_zero]
    exact rounds

/-- The number that is printed for a rounded one. -/
def printed (negative : Bool) (whole : Nat) (kept : List Nat)
    (small : ∀ digit ∈ kept, digit < 10) : Decimal where
  negative := negative && (decide (whole ≠ 0) || kept.any (· ≠ 0))
  whole := Nat.toDigits 10 whole
  fraction := kept.map digitText
  filled := Nat.toDigits_ne_nil
  wholeDigits := toDigits_digits whole
  fractionDigits := (map_digitText small).1

theorem text_printed {negative : Bool} {whole : Nat} {kept : List Nat}
    (small : ∀ digit ∈ kept, digit < 10) :
    printDecimal negative whole kept kept.length = (printed negative whole kept small).text '.' := by
  have sign : (negative = true ∧ (whole ≠ 0 ∨ kept.any (· ≠ 0) = true)) ↔
      (printed negative whole kept small).negative = true := by
    simp only [printed, Bool.and_eq_true, Bool.or_eq_true, decide_eq_true_eq]
  unfold printDecimal text
  simp only [sign]
  cases kept with
  | nil => exact (List.append_nil _).symm
  | cons digit rest => rfl

theorem magnitude_printed {negative : Bool} {whole : Nat} {kept : List Nat}
    (small : ∀ digit ∈ kept, digit < 10) :
    (printed negative whole kept small).magnitude =
      whole * 10 ^ kept.length + digitsNumber kept := by
  have fraction := (map_digitText small).2
  change numberOf (Nat.toDigits 10 whole ++ kept.map digitText) = _
  rw [numberOf_append, numberOf_toDigits, fraction, List.length_map]

/-- The sign is written exactly when the rounded number is not zero. -/
theorem negative_printed {negative : Bool} {whole : Nat} {kept : List Nat}
    (small : ∀ digit ∈ kept, digit < 10) :
    (printed negative whole kept small).negative = true ↔
      negative = true ∧ (printed negative whole kept small).magnitude ≠ 0 := by
  have positive : 10 ^ kept.length ≠ 0 := Nat.ne_of_gt (Nat.pow_pos (by decide))
  rw [magnitude_printed, Ne, Nat.add_eq_zero_iff, Nat.mul_eq_zero, or_iff_left positive,
    digitsNumber_eq_zero, not_and_or]
  simp only [printed, Bool.and_eq_true, Bool.or_eq_true, decide_eq_true_eq, List.any_eq_true,
    not_forall, Ne, exists_prop]

/-- A zero that lost its sign has the same value. -/
theorem scaled_printed {negative : Bool} {whole : Nat} {kept : List Nat}
    (small : ∀ digit ∈ kept, digit < 10) :
    (printed negative whole kept small).scaled =
      if negative then -((printed negative whole kept small).magnitude : Int)
      else (printed negative whole kept small).magnitude := by
  have sign := @negative_printed negative whole kept small
  rw [scaled_eq]
  generalize printed negative whole kept small = number at sign ⊢
  cases negative with
  | false =>
      have positive : ¬number.negative = true := fun minus => Bool.false_ne_true (sign.mp minus).1
      rw [if_neg positive, if_neg Bool.false_ne_true]
  | true =>
      by_cases zero : number.magnitude = 0
      · rw [zero]
        split <;> rfl
      · rw [if_pos (sign.mpr ⟨rfl, zero⟩), if_pos rfl]

/-- The number, rounded to decimals. -/
def rounded (input : Decimal) (decimals : Nat) : Decimal :=
  printed input.negative
    (numberOf input.whole + if (roundedDigits input.fraction decimals).2 = true then 1 else 0)
    (roundedDigits input.fraction decimals).1
    (roundedDigits_spec input.fractionDigits decimals).2.1

theorem rounded_rounds (input : Decimal) (decimals : Nat) :
    (input.rounded decimals).Rounds decimals input := by
  obtain ⟨length, small, -⟩ := roundedDigits_spec input.fractionDigits decimals
  have nearest := input.nearest_magnitude decimals
  have magnitude := @magnitude_printed input.negative (numberOf input.whole +
    if (roundedDigits input.fraction decimals).2 = true then 1 else 0) _ small
  rw [length] at magnitude
  rw [← magnitude] at nearest
  refine ⟨?_, ?_, ?_⟩
  · rw [rounded, scaled_printed, scaled_eq]
    split
    · rw [Int.neg_mul]
      exact nearest.neg
    · exact nearest
  · exact (List.length_map _).trans length
  · intro minus zero
    have filled := (negative_printed small).mp minus
    rw [scaled_eq, if_pos minus] at zero
    exact filled.2 (Int.ofNat.inj (Int.neg_eq_zero.mp zero))

theorem printDecimal_rounded (input : Decimal) (decimals : Nat) :
    printDecimal input.negative
      (numberOf input.whole + if (roundedDigits input.fraction decimals).2 = true then 1 else 0)
      (roundedDigits input.fraction decimals).1 decimals = (input.rounded decimals).text '.' := by
  obtain ⟨length, small, -⟩ := roundedDigits_spec input.fractionDigits decimals
  have printed := @text_printed input.negative (numberOf input.whole +
    if (roundedDigits input.fraction decimals).2 = true then 1 else 0) _ small
  rw [length] at printed
  exact printed

end Decimal

/-! ## Parsing -/

/-- A comma is read as a point, and digits as themselves. -/
theorem eq_of_replaced_digits {text digits : Characters}
    (replaced : replaceCharacter ',' '.' text = digits) (all : digits.all isAsciiDigit = true) :
    text = digits := by
  rw [← replaced]
  have kept : replaceCharacter ',' '.' text = text.map id := by
    apply List.map_congr_left
    intro character member
    by_cases comma : character = ','
    · have point : '.' ∈ digits := by
        rw [← replaced]
        exact List.mem_map.mpr ⟨character, member, if_pos comma⟩
      exact absurd (List.all_eq_true.mp all '.' point) (by decide)
    · exact if_neg comma
  rw [kept, List.map_id]

theorem eq_of_replaced_minus {character : Char}
    (replaced : (if character = ',' then '.' else character) = '-') : character = '-' := by
  by_cases comma : character = ','
  · rw [if_pos comma] at replaced
    exact absurd replaced (by decide)
  · rwa [if_neg comma] at replaced

theorem point_or_comma {character : Char}
    (replaced : (if character = ',' then '.' else character) = '.') :
    character = '.' ∨ character = ',' := by
  by_cases comma : character = ','
  · exact .inr comma
  · rw [if_neg comma] at replaced
    exact .inl replaced

/-- The digits before the point and behind it spell a number. -/
theorem spelled_unsigned {text whole fraction : Characters}
    (parts : splitFraction (replaceCharacter ',' '.' text) = (whole, fraction))
    (wholeDigits : whole.all isAsciiDigit = true)
    (fractionDigits : fraction.all isAsciiDigit = true) :
    text = whole ∧ fraction = [] ∨
      ∃ separator, (separator = '.' ∨ separator = ',') ∧ text = whole ++ separator :: fraction := by
  unfold splitFraction at parts
  cases cut : splitOnce '.' (replaceCharacter ',' '.' text) with
  | none =>
      rw [cut] at parts
      cases parts
      exact .inl ⟨eq_of_replaced_digits rfl wholeDigits, rfl⟩
  | some found =>
      rw [cut] at parts
      cases parts
      obtain ⟨-, joined⟩ := splitOnce_eq_some.mp cut
      obtain ⟨before, after, rfl, first, second⟩ := List.map_eq_append_iff.mp joined
      obtain ⟨separator, last, rfl, point, third⟩ := List.map_eq_cons_iff.mp second
      rw [eq_of_replaced_digits first wholeDigits, eq_of_replaced_digits third fractionDigits]
      exact .inr ⟨separator, point_or_comma point, rfl⟩

theorem splitSign_replaced (text : Characters) :
    ∃ unsigned, text = (if (splitSign (replaceCharacter ',' '.' text)).1 then ['-'] else []) ++
        unsigned ∧
      (splitSign (replaceCharacter ',' '.' text)).2 = replaceCharacter ',' '.' unsigned := by
  cases text with
  | nil => exact ⟨[], rfl, rfl⟩
  | cons first rest =>
      change ∃ unsigned, first :: rest = (if (splitSign ((if first = ',' then '.' else first) ::
        replaceCharacter ',' '.' rest)).1 then ['-'] else []) ++ unsigned ∧ (splitSign
          ((if first = ',' then '.' else first) :: replaceCharacter ',' '.' rest)).2 = _
      by_cases minus : (if first = ',' then '.' else first) = '-'
      · rw [minus, eq_of_replaced_minus minus]
        exact ⟨rest, rfl, rfl⟩
      · have positive : splitSign ((if first = ',' then '.' else first) ::
            replaceCharacter ',' '.' rest) = (false, (if first = ',' then '.' else first) ::
              replaceCharacter ',' '.' rest) := by
          unfold splitSign
          split
          · next same => exact absurd (List.cons.inj same).1 minus
          · rfl
        rw [positive]
        exact ⟨first :: rest, rfl, rfl⟩

theorem carriedWhole_eq_ok {refused : TemplateError} {carry : Bool} {whole result : Nat}
    (carried : carriedWhole refused carry whole = .ok result) :
    result = whole + if carry = true then 1 else 0 := by
  unfold carriedWhole at carried
  cases carry with
  | false => exact (Except.ok.inj carried).symm
  | true =>
      rw [if_pos rfl, okOr_eq_ok] at carried
      split at carried
      · exact (Option.some.inj carried).symm
      · cases carried

/-- A formatted value spells a decimal number, and the result is the rounded one. -/
theorem formatDecimal_rounds {value out : Characters} {decimals : Nat}
    (formatted : formatDecimal value decimals = .ok out) :
    ∃ input output : Decimal, input.Spelled (trim value) ∧ numberOf input.whole < 2 ^ 128 ∧
      output.Rounds decimals input ∧ out = output.text '.' := by
  obtain ⟨unsigned, shape, rest⟩ := splitSign_replaced (trim value)
  unfold formatDecimal at formatted
  simp only [except_bind_eq_ok, refuseIf_eq_ok, okOr_eq_ok, except_pure_eq_ok, not_or, not_not,
    rest] at formatted
  obtain ⟨_, ⟨filled, wholeDigits, fractionDigits⟩, number, read, whole, carried, rfl⟩ := formatted
  obtain ⟨-, -, counted, bounded⟩ := parseUnsigned_eq_some.mp read
  rw [afterPlus_of_digits wholeDigits] at counted
  have carries := carriedWhole_eq_ok carried
  rw [← counted] at carries bounded
  let input : Decimal := {
    negative := (splitSign (replaceCharacter ',' '.' (trim value))).1
    whole := (splitFraction (replaceCharacter ',' '.' unsigned)).1
    fraction := (splitFraction (replaceCharacter ',' '.' unsigned)).2
    filled := fun none => filled (List.isEmpty_iff.mpr none)
    wholeDigits
    fractionDigits }
  refine ⟨input, input.rounded decimals, ?_, bounded, input.rounded_rounds decimals, ?_⟩
  · rcases spelled_unsigned rfl wholeDigits fractionDigits with alone | parted
    · left
      rw [shape]
      exact ⟨congrArg _ alone.1, alone.2⟩
    · obtain ⟨separator, point, joined⟩ := parted
      refine .inr ⟨separator, point, ?_⟩
      rw [shape, List.append_assoc]
      exact congrArg _ joined
  · rw [carries]
    exact input.printDecimal_rounded decimals

/-! ## Trailing zeros -/

/-- What is dropped at the end stops at a character that stays. -/
theorem rdropWhile_append_cons {drops : Char → Bool} {solid : Char} (stays : drops solid = false)
    (before after : Characters) :
    (before ++ solid :: after).rdropWhile drops = before ++ solid :: after.rdropWhile drops := by
  unfold List.rdropWhile
  rw [List.reverse_append, List.reverse_cons, List.append_assoc, List.dropWhile_append]
  split
  · next empty =>
      rw [List.isEmpty_iff.mp empty]
      simp [stays]
  · simp

/-- Text that ends with a digit keeps its points. -/
theorem rdropWhile_point {before digits : Characters} (filled : digits ≠ [])
    (all : digits.all isAsciiDigit = true) :
    (before ++ digits).rdropWhile (· == '.') = before ++ digits := by
  apply List.rdropWhile_eq_self_iff.mpr
  intro present point
  rw [List.getLast_append_of_ne_nil _ filled, beq_iff_eq] at point
  have digit := List.all_eq_true.mp all _ (List.getLast_mem filled)
  rw [point] at digit
  exact absurd digit (by decide)

namespace Decimal

/-- The number without zeros at the end of its fraction. -/
def trimmed (number : Decimal) : Decimal :=
  { number with
    fraction := number.fraction.rdropWhile (· == '0')
    fractionDigits := by
      rw [List.all_eq_true]
      intro digit member
      exact List.all_eq_true.mp number.fractionDigits digit
        ((List.rdropWhile_prefix _ _).subset member) }

theorem magnitude_trimmed (number : Decimal) :
    number.trimmed.magnitude * 10 ^ number.fraction.length =
      number.magnitude * 10 ^ number.trimmed.fraction.length := by
  have parts : number.fraction =
      number.trimmed.fraction ++ number.fraction.rtakeWhile (· == '0') :=
    (List.rdropWhile_append_rtakeWhile ..).symm
  have zeros : number.fraction.rtakeWhile (· == '0') =
      List.replicate (number.fraction.rtakeWhile (· == '0')).length '0' := by
    apply List.eq_replicate_iff.mpr
    refine ⟨rfl, ?_⟩
    intro digit member
    have zero : (digit == '0') = true := List.mem_rtakeWhile_imp (p := (· == '0')) member
    exact beq_iff_eq.mp zero
  generalize (number.fraction.rtakeWhile (· == '0')).length = count at zeros
  have counted : numberOf (List.replicate count '0') = 0 := by
    rw [numberOf, Nat.ofDigitChars_replicate_zero, Nat.mul_zero]
  have shifted : number.magnitude = number.trimmed.magnitude * 10 ^ count := by
    rw [magnitude, magnitude, parts, zeros, ← List.append_assoc, numberOf_append,
      List.length_replicate, counted, Nat.add_zero]
    rfl
  rw [shifted, congrArg List.length parts, zeros, List.length_append, List.length_replicate,
    Nat.pow_add]
  ring

/-- Zeros at the end of the fraction do not change the value. -/
theorem trimmed_sameValue (number : Decimal) : number.trimmed.SameValue number := by
  have magnitudes : (number.trimmed.magnitude : Int) * 10 ^ number.fraction.length =
      number.magnitude * 10 ^ number.trimmed.fraction.length := by
    exact_mod_cast number.magnitude_trimmed
  have sign : number.trimmed.negative = number.negative := rfl
  rw [SameValue, scaled_eq, scaled_eq, sign]
  split
  · rw [Int.neg_mul, Int.neg_mul, magnitudes]
  · exact magnitudes

theorem trimmed_last (number : Decimal) : number.trimmed.fraction.getLast? ≠ some '0' := by
  intro last
  change (number.fraction.rdropWhile (· == '0')).getLast? = some '0' at last
  have filled : number.fraction.rdropWhile (· == '0') ≠ [] := by
    intro none
    rw [none] at last
    cases last
  have zero : (number.fraction.rdropWhile (· == '0')).getLast filled = '0' := by
    apply Option.some.inj
    rw [← last, List.getLast?_eq_some_getLast filled]
  exact List.rdropWhile_last_not (· == '0') number.fraction filled (beq_iff_eq.mpr zero)

theorem trimmed_signed {number : Decimal} (signed : number.negative = true → number.scaled ≠ 0) :
    number.trimmed.negative = true → number.trimmed.scaled ≠ 0 := by
  intro minus zero
  have same := number.trimmed_sameValue
  rw [SameValue, zero, Int.zero_mul] at same
  have power : (10 : Int) ^ number.trimmed.fraction.length ≠ 0 := by positivity
  exact signed minus ((Int.mul_eq_zero.mp same.symm).resolve_right power)

/-- A number that is no negative zero is not written as one. -/
theorem text_ne_minusZero {number : Decimal}
    (signed : number.negative = true → number.scaled ≠ 0) :
    number.text '.' ≠ ['-', '0'] := by
  intro written
  obtain ⟨first, rest, shape⟩ := List.exists_cons_of_ne_nil number.filled
  unfold text at written
  cases sign : number.negative with
  | false =>
      rw [sign, shape] at written
      have minus : first = '-' := (List.cons.inj written).1
      have digit := List.all_eq_true.mp number.wholeDigits first (shape ▸ List.mem_cons_self ..)
      rw [minus] at digit
      exact absurd digit (by decide)
  | true =>
      rw [sign, shape] at written
      obtain ⟨zero, behind⟩ := List.cons.inj (List.cons.inj written).2
      obtain ⟨alone, ends⟩ := List.append_eq_nil_iff.mp behind
      have bare : number.fraction = [] := by
        by_contra filled
        rw [if_neg filled] at ends
        cases ends
      apply signed sign
      rw [scaled_eq, magnitude, shape, zero, alone, bare]
      exact if_pos sign

/-- Trimming the text of a number leaves the text of the trimmed number. -/
theorem trimFraction_text {number : Decimal}
    (signed : number.negative = true → number.scaled ≠ 0) :
    trimFraction (number.text '.') = number.trimmed.text '.' := by
  have dropped : (if '.' ∈ number.text '.' then
      ((number.text '.').rdropWhile (· == '0')).rdropWhile (· == '.') else number.text '.') =
        number.trimmed.text '.' := by
    by_cases bare : number.fraction = []
    · have plain : number.text '.' =
          (if number.negative then ['-'] else []) ++ number.whole := by
        rw [text, if_pos bare, List.append_nil]
      have same : number.trimmed.text '.' = number.text '.' := by
        have empty : number.trimmed.fraction = [] := by
          change number.fraction.rdropWhile (· == '0') = []
          rw [bare]
          rfl
        rw [plain, text, if_pos empty, List.append_nil]
        rfl
      have absent : '.' ∉ number.text '.' := by
        rw [plain, List.mem_append]
        intro member
        rcases member with sign | digit
        · split at sign
          · exact absurd (List.mem_singleton.mp sign) (by decide)
          · cases sign
        · exact absurd (List.all_eq_true.mp number.wholeDigits '.' digit) (by decide)
      rw [if_neg absent, same]
    · have pointed : number.text '.' =
          ((if number.negative then ['-'] else []) ++ number.whole) ++ '.' :: number.fraction := by
        rw [text, if_neg bare]
      have present : '.' ∈ number.text '.' := by
        rw [pointed]
        exact List.mem_append_right _ (List.mem_cons_self ..)
      have shorter : (number.text '.').rdropWhile (· == '0') =
          ((if number.negative then ['-'] else []) ++ number.whole) ++
            '.' :: number.trimmed.fraction := by
        rw [pointed]
        exact rdropWhile_append_cons rfl _ _
      rw [if_pos present, shorter]
      by_cases empty : number.trimmed.fraction = []
      · rw [text, if_pos empty, empty, List.rdropWhile_concat_pos _ _ _ rfl,
          rdropWhile_point number.filled number.wholeDigits, List.append_nil]
        rfl
      · have regroup : ((if number.negative then ['-'] else []) ++ number.whole) ++
            '.' :: number.trimmed.fraction =
              ((if number.negative then ['-'] else []) ++ number.whole ++ ['.']) ++
                number.trimmed.fraction := by
          simp only [List.append_assoc, List.cons_append, List.nil_append]
        rw [regroup, rdropWhile_point empty number.trimmed.fractionDigits, ← regroup, text,
          if_neg empty]
        rfl
  unfold trimFraction
  simp only [dropped]
  exact if_neg (text_ne_minusZero (trimmed_signed signed))

/-- The locale changes the separator only. -/
theorem replaceCharacter_text (number : Decimal) :
    replaceCharacter '.' ',' (number.text '.') = number.text ',' := by
  have kept {digits : Characters} (all : digits.all isAsciiDigit = true) :
      replaceCharacter '.' ',' digits = digits := by
    calc replaceCharacter '.' ',' digits = digits.map id := by
          apply List.map_congr_left
          intro character member
          apply if_neg
          intro point
          have digit := List.all_eq_true.mp all character member
          rw [point] at digit
          exact absurd digit (by decide)
      _ = digits := List.map_id digits
  unfold text
  have parts (left right : Characters) : replaceCharacter '.' ',' (left ++ right) =
      replaceCharacter '.' ',' left ++ replaceCharacter '.' ',' right := List.map_append
  rw [parts, parts, kept number.wholeDigits]
  congr 1
  · congr 1
    split <;> rfl
  · split
    · rfl
    · exact congrArg (',' :: ·) (kept number.fractionDigits)

end Decimal

/-- The separator of a locale. -/
def separatorOf (context : TemplateContext) : Char :=
  if "fr".toList.isPrefixOf context.locale then ',' else '.'

theorem localized_text (context : TemplateContext) (number : Decimal) :
    localized context (number.text '.') = number.text (separatorOf context) := by
  unfold localized separatorOf
  split
  · exact number.replaceCharacter_text
  · rfl

theorem transform_number (casing : Casing) (context : TemplateContext) (argument value : Characters) :
    transform casing context ("number:".toList ++ argument) value =
      transformNumber context ("number:".toList ++ argument) argument value := rfl

theorem transform_decimals (casing : Casing) (context : TemplateContext)
    (argument value : Characters) :
    transform casing context ("decimals:".toList ++ argument) value =
      transformDecimals context ("decimals:".toList ++ argument) argument value := rfl

theorem decimalsOf_eq_ok {f argument : Characters} {decimals : Nat}
    (read : decimalsOf f argument = .ok decimals) :
    ∃ count, parseUnsigned (2 ^ 8) argument = some count ∧ min count 9 = decimals := by
  unfold decimalsOf at read
  simp only [except_bind_eq_ok, okOr_eq_ok, except_pure_eq_ok] at read
  exact read

/-- Formatting is exact: a number is rounded to its decimals with ties away from zero, with
exactly that many of them, or with no zeros at their end. -/
theorem formatDecimal_exact (casing : Casing) (context : TemplateContext)
    (value out : Characters) :
    (∀ decimals, formatDecimal value decimals = .ok out →
      ∃ input output : Decimal, input.Spelled (trim value) ∧ numberOf input.whole < 2 ^ 128 ∧
        output.Rounds decimals input ∧ out = output.text '.') ∧
    (∀ argument, transform casing context ("number:".toList ++ argument) value = .ok out →
      ∃ count, parseUnsigned (2 ^ 8) argument = some count ∧
        ∃ input output : Decimal, input.Spelled (trim value) ∧
          output.Rounds (min count 9) input ∧ out = output.text (separatorOf context)) ∧
    ∀ argument, transform casing context ("decimals:".toList ++ argument) value = .ok out →
      ∃ count, parseUnsigned (2 ^ 8) argument = some count ∧
        ∃ input output shown : Decimal, input.Spelled (trim value) ∧
          output.Rounds (min count 9) input ∧ shown.SameValue output ∧
          (shown.negative = true → shown.scaled ≠ 0) ∧ shown.fraction.getLast? ≠ some '0' ∧
          out = shown.text (separatorOf context) := by
  refine ⟨fun _ => formatDecimal_rounds, ?_, ?_⟩
  · intro argument transformed
    rw [transform_number, transformNumber, except_bind_eq_ok] at transformed
    obtain ⟨decimals, read, transformed⟩ := transformed
    obtain ⟨count, parsed, rfl⟩ := decimalsOf_eq_ok read
    obtain ⟨text, formatted, made⟩ := (except_bind_eq_ok _ _ _).mp transformed
    obtain ⟨input, output, spelled, -, rounds, rfl⟩ := formatDecimal_rounds formatted
    rw [localized_text, except_pure_eq_ok] at made
    exact ⟨count, parsed, input, output, spelled, rounds, made.symm⟩
  · intro argument transformed
    rw [transform_decimals, transformDecimals, except_bind_eq_ok] at transformed
    obtain ⟨decimals, read, transformed⟩ := transformed
    obtain ⟨count, parsed, rfl⟩ := decimalsOf_eq_ok read
    obtain ⟨text, formatted, made⟩ := (except_bind_eq_ok _ _ _).mp transformed
    obtain ⟨input, output, spelled, -, rounds, rfl⟩ := formatDecimal_rounds formatted
    rw [Decimal.trimFraction_text rounds.signed, localized_text, except_pure_eq_ok] at made
    exact ⟨count, parsed, input, output, output.trimmed, spelled, rounds,
      output.trimmed_sameValue, Decimal.trimmed_signed rounds.signed, output.trimmed_last,
      made.symm⟩

theorem formatDecimal_exact_carry :
    ∃ count, parseUnsigned (2 ^ 8) ['2'] = some count ∧
      ∃ input output shown : Decimal, input.Spelled (trim "-2.995".toList) ∧
        output.Rounds (min count 9) input ∧ shown.SameValue output ∧
        (shown.negative = true → shown.scaled ≠ 0) ∧ shown.fraction.getLast? ≠ some '0' ∧
        "-3".toList = shown.text '.' :=
  (formatDecimal_exact ⟨id, id⟩ ⟨.empty, "en".toList, []⟩ "-2.995".toList "-3".toList).2.2 ['2'] rfl

/-- Nines are carried over, and what rounds to zero has no sign. -/
example : formatDecimal "-9,996".toList 2 = .ok "-10.00".toList ∧
    formatDecimal " -0.004 ".toList 2 = .ok "0.00".toList := ⟨rfl, rfl⟩

end PrinterSdk.Label
