import PrinterSdk.Label.TemplateDigits
import Mathlib.Tactic.IntervalCases

/-!
# Dates in templates

A date is four digits, two digits and two digits that name a day of the Gregorian calendar.
The parser of numbers also takes a plus for the first of the digits.
-/

namespace PrinterSdk.Label

open PrinterSdk.Data PrinterSdk.Brother
open PrinterSdk.Render (utf8Length)

/-! ## The calendar -/

/-- The days of a month of the Gregorian calendar. -/
def daysInMonth (year month : Nat) : Nat :=
  if month = 2 then if 4 ∣ year ∧ ¬100 ∣ year ∨ 400 ∣ year then 29 else 28
  else if month = 4 ∨ month = 6 ∨ month = 9 ∨ month = 11 then 30
  else 31

/-- The day is in the calendar. -/
def DateExists (year month day : Nat) : Prop :=
  1 ≤ month ∧ month ≤ 12 ∧ 1 ≤ day ∧ day ≤ daysInMonth year month

instance (year month day : Nat) : Decidable (DateExists year month day) :=
  inferInstanceAs (Decidable (_ ∧ _))

theorem isLeap_iff (year : Nat) :
    isLeap year = true ↔ 4 ∣ year ∧ ¬100 ∣ year ∨ 400 ∣ year := by
  simp only [isLeap, Bool.and_eq_true, Bool.or_eq_true, beq_iff_eq, bne_iff_ne]
  omega

theorem dateExists_iff {year month day : Nat} :
    DateExists year month day ↔ day ≠ 0 ∧ day ≤ daysOf (isLeap year) month := by
  have days : daysOf (isLeap year) month =
      if 1 ≤ month ∧ month ≤ 12 then daysInMonth year month else 0 := by
    by_cases inside : 1 ≤ month ∧ month ≤ 12
    · rw [if_pos inside]
      obtain ⟨least, most⟩ := inside
      have february : (if isLeap year then 29 else 28) = daysInMonth year 2 := by
        simp only [daysInMonth, ↓reduceIte, isLeap_iff]
      interval_cases month <;> first | exact february | rfl
    · rw [if_neg inside]
      unfold daysOf
      split <;> first | rfl | (exact absurd ⟨by decide, by decide⟩ inside)
  rw [days, DateExists]
  split <;> omega

/-! ## Patterns -/

/-- A piece of a valid pattern. -/
inductive PatternPart where
  | literal (character : Char) (plain : character ≠ '%')
  | year
  | month
  | day
  | percent

/-- How a piece is written. -/
def PatternPart.text : PatternPart → Characters
  | literal character _ => [character]
  | year => ['%', 'Y']
  | month => ['%', 'm']
  | day => ['%', 'd']
  | percent => ['%', '%']

/-- What a piece stands for in a date. -/
def PatternPart.filled (yearText monthText dayText : Characters) : PatternPart → Characters
  | literal character _ => [character]
  | year => yearText
  | month => monthText
  | day => dayText
  | percent => ['%']

theorem fillPattern_literal {pattern year month day out rest : Characters} {character : Char}
    (plain : character ≠ '%') :
    fillPattern pattern year month day out (character :: rest) =
      fillPattern pattern year month day (out ++ [character]) rest := by
  have different (text : Characters) (same : character = '%') : rest = text → False :=
    absurd same plain
  exact fillPattern.eq_7 _ _ _ _ _ _ _ (fun _ => different _) (fun _ => different _)
    (fun _ => different _) (fun _ => different _) plain

/-- A valid pattern is filled piece by piece. -/
theorem fillPattern_parts (pattern year month day out : Characters) (parts : List PatternPart) :
    fillPattern pattern year month day out (parts.flatMap PatternPart.text) =
      .ok (out ++ parts.flatMap (PatternPart.filled year month day)) := by
  induction parts generalizing out with
  | nil => exact congrArg Except.ok (List.append_nil out).symm
  | cons part rest ih =>
      rw [List.flatMap_cons, List.flatMap_cons, ← List.append_assoc, ← ih]
      cases part with
      | literal character plain => exact fillPattern_literal plain
      | year => rfl
      | month => rfl
      | day => rfl
      | percent => rfl

/-- Nothing but valid patterns is filled. -/
theorem exists_parts_of_fillPattern {pattern year month day out text result : Characters}
    (filled : fillPattern pattern year month day out text = .ok result) :
    ∃ parts : List PatternPart, text = parts.flatMap PatternPart.text := by
  fun_induction fillPattern pattern year month day out text with
  | case1 => exact ⟨[], rfl⟩
  | case2 out rest ih =>
      obtain ⟨parts, same⟩ := ih filled
      exact ⟨.year :: parts, congrArg (fun rest => '%' :: 'Y' :: rest) same⟩
  | case3 out rest ih =>
      obtain ⟨parts, same⟩ := ih filled
      exact ⟨.month :: parts, congrArg (fun rest => '%' :: 'm' :: rest) same⟩
  | case4 out rest ih =>
      obtain ⟨parts, same⟩ := ih filled
      exact ⟨.day :: parts, congrArg (fun rest => '%' :: 'd' :: rest) same⟩
  | case5 out rest ih =>
      obtain ⟨parts, same⟩ := ih filled
      exact ⟨.percent :: parts, congrArg (fun rest => '%' :: '%' :: rest) same⟩
  | case6 => cases filled
  | case7 out character rest _ _ _ _ plain ih =>
      obtain ⟨parts, same⟩ := ih filled
      exact ⟨.literal character plain :: parts, congrArg (fun rest => character :: rest) same⟩

/-! ## What is accepted -/

/-- The text is a date of the calendar: four digits, two digits and two digits. -/
structure CalendarDate (value year month day : Characters) : Prop where
  shape : value = year ++ '-' :: (month ++ '-' :: day)
  yearLength : year.length = 4
  monthLength : month.length = 2
  dayLength : day.length = 2
  digits : ∀ part ∈ [year, month, day], part.all isAsciiDigit = true
  real : DateExists (numberOf year) (numberOf month) (numberOf day)

/-- The text is a date of the calendar when a plus in front of digits is left out. -/
structure PlusDate (value year month day : Characters) : Prop where
  shape : value = year ++ '-' :: (month ++ '-' :: day)
  yearLength : year.length = 4
  monthLength : month.length = 2
  dayLength : day.length = 2
  digits : ∀ part ∈ [year, month, day],
    afterPlus part ≠ [] ∧ (afterPlus part).all isAsciiDigit = true
  real : DateExists (numberOf (afterPlus year)) (numberOf (afterPlus month))
    (numberOf (afterPlus day))

/-- `format_date` succeeds exactly for the dates of the calendar, and fills the pattern with
their digits. -/
def FormatsDates (value : Characters) (parts : List PatternPart) : Prop :=
  ((∃ out, formatDate value (parts.flatMap PatternPart.text) = .ok out) ↔
    ∃ year month day, CalendarDate value year month day) ∧
  ∀ year month day, CalendarDate value year month day →
    formatDate value (parts.flatMap PatternPart.text) =
      .ok (parts.flatMap (PatternPart.filled year month day))

/-- The characters in front of which a plus was left out. -/
theorem digit_or_plus {part : Characters} (all : (afterPlus part).all isAsciiDigit = true)
    {character : Char} (member : character ∈ part) :
    isAsciiDigit character = true ∨ character = '+' := by
  unfold afterPlus at all
  split at all
  · next digits =>
      cases member with
      | head => exact .inr rfl
      | tail _ member => exact .inl (List.all_eq_true.mp all character member)
  · exact .inl (List.all_eq_true.mp all character member)

theorem utf8Length_of_ascii {text : Characters}
    (ascii : ∀ character ∈ text, character.toNat ≤ 127) : utf8Length text = text.length := by
  induction text with
  | nil => rfl
  | cons first rest ih =>
      obtain ⟨here, later⟩ := List.forall_mem_cons.mp ascii
      have single : first.utf8Size = 1 := by
        rw [Char.utf8Size_eq_one_iff, UInt32.le_iff_toNat_le]
        exact here
      have tail := ih later
      unfold utf8Length at tail ⊢
      rw [List.map_cons, List.sum_cons, tail, single, List.length_cons, Nat.add_comm]

/-- The parts of a date have one byte for every character. -/
theorem utf8Length_of_afterPlus {part : Characters}
    (all : (afterPlus part).all isAsciiDigit = true) : utf8Length part = part.length := by
  apply utf8Length_of_ascii
  intro character member
  rcases digit_or_plus all member with digit | rfl
  · simp only [isAsciiDigit, Bool.and_eq_true, decide_eq_true_eq] at digit
    exact Nat.le_trans digit.2 (by decide)
  · decide

theorem dash_not_mem {part : Characters} (all : (afterPlus part).all isAsciiDigit = true) :
    '-' ∉ part := by
  intro member
  rcases digit_or_plus all member with digit | plus
  · exact absurd digit (by decide)
  · exact absurd plus (by decide)

theorem splitOn_date {year month day : Characters} (yearSolid : '-' ∉ year)
    (monthSolid : '-' ∉ month) (daySolid : '-' ∉ day) :
    (year ++ '-' :: (month ++ '-' :: day)).splitOn '-' = [year, month, day] := by
  rw [List.splitOn_append_cons_self_of_not_mem yearSolid,
    List.splitOn_append_cons_self_of_not_mem monthSolid, List.splitOn_eq_singleton daySolid]

/-- The checks of `format_date` on the three parts. -/
theorem parts_accepted_iff {value year month day : Characters}
    (shape : value = year ++ '-' :: (month ++ '-' :: day)) :
    (utf8Length year = 4 ∧ utf8Length month = 2 ∧ utf8Length day = 2 ∧
      ∃ yearNumber monthNumber dayNumber, parseUnsigned (2 ^ 32) year = some yearNumber ∧
        parseUnsigned (2 ^ 32) month = some monthNumber ∧
        parseUnsigned (2 ^ 32) day = some dayNumber ∧
        DateExists yearNumber monthNumber dayNumber) ↔
      PlusDate value year month day := by
  constructor
  · intro accepted
    obtain ⟨long, two, also, _, _, _, yearRead, monthRead, dayRead, real⟩ := accepted
    obtain ⟨yearFilled, yearDigits, rfl, -⟩ := parseUnsigned_eq_some.mp yearRead
    obtain ⟨monthFilled, monthDigits, rfl, -⟩ := parseUnsigned_eq_some.mp monthRead
    obtain ⟨dayFilled, dayDigits, rfl, -⟩ := parseUnsigned_eq_some.mp dayRead
    rw [utf8Length_of_afterPlus yearDigits] at long
    rw [utf8Length_of_afterPlus monthDigits] at two
    rw [utf8Length_of_afterPlus dayDigits] at also
    refine ⟨shape, long, two, also, ?_, real⟩
    simp only [List.forall_mem_cons]
    exact ⟨⟨yearFilled, yearDigits⟩, ⟨monthFilled, monthDigits⟩, ⟨dayFilled, dayDigits⟩, nofun⟩
  · intro date
    have digits := date.digits
    simp only [List.forall_mem_cons] at digits
    obtain ⟨yearDigits, monthDigits, dayDigits, -⟩ := digits
    have small {part : Characters} (few : part.length ≤ 4)
        (all : (afterPlus part).all isAsciiDigit = true) : numberOf (afterPlus part) < 2 ^ 32 := by
      have shorter : (afterPlus part).length ≤ 4 := by
        unfold afterPlus
        split
        · exact Nat.le_of_succ_le few
        · exact few
      calc numberOf (afterPlus part) < 10 ^ (afterPlus part).length := numberOf_lt all
        _ ≤ 10 ^ 4 := Nat.pow_le_pow_right (by decide) shorter
        _ ≤ 2 ^ 32 := by decide
    rw [utf8Length_of_afterPlus yearDigits.2, utf8Length_of_afterPlus monthDigits.2,
      utf8Length_of_afterPlus dayDigits.2]
    refine ⟨date.yearLength, date.monthLength, date.dayLength, _, _, _, ?_, ?_, ?_, date.real⟩
    · exact parseUnsigned_eq_some.mpr ⟨yearDigits.1, yearDigits.2, rfl,
        small (Nat.le_of_eq date.yearLength) yearDigits.2⟩
    · exact parseUnsigned_eq_some.mpr ⟨monthDigits.1, monthDigits.2, rfl,
        small (date.monthLength ▸ by decide) monthDigits.2⟩
    · exact parseUnsigned_eq_some.mpr ⟨dayDigits.1, dayDigits.2, rfl,
        small (date.dayLength ▸ by decide) dayDigits.2⟩

/-- `format_date` reads a date with or without pluses. -/
theorem formatDate_eq_ok {value pattern out : Characters} :
    formatDate value pattern = .ok out ↔
      ∃ year month day, PlusDate value year month day ∧
        fillPattern pattern year month day [] pattern = .ok out := by
  constructor
  · intro returned
    unfold formatDate at returned
    split at returned
    · next year month day parts =>
        simp only [except_bind_eq_ok, refuseIf_eq_ok, okOr_eq_ok] at returned
        obtain ⟨_, lengths, yearNumber, yearRead, monthNumber, monthRead, dayNumber, dayRead, _,
          real, filled⟩ := returned
        have shape : value = year ++ '-' :: (month ++ '-' :: day) := by
          rw [← @List.intercalate_splitOn _ value _ _ '-', parts]
          simp [List.intercalate]
        rw [not_or, not_or, not_not, not_not, not_not] at lengths
        rw [not_or, Nat.not_lt] at real
        refine ⟨year, month, day, (parts_accepted_iff shape).mp ?_, filled⟩
        exact ⟨lengths.1, lengths.2.1, lengths.2.2, yearNumber, monthNumber, dayNumber, yearRead,
          monthRead, dayRead, dateExists_iff.mpr real⟩
    · cases returned
  · intro accepted
    obtain ⟨year, month, day, date, filled⟩ := accepted
    obtain ⟨long, two, also, yearNumber, monthNumber, dayNumber, yearRead, monthRead, dayRead,
      real⟩ := (parts_accepted_iff date.shape).mpr date
    have digits := date.digits
    simp only [List.forall_mem_cons] at digits
    have parts : value.splitOn '-' = [year, month, day] := by
      rw [date.shape]
      exact splitOn_date (dash_not_mem digits.1.2) (dash_not_mem digits.2.1.2)
        (dash_not_mem digits.2.2.1.2)
    obtain ⟨first, last⟩ := dateExists_iff.mp real
    simp only [formatDate, parts, except_bind_eq_ok, refuseIf_eq_ok, okOr_eq_ok]
    exact ⟨(), by simp [long, two, also], yearNumber, yearRead, monthNumber, monthRead, dayNumber,
      dayRead, (), not_or.mpr ⟨first, Nat.not_lt.mpr last⟩, filled⟩

/-! ## Pluses -/

theorem CalendarDate.plusDate {value year month day : Characters}
    (date : CalendarDate value year month day) : PlusDate value year month day := by
  have digits := date.digits
  simp only [List.forall_mem_cons] at digits
  obtain ⟨yearDigits, monthDigits, dayDigits, -⟩ := digits
  have filled {part : Characters} {length : Nat} (long : part.length = length + 1) : part ≠ [] :=
    List.ne_nil_of_length_eq_add_one long
  refine ⟨date.shape, date.yearLength, date.monthLength, date.dayLength, ?_, ?_⟩
  · simp only [List.forall_mem_cons, afterPlus_of_digits yearDigits,
      afterPlus_of_digits monthDigits, afterPlus_of_digits dayDigits]
    exact ⟨⟨filled date.yearLength, yearDigits⟩, ⟨filled date.monthLength, monthDigits⟩,
      ⟨filled date.dayLength, dayDigits⟩, nofun⟩
  · rw [afterPlus_of_digits yearDigits, afterPlus_of_digits monthDigits,
      afterPlus_of_digits dayDigits]
    exact date.real

theorem afterPlus_of_not_mem {part : Characters} (unsigned : '+' ∉ part) :
    afterPlus part = part := by
  unfold afterPlus
  split
  · exact absurd (List.mem_cons_self ..) unsigned
  · rfl

/-- A date without a plus is a date of the calendar. -/
theorem PlusDate.calendarDate {value year month day : Characters}
    (date : PlusDate value year month day) (unsigned : '+' ∉ value) :
    CalendarDate value year month day := by
  rw [date.shape, List.mem_append, List.mem_cons, List.mem_append, List.mem_cons, not_or, not_or,
    not_or, not_or] at unsigned
  obtain ⟨yearPlain, -, monthPlain, -, dayPlain⟩ := unsigned
  have digits := date.digits
  have real := date.real
  simp only [List.forall_mem_cons, afterPlus_of_not_mem yearPlain, afterPlus_of_not_mem monthPlain,
    afterPlus_of_not_mem dayPlain] at digits
  rw [afterPlus_of_not_mem yearPlain, afterPlus_of_not_mem monthPlain,
    afterPlus_of_not_mem dayPlain] at real
  refine ⟨date.shape, date.yearLength, date.monthLength, date.dayLength, ?_, real⟩
  simp only [List.forall_mem_cons]
  exact ⟨digits.1.2, digits.2.1.2, digits.2.2.1.2, nofun⟩

/-- A date of the calendar has no plus. -/
theorem CalendarDate.no_plus {value year month day : Characters}
    (date : CalendarDate value year month day) : '+' ∉ value := by
  have plain {part : Characters} (inside : part ∈ [year, month, day]) : '+' ∉ part := by
    intro member
    have digit := List.all_eq_true.mp (date.digits part inside) '+' member
    exact absurd digit (by decide)
  rw [date.shape, List.mem_append, List.mem_cons, List.mem_append, List.mem_cons]
  intro member
  rcases member with member | minus | member | minus | member
  · exact plain (by simp) member
  · exact absurd minus (by decide)
  · exact plain (by simp) member
  · exact absurd minus (by decide)
  · exact plain (by simp) member

/-- `format_date` is exact for a value that is not a date with a plus in it. -/
theorem formatsDates_iff (value : Characters) (parts : List PatternPart) :
    FormatsDates value parts ↔
      ¬('+' ∈ value ∧ ∃ year month day, PlusDate value year month day) := by
  have filled (year month day : Characters) :
      fillPattern (parts.flatMap PatternPart.text) year month day []
        (parts.flatMap PatternPart.text) =
          .ok (parts.flatMap (PatternPart.filled year month day)) :=
    fillPattern_parts _ year month day [] parts
  constructor
  · intro formats signed
    obtain ⟨plus, year, month, day, date⟩ := signed
    have returned := formatDate_eq_ok.mpr ⟨year, month, day, date, filled year month day⟩
    obtain ⟨_, _, _, calendar⟩ := formats.1.mp ⟨_, returned⟩
    exact calendar.no_plus plus
  · intro unsigned
    have exactly (year month day : Characters) (calendar : CalendarDate value year month day) :
        formatDate value (parts.flatMap PatternPart.text) =
          .ok (parts.flatMap (PatternPart.filled year month day)) :=
      formatDate_eq_ok.mpr ⟨year, month, day, calendar.plusDate, filled year month day⟩
    refine ⟨⟨?_, ?_⟩, exactly⟩
    · intro returned
      obtain ⟨out, returned⟩ := returned
      obtain ⟨year, month, day, date, -⟩ := formatDate_eq_ok.mp returned
      have plain : '+' ∉ value := fun plus => unsigned ⟨plus, year, month, day, date⟩
      exact ⟨year, month, day, date.calendarDate plain⟩
    · intro dated
      obtain ⟨year, month, day, calendar⟩ := dated
      exact ⟨_, exactly year month day calendar⟩

/-- A plus takes the place of the first digit of a year. -/
theorem plusYear_formatted :
    formatDate "+024-01-15".toList "%d.%m.%Y".toList = .ok "15.01.+024".toList ∧
      ¬FormatsDates "+024-01-15".toList
        [.day, .literal '.' (by decide), .month, .literal '.' (by decide), .year] := by
  have returned : formatDate "+024-01-15".toList "%d.%m.%Y".toList = .ok "15.01.+024".toList := rfl
  refine ⟨returned, ?_⟩
  intro formats
  obtain ⟨_, _, _, calendar⟩ := formats.1.mp ⟨_, returned⟩
  exact calendar.no_plus (by decide)

end PrinterSdk.Label
