import PrinterSdk.Data.Characters
import PrinterSdk.Data.Text

/-!
# Decimal numbers in text

Readers for numbers that other parties print: digits, and signed numbers with at most
one place behind the point.  What Lean prints in base ten is read back.
-/

namespace PrinterSdk.Data

/-- Go past an expected text. -/
def readText (expected text : Characters) : Option Characters :=
  if expected.isPrefixOf text then some (text.drop expected.length) else none

/-- The digits at the front of a text, as a number. -/
def readDigits (text : Characters) : Option (Nat × Characters) :=
  let digits := text.takeWhile Char.isDigit
  if digits = [] then none
  else some (Nat.ofDigitChars 10 digits 0, text.dropWhile Char.isDigit)

/-- A number with at most one place behind the point, in tenths. -/
def readUnsignedTenths (text : Characters) : Option (Nat × Characters) := do
  let (whole, rest) ← readDigits text
  match rest with
  | '.' :: digit :: rest =>
      if digit.isDigit then some (10 * whole + (digit.toNat - '0'.toNat), rest) else none
  | rest => some (10 * whole, rest)

/-- The same with an optional minus in front. -/
def readTenths : Characters → Option (Int × Characters)
  | '-' :: text => (readUnsignedTenths text).map fun (tenths, rest) => (-(tenths : Int), rest)
  | text => (readUnsignedTenths text).map fun (tenths, rest) => ((tenths : Int), rest)

/-- A text in which no number goes on. -/
def EndsNumber (text : Characters) : Prop :=
  ∀ character, text.head? = some character → character.isDigit = false ∧ character ≠ '.'

theorem readText_append (expected rest : Characters) :
    readText expected (expected ++ rest) = some rest := by
  rw [readText, if_pos (List.isPrefixOf_iff_prefix.mpr (List.prefix_append _ _)),
    List.drop_left]

theorem readText_of_head_ne {first other : Char} (differ : first ≠ other)
    (expected text : Characters) : readText (first :: expected) (other :: text) = none := by
  apply if_neg
  intro same
  exact differ (List.cons_prefix_cons.mp (List.isPrefixOf_iff_prefix.mp same)).1

theorem readDigits_toDigits (value : Nat) {rest : Characters}
    (boundary : ∀ character, rest.head? = some character → character.isDigit = false) :
    readDigits (Nat.toDigits 10 value ++ rest) = some (value, rest) := by
  have digits : ∀ character ∈ Nat.toDigits 10 value, character.isDigit = true := by
    intro character member
    exact Nat.isDigit_of_mem_toDigits (by decide) (by decide) member
  have stops : rest.takeWhile Char.isDigit = [] ∧ rest.dropWhile Char.isDigit = rest := by
    cases rest with
    | nil => exact ⟨rfl, rfl⟩
    | cons character rest => simp [boundary character rfl]
  rw [readDigits, List.takeWhile_append_of_pos digits, List.dropWhile_append_of_pos digits,
    stops.1, stops.2, List.append_nil, if_neg Nat.toDigits_ne_nil, Nat.ofDigitChars_ten_toDigits]

/-- The tenths that are printed behind a point only when they are not zero. -/
def printTenths (tenths : Nat) : Characters :=
  if tenths % 10 = 0 then Nat.toDigits 10 (tenths / 10)
  else Nat.toDigits 10 (tenths / 10) ++ '.' :: Nat.toDigits 10 (tenths % 10)

theorem readUnsignedTenths_print (tenths : Nat) {rest : Characters} (ends : EndsNumber rest) :
    readUnsignedTenths (printTenths tenths ++ rest) = some (tenths, rest) := by
  rw [printTenths, readUnsignedTenths]
  by_cases whole : tenths % 10 = 0
  · rw [if_pos whole, readDigits_toDigits _ fun character head => (ends character head).1]
    have exact : 10 * (tenths / 10) = tenths := by omega
    cases rest with
    | nil => exact congrArg (fun value => some (value, [])) exact
    | cons character rest =>
        have notPoint := (ends character rfl).2
        simp [notPoint, exact]
  · have small : tenths % 10 < 10 := Nat.mod_lt _ (by decide)
    have exact : 10 * (tenths / 10) + tenths % 10 = tenths := by omega
    rw [if_neg whole, List.append_assoc, List.cons_append,
      readDigits_toDigits _ fun character head => by cases head; rfl,
      Nat.toDigits_of_lt_base small]
    simp [Nat.isDigit_digitChar, small, Nat.toNat_digitChar_sub_48_of_lt_ten small, exact]

/-- No printed number starts with a minus. -/
theorem printTenths_head (tenths : Nat) :
    ∃ first rest, printTenths tenths = first :: rest ∧ first ≠ '-' := by
  obtain ⟨first, rest, shape⟩ :=
    List.exists_cons_of_ne_nil (@Nat.toDigits_ne_nil (tenths / 10) 10)
  have digit : first.isDigit = true := by
    have member : first ∈ Nat.toDigits 10 (tenths / 10) := shape ▸ List.mem_cons_self
    exact Nat.isDigit_of_mem_toDigits (by decide) (by decide) member
  have notMinus : first ≠ '-' := by
    intro minus
    rw [minus] at digit
    exact absurd digit (by decide)
  rw [printTenths, shape]
  split
  · exact ⟨first, rest, rfl, notMinus⟩
  · exact ⟨first, _, rfl, notMinus⟩

theorem readTenths_print (tenths : Nat) {rest : Characters} (ends : EndsNumber rest) :
    readTenths (printTenths tenths ++ rest) = some ((tenths : Int), rest) := by
  have back := readUnsignedTenths_print tenths ends
  obtain ⟨first, later, shape, notMinus⟩ := printTenths_head tenths
  rw [shape] at back ⊢
  simp only [List.cons_append] at back ⊢
  rw [readTenths, back]
  · rfl
  · intro text minus
    exact notMinus (List.cons.inj minus).1

theorem readTenths_printMinus (tenths : Nat) {rest : Characters} (ends : EndsNumber rest) :
    readTenths ('-' :: printTenths tenths ++ rest) = some (-(tenths : Int), rest) := by
  change (readUnsignedTenths (printTenths tenths ++ rest)).map _ = _
  rw [readUnsignedTenths_print tenths ends]
  rfl

/-! ## Numbers as octets -/

/-- The octets of a number in base ten. -/
def decimalText (number : Nat) : Bytes := (Nat.toDigits 10 number).map Char.toUInt8

/-- The same behind as many zeros as a width asks for. -/
def paddedText (width number : Nat) : Bytes :=
  List.replicate (width - (decimalText number).length) 0x30 ++ decimalText number

/-- The number that octets of digits denote. -/
def valueOf (digits : Bytes) : Nat :=
  digits.foldl (fun value digit => 10 * value + (digit.toNat - 0x30)) 0

/-- An octet of a digit. -/
def isDigitOctet (octet : UInt8) : Bool := 0x30 ≤ octet && octet ≤ 0x39

/-- The digits at the front of octets, as a number. -/
def readNumber (octets : Bytes) : Option (Nat × Bytes) :=
  let digits := octets.takeWhile isDigitOctet
  if digits = [] then none else some (valueOf digits, octets.dropWhile isDigitOctet)

theorem toNat_toUInt8_of_isDigit {character : Char} (digit : character.isDigit = true) :
    character.toUInt8.toNat = character.toNat := by
  have bounds := Char.isDigit_iff_toNat.mp digit
  change character.val.toNat % 256 = character.toNat
  exact Nat.mod_eq_of_lt (Nat.lt_of_le_of_lt bounds.2 (by decide))

theorem isDigitOctet_of_isDigit {character : Char} (digit : character.isDigit = true) :
    isDigitOctet character.toUInt8 = true := by
  have bounds := Char.isDigit_iff_toNat.mp digit
  have same := toNat_toUInt8_of_isDigit digit
  rw [isDigitOctet, Bool.and_eq_true, decide_eq_true_eq, decide_eq_true_eq,
    UInt8.le_iff_toNat_le, UInt8.le_iff_toNat_le, same]
  exact bounds

theorem valueOf_map {digits : Characters} (all : ∀ digit ∈ digits, digit.isDigit = true) :
    valueOf (digits.map Char.toUInt8) = Nat.ofDigitChars 10 digits 0 := by
  rw [valueOf, Nat.ofDigitChars, List.foldl_map]
  apply List.foldl_ext
  intro value digit member
  rw [toNat_toUInt8_of_isDigit (all digit member)]
  rfl

theorem toDigits_isDigit (number : Nat) :
    ∀ digit ∈ Nat.toDigits 10 number, digit.isDigit = true :=
  fun _ member => Nat.isDigit_of_mem_toDigits (by decide) (by decide) member

theorem valueOf_decimalText (number : Nat) : valueOf (decimalText number) = number := by
  rw [decimalText, valueOf_map (toDigits_isDigit number), Nat.ofDigitChars_ten_toDigits]

theorem valueOf_paddedText (width number : Nat) : valueOf (paddedText width number) = number := by
  have zeros (count : Nat) :
      (List.replicate count (0x30 : UInt8)).foldl
        (fun value digit => 10 * value + (digit.toNat - 0x30)) 0 = 0 := by
    induction count with
    | zero => rfl
    | succ count ih => exact ih
  have same := valueOf_decimalText number
  rw [valueOf] at same
  rw [paddedText, valueOf, List.foldl_append, zeros, same]

/-- A number that the width has room for is printed in that width. -/
theorem length_paddedText {width number : Nat} (positive : 0 < width)
    (small : number < 10 ^ width) : (paddedText width number).length = width := by
  have short : (decimalText number).length ≤ width := by
    rw [decimalText, List.length_map]
    exact (Nat.length_toDigits_le_iff (by decide) positive).mpr small
  rw [paddedText, List.length_append, List.length_replicate, Nat.sub_add_cancel short]

theorem readNumber_decimalText (number : Nat) {rest : Bytes}
    (boundary : ∀ octet, rest.head? = some octet → isDigitOctet octet = false) :
    readNumber (decimalText number ++ rest) = some (number, rest) := by
  have digits : ∀ octet ∈ decimalText number, isDigitOctet octet = true := by
    intro octet member
    obtain ⟨character, inside, same⟩ := List.mem_map.mp member
    rw [← same]
    exact isDigitOctet_of_isDigit (toDigits_isDigit number character inside)
  have stops : rest.takeWhile isDigitOctet = [] ∧ rest.dropWhile isDigitOctet = rest := by
    cases rest with
    | nil => exact ⟨rfl, rfl⟩
    | cons octet rest => simp [boundary octet rfl]
  have filled : decimalText number ≠ [] := List.map_eq_nil_iff.not.mpr Nat.toDigits_ne_nil
  rw [readNumber, List.takeWhile_append_of_pos digits, List.dropWhile_append_of_pos digits,
    stops.1, stops.2, List.append_nil, if_neg filled, valueOf_decimalText]

end PrinterSdk.Data
