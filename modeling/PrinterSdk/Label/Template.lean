import PrinterSdk.Brother.Wifi
import PrinterSdk.Data.Delimited
import PrinterSdk.Label.Materialize
import PrinterSdk.Render.Barcode

/-!
# Label templates

A template is literal text with expressions between double braces.  An expression names a
field, whose value goes through the transforms behind it.  Text is a list of characters, and
the case mappings of Unicode are parameters.
-/

namespace PrinterSdk.Label

open PrinterSdk.Data PrinterSdk.Brother
open PrinterSdk.Render (utf8Length)

/-- `str::to_uppercase` and `str::to_lowercase`. -/
structure Casing where
  upper : Characters → Characters
  lower : Characters → Characters

/-- `template::Context`. -/
structure TemplateContext where
  fields : Record
  locale : Characters
  currentDate : Characters

/-- The bytes that a template and its output may have. -/
def templateLimit : Nat := 1000000

/-! ## Text -/

/-- `str::parse` to an unsigned type with the given number of values. -/
def parseUnsigned (size : Nat) (text : Characters) : Option Nat := do
  let value ← digitsValue 10 (match text with
    | '+' :: digits => digits
    | digits => digits)
  if value < size then some value else none

/-- `strip_prefix`. -/
def afterKeyword (keyword : String) (text : Characters) : Option Characters :=
  if keyword.toList.isPrefixOf text then some (text.drop keyword.length) else none

/-- `splitn(2, ':')`, when it gives two parts. -/
def twoParts (text : Characters) : Option (Characters × Characters) := splitOnce ':' text

/-- `splitn(3, ':')`, when it gives three parts. -/
def threeParts (text : Characters) : Option (Characters × Characters × Characters) := do
  let (first, later) ← splitOnce ':' text
  let (second, third) ← splitOnce ':' later
  return (first, second, third)

/-- `replace` of one character by another one. -/
def replaceCharacter (old new : Char) (text : Characters) : Characters :=
  text.map fun character => if character = old then new else character

/-! ## Dates -/

/-- Whether a year has a leap day. -/
def isLeap (year : Nat) : Bool := year % 4 == 0 && (year % 100 != 0 || year % 400 == 0)

/-- The days of a month, and none for a number that is no month. -/
def daysOf (leap : Bool) : Nat → Nat
  | 1 | 3 | 5 | 7 | 8 | 10 | 12 => 31
  | 4 | 6 | 9 | 11 => 30
  | 2 => if leap then 29 else 28
  | _ => 0

/-- The loop of `format_date` over the characters of the pattern. -/
def fillPattern (pattern year month day : Characters) (out : Characters) :
    Characters → Except TemplateError Characters
  | [] => .ok out
  | '%' :: 'Y' :: rest => fillPattern pattern year month day (out ++ year) rest
  | '%' :: 'm' :: rest => fillPattern pattern year month day (out ++ month) rest
  | '%' :: 'd' :: rest => fillPattern pattern year month day (out ++ day) rest
  | '%' :: '%' :: rest => fillPattern pattern year month day (out ++ ['%']) rest
  | '%' :: _ => .error (.transform (String.ofList pattern))
  | character :: rest => fillPattern pattern year month day (out ++ [character]) rest

/-- `format_date`. -/
def formatDate (value pattern : Characters) : Except TemplateError Characters :=
  let refused : TemplateError := .value (String.ofList value)
  match value.splitOn '-' with
  | [year, month, day] => do
      refuseIf (utf8Length year ≠ 4 ∨ utf8Length month ≠ 2 ∨ utf8Length day ≠ 2) refused
      let yearNumber ← okOr (parseUnsigned (2 ^ 32) year) refused
      let monthNumber ← okOr (parseUnsigned (2 ^ 32) month) refused
      let dayNumber ← okOr (parseUnsigned (2 ^ 32) day) refused
      let days := daysOf (isLeap yearNumber) monthNumber
      refuseIf (dayNumber = 0 ∨ dayNumber > days) refused
      fillPattern pattern year month day [] pattern
  | _ => .error refused

/-! ## Decimal numbers -/

/-- The sign of a number, and what is behind it. -/
def splitSign : Characters → Bool × Characters
  | '-' :: unsigned => (true, unsigned)
  | unsigned => (false, unsigned)

/-- The text before the point and the text behind it, which may be missing. -/
def splitFraction (unsigned : Characters) : Characters × Characters :=
  (splitOnce '.' unsigned).getD (unsigned, [])

/-- The value of a digit. -/
def digitOf (character : Char) : Nat := character.toNat - 0x30

/-- The character of a digit. -/
def digitText (digit : Nat) : Char := Char.ofNat (0x30 + digit)

/-- The digits of a fraction that are kept, filled up with zeros. -/
def keptDigits (fraction : Characters) (decimals : Nat) : List Nat :=
  let digits := (fraction.take decimals).map digitOf
  digits ++ List.replicate (decimals - digits.length) 0

/-- Whether the first digit that is left out is five or more. -/
def roundsUp (fraction : Characters) (decimals : Nat) : Bool :=
  fraction[decimals]?.any fun digit => '5'.toNat ≤ digit.toNat

/-- The loop that carries into the kept digits, from the last one: the digits, and whether
the carry is left. -/
def carryDigits : List Nat → List Nat × Bool
  | [] => ([], true)
  | digit :: rest =>
      match carryDigits rest with
      | (later, false) => (digit :: later, false)
      | (later, true) => if digit < 9 then ((digit + 1) :: later, false) else (0 :: later, true)

/-- The kept digits after rounding, and whether a carry goes into the whole number. -/
def roundedDigits (fraction : Characters) (decimals : Nat) : List Nat × Bool :=
  if roundsUp fraction decimals = true then carryDigits (keptDigits fraction decimals)
  else (keptDigits fraction decimals, false)

/-- The whole number with the carry, which `checked_add` refuses at the end of `u128`. -/
def carriedWhole (refused : TemplateError) (carry : Bool) (whole : Nat) :
    Except TemplateError Nat :=
  if carry = true then okOr (if whole + 1 < 2 ^ 128 then some (whole + 1) else none) refused
  else .ok whole

/-- The number with its sign, unless it is zero, and its decimals, if there are any. -/
def printDecimal (negative : Bool) (whole : Nat) (kept : List Nat) (decimals : Nat) : Characters :=
  let sign := if negative = true ∧ (whole ≠ 0 ∨ kept.any (· ≠ 0) = true) then ['-'] else []
  if decimals = 0 then sign ++ Nat.toDigits 10 whole
  else sign ++ Nat.toDigits 10 whole ++ '.' :: kept.map digitText

/-- `format_decimal`. -/
def formatDecimal (value : Characters) (decimals : Nat) : Except TemplateError Characters := do
  let refused : TemplateError := .value (String.ofList value)
  let signed := splitSign (replaceCharacter ',' '.' (trim value))
  let parts := splitFraction signed.2
  refuseIf (parts.1.isEmpty = true ∨ ¬parts.1.all isAsciiDigit = true ∨
    ¬parts.2.all isAsciiDigit = true) refused
  let whole ← okOr (parseUnsigned (2 ^ 128) parts.1) refused
  let kept := roundedDigits parts.2 decimals
  let whole ← carriedWhole refused kept.2 whole
  return printDecimal signed.1 whole kept.1 decimals

/-- The digits that follow a keyword, at most nine. -/
def decimalsOf (f argument : Characters) : Except TemplateError Nat := do
  let decimals ← okOr (parseUnsigned (2 ^ 8) argument) (.value (String.ofList f))
  return min decimals 9

/-- Up to the decimals that were kept: no zeros at the end, and no bare point. -/
def trimFraction (out : Characters) : Characters :=
  let out :=
    if '.' ∈ out then (out.rdropWhile (· == '0')).rdropWhile (· == '.') else out
  if out = ['-', '0'] then ['0'] else out

/-! ## Transforms -/

section

variable (casing : Casing) (context : TemplateContext)

/-- The decimal separator of the locale. -/
def localized (out : Characters) : Characters :=
  if "fr".toList.isPrefixOf context.locale then replaceCharacter '.' ',' out else out

/-- The transform `number:`. -/
def transformNumber (f argument v : Characters) : Except TemplateError Characters := do
  let decimals ← decimalsOf f argument
  let out ← formatDecimal v decimals
  return localized context out

/-- The transform `decimals:`. -/
def transformDecimals (f argument v : Characters) : Except TemplateError Characters := do
  let decimals ← decimalsOf f argument
  let out ← formatDecimal v decimals
  return localized context (trimFraction out)

/-- `transform`. -/
def transform (f v : Characters) : Except TemplateError Characters :=
  let unknown : TemplateError := .transform (String.ofList f)
  if f = "upper".toList then .ok (casing.upper v)
  else if f = "lower".toList then .ok (casing.lower v)
  else if f = "trim".toList then .ok (trim v)
  else if f = "ascii".toList then .ok (v.filter fun character => character.toNat < 128)
  else if let some argument := afterKeyword "default:" f then
    .ok (if v = [] then trimMatches '"' argument else v)
  else if let some argument := afterKeyword "prefix:" f then .ok (trimMatches '"' argument ++ v)
  else if let some argument := afterKeyword "suffix:" f then .ok (v ++ trimMatches '"' argument)
  else if let some argument := afterKeyword "number:" f then transformNumber context f argument v
  else if let some argument := afterKeyword "decimals:" f then
    transformDecimals context f argument v
  else if let some argument := afterKeyword "if-empty:" f then
    match twoParts argument with
    | some (empty, filled) => .ok (if v = [] then empty else filled)
    | none => .error unknown
  else if let some argument := afterKeyword "if-eq:" f then
    match threeParts argument with
    | some (expected, same, other) => .ok (if v = expected then same else other)
    | none => .error unknown
  else if let some argument := afterKeyword "date:" f then formatDate v argument
  else .error unknown

/-! ## Evaluation -/

/-- The value of a field, which is empty when it is missing and a transform provides for
that. -/
def fieldValue (name : Characters) (transforms : List Characters) :
    Except TemplateError Characters :=
  if name = "@date".toList then .ok context.currentDate
  else
    match context.fields.get (String.ofList name) with
    | some value => .ok value.toList
    | none =>
        if (transforms.any fun part => "default:".toList.isPrefixOf part ||
            "if-empty:".toList.isPrefixOf part) = true then .ok []
        else .error (.field (String.ofList name))

/-- The value of what stands between double braces. -/
def expressionValue (body : Characters) : Except TemplateError Characters :=
  match (body.splitOn '|').map trim with
  | [] => .error .unclosed
  | name :: transforms => do
      let value ← fieldValue context name transforms
      transforms.foldlM (fun value f => transform casing context f value) value

/-- The loop of `evaluate_with_context`, from the output so far. -/
def evaluateLoop (out rest : Characters) : Except TemplateError Characters :=
  match _found : splitAtPair '{' '{' rest with
  | none => .ok (out ++ rest)
  | some (literal, after) =>
      match _closed : splitAtPair '}' '}' after with
      | none => .error .unclosed
      | some (body, later) => do
          let value ← expressionValue casing context body
          let out := out ++ literal ++ value
          refuseIf (utf8Length out > templateLimit) .limit
          evaluateLoop out later
termination_by rest.length
decreasing_by
  rw [splitAtPair_eq_some _found, splitAtPair_eq_some _closed]
  simp only [List.length_append, List.length_cons]
  omega

/-- `evaluate_with_context`. -/
def evaluateWithContext (input : Characters) : Except TemplateError Characters := do
  refuseIf (utf8Length input > templateLimit) .limit
  evaluateLoop casing context [] input

end

end PrinterSdk.Label
