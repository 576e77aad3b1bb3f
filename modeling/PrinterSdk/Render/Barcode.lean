import PrinterSdk.Data.BigEndian
import PrinterSdk.Data.Characters
import PrinterSdk.Data.Outcome
import PrinterSdk.Render.Dots

/-!
# Linear barcodes

The symbologies that the renderer encodes itself: Code 39 over characters, and EAN-13 with
UPC-A over digits.  Both return one boolean for every module, black when it is true.
-/

namespace PrinterSdk.Render

open PrinterSdk.Data

/-! ## Code 39 -/

/-- `char::to_ascii_uppercase`. -/
def asciiUppercase (character : Char) : Char :=
  if 0x61 ≤ character.toNat ∧ character.toNat ≤ 0x7a then Char.ofNat (character.toNat - 0x20)
  else character

/-- `CHARS`. -/
def code39Chars : Characters := "0123456789ABCDEFGHIJKLMNOPQRSTUVWXYZ-. $/+%*".toList

/-- `PAT`. -/
def code39Patterns : List UInt16 := [
  0x034, 0x121, 0x061, 0x160, 0x031, 0x130, 0x070, 0x025, 0x124, 0x064, 0x109, 0x049, 0x148,
  0x019, 0x118, 0x058, 0x00d, 0x10c, 0x04c, 0x01c, 0x103, 0x043, 0x142, 0x013, 0x112, 0x052,
  0x007, 0x106, 0x046, 0x016, 0x181, 0x0c1, 0x1c0, 0x091, 0x190, 0x0d0, 0x085, 0x184, 0x0c4,
  0x094, 0x0a8, 0x0a2, 0x08a, 0x02a]

/-- `str::len` of a text. -/
def utf8Length (text : Characters) : Nat := (text.map Char.utf8Size).sum

/-- The nine elements of a pattern. -/
def code39Elements (pattern : UInt16) : List Bool :=
  (List.range 9).flatMap fun index =>
    let wide := pattern &&& ((1 : UInt16) <<< UInt16.ofNat (8 - index)) ≠ 0
    let black := index % 2 = 0
    List.replicate (if wide then 3 else 1) (decide black)

/-- The loop of `code39`, at the character of the given index. -/
def code39Loop (fullLength : Nat) (out : List Bool) (index : Nat) :
    Characters → Except RenderError (List Bool)
  | [] => .ok out
  | character :: rest => do
      let found ← okOr (code39Chars.findIdx? (· = character))
        (.barcode ("unsupported Code 39 character " ++ String.singleton character))
      let out := out ++ code39Elements (code39Patterns.getD found 0)
      code39Loop fullLength (if index + 1 < fullLength then out ++ [false] else out) (index + 1)
        rest

/-- The text between its start and stop characters, in upper case. -/
def code39Full (data : Characters) : Characters := '*' :: data.map asciiUppercase ++ ['*']

/-- `code39`. -/
def code39 (data : Characters) : Except RenderError (List Bool) :=
  code39Loop (utf8Length (code39Full data)) [] 0 (code39Full data)

/-! ## EAN-13 and UPC-A -/

/-- `L`. -/
def eanL : List String := [
  "0001101", "0011001", "0010011", "0111101", "0100011", "0110001", "0101111", "0111011",
  "0110111", "0001011"]

/-- `G`. -/
def eanG : List String := [
  "0100111", "0110011", "0011011", "0100001", "0011101", "0111001", "0000101", "0010001",
  "0001001", "0010111"]

/-- `R`. -/
def eanR : List String := [
  "1110010", "1100110", "1101100", "1000010", "1011100", "1001110", "1010000", "1000100",
  "1001000", "1110100"]

/-- `PAR`. -/
def eanParity : List String := [
  "LLLLLL", "LLGLGG", "LLGGLG", "LLGGGL", "LGLLGG", "LGGLLG", "LGGGLL", "LGLGLG", "LGLGGL",
  "LGGLGL"]

/-- `u8::is_ascii_digit`. -/
def isAsciiDigit (byte : UInt8) : Bool := 0x30 ≤ byte && byte ≤ 0x39

/-- The sum of the digits before the check digit: from the right, every other digit counts
three times. -/
def eanCheckSum (digits : List Nat) : Nat :=
  (digits.reverse.zipIdx.map fun digit => digit.1 * if digit.2 % 2 = 0 then 3 else 1).sum

/-- The modules drawn for the digits, as a string of `0` and `1`. -/
def eanSymbol (first : Nat) (left right : List Nat) (thirteen : Bool) : Bytes :=
  asBytes "101" ++
    left.zipIdx.flatMap (fun digit =>
      if thirteen ∧ (asBytes (eanParity.getD first "")).getD digit.2 0 = 0x47 then
        asBytes (eanG.getD digit.1 "")
      else
        asBytes (eanL.getD digit.1 "")) ++
    asBytes "01010" ++ right.flatMap (fun digit => asBytes (eanR.getD digit "")) ++ asBytes "101"

/-- `ean`, at the bytes of the data.  The length is 12 or 13, the only ones that `barcode`
asks for. -/
def ean (data : Bytes) (length : Nat) : Except RenderError (List Bool) := do
  refuseIf (data.length ≠ length ∨ ¬data.all isAsciiDigit)
    (.barcode ("expected " ++ toString length ++ " digits"))
  let digits := data.map fun byte => (byte - 0x30).toNat
  let check := eanCheckSum (digits.take (length - 1))
  refuseIf ((10 - check % 10) % 10 ≠ digits.getD (length - 1) 0)
    (.barcode "check digit mismatch")
  let symbol :=
    if length = 13 then
      eanSymbol (digits.getD 0 0) ((digits.drop 1).take 6) (digits.drop 7) true
    else
      eanSymbol 0 (digits.take 6) (digits.drop 6) false
  return symbol.map (· = 0x31)

end PrinterSdk.Render
