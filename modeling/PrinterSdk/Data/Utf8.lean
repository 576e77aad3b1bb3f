import PrinterSdk.Data.Text

/-!
# Lossy UTF-8 decoding

`String::from_utf8_lossy` copies the well-formed parts of a byte string and puts one
replacement character for every maximal prefix of a sequence that turns out to be
ill-formed.
-/

namespace PrinterSdk.Data

/-- What stands at the start of a nonempty byte string: a character and its width, or
an ill-formed part and its width. -/
inductive Utf8Piece where
  | character (scalar width : Nat)
  | illFormed (width : Nat)
  deriving DecidableEq, Repr

/-- A continuation octet. -/
def isContinuation (byte : UInt8) : Bool := 0x80 ≤ byte && byte ≤ 0xbf

/-- The six low bits of a continuation octet. -/
def continuationBits (byte : UInt8) : Nat := byte.toNat % 64

/-- The second octets that may follow the first octet of a three-octet sequence. -/
def secondOfThree (first second : UInt8) : Bool :=
  if first = 0xe0 then 0xa0 ≤ second && second ≤ 0xbf
  else if first = 0xed then 0x80 ≤ second && second ≤ 0x9f
  else isContinuation second

/-- The second octets that may follow the first octet of a four-octet sequence. -/
def secondOfFour (first second : UInt8) : Bool :=
  if first = 0xf0 then 0x90 ≤ second && second ≤ 0xbf
  else if first = 0xf4 then 0x80 ≤ second && second ≤ 0x8f
  else isContinuation second

/-- The piece at the start of `first :: rest`. -/
def utf8Piece (first : UInt8) (rest : Bytes) : Utf8Piece :=
  if first < 0x80 then
    .character first.toNat 1
  else if 0xc2 ≤ first ∧ first ≤ 0xdf then
    match rest with
    | second :: _ =>
        if isContinuation second then
          .character (first.toNat % 32 * 64 + continuationBits second) 2
        else .illFormed 1
    | [] => .illFormed 1
  else if 0xe0 ≤ first ∧ first ≤ 0xef then
    match rest with
    | second :: third :: _ =>
        if !secondOfThree first second then .illFormed 1
        else if !isContinuation third then .illFormed 2
        else .character ((first.toNat % 16 * 64 + continuationBits second) * 64 +
          continuationBits third) 3
    | [second] => if secondOfThree first second then .illFormed 2 else .illFormed 1
    | [] => .illFormed 1
  else if 0xf0 ≤ first ∧ first ≤ 0xf4 then
    match rest with
    | second :: third :: fourth :: _ =>
        if !secondOfFour first second then .illFormed 1
        else if !isContinuation third then .illFormed 2
        else if !isContinuation fourth then .illFormed 3
        else .character (((first.toNat % 8 * 64 + continuationBits second) * 64 +
          continuationBits third) * 64 + continuationBits fourth) 4
    | [second, third] =>
        if !secondOfFour first second then .illFormed 1
        else if isContinuation third then .illFormed 3 else .illFormed 2
    | [second] => if secondOfFour first second then .illFormed 2 else .illFormed 1
    | [] => .illFormed 1
  else
    .illFormed 1

/-- The characters of a lossy decoding; every piece takes at least one of the octets
that `fuel` counts. -/
def lossyCharacters : Nat → Bytes → List Char
  | 0, _ => []
  | _, [] => []
  | fuel + 1, first :: rest =>
      match utf8Piece first rest with
      | .character scalar width =>
          Char.ofNat scalar :: lossyCharacters fuel ((first :: rest).drop width)
      | .illFormed width =>
          Char.ofNat 0xfffd :: lossyCharacters fuel ((first :: rest).drop width)

/-- `String::from_utf8_lossy(bytes).into_owned()`. -/
def fromUtf8Lossy (bytes : Bytes) : String :=
  String.ofList (lossyCharacters bytes.length bytes)

end PrinterSdk.Data
