import PrinterSdk.Data.Characters
import PrinterSdk.Data.Digest
import PrinterSdk.Data.Utf8Lines
import PrinterSdk.Discovery.Snapshot

/-!
# Brother wireless fields

The OBJBRNET inquiries of `protocol::brother::wifi` and the values that are read from a
reply.  A reply is text in lines, one of which gives the value of an OID.
-/

namespace PrinterSdk.Brother

open PrinterSdk.Data PrinterSdk.Discovery

/-- `PJL_HEADER`. -/
def pjlHeader : Bytes := asBytes "\x1b%-12345X@PJL\r\n"

/-- `PJL_FOOTER`. -/
def pjlFooter : Bytes := asBytes "\x1b%-12345X"

/-- `WirelessField`. -/
inductive WirelessField where
  | connected
  | ipv4
  | ssid
  | encryption
  | authentication
  | infrastructure
  | wirelessDirect
  deriving DecidableEq, Repr

namespace WirelessField

/-- `WirelessField::ALL`. -/
def all : List WirelessField :=
  [connected, ipv4, ssid, encryption, authentication, infrastructure, wirelessDirect]

/-- `WirelessField::oid`. -/
def oid : WirelessField → String
  | connected => "458867"
  | ipv4 => "458967.2"
  | ssid => "458877"
  | encryption => "458880"
  | authentication => "458881"
  | infrastructure => "459138.2"
  | wirelessDirect => "459138.3"

/-- `WirelessField::command`, the bytes of `inquire_command` for an OID of the list. -/
def command (field : WirelessField) : Bytes :=
  pjlHeader ++ asBytes "@PJL DEFAULT OBJBRNET=\"" ++ asBytes field.oid ++
    asBytes "\"\r\n@PJL INQUIRE OBJBRNET\r\n" ++ pjlFooter

end WirelessField

/-! ## Text -/

/-- `char::is_ascii_digit`. -/
def isAsciiDigit (character : Char) : Bool :=
  0x30 ≤ character.toNat && character.toNat ≤ 0x39

/-- `trim_matches` of one character. -/
def trimMatches (unwanted : Char) (text : Characters) : Characters :=
  (text.dropWhile (· == unwanted)).rdropWhile (· == unwanted)

/-- `char::to_digit`, for the radixes 10 and 16. -/
def digitValue (radix : Nat) (character : Char) : Option Nat :=
  let scalar := character.toNat
  if 0x30 ≤ scalar ∧ scalar ≤ 0x39 then some (scalar - 0x30)
  else if radix = 16 ∧ 0x61 ≤ scalar ∧ scalar ≤ 0x66 then some (scalar - 0x61 + 10)
  else if radix = 16 ∧ 0x41 ≤ scalar ∧ scalar ≤ 0x46 then some (scalar - 0x41 + 10)
  else none

/-- The number that one or more digits denote. -/
def digitsValue (radix : Nat) (digits : Characters) : Option Nat :=
  if digits.isEmpty then none
  else digits.foldlM (fun value digit => (digitValue radix digit).map (value * radix + ·)) 0

/-- `u8::from_str_radix`, which `str::parse` calls with radix 10. -/
def parseU8 (radix : Nat) (text : Characters) : Option UInt8 := do
  let value ← digitsValue radix (match text with
    | '+' :: digits => digits
    | digits => digits)
  if value < 256 then some (UInt8.ofNat value) else none

/-- `str::parse::<i64>`. -/
def parseI64 (text : Characters) : Option Int64 :=
  match text with
  | '-' :: digits => do
      let value ← digitsValue 10 digits
      if value ≤ 2 ^ 63 then some (Int64.ofInt (-(Int.ofNat value))) else none
  | '+' :: digits => do
      let value ← digitsValue 10 digits
      if value < 2 ^ 63 then some (Int64.ofNat value) else none
  | digits => do
      let value ← digitsValue 10 digits
      if value < 2 ^ 63 then some (Int64.ofNat value) else none

/-! ## Replies -/

/-- `valid_oid`. -/
def validOid (oid : Characters) : Bool :=
  match oid.splitOn '.' with
  | [first] => !first.isEmpty && first.all isAsciiDigit
  | [first, second] =>
      !first.isEmpty && first.all isAsciiDigit && (!second.isEmpty && second.all isAsciiDigit)
  | _ => false

/-- A part of an encoded SSID: one or two hexadecimal digits.  A part with more bytes
than characters has a character that is no digit. -/
def isHexPart (part : Characters) : Bool :=
  !part.isEmpty && decide (part.length ≤ 2) && part.all fun character =>
    (digitValue 16 character).isSome

/-- `decode_ssid`. -/
def decodeSsid (value : Characters) : Characters :=
  let parts := (trimMatches '-' value).splitOn '-'
  if parts.length < 2 ∨ parts.any (fun part => !isHexPart part) = true then value
  else
    match parts.mapM (parseU8 16) with
    | none => value
    | some bytes => ((fromUtf8 bytes).map String.toList).getD value

/-- The characters that end a line of a reply. -/
def endsLine (character : Char) : Bool :=
  character == '\r' || character == '\n' || character == '\x0c'

/-- The value that one line gives for an OID. -/
def lineValue (oid : Characters) (line : Characters) : Option Characters := do
  let (name, value) ← splitOnce ':' ((trim line).dropWhile (· == '"'))
  if trim name ≠ oid then
    none
  else
    let value := trimMatches '"' (trim value)
    some (if oid = WirelessField.ssid.oid.toList then decodeSsid value else value)

/-- `parse_oid_value`. -/
def parseOidValue (data : Bytes) (oid : Characters) : Option Characters :=
  if !validOid oid then none
  else ((lossy data).splitOnP endsLine).findSome? (lineValue oid)

/-- `parse_ip_address`. -/
def parseIpAddress (data : Bytes) : Option Characters := do
  let value ← parseOidValue data WirelessField.ipv4.oid.toList
  let octets ← ((trimMatches '-' value).splitOn '-').mapM (parseU8 16)
  if octets.length = 4 then
    some (['.'].intercalate (octets.map fun octet => (toString octet.toNat).toList))
  else none

/-- The names of `WirelessEncryption` by their codes. -/
def encryptionName (code : UInt8) : Option String :=
  match code with
  | 1 => some "none"
  | 2 => some "wep"
  | 3 => some "tkip"
  | 4 => some "aes"
  | 5 => some "ckip"
  | 6 => some "cmic"
  | 7 => some "ckip-cmic"
  | 8 => some "tkip-aes"
  | _ => none

/-- The names of `WirelessAuthentication` by their codes. -/
def authenticationName (code : UInt8) : Option String :=
  match code with
  | 1 => some "open"
  | 2 => some "shared-key"
  | 3 => some "wpa-psk"
  | 7 => some "leap"
  | 13 => some "eap-fast"
  | 15 => some "peap"
  | 16 => some "eap-ttls"
  | 17 => some "eap-tls"
  | 18 => some "wpa-only"
  | 19 => some "wpa2-only"
  | _ => none

/-- The code that `parse_encryption` and `parse_authentication` read. -/
def parseCode (data : Bytes) (field : WirelessField) : Option UInt8 := do
  let value ← parseOidValue data field.oid.toList
  parseU8 10 (trim value)

/-- `parse_boolean_field`, for a field that holds a boolean. -/
def parseBooleanField (data : Bytes) (field : WirelessField) : Option Bool := do
  let value ← parseOidValue data field.oid.toList
  if trim value = ['0'] then some false
  else if trim value = ['1'] then some true
  else none

/-- `decode_field` of the native inspection. -/
def decodeField (field : WirelessField) (response : Bytes) : Option SettingValue :=
  match field with
  | .connected => do
      let value ← parseOidValue response field.oid.toList
      (parseI64 (trim value)).map .integer
  | .ipv4 => (parseIpAddress response).map fun address => .text (String.ofList address)
  | .ssid => (parseOidValue response field.oid.toList).map fun name =>
      .text (String.ofList name)
  | .encryption => ((parseCode response field).bind encryptionName).map .keyword
  | .authentication => ((parseCode response field).bind authenticationName).map .keyword
  | .infrastructure | .wirelessDirect => (parseBooleanField response field).map .boolean

end PrinterSdk.Brother
