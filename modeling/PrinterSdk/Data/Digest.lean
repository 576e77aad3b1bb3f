import PrinterSdk.Data.BigEndian

/-!
# Digests

SHA-256 is code outside this repository.  A development that hashes takes the
hash function as a parameter; only the width of its result is fixed here.
-/

namespace PrinterSdk.Data

/-- A thirty-two byte digest. -/
abbrev Digest := { bytes : Bytes // bytes.length = 32 }

/-- A hash function with the signature of SHA-256. -/
abbrev Sha256 := Bytes → Digest

/-- `(length as u64).to_be_bytes()`. -/
def lengthBytes (bytes : Bytes) : Bytes := beBytes 8 bytes.length

/-- One lower-case hexadecimal digit. -/
def hexDigit (value : Nat) : Char :=
  if value < 10 then Char.ofNat (0x30 + value) else Char.ofNat (0x61 + value - 10)

/-- `format!("{byte:02x}")`. -/
def hexByte (byte : UInt8) : String :=
  String.ofList [hexDigit (byte.toNat / 16), hexDigit (byte.toNat % 16)]

/-- The lower-case hexadecimal form of a byte string. -/
def hexBytes (bytes : Bytes) : String :=
  String.join (bytes.map hexByte)

end PrinterSdk.Data
