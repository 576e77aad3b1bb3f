import Mathlib.Algebra.GroupWithZero.Nat
import Mathlib.Data.List.Infix

/-!
# Byte strings and UTF-8 text

Rust's `String` and `str` are UTF-8 byte sequences with a validity invariant,
which is also how Lean represents `String`.  Slices of text that the sources only
compare or concatenate are kept as their bytes.
-/

namespace PrinterSdk.Data

/-- A byte vector or byte slice. -/
abbrev Bytes := List UInt8

/-- The UTF-8 bytes of a string. -/
def asBytes (text : String) : Bytes :=
  text.toByteArray.data.toList

/-- `std::str::from_utf8(bytes).ok()`. -/
def fromUtf8 (bytes : Bytes) : Option String :=
  String.fromUTF8? ⟨bytes.toArray⟩

theorem fromUtf8_asBytes (text : String) : fromUtf8 (asBytes text) = some text := by
  simp [fromUtf8, asBytes, String.fromUTF8?, String.fromUTF8, text.isValidUTF8]

/-- `u8::to_ascii_lowercase`. -/
def asciiLowercase (byte : UInt8) : UInt8 :=
  if 0x41 ≤ byte ∧ byte ≤ 0x5a then byte + 0x20 else byte

/-- Whether `needle` occurs as a contiguous window of `haystack`. -/
def contains (haystack needle : Bytes) : Bool :=
  decide (needle <:+: haystack)

/-- `str::starts_with` on the bytes of both strings. -/
def startsWith (text start : Bytes) : Bool :=
  start.isPrefixOf text

/-- `str::ends_with` on the bytes of both strings. -/
def endsWith (text suffix : Bytes) : Bool :=
  suffix.isSuffixOf text

/-- `str::strip_suffix` on the bytes of both strings. -/
def stripSuffix (text suffix : Bytes) : Option Bytes :=
  if endsWith text suffix then some (text.take (text.length - suffix.length))
  else none

end PrinterSdk.Data
