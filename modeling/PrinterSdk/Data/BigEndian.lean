import Mathlib.Data.List.Induction
import PrinterSdk.Data.Text

/-!
# Big-endian byte strings

Fixed-width network-order encodings of natural numbers and of the machine
integers the wire formats carry.  A byte string of the right length and the
number it spells determine each other.
-/

namespace PrinterSdk.Data

/-- The number a big-endian byte string spells. -/
def beNat (bytes : Bytes) : Nat :=
  bytes.foldl (fun total byte => total * 256 + byte.toNat) 0

/-- The `width` least significant bytes of `value`, most significant first. -/
def beBytes : Nat → Nat → Bytes
  | 0, _ => []
  | width + 1, value => beBytes width (value / 256) ++ [UInt8.ofNat value]

@[simp] theorem length_beBytes (width value : Nat) :
    (beBytes width value).length = width := by
  induction width generalizing value with
  | zero => rfl
  | succ width ih => simp [beBytes, ih]

@[simp] theorem beNat_nil : beNat [] = 0 := rfl

@[simp] theorem beNat_snoc (bytes : Bytes) (byte : UInt8) :
    beNat (bytes ++ [byte]) = beNat bytes * 256 + byte.toNat := by
  simp [beNat]

theorem beNat_lt (bytes : Bytes) : beNat bytes < 256 ^ bytes.length := by
  induction bytes using List.reverseRecOn with
  | nil => decide
  | append_singleton bytes byte ih =>
      have small := byte.toNat_lt
      rw [beNat_snoc, List.length_append, List.length_singleton, Nat.pow_succ]
      omega

theorem beNat_beBytes {width value : Nat} (fits : value < 256 ^ width) :
    beNat (beBytes width value) = value := by
  induction width generalizing value with
  | zero =>
      have zero : value = 0 := by simpa using fits
      rw [zero]
      rfl
  | succ width ih =>
      have quotient : value / 256 < 256 ^ width :=
        Nat.div_lt_of_lt_mul (by rwa [Nat.pow_succ, Nat.mul_comm] at fits)
      rw [beBytes, beNat_snoc, ih quotient, UInt8.toNat_ofNat']
      exact Nat.div_add_mod' value 256

theorem beBytes_beNat (bytes : Bytes) :
    beBytes bytes.length (beNat bytes) = bytes := by
  induction bytes using List.reverseRecOn with
  | nil => rfl
  | append_singleton bytes byte ih =>
      have small := byte.toNat_lt
      have quotient : (beNat bytes * 256 + byte.toNat) / 256 = beNat bytes := by
        omega
      have remainder : UInt8.ofNat (beNat bytes * 256 + byte.toNat) = byte := by
        apply UInt8.toNat_inj.mp
        rw [UInt8.toNat_ofNat']
        omega
      rw [List.length_append, List.length_singleton, beNat_snoc, beBytes,
        quotient, remainder, ih]

/-! ## Machine integers -/

/-- `u16::to_be_bytes`. -/
def u16Bytes (value : UInt16) : Bytes := beBytes 2 value.toNat

/-- `u16::from_be_bytes`. -/
def u16OfBytes (bytes : Bytes) : UInt16 := UInt16.ofNat (beNat bytes)

/-- `u32::to_be_bytes`. -/
def u32Bytes (value : UInt32) : Bytes := beBytes 4 value.toNat

/-- `u32::from_be_bytes`. -/
def u32OfBytes (bytes : Bytes) : UInt32 := UInt32.ofNat (beNat bytes)

/-- `i32::to_be_bytes`. -/
def i32Bytes (value : Int32) : Bytes := u32Bytes value.toUInt32

/-- `i32::from_be_bytes`. -/
def i32OfBytes (bytes : Bytes) : Int32 := (u32OfBytes bytes).toInt32

@[simp] theorem length_u16Bytes (value : UInt16) :
    (u16Bytes value).length = 2 := length_beBytes _ _

@[simp] theorem length_u32Bytes (value : UInt32) :
    (u32Bytes value).length = 4 := length_beBytes _ _

@[simp] theorem length_i32Bytes (value : Int32) :
    (i32Bytes value).length = 4 := length_beBytes _ _

@[simp] theorem u16OfBytes_u16Bytes (value : UInt16) :
    u16OfBytes (u16Bytes value) = value := by
  rw [u16OfBytes, u16Bytes, beNat_beBytes value.toNat_lt]
  exact UInt16.ofNat_toNat

@[simp] theorem u32OfBytes_u32Bytes (value : UInt32) :
    u32OfBytes (u32Bytes value) = value := by
  rw [u32OfBytes, u32Bytes, beNat_beBytes value.toNat_lt]
  exact UInt32.ofNat_toNat

@[simp] theorem i32OfBytes_i32Bytes (value : Int32) :
    i32OfBytes (i32Bytes value) = value := by
  rw [i32OfBytes, i32Bytes, u32OfBytes_u32Bytes]
  exact Int32.toInt32_toUInt32 value

theorem toNat_u16OfBytes {bytes : Bytes} (width : bytes.length = 2) :
    (u16OfBytes bytes).toNat = beNat bytes := by
  have small : beNat bytes < 256 ^ 2 := width ▸ beNat_lt bytes
  exact UInt16.toNat_ofNat_of_lt' small

theorem u16Bytes_u16OfBytes {bytes : Bytes} (width : bytes.length = 2) :
    u16Bytes (u16OfBytes bytes) = bytes := by
  rw [u16Bytes, toNat_u16OfBytes width, ← width, beBytes_beNat]

theorem u32Bytes_u32OfBytes {bytes : Bytes} (width : bytes.length = 4) :
    u32Bytes (u32OfBytes bytes) = bytes := by
  have small : beNat bytes < 256 ^ 4 := width ▸ beNat_lt bytes
  rw [u32Bytes, u32OfBytes, UInt32.toNat_ofNat_of_lt' small, ← width, beBytes_beNat]

theorem i32Bytes_i32OfBytes {bytes : Bytes} (width : bytes.length = 4) :
    i32Bytes (i32OfBytes bytes) = bytes := by
  rw [i32Bytes, i32OfBytes, UInt32.toUInt32_toInt32, u32Bytes_u32OfBytes width]

end PrinterSdk.Data
