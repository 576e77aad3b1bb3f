import PrinterSdk.Data.BigEndian
import Mathlib.Data.Nat.Bitwise

/-!
# The bits of a row of bytes

A row of pixels is a list of bytes, eight pixels to a byte, and the first pixel of a byte
is its most significant bit.
-/

namespace PrinterSdk.Data

/-- The bit of a row at a position; there are no bits behind the end of the row. -/
def bitAt (row : Bytes) (position : Nat) : Bool :=
  (row.getD (position / 8) 0).toNat.testBit (7 - position % 8)

/-- The byte whose only bit is the one of a position. -/
def bitMask (position : Nat) : UInt8 := (0x80 : UInt8) >>> UInt8.ofNat (position % 8)

theorem bitMask_toNat (position : Nat) : (bitMask position).toNat = 2 ^ (7 - position % 8) := by
  have masks : ∀ shift : Fin 8, ((0x80 : UInt8) >>> UInt8.ofNat shift).toNat = 2 ^ (7 - shift.val) := by
    decide
  exact masks ⟨position % 8, Nat.mod_lt _ (by decide)⟩

/-- A byte meets the mask of a position when the bit of the position is set. -/
theorem and_bitMask_ne_zero (byte : UInt8) (position : Nat) :
    byte &&& bitMask position ≠ 0 ↔ byte.toNat.testBit (7 - position % 8) = true := by
  have value : (byte &&& bitMask position).toNat =
      (byte.toNat.testBit (7 - position % 8)).toNat * 2 ^ (7 - position % 8) := by
    rw [UInt8.toNat_and, bitMask_toNat, Nat.and_two_pow]
  have zero : byte &&& bitMask position = 0 ↔ (byte &&& bitMask position).toNat = 0 :=
    UInt8.toNat_inj.symm
  rw [Ne, zero, value]
  cases byte.toNat.testBit (7 - position % 8) <;> simp

/-- Joining the mask of a position sets the bit of that position and no other. -/
theorem testBit_or_bitMask (byte : UInt8) (position shift : Nat) :
    (byte ||| bitMask position).toNat.testBit shift =
      (byte.toNat.testBit shift || decide (shift = 7 - position % 8)) := by
  rw [UInt8.toNat_or, bitMask_toNat, Nat.testBit_or, Nat.testBit_two_pow]
  congr 1
  exact decide_eq_decide.mpr eq_comm

/-- Set the bit of a position. -/
def setBit (row : Bytes) (position : Nat) : Bytes :=
  row.modify (position / 8) fun byte => byte ||| bitMask position

@[simp] theorem length_setBit (row : Bytes) (position : Nat) :
    (setBit row position).length = row.length :=
  List.length_modify ..

theorem bitAt_setBit {row : Bytes} {position : Nat} (inside : position < row.length * 8)
    (other : Nat) :
    bitAt (setBit row position) other = (bitAt row other || decide (other = position)) := by
  by_cases same : position / 8 = other / 8
  · have present : other / 8 < row.length := by omega
    have stored : (setBit row position).getD (other / 8) 0 =
        row.getD (other / 8) 0 ||| bitMask position := by
      rw [setBit, List.getD_eq_getElem?_getD, List.getD_eq_getElem?_getD, same,
        List.getElem?_modify_eq, List.getElem?_eq_getElem present]
      rfl
    rw [bitAt, stored, testBit_or_bitMask, bitAt]
    congr 1
    exact decide_eq_decide.mpr ⟨fun _ => by omega, fun _ => by omega⟩
  · have different : other ≠ position := fun equal => same (by rw [equal])
    rw [bitAt, setBit, List.getD_eq_getElem?_getD, List.getElem?_modify_ne _ _ same,
      ← List.getD_eq_getElem?_getD, decide_eq_false different, Bool.or_false, bitAt]

theorem bitAt_replicate_zero (length position : Nat) :
    bitAt (List.replicate length 0) position = false := by
  have zero : (List.replicate length (0 : UInt8)).getD (position / 8) 0 = 0 := by
    rw [List.getD_eq_getElem?_getD, List.getElem?_replicate]
    split <;> rfl
  rw [bitAt, zero]
  exact Nat.zero_testBit _

/-- The bits of a row determine it. -/
theorem row_ext {left right : Bytes} (length : left.length = right.length)
    (bits : ∀ position, position < right.length * 8 → bitAt left position = bitAt right position) :
    left = right := by
  apply List.ext_getElem length
  intro index inLeft inRight
  apply UInt8.eq_iff_toBitVec_eq.mpr
  apply BitVec.eq_of_getLsbD_eq
  intro shift small
  have position : (index * 8 + (7 - shift)) / 8 = index ∧
      7 - (index * 8 + (7 - shift)) % 8 = shift := by omega
  have same := bits (index * 8 + (7 - shift)) (by omega)
  unfold bitAt at same
  rw [position.1, position.2, List.getD_eq_getElem _ _ inLeft,
    List.getD_eq_getElem _ _ inRight] at same
  exact same

end PrinterSdk.Data
