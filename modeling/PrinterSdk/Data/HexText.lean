import PrinterSdk.Data.Digest

/-!
# Hexadecimal text

Every byte is written as two digits, so the beginning of the text tells the beginning of the
bytes.
-/

namespace PrinterSdk.Data

/-- The digits of a byte. -/
def hexPair (byte : UInt8) : List Char :=
  [hexDigit (byte.toNat / 16), hexDigit (byte.toNat % 16)]

theorem hexBytes_toList (bytes : Bytes) : (hexBytes bytes).toList = bytes.flatMap hexPair := by
  rw [hexBytes, String.toList_join, List.flatMap_map]
  congr 1
  funext byte
  exact String.toList_ofList

theorem hexDigit_inj {first second : Nat} (isFirst : first < 16) (isSecond : second < 16)
    (same : hexDigit first = hexDigit second) : first = second := by
  have all : ∀ one two : Fin 16, hexDigit one = hexDigit two → one = two := by decide
  exact congrArg Fin.val (all ⟨first, isFirst⟩ ⟨second, isSecond⟩ same)

theorem hexPair_inj {first second : UInt8} (same : hexPair first = hexPair second) :
    first = second := by
  obtain ⟨high, rest⟩ := List.cons.inj same
  have bound := first.toNat_lt
  have also := second.toNat_lt
  have highs := hexDigit_inj (by omega) (by omega) high
  have lows := hexDigit_inj (by omega) (by omega) (List.cons.inj rest).1
  apply UInt8.toNat_inj.mp
  omega

/-- Digits determine the bytes. -/
theorem flatMap_hexPair_inj {bytes others : Bytes}
    (same : bytes.flatMap hexPair = others.flatMap hexPair) : bytes = others := by
  induction bytes generalizing others with
  | nil =>
      cases others with
      | nil => rfl
      | cons other rest => cases same
  | cons byte bytes ih =>
      cases others with
      | nil => cases same
      | cons other rest =>
          rw [List.flatMap_cons, List.flatMap_cons] at same
          obtain ⟨here, later⟩ := List.append_inj same rfl
          rw [hexPair_inj here, ih later]

/-- The digits of the first bytes are the first digits. -/
theorem take_flatMap_hexPair (count : Nat) (bytes : Bytes) :
    (bytes.flatMap hexPair).take (2 * count) = (bytes.take count).flatMap hexPair := by
  induction count generalizing bytes with
  | zero => rfl
  | succ count ih =>
      cases bytes with
      | nil => rfl
      | cons byte bytes =>
          have two : 2 * (count + 1) = (hexPair byte).length + 2 * count := by
            rw [hexPair, List.length_cons, List.length_singleton]
            omega
          rw [List.flatMap_cons, two, List.take_length_add_append, ih, List.take_succ_cons,
            List.flatMap_cons]

/-- Texts that begin alike are those of bytes that begin alike. -/
theorem take_of_hexBytes {bytes others : Bytes} {count : Nat}
    (same : (hexBytes bytes).toList.take (2 * count) = (hexBytes others).toList.take (2 * count)) :
    bytes.take count = others.take count := by
  rw [hexBytes_toList, hexBytes_toList, take_flatMap_hexPair, take_flatMap_hexPair] at same
  exact flatMap_hexPair_inj same

end PrinterSdk.Data
