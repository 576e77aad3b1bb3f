import PrinterSdk.Snmp.Request
import PrinterSdk.Snmp.Sanitize

/-!
# Requests and the response decoder

The encoder of requests and the decoder of responses agree on every part of a message:
object identifiers, integers, length octets and their nesting.  A request whose PDU tag is
replaced by that of a response is a response that the decoder accepts.
-/

namespace PrinterSdk.Snmp

open PrinterSdk.Data

/-! ## Object identifiers -/

/-- The groups of seven bits of a number, the most significant first. -/
def groups : Nat → Nat → List Nat
  | 0, _ => []
  | places + 1, value => (if value / 128 = 0 then [] else groups places (value / 128)) ++ [value % 128]

/-- A group that another one follows. -/
def markedGroup (group : Nat) : UInt8 := UInt8.ofNat group ||| 0x80

theorem length_groups_le (places value : Nat) : (groups places value).length ≤ places := by
  induction places generalizing value with
  | zero => exact Nat.le_refl 0
  | succ places ih =>
      rw [groups, List.length_append, List.length_singleton]
      split
      · exact Nat.succ_le_succ (Nat.zero_le places)
      · exact Nat.succ_le_succ (ih _)

theorem shiftRight_seven (value : UInt32) : (value >>> 7).toNat = value.toNat / 128 := by
  rw [UInt32.toNat_shiftRight]
  exact Nat.shiftRight_eq_div_pow value.toNat 7

theorem lowGroup (value : UInt32) :
    (value &&& 0x7f).toUInt8 = UInt8.ofNat (value.toNat % 128) := by
  apply UInt8.toNat_inj.mp
  have low : (value &&& 0x7f).toNat = value.toNat % 128 := by
    rw [UInt32.toNat_and]
    exact Nat.and_two_pow_sub_one_eq_mod value.toNat 7
  rw [UInt32.toNat_toUInt8, low, UInt8.toNat_ofNat']

/-- The loop puts the groups in front of what it has. -/
theorem base128Loop_eq (places : Nat) (value : UInt32) (encoded : Bytes) :
    base128Loop places value encoded =
      (groups places value.toNat).map UInt8.ofNat ++ encoded := by
  induction places generalizing value encoded with
  | zero => rfl
  | succ places ih =>
      have done : value >>> 7 = 0 ↔ value.toNat / 128 = 0 := by
        rw [← shiftRight_seven]
        exact UInt32.toNat_inj.symm
      rw [base128Loop, groups, lowGroup]
      by_cases finished : value.toNat / 128 = 0
      · rw [if_pos finished, if_pos (done.mpr finished)]
        rfl
      · rw [if_neg finished, if_neg (fun zero => finished (done.mp zero)), ih, shiftRight_seven,
          List.map_append, List.append_assoc]
        rfl

/-- The groups before the last one are marked. -/
theorem encodeBase128_eq (value : UInt32) :
    encodeBase128 value =
      ((if value.toNat / 128 = 0 then [] else groups 4 (value.toNat / 128)).map markedGroup) ++
        [UInt8.ofNat (value.toNat % 128)] := by
  have loop := base128Loop_eq 5 value []
  rw [groups, List.append_nil, List.map_append, List.map_singleton] at loop
  rw [encodeBase128, loop]
  generalize (if value.toNat / 128 = 0 then [] else groups 4 (value.toNat / 128)) = earlier
  change ((earlier.map UInt8.ofNat ++ [UInt8.ofNat (value.toNat % 128)]).dropLast.map _) ++
    (earlier.map UInt8.ofNat ++ [UInt8.ofNat (value.toNat % 128)]).drop _ = _
  rw [List.dropLast_concat, List.length_append, List.length_singleton, Nat.add_sub_cancel,
    List.drop_left, List.map_map]
  rfl

section

variable {arcs : List UInt32} {rest : Bytes} {value count group : Nat}

/-- The decoder appends a group to its value. -/
theorem appended_group (fits : value < 2 ^ 25) (small : group < 128) (byte : UInt8)
    (payload : (byte &&& 0x7f).toNat = group) :
    UInt32.ofNat value <<< 7 ||| (byte &&& 0x7f).toUInt32 = UInt32.ofNat (value * 128 + group) := by
  apply UInt32.toNat_inj.mp
  have shifted : (UInt32.ofNat value <<< 7).toNat = value <<< 7 := by
    rw [UInt32.toNat_shiftLeft, UInt32.toNat_ofNat_of_lt' (by change value < 2 ^ 32; omega)]
    have product : value <<< 7 < 2 ^ 32 := by
      rw [Nat.shiftLeft_eq]
      omega
    exact Nat.mod_eq_of_lt product
  rw [UInt32.toNat_or, shifted, UInt8.toNat_toUInt32, payload,
    UInt32.toNat_ofNat_of_lt' (by change value * 128 + group < 2 ^ 32; omega),
    ← Nat.shiftLeft_add_eq_or_of_lt small, Nat.shiftLeft_eq]

theorem not_refused (fits : value < 2 ^ 25) (few : count < 5) :
    ¬(5 < count + 1 ∨ (0xffffffff : UInt32) >>> 7 < UInt32.ofNat value) := by
  intro refused
  cases refused with
  | inl many => omega
  | inr large =>
      have bound := UInt32.lt_iff_toNat_lt.mp large
      rw [UInt32.toNat_ofNat_of_lt' (by change value < 2 ^ 32; omega)] at bound
      change 2 ^ 25 - 1 < value at bound
      omega

theorem decodeArcs_marked (fits : value < 2 ^ 25) (few : count < 5) (small : group < 128) :
    decodeArcs arcs (UInt32.ofNat value) count (markedGroup group :: rest) =
      decodeArcs arcs (UInt32.ofNat (value * 128 + group)) (count + 1) rest := by
  have marked : ∀ low : Fin 128, markedGroup low &&& 0x80 ≠ 0 ∧
      (markedGroup low &&& 0x7f).toNat = low := by decide
  obtain ⟨mark, payload⟩ := marked ⟨group, small⟩
  rw [decodeArcs, if_neg (not_refused fits few)]
  dsimp only
  rw [if_neg mark, appended_group fits small _ payload]

theorem decodeArcs_last (fits : value < 2 ^ 25) (few : count < 5) (small : group < 128) :
    decodeArcs arcs (UInt32.ofNat value) count (UInt8.ofNat group :: rest) =
      decodeArcs (arcs ++ [UInt32.ofNat (value * 128 + group)]) 0 0 rest := by
  have plain : ∀ low : Fin 128, UInt8.ofNat low &&& 0x80 = 0 ∧
      (UInt8.ofNat low &&& 0x7f).toNat = low := by decide
  obtain ⟨mark, payload⟩ := plain ⟨group, small⟩
  rw [decodeArcs, if_neg (not_refused fits few)]
  dsimp only
  rw [if_pos mark, appended_group fits small _ payload]

/-- The marked groups of a number leave the decoder with that number. -/
theorem decodeArcs_groups (places : Nat) (few : places ≤ 4) (fits : value < 128 ^ places) :
    decodeArcs arcs 0 0 ((groups places value).map markedGroup ++ rest) =
      decodeArcs arcs (UInt32.ofNat value) (groups places value).length rest := by
  induction places generalizing value rest with
  | zero =>
      have zero : value = 0 := Nat.lt_one_iff.mp fits
      rw [zero]
      rfl
  | succ places ih =>
      rw [Nat.pow_succ] at fits
      have quotient : value / 128 < 128 ^ places := Nat.div_lt_of_lt_mul (by omega)
      have bound : 128 ^ places ≤ 128 ^ 3 := Nat.pow_le_pow_right (by decide) (by omega)
      have joined : value / 128 * 128 + value % 128 = value := Nat.div_add_mod' value 128
      have last : value % 128 < 128 := Nat.mod_lt _ (by decide)
      rw [groups]
      by_cases finished : value / 128 = 0
      · have step := @decodeArcs_marked arcs rest 0 0 (value % 128) (by decide) (by decide) last
        rw [finished, Nat.zero_mul, Nat.zero_add] at joined
        rw [Nat.zero_mul, Nat.zero_add, joined] at step
        rw [if_pos finished, joined]
        exact step
      · have before := length_groups_le places (value / 128)
        have small : value / 128 < 2 ^ 25 := Nat.lt_of_lt_of_le quotient (Nat.le_trans bound (by decide))
        rw [if_neg finished, List.map_append, List.append_assoc, ih (by omega) quotient,
          List.length_append, List.length_singleton]
        change decodeArcs _ _ _ (markedGroup (value % 128) :: rest) = _
        rw [decodeArcs_marked small (by omega) last, joined]

end

/-- The decoder reads back an arc. -/
theorem decodeArcs_encodeBase128 (arcs : List UInt32) (value : UInt32) (rest : Bytes) :
    decodeArcs arcs 0 0 (encodeBase128 value ++ rest) = decodeArcs (arcs ++ [value]) 0 0 rest := by
  have bound : value.toNat < 2 ^ 32 := value.toNat_lt
  have joined : value.toNat / 128 * 128 + value.toNat % 128 = value.toNat :=
    Nat.div_add_mod' value.toNat 128
  have last : value.toNat % 128 < 128 := Nat.mod_lt _ (by decide)
  have whole : UInt32.ofNat (value.toNat / 128 * 128 + value.toNat % 128) = value := by
    rw [joined]
    exact UInt32.ofNat_toNat
  rw [encodeBase128_eq, List.append_assoc]
  by_cases finished : value.toNat / 128 = 0
  · have step := @decodeArcs_last arcs rest 0 0 (value.toNat % 128) (by decide) (by decide) last
    rw [finished] at whole
    rw [whole] at step
    rw [if_pos finished]
    exact step
  · rw [if_neg finished, decodeArcs_groups 4 (Nat.le_refl 4) (by omega)]
    change decodeArcs _ _ _ (UInt8.ofNat (value.toNat % 128) :: rest) = _
    have before := length_groups_le 4 (value.toNat / 128)
    rw [decodeArcs_last (by omega) (by omega) last, whole]

theorem decodeArcs_flatMap (arcs values : List UInt32) :
    decodeArcs arcs 0 0 (values.flatMap encodeBase128) = .ok (arcs ++ values) := by
  induction values generalizing arcs with
  | nil => exact congrArg Except.ok (List.append_nil arcs).symm
  | cons value values ih =>
      rw [List.flatMap_cons, decodeArcs_encodeBase128, ih, List.append_assoc, List.singleton_append]

/-- The first two arcs are recovered from the number that joins them. -/
theorem splitArcs {first second : UInt32} (valid : ¬(2 < first ∨ first < 2 ∧ 39 < second))
    (fits : 40 * first.toNat + second.toNat < 2 ^ 32) :
    (if first * 40 + second < 40 then (0, first * 40 + second)
      else if first * 40 + second < 80 then (1, first * 40 + second - 40)
      else (2, first * 40 + second - 80) : UInt32 × UInt32) = (first, second) := by
  have joined : (first * 40 + second).toNat = first.toNat * 40 + second.toNat := by
    rw [UInt32.toNat_add, UInt32.toNat_mul]
    change (first.toNat * 40 % 2 ^ 32 + second.toNat) % 2 ^ 32 = _
    omega
  simp only [UInt32.lt_iff_toNat_lt] at valid
  change ¬(2 < first.toNat ∨ first.toNat < 2 ∧ 39 < second.toNat) at valid
  have below : ∀ bound : UInt32, first * 40 + second < bound ↔
      first.toNat * 40 + second.toNat < bound.toNat := by
    intro bound
    rw [UInt32.lt_iff_toNat_lt, joined]
  have removed : ∀ bound : UInt32, bound.toNat ≤ first.toNat * 40 + second.toNat →
      (first * 40 + second - bound).toNat = first.toNat * 40 + second.toNat - bound.toNat := by
    intro bound least
    rw [UInt32.toNat_sub_of_le _ _ (UInt32.le_iff_toNat_le.mpr (by rw [joined]; exact least)), joined]
  have forty : (40 : UInt32).toNat = 40 := rfl
  have eighty : (80 : UInt32).toNat = 80 := rfl
  simp only [below, forty, eighty]
  split
  · next low =>
      have zero : first = 0 := UInt32.toNat_inj.mp (by change first.toNat = 0; omega)
      refine Prod.ext zero.symm (UInt32.toNat_inj.mp ?_)
      change (first * 40 + second).toNat = second.toNat
      rw [joined]
      omega
  · next high =>
      split
      · next middle =>
          have one : first = 1 := UInt32.toNat_inj.mp (by change first.toNat = 1; omega)
          have value : first.toNat = 1 := by rw [one]; rfl
          refine Prod.ext one.symm (UInt32.toNat_inj.mp ?_)
          change (first * 40 + second - 40).toNat = second.toNat
          rw [removed 40 (by rw [forty]; omega), forty]
          omega
      · next far =>
          have two : first = 2 := UInt32.toNat_inj.mp (by change first.toNat = 2; omega)
          have value : first.toNat = 2 := by rw [two]; rfl
          refine Prod.ext two.symm (UInt32.toNat_inj.mp ?_)
          change (first * 40 + second - 80).toNat = second.toNat
          rw [removed 80 (by rw [eighty]; omega), eighty]
          omega

/-- The decoder reads back an object identifier whose first two arcs can be joined. -/
theorem decodeOid_encodeOid {oid : ObjectId} {bytes : Bytes}
    (joinable : ∀ first second rest, oid.arcs = first :: second :: rest →
      40 * first.toNat + second.toNat < 2 ^ 32)
    (encoded : encodeOid oid = .ok bytes) : decodeOid bytes = .ok oid := by
  obtain ⟨arcs⟩ := oid
  unfold encodeOid at encoded
  cases arcs with
  | nil => cases encoded
  | cons first arcs =>
      cases arcs with
      | nil => cases encoded
      | cons second rest =>
          have fits := joinable first second rest rfl
          dsimp only at encoded
          split at encoded
          · cases encoded
          · next valid =>
              cases encoded
              have decoded : decodeArcs [] 0 0
                  (encodeBase128 (first * 40 + second) ++ rest.flatMap encodeBase128) =
                  .ok ((first * 40 + second) :: rest) := by
                rw [decodeArcs_encodeBase128, decodeArcs_flatMap]
                rfl
              have split : splitArc (first * 40 + second) = (first, second) := splitArcs valid fits
              rw [decodeOid_of_arcs decoded, split]

/-! ## Integers -/

/-- A dropped octet is filled in again by the sign. -/
theorem decodeInteger_minimalOctets {bytes : Bytes} (fits : bytes.length ≤ 8) :
    decodeInteger (minimalOctets bytes) = decodeInteger bytes := by
  induction bytes with
  | nil => rfl
  | cons first rest ih =>
      cases rest with
      | nil => rfl
      | cons second rest =>
          rw [minimalOctets]
          split
          · next dropped =>
              rw [ih (Nat.le_of_succ_le fits)]
              have filled : ∀ fill : UInt8, List.replicate (8 - (second :: rest).length) fill =
                  List.replicate (8 - (fill :: second :: rest).length) fill ++ [fill] := by
                intro fill
                have more : 8 - (second :: rest).length =
                    8 - (fill :: second :: rest).length + 1 := by
                  simp only [List.length_cons] at fits ⊢
                  omega
                rw [more, List.replicate_succ']
              rw [decodeInteger_cons (Nat.le_of_succ_le fits), decodeInteger_cons fits]
              cases dropped with
              | inl positive =>
                  rw [positive.1, if_pos positive.2, if_pos (by decide), filled, List.append_assoc]
                  rfl
              | inr negative =>
                  rw [negative.1, if_neg negative.2, if_neg (by decide), filled, List.append_assoc]
                  rfl
          · rfl

theorem decodeInteger_i64Bytes (value : Int64) : decodeInteger (i64Bytes value) = .ok value := by
  have eight : (i64Bytes value).length = 8 := length_beBytes _ _
  have number : beNat (i64Bytes value) = value.toUInt64.toNat := beNat_beBytes value.toUInt64.toNat_lt
  generalize i64Bytes value = bytes at eight number
  cases bytes with
  | nil => cases eight
  | cons first rest =>
      rw [decodeInteger_cons (by omega), eight, Nat.sub_self, List.replicate_zero, List.nil_append, number,
        UInt64.ofNat_toNat, Int64.toInt64_toUInt64]

theorem decodeInteger_minimal (value : Int64) :
    decodeInteger (minimalOctets (i64Bytes value)) = .ok value := by
  have eight : (i64Bytes value).length ≤ 8 := Nat.le_of_eq (length_beBytes _ _)
  rw [decodeInteger_minimalOctets eight, decodeInteger_i64Bytes]

theorem int32TryFrom_toInt64 (value : Int32) : int32TryFrom value.toInt64 = .ok value := by
  have same : value.toInt64.toInt = value.toInt := Int32.toInt_toInt64 value
  rw [int32TryFrom, same, if_pos ⟨value.minValue_le_toInt, value.toInt_le⟩, Int32.toInt32_toInt64]

/-! ## Length octets -/

theorem beNat_zeros {zeros : Bytes} (zero : ∀ byte ∈ zeros, byte = 0) (rest : Bytes) :
    beNat (zeros ++ rest) = beNat rest := by
  induction zeros with
  | nil => rfl
  | cons byte zeros ih =>
      obtain ⟨here, later⟩ := List.forall_mem_cons.mp zero
      rw [here, List.cons_append, ← ih later]
      rfl

theorem shortLength {length : Nat} (small : length < 128) :
    UInt8.ofNat length &&& 0x80 = 0 ∧ (UInt8.ofNat length).toNat = length := by
  have clear : ∀ low : Fin 128, UInt8.ofNat low &&& 0x80 = 0 ∧ (UInt8.ofNat low).toNat = low := by
    decide
  exact clear ⟨length, small⟩

theorem markedLength {count : Nat} (small : count < 9) :
    (0x80 ||| UInt8.ofNat count : UInt8) &&& 0x80 ≠ 0 ∧
      ((0x80 ||| UInt8.ofNat count : UInt8) &&& 0x7f).toNat = count := by
  have marked : ∀ low : Fin 9, (0x80 ||| UInt8.ofNat low : UInt8) &&& 0x80 ≠ 0 ∧
      ((0x80 ||| UInt8.ofNat low : UInt8) &&& 0x7f).toNat = low := by
    decide
  exact marked ⟨count, small⟩

/-- The octets from the first one that is not zero have the same number. -/
theorem beNat_significant {bytes : Bytes} {first : Nat}
    (search : bytes.findIdx? (fun byte => byte ≠ 0) = some first) :
    first < bytes.length ∧ beNat (bytes.drop first) = beNat bytes ∧
      (bytes.drop first).head? ≠ some 0 := by
  obtain ⟨inside, found, before⟩ := List.findIdx?_eq_some_iff_getElem.mp search
  have zero : ∀ byte ∈ bytes.take first, byte = 0 := by
    intro byte member
    obtain ⟨index, bound, rfl⟩ := List.mem_take_iff_getElem.mp member
    have earlier := before index (by omega)
    simpa using earlier
  refine ⟨inside, ?_, ?_⟩
  · rw [← beNat_zeros zero (bytes.drop first), List.take_append_drop]
  · rw [List.head?_drop, List.getElem?_eq_getElem inside]
    intro same
    rw [Option.some.inj same] at found
    simp at found

/-- The length octets of `tlv` spell the length. -/
theorem lengthOctets_spell {length : Nat} (machine : length ≤ usizeMax) :
    LengthOctets (lengthOctets length) length := by
  unfold lengthOctets
  by_cases small : length < 128
  · obtain ⟨plain, value⟩ := shortLength small
    have spelled := LengthOctets.short _ plain
    rw [value] at spelled
    rw [if_pos small]
    exact spelled
  · have eight : (beBytes 8 length).length = 8 := length_beBytes _ _
    have number : beNat (beBytes 8 length) = length := beNat_beBytes (Nat.lt_succ_of_le machine)
    rw [if_neg small]
    dsimp only
    generalize beBytes 8 length = bytes at eight number
    cases search : bytes.findIdx? fun byte => byte ≠ 0 with
    | none =>
        have zero : ∀ byte ∈ bytes, byte = 0 := by
          intro byte member
          have kept := List.findIdx?_eq_none_iff.mp search byte member
          exact Decidable.not_not.mp (of_decide_eq_false kept)
        have nothing := beNat_zeros zero []
        rw [List.append_nil, number] at nothing
        change length = 0 at nothing
        omega
    | some first =>
        obtain ⟨inside, value, head⟩ := beNat_significant search
        have count : (bytes.drop first).length = 8 - first := by
          rw [List.length_drop, eight]
        obtain ⟨mark, payload⟩ := markedLength (by omega : 8 - first < 9)
        rw [Option.getD_some, eight]
        have spelled := LengthOctets.long (0x80 ||| UInt8.ofNat (8 - first)) (bytes.drop first) mark
          (payload.trans count.symm) (by omega) (by omega) head
        rw [value, number] at spelled
        exact spelled

theorem length_lengthOctets_le (length : Nat) : (lengthOctets length).length ≤ 9 := by
  unfold lengthOctets
  split
  · exact Nat.le_add_left 1 8
  · rw [List.length_cons, List.length_drop, length_beBytes]
    omega

theorem length_tlv_le (tag : UInt8) (value : Bytes) :
    (tlv tag value).length ≤ value.length + 10 := by
  have octets := length_lengthOctets_le value.length
  rw [tlv, elementBytes, List.cons_append, List.length_cons, List.length_append]
  omega

theorem length_minimalOctets_le (bytes : Bytes) :
    (minimalOctets bytes).length ≤ bytes.length := by
  induction bytes with
  | nil => exact Nat.le_refl 0
  | cons first rest ih =>
      cases rest with
      | nil => exact Nat.le_refl 1
      | cons second rest =>
          rw [minimalOctets]
          split
          · exact Nat.le_succ_of_le ih
          · exact Nat.le_refl _

theorem length_minimal_le (value : Int64) : (minimalOctets (i64Bytes value)).length ≤ 8 := by
  have eight : (i64Bytes value).length = 8 := length_beBytes _ _
  have shorter := length_minimalOctets_le (i64Bytes value)
  omega

theorem length_integerTlv_le (value : Int64) : (integerTlv value).length ≤ 18 := by
  have digits := length_minimal_le value
  have element := length_tlv_le 0x02 (minimalOctets (i64Bytes value))
  rw [integerTlv]
  omega

/-! ## Reading what was written -/

namespace Cursor

/-- The cursor between what was read and what is still to be read. -/
def behind (done rest : Bytes) : Cursor := ⟨done ++ rest, done.length⟩

variable {done tail value : Bytes} {tag : UInt8} {maximum : Nat}

theorem any_behind (bounded : value.length ≤ maximum)
    (machine : (done ++ tlv tag value).length ≤ usizeMax) :
    any maximum (behind done (tlv tag value ++ tail)) =
      .ok ((tag, value), behind (done ++ tlv tag value) tail) := by
  have inside : value.length ≤ usizeMax := by
    simp only [tlv, elementBytes, List.length_append] at machine
    omega
  have reads := reads_behind done (tlv tag value) tail
  apply (any_eq_ok _ _ _).mpr
  refine ⟨bounded, machine, lengthOctets value.length, lengthOctets_spell inside, ?_⟩
  unfold behind
  rw [List.append_assoc]
  exact reads

theorem value_behind (bounded : value.length ≤ maximum)
    (machine : (done ++ tlv tag value).length ≤ usizeMax) :
    Cursor.value tag maximum (behind done (tlv tag value ++ tail)) =
      .ok (value, behind (done ++ tlv tag value) tail) := by
  unfold Cursor.value
  apply (Method.bind_eq_ok _ _ _ _).mpr
  refine ⟨(tag, value), _, any_behind bounded machine, ?_⟩
  dsimp only
  rw [if_pos rfl]
  rfl

theorem nested_behind (machine : (done ++ tlv tag value).length ≤ usizeMax) :
    nested tag (behind done (tlv tag value ++ tail)) =
      .ok (new value, behind (done ++ tlv tag value) tail) := by
  apply (nested_eq_ok _ _).mpr
  refine ⟨value, value_behind ?_ machine, rfl⟩
  simp only [behind, tlv, elementBytes, List.length_append]
  omega

theorem integer_behind {number : Int64} (machine : (done ++ integerTlv number).length ≤ usizeMax) :
    integer (behind done (integerTlv number ++ tail)) =
      .ok (number, behind (done ++ integerTlv number) tail) :=
  (integer_eq_ok _).mpr
    ⟨_, value_behind (length_minimal_le number) machine, decodeInteger_minimal number⟩

theorem finish_behind (done : Bytes) : finish (behind done []) = .ok () := by
  have inside : (behind done []).offset ≤ (behind done []).bytes.length := by
    simp [behind]
  apply (finish_eq_ok inside _).mpr
  simp [behind, rest]

end Cursor

/-- The contents of a request PDU. -/
def requestPdu (requestId : Int32) (encoded : Bytes) : Bytes :=
  integerTlv requestId.toInt64 ++ (integerTlv 0 ++ (integerTlv 0 ++
    sequence (sequence (tlv 0x06 encoded ++ tlv 0x05 []))))

section

variable {limits : DecodeLimits} {oid : ObjectId} {encoded : Bytes} {requestId : Int32}

/-- The decoder reads the binding of a request. -/
theorem varBind_request (small : encoded.length ≤ 256) (decoded : decodeOid encoded = .ok oid) :
    varBind limits (Cursor.behind [] (sequence (tlv 0x06 encoded ++ tlv 0x05 []) ++ [])) =
      .ok (⟨oid, .null⟩,
        Cursor.behind ([] ++ sequence (tlv 0x06 encoded ++ tlv 0x05 [])) []) := by
  have name := length_tlv_le 0x06 encoded
  have absent := length_tlv_le 0x05 []
  have binding := length_tlv_le 0x30 (tlv 0x06 encoded ++ tlv 0x05 [])
  rw [List.length_append] at binding
  rw [List.length_nil] at absent
  have machine : (1000 : Nat) ≤ usizeMax := by decide
  have nested := @Cursor.nested_behind [] [] (tlv 0x06 encoded ++ tlv 0x05 []) 0x30 (by
    change (tlv 0x30 _).length ≤ _
    omega)
  have named := @Cursor.value_behind [] (tlv 0x05 [] ++ []) encoded 0x06 256 small (by
    change (tlv 0x06 encoded).length ≤ _
    omega)
  have valued := @Cursor.any_behind ([] ++ tlv 0x06 encoded) [] [] 0x05 limits.maximumValueBytes
    (Nat.zero_le _) (by
      rw [List.nil_append, List.length_append]
      omega)
  rw [List.append_nil] at named valued
  simp only [varBind, Method.bind_eq_ok, Method.lift_eq_ok, Method.pure_eq_ok]
  exact ⟨_, _, nested, (encoded, _), _, ⟨named, rfl⟩, oid, _, ⟨decoded, rfl⟩, ((0x05, []), _), _,
    ⟨valued, rfl⟩, (), _, ⟨Cursor.finish_behind _, rfl⟩, .null, _, ⟨rfl, rfl⟩, rfl⟩

/-- The decoder reads the one binding of a request. -/
theorem varBinds_request (small : encoded.length ≤ 256) (decoded : decodeOid encoded = .ok oid)
    (one : 1 ≤ limits.maximumVarbinds) (fuel : Nat) :
    ∃ next, varBinds limits (fuel + 2) []
        (Cursor.new (sequence (tlv 0x06 encoded ++ tlv 0x05 []))) = .ok ([⟨oid, .null⟩], next) := by
  have bound := @varBind_request limits oid encoded small decoded
  rw [List.append_nil] at bound
  have last : varBinds limits (fuel + 1) [⟨oid, .null⟩]
      (Cursor.behind ([] ++ sequence (tlv 0x06 encoded ++ tlv 0x05 [])) []) =
      .ok ([⟨oid, .null⟩], Cursor.behind ([] ++ sequence (tlv 0x06 encoded ++ tlv 0x05 [])) []) := by
    have remaining : (Cursor.behind ([] ++ sequence (tlv 0x06 encoded ++ tlv 0x05 [])) []).remaining =
        .ok [] := by
      rw [Cursor.remaining, if_pos (by simp [Cursor.behind])]
      simp [Cursor.behind]
    simp only [varBinds, Method.bind_eq_ok, Method.get_eq_ok, Method.lift_eq_ok]
    exact ⟨_, _, rfl, [], _, ⟨remaining, rfl⟩, rfl⟩
  refine ⟨Cursor.behind ([] ++ sequence (tlv 0x06 encoded ++ tlv 0x05 [])) [], ?_⟩
  rw [varBinds]
  simp only [Method.bind_eq_ok, Method.get_eq_ok, Method.lift_eq_ok]
  refine ⟨_, _, rfl, _, _, ⟨rfl, rfl⟩, ?_⟩
  have room : ¬limits.maximumVarbinds ≤ ([] : List VarBind).length := Nat.not_le.mpr one
  rw [if_neg (by exact Bool.false_ne_true), if_neg room]
  exact (Method.bind_eq_ok _ _ _ _).mpr ⟨_, _, bound, last⟩

/-- The decoder reads the PDU of a request. -/
theorem decodePdu_requestPdu (small : encoded.length ≤ 256) (decoded : decodeOid encoded = .ok oid)
    (one : 1 ≤ limits.maximumVarbinds) :
    decodePdu requestId limits (Cursor.new (requestPdu requestId encoded)) =
      .ok ⟨requestId, 0, 0, [⟨oid, .null⟩]⟩ := by
  have name := length_tlv_le 0x06 encoded
  have absent := length_tlv_le 0x05 []
  have binding := length_tlv_le 0x30 (tlv 0x06 encoded ++ tlv 0x05 [])
  have bindings := length_tlv_le 0x30 (sequence (tlv 0x06 encoded ++ tlv 0x05 []))
  rw [List.length_append] at binding
  rw [List.length_nil] at absent
  change _ ≤ (tlv 0x30 (tlv 0x06 encoded ++ tlv 0x05 [])).length + 10 at bindings
  have id := length_integerTlv_le requestId.toInt64
  have zero := length_integerTlv_le 0
  have machine : (1000 : Nat) ≤ usizeMax := by decide
  have first := @Cursor.integer_behind [] (integerTlv 0 ++ (integerTlv 0 ++
    sequence (sequence (tlv 0x06 encoded ++ tlv 0x05 [])))) requestId.toInt64 (by
      rw [List.nil_append]
      omega)
  have second := @Cursor.integer_behind ([] ++ integerTlv requestId.toInt64) (integerTlv 0 ++
    sequence (sequence (tlv 0x06 encoded ++ tlv 0x05 []))) 0 (by
      simp only [List.length_append, List.nil_append]
      omega)
  have third := @Cursor.integer_behind ([] ++ integerTlv requestId.toInt64 ++ integerTlv 0)
    (sequence (sequence (tlv 0x06 encoded ++ tlv 0x05 []))) 0 (by
      simp only [List.length_append, List.nil_append]
      omega)
  have fourth := @Cursor.nested_behind
    ([] ++ integerTlv requestId.toInt64 ++ integerTlv 0 ++ integerTlv 0) []
    (sequence (tlv 0x06 encoded ++ tlv 0x05 [])) 0x30 (by
      simp only [List.length_append, List.nil_append]
      omega)
  rw [List.append_nil] at fourth
  have zeroes : int32TryFrom 0 = .ok 0 := by decide
  have present : (sequence (tlv 0x06 encoded ++ tlv 0x05 [])).length + 1 =
      ((lengthOctets (tlv 0x06 encoded ++ tlv 0x05 []).length ++
        (tlv 0x06 encoded ++ tlv 0x05 [])).length) + 2 := rfl
  obtain ⟨next, read⟩ := varBinds_request small decoded one
    (lengthOctets (tlv 0x06 encoded ++ tlv 0x05 []).length ++
      (tlv 0x06 encoded ++ tlv 0x05 [])).length
  have start : Cursor.new (requestPdu requestId encoded) =
      Cursor.behind [] (requestPdu requestId encoded) := by
    rw [Cursor.behind, List.nil_append]
    rfl
  rw [start, requestPdu]
  unfold decodePdu
  simp only [except_bind_eq_ok]
  refine ⟨_, first, requestId, int32TryFrom_toInt64 requestId, ?_⟩
  rw [if_neg (fun different => different rfl)]
  simp only [except_bind_eq_ok]
  exact ⟨_, second, 0, zeroes, _, third, 0, zeroes, _, fourth, (), Cursor.finish_behind _, _, read, rfl⟩

end

/-! ## Messages -/

/-- A message of the given PDU. -/
def messageOf (community : Bytes) (tag : UInt8) (pdu : Bytes) : Bytes :=
  sequence (integerTlv 1 ++ (tlv 0x04 community ++ tlv tag pdu))

/-- The layout of a response with the given PDU. -/
def responseLayout (community pdu : Bytes) : Layout where
  outerLength := lengthOctets (integerTlv 1 ++ (tlv 0x04 community ++ tlv 0xa2 pdu)).length
  versionLength := lengthOctets (minimalOctets (i64Bytes 1)).length
  version := minimalOctets (i64Bytes 1)
  communityLength := lengthOctets community.length
  community
  pduLength := lengthOctets pdu.length
  pdu
  trailing := []

/-- Where the decoder looks for the tag of the PDU. -/
def pduTagOffset (message : Bytes) : Outcome SnmpError Nat := do
  let (outer, _) ← Cursor.nested 0x30 (Cursor.new message)
  let (_, outer) ← Cursor.integer outer
  let (_, outer) ← Cursor.value 0x04 255 outer
  return message.length - outer.bytes.length + outer.offset

section

variable {community pdu : Bytes}

theorem content_responseLayout :
    (responseLayout community pdu).content = integerTlv 1 ++ (tlv 0x04 community ++ tlv 0xa2 pdu) := by
  change integerTlv 1 ++ tlv 0x04 community ++ tlv 0xa2 pdu = _
  exact List.append_assoc _ _ _

theorem bytes_responseLayout :
    (responseLayout community pdu).bytes = messageOf community 0xa2 pdu := by
  rw [Layout.bytes, content_responseLayout]
  exact List.append_nil _

/-- What stands before and behind the tag of the PDU. -/
theorem messageOf_split (tag : UInt8) :
    ∃ front back, front.length = (messageOf community 0xa0 pdu).length -
        (integerTlv 1 ++ (tlv 0x04 community ++ tlv 0xa0 pdu)).length +
          (integerTlv 1 ++ tlv 0x04 community).length ∧
      messageOf community 0xa0 pdu = front ++ 0xa0 :: back ∧
      messageOf community tag pdu = front ++ tag :: back := by
  have lengths : ∀ tag, (integerTlv 1 ++ (tlv 0x04 community ++ tlv tag pdu)).length =
      (integerTlv 1 ++ (tlv 0x04 community ++ tlv 0xa0 pdu)).length := by
    intro tag
    simp [tlv, elementBytes]
  have shape : ∀ tag, messageOf community tag pdu =
      (0x30 :: lengthOctets (integerTlv 1 ++ (tlv 0x04 community ++ tlv 0xa0 pdu)).length ++
        (integerTlv 1 ++ tlv 0x04 community)) ++ tag :: (lengthOctets pdu.length ++ pdu) := by
    intro tag
    rw [messageOf, sequence, tlv, elementBytes, lengths tag]
    simp [tlv, elementBytes]
  refine ⟨_, _, ?_, shape 0xa0, shape tag⟩
  rw [shape 0xa0]
  simp [tlv, elementBytes]
  omega

/-- The sizes of a message stay far below the machine's. -/
theorem length_messageOf_le (tag : UInt8) (short : community.length ≤ 255)
    (small : pdu.length ≤ 1000) : (messageOf community tag pdu).length ≤ usizeMax := by
  have version := length_integerTlv_le 1
  have secret := length_tlv_le 0x04 community
  have inner := length_tlv_le tag pdu
  have outer := length_tlv_le 0x30 (integerTlv 1 ++ (tlv 0x04 community ++ tlv tag pdu))
  have machine : (2000 : Nat) ≤ usizeMax := by decide
  rw [List.length_append, List.length_append] at outer
  rw [messageOf, sequence]
  omega

/-- The decoder walks down a response with the given PDU. -/
theorem walkable_responseLayout (short : community.length ≤ 255) (small : pdu.length ≤ 1000) :
    (responseLayout community pdu).Walkable := by
  have whole := length_messageOf_le 0xa2 short small
  have content : (integerTlv 1 ++ (tlv 0x04 community ++ tlv 0xa2 pdu)).length ≤ usizeMax := by
    simp only [messageOf, sequence, tlv, elementBytes, List.length_append] at whole ⊢
    omega
  have machine : (1000 : Nat) ≤ usizeMax := by decide
  have digits := length_minimal_le 1
  have version : LengthOctets (lengthOctets (minimalOctets (i64Bytes 1)).length)
      (minimalOctets (i64Bytes 1)).length := lengthOctets_spell (by omega)
  have secret : LengthOctets (lengthOctets community.length) community.length :=
    lengthOctets_spell (by omega)
  have inner : LengthOctets (lengthOctets pdu.length) pdu.length := lengthOctets_spell (by omega)
  refine ⟨⟨?_, version, secret, inner⟩, decodeInteger_minimal 1, short, ?_⟩
  · rw [content_responseLayout]
    exact lengthOctets_spell content
  · rw [content_responseLayout]
    exact whole

theorem maskFits_responseLayout (short : community.length ≤ 255) (small : pdu.length ≤ 1000) :
    (responseLayout community pdu).MaskFits := by
  have whole := length_messageOf_le 0xa2 short small
  rw [← bytes_responseLayout] at whole
  have inside : (responseLayout community pdu).maskStart + community.length ≤
      (responseLayout community pdu).bytes.length := by
    rw [Layout.bytes_eq, List.length_append, List.length_append]
    exact Nat.le_add_right _ _
  exact ⟨inside, Nat.le_trans inside whole⟩

theorem pduTagOffset_messageOf (short : community.length ≤ 255) (small : pdu.length ≤ 1000) :
    pduTagOffset (messageOf community 0xa0 pdu) =
      .ok ((messageOf community 0xa0 pdu).length -
        (integerTlv 1 ++ (tlv 0x04 community ++ tlv 0xa0 pdu)).length +
          (integerTlv 1 ++ tlv 0x04 community).length) := by
  have whole := length_messageOf_le 0xa0 short small
  have content : (integerTlv 1 ++ tlv 0x04 community).length ≤ usizeMax := by
    simp only [messageOf, sequence, tlv, elementBytes, List.length_append] at whole ⊢
    omega
  have outer := @Cursor.nested_behind [] [] (integerTlv 1 ++ (tlv 0x04 community ++ tlv 0xa0 pdu))
    0x30 whole
  have version := @Cursor.integer_behind [] (tlv 0x04 community ++ tlv 0xa0 pdu) 1 (by
    rw [List.length_append] at content
    rw [List.nil_append]
    omega)
  have secret := @Cursor.value_behind ([] ++ integerTlv 1) (tlv 0xa0 pdu) community 0x04 255 short
    content
  rw [List.append_nil] at outer
  unfold pduTagOffset
  simp only [except_bind_eq_ok, except_pure_eq_ok]
  exact ⟨_, outer, _, version, _, secret, rfl⟩

end

/-- What `encode_get` returns. -/
theorem encodeGet_eq_ok {registry : ObjectRegistry} {community message : Bytes}
    {requestId : Int32} {oid : ObjectId}
    (encoded : encodeGet registry community requestId oid = .ok message) :
    ∃ bytes, encodeOid oid = .ok bytes ∧ community.length ≤ 255 ∧
      message = messageOf community 0xa0 (requestPdu requestId bytes) := by
  unfold encodeGet at encoded
  split at encoded
  · cases encoded
  · simp only [encodeRequest, except_bind_eq_ok, except_pure_eq_ok, refuseIf_eq_ok, not_or] at encoded
    obtain ⟨_, ⟨-, short, -⟩, bytes, named, same⟩ := encoded
    exact ⟨bytes, named, Nat.not_lt.mp short, same.symm⟩

theorem length_requestPdu_le {requestId : Int32} {encoded : Bytes} (small : encoded.length ≤ 256) :
    (requestPdu requestId encoded).length ≤ 1000 := by
  have name := length_tlv_le 0x06 encoded
  have absent := length_tlv_le 0x05 []
  have binding := length_tlv_le 0x30 (tlv 0x06 encoded ++ tlv 0x05 [])
  have bindings := length_tlv_le 0x30 (sequence (tlv 0x06 encoded ++ tlv 0x05 []))
  have id := length_integerTlv_le requestId.toInt64
  have zero := length_integerTlv_le 0
  rw [List.length_append] at binding
  rw [List.length_nil] at absent
  change _ ≤ (tlv 0x30 (tlv 0x06 encoded ++ tlv 0x05 [])).length + 10 at bindings
  simp only [requestPdu, List.length_append]
  change _ + (_ + (_ + (tlv 0x30 (sequence (tlv 0x06 encoded ++ tlv 0x05 []))).length)) ≤ 1000
  omega

/-- A request whose PDU tag is replaced by that of a response is accepted as a response with
the same identifier and one binding of the requested object to nothing. -/
theorem encodeGet_decodes (sha256 : Sha256) (registry : ObjectRegistry) (community : Bytes)
    (requestId : Int32) (oid : ObjectId) (limits : DecodeLimits) (message : Bytes)
    (encoded : encodeGet registry community requestId oid = .ok message)
    (joinable : ∀ first second rest, oid.arcs = first :: second :: rest →
      40 * first.toNat + second.toNat < 2 ^ 32)
    (small : ∀ bytes, encodeOid oid = .ok bytes → bytes.length ≤ 256)
    (admitted : message.length ≤ limits.maximumMessageBytes) (one : 1 ≤ limits.maximumVarbinds) :
    ∃ offset response, pduTagOffset message = .ok offset ∧ message[offset]? = some 0xa0 ∧
      decodeResponse sha256 (message.set offset 0xa2) requestId limits = .ok response ∧
      response.requestId = requestId ∧ response.errorStatus = 0 ∧ response.errorIndex = 0 ∧
      response.varbinds = [⟨oid, .null⟩] := by
  obtain ⟨bytes, named, short, same⟩ := encodeGet_eq_ok encoded
  have fits := small bytes named
  have bounded := @length_requestPdu_le requestId bytes fits
  obtain ⟨front, back, offset, split, replaced⟩ :=
    @messageOf_split community (requestPdu requestId bytes) 0xa2
  have located := pduTagOffset_messageOf short bounded
  rw [← offset] at located
  have response : message.set front.length 0xa2 =
      (responseLayout community (requestPdu requestId bytes)).bytes := by
    rw [bytes_responseLayout, replaced, same, split]
    simp
  have size : (message.set front.length 0xa2).length ≤ limits.maximumMessageBytes := by
    rw [List.length_set]
    exact admitted
  refine ⟨front.length, _, ?_, ?_, (decodeResponse_eq_ok _ _ _ _ _).mpr ⟨size, _, _,
    walkable_responseLayout short bounded, response.symm, maskFits_responseLayout short bounded,
    decodePdu_requestPdu fits (decodeOid_encodeOid joinable named) one, rfl⟩, rfl, rfl, rfl, rfl⟩
  · rw [same]
    exact located
  · rw [same, split]
    simp

/-- A registry of the one object with the identifier `1.3`. -/
def sampleRegistry : ObjectRegistry := ⟨[⟨⟨[1, 3]⟩, "organization", false⟩], by decide⟩

theorem encodeGet_decodes_sample :
    ∃ message offset response,
      encodeGet sampleRegistry [0x61, 0x62] 42 ⟨[1, 3]⟩ = .ok message ∧
      message.set offset 0xa2 = (sampleLayout [0x61, 0x62] []).bytes ∧
      decodeResponse sampleSha256 (message.set offset 0xa2) 42 .default = .ok response ∧
      response.varbinds = [⟨⟨[1, 3]⟩, .null⟩] := by
  have joinable : ∀ first second rest, ([1, 3] : List UInt32) = first :: second :: rest →
      40 * first.toNat + second.toNat < 2 ^ 32 := by
    intro first second rest same
    cases same
    decide
  have small : ∀ bytes, encodeOid ⟨[1, 3]⟩ = .ok bytes → bytes.length ≤ 256 := by
    intro bytes same
    cases same
    decide
  obtain ⟨offset, response, located, -, decoded, -, -, -, bound⟩ :=
    encodeGet_decodes sampleSha256 sampleRegistry [0x61, 0x62] 42 ⟨[1, 3]⟩ .default _ rfl joinable
      small (by decide +kernel) (by decide)
  have place : pduTagOffset (messageOf [0x61, 0x62] 0xa0 (requestPdu 42 [0x2b])) = .ok 9 := by
    decide +kernel
  have same : offset = 9 := Except.ok.inj (located.symm.trans place)
  refine ⟨_, offset, response, rfl, ?_, decoded, bound⟩
  rw [same]
  decide +kernel

end PrinterSdk.Snmp
