import Mathlib.Data.List.Lex
import PrinterSdk.Brother.Wifi
import PrinterSdk.Snmp.RequestCodec

/-!
# Object identifiers

`ObjectId.parse` reads arcs of 32 bits.  The encoder joins the first two of them in one
number of 32 bits, which is too small for the largest second arcs behind a first arc of 2.
A build with overflow checks aborts there, and any other build encodes another identifier.
-/

namespace PrinterSdk.Snmp

open PrinterSdk.Data PrinterSdk.Brother

/-- `str::parse::<u32>`. -/
def parseU32 (text : Characters) : Option UInt32 := do
  let value ← digitsValue 10 (match text with
    | '+' :: digits => digits
    | digits => digits)
  if value < 2 ^ 32 then some (UInt32.ofNat value) else none

namespace ObjectId

/-- `ObjectId::parse`. -/
def parse (text : Characters) : Outcome SnmpError ObjectId := do
  let arcs ← ((text.dropWhile (· == '.')).splitOn '.').mapM fun arc =>
    okOr (parseU32 arc) (.error .invalidOid)
  match arcs with
  | first :: second :: rest =>
      if 2 < first ∨ first < 2 ∧ 39 < second then
        fail .invalidOid
      else
        .ok ⟨first :: second :: rest⟩
  | _ => fail .invalidOid

/-- `ObjectId::is_within`. -/
def isWithin (oid root : ObjectId) : Bool := root.arcs.isPrefixOf oid.arcs

/-- The arcs as numbers. -/
def numbers (oid : ObjectId) : List Nat := oid.arcs.map UInt32.toNat

theorem numbers_injective : Function.Injective numbers := by
  intro left right same
  cases left
  cases right
  exact congrArg mk (List.map_injective_iff.mpr (fun _ _ => UInt32.toNat_inj.mp) same)

/-- Identifiers are compared arc by arc, and one comes before what it begins. -/
instance : LinearOrder ObjectId := LinearOrder.lift' numbers numbers_injective

end ObjectId

/-! ## Arithmetic that is checked -/

/-- `left * right` in a build with overflow checks. -/
def mulOrPanic (left right : UInt32) : Outcome SnmpError UInt32 :=
  if left.toNat * right.toNat < 2 ^ 32 then .ok (left * right) else panics

/-- `left + right` in a build with overflow checks. -/
def addOrPanic (left right : UInt32) : Outcome SnmpError UInt32 :=
  if left.toNat + right.toNat < 2 ^ 32 then .ok (left + right) else panics

/-- `encode_oid` in a build with overflow checks. -/
def encodeOidChecked (oid : ObjectId) : Outcome SnmpError Bytes :=
  match oid.arcs with
  | first :: second :: rest =>
      if 2 < first ∨ first < 2 ∧ 39 < second then
        fail .invalidOid
      else do
        let joined ← addOrPanic (← mulOrPanic first 40) second
        return encodeBase128 joined ++ rest.flatMap encodeBase128
  | _ => fail .invalidOid

/-! ## Identifiers that are accepted -/

/-- The first two arcs are ones that an identifier begins with. -/
def ValidArcs (first second : UInt32) : Prop := ¬(2 < first ∨ first < 2 ∧ 39 < second)

instance (first second : UInt32) : Decidable (ValidArcs first second) :=
  inferInstanceAs (Decidable (¬_))

theorem parse_eq_ok {text : Characters} {oid : ObjectId}
    (accepted : ObjectId.parse text = .ok oid) :
    ∃ first second rest, oid = ⟨first :: second :: rest⟩ ∧ ValidArcs first second := by
  obtain ⟨arcs, _, checked⟩ := (except_bind_eq_ok _ _ _).mp accepted
  cases arcs with
  | nil => cases checked
  | cons first arcs =>
      cases arcs with
      | nil => cases checked
      | cons second rest =>
          dsimp only at checked
          split at checked
          · cases checked
          · next valid =>
              cases checked
              exact ⟨first, second, rest, rfl, valid⟩

/-- The second arc is so large, behind a first arc of 2, that the two cannot be joined. -/
def TopSecondArc (oid : ObjectId) : Prop :=
  match oid.arcs with
  | first :: second :: _ => first = 2 ∧ 2 ^ 32 - 80 ≤ second.toNat
  | _ => False

section

variable {first second : UInt32} {rest : List UInt32}

theorem joins_iff (valid : ValidArcs first second) :
    40 * first.toNat + second.toNat < 2 ^ 32 ↔ ¬TopSecondArc ⟨first :: second :: rest⟩ := by
  have bounds : ¬(2 < first.toNat ∨ first.toNat < 2 ∧ 39 < second.toNat) := valid
  have two : first = 2 ↔ first.toNat = 2 := UInt32.toNat_inj.symm
  change _ ↔ ¬(first = 2 ∧ 2 ^ 32 - 80 ≤ second.toNat)
  rw [two]
  omega

theorem encodeOid_valid (valid : ValidArcs first second) :
    encodeOid ⟨first :: second :: rest⟩ =
      .ok (encodeBase128 (first * 40 + second) ++ rest.flatMap encodeBase128) :=
  if_neg valid

/-- The checked encoder returns what the other one does, or aborts. -/
theorem encodeOidChecked_valid (valid : ValidArcs first second) :
    encodeOidChecked ⟨first :: second :: rest⟩ =
      if 40 * first.toNat + second.toNat < 2 ^ 32 then encodeOid ⟨first :: second :: rest⟩
      else panics := by
  have bounds : ¬(2 < first.toNat ∨ first.toNat < 2 ∧ 39 < second.toNat) := valid
  have small : first.toNat * (40 : UInt32).toNat < 2 ^ 32 := by
    change first.toNat * 40 < 2 ^ 32
    omega
  have product : (first * 40).toNat = 40 * first.toNat := by
    rw [UInt32.toNat_mul, Nat.mod_eq_of_lt small]
    exact Nat.mul_comm _ _
  rw [encodeOid_valid valid]
  apply (if_neg valid).trans
  rw [mulOrPanic, if_pos small]
  change (addOrPanic (first * 40) second >>= _) = _
  rw [addOrPanic, product]
  split
  · rfl
  · rfl

/-- What the decoder makes of the octets of a joined number. -/
theorem decodeOid_joined (joined : UInt32) (rest : List UInt32) :
    decodeOid (encodeBase128 joined ++ rest.flatMap encodeBase128) =
      .ok ⟨(splitArc joined).1 :: (splitArc joined).2 :: rest⟩ := by
  apply decodeOid_of_arcs
  rw [decodeArcs_encodeBase128, decodeArcs_flatMap]
  rfl

/-- Arcs that do not fit are joined in a number that stands for another first arc. -/
theorem decodeOid_top (top : TopSecondArc ⟨first :: second :: rest⟩) :
    decodeOid (encodeBase128 (first * 40 + second) ++ rest.flatMap encodeBase128) ≠
      .ok ⟨first :: second :: rest⟩ := by
  obtain ⟨two, large⟩ := top
  have wrapped : first * 40 + second < 80 := by
    apply UInt32.lt_iff_toNat_lt.mpr
    rw [two, UInt32.toNat_add]
    change (80 + second.toNat) % 2 ^ 32 < 80
    have bound : second.toNat < 2 ^ 32 := second.toNat_lt
    omega
  intro decoded
  rw [decodeOid_joined, two] at decoded
  rw [two] at wrapped
  simp only [splitArc, wrapped, ↓reduceIte] at decoded
  split at decoded
  · cases decoded
  · cases decoded

end

/-! ## Encoding and decoding -/

/-- The encoder succeeds without an overflow, and the decoder returns the same arcs. -/
def RoundTrips (oid : ObjectId) : Prop :=
  ∃ bytes, encodeOidChecked oid = .ok bytes ∧ decodeOid bytes = .ok oid

/-- The encoder succeeds with arithmetic that wraps, and the decoder returns the same arcs. -/
def RoundTripsWrapping (oid : ObjectId) : Prop :=
  ∃ bytes, encodeOid oid = .ok bytes ∧ decodeOid bytes = .ok oid

theorem decodeOid_fits {first second : UInt32} {rest : List UInt32}
    (valid : ValidArcs first second) (fits : 40 * first.toNat + second.toNat < 2 ^ 32) :
    decodeOid (encodeBase128 (first * 40 + second) ++ rest.flatMap encodeBase128) =
      .ok ⟨first :: second :: rest⟩ := by
  apply decodeOid_encodeOid
  · intro head next tail same
    cases same
    exact fits
  · exact encodeOid_valid valid

/-- An identifier that is accepted survives encoding and decoding exactly when its first two
arcs can be joined, in a build with overflow checks as in one without. -/
theorem oid_round_trip_iff (text : Characters) (oid : ObjectId)
    (accepted : ObjectId.parse text = .ok oid) :
    (RoundTrips oid ↔ ¬TopSecondArc oid) ∧ (RoundTripsWrapping oid ↔ ¬TopSecondArc oid) := by
  obtain ⟨first, second, rest, rfl, valid⟩ := parse_eq_ok accepted
  have fits := @joins_iff first second rest valid
  have checked := @encodeOidChecked_valid first second rest valid
  have encoded := @encodeOid_valid first second rest valid
  constructor
  · constructor
    · rintro ⟨bytes, succeeded, _⟩
      apply fits.mp
      by_contra exceeds
      rw [checked, if_neg exceeds] at succeeded
      cases succeeded
    · intro joinable
      have small := fits.mpr joinable
      rw [if_pos small, encoded] at checked
      exact ⟨_, checked, decodeOid_fits valid small⟩
  · constructor
    · rintro ⟨bytes, succeeded, decoded⟩ top
      rw [encoded] at succeeded
      cases succeeded
      exact decodeOid_top top decoded
    · intro joinable
      exact ⟨_, encoded, decodeOid_fits valid (fits.mpr joinable)⟩

theorem oid_round_trip_iff_printer :
    ObjectId.parse "1.3.6.1.2.1.43.5.1.1.16.1".toList =
        .ok ⟨[1, 3, 6, 1, 2, 1, 43, 5, 1, 1, 16, 1]⟩ ∧
      RoundTrips ⟨[1, 3, 6, 1, 2, 1, 43, 5, 1, 1, 16, 1]⟩ := by
  have accepted : ObjectId.parse "1.3.6.1.2.1.43.5.1.1.16.1".toList =
      .ok ⟨[1, 3, 6, 1, 2, 1, 43, 5, 1, 1, 16, 1]⟩ := by decide
  have joinable : ¬TopSecondArc ⟨[1, 3, 6, 1, 2, 1, 43, 5, 1, 1, 16, 1]⟩ := by
    rintro ⟨two, _⟩
    cases two
  exact ⟨accepted, (oid_round_trip_iff _ _ accepted).1.mpr joinable⟩

/-- `2.4294967216` is accepted, aborts a checked build, and is encoded as `0.0` by another. -/
theorem top_second_arc_lost :
    ObjectId.parse "2.4294967216".toList = .ok ⟨[2, 4294967216]⟩ ∧
      encodeOidChecked ⟨[2, 4294967216]⟩ = panics ∧ ¬RoundTrips ⟨[2, 4294967216]⟩ ∧
      encodeOid ⟨[2, 4294967216]⟩ = .ok [0] ∧ decodeOid [0] = .ok ⟨[0, 0]⟩ := by
  have aborts : encodeOidChecked ⟨[2, 4294967216]⟩ = panics := by decide
  refine ⟨by decide, aborts, ?_, by decide, by decide⟩
  rintro ⟨bytes, succeeded, _⟩
  rw [aborts] at succeeded
  cases succeeded

end PrinterSdk.Snmp
