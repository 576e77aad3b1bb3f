import PrinterSdk.Data.Digest
import PrinterSdk.Snmp.Ber

/-!
# SNMPv2c responses

`decodeResponse` checks and decodes a RESPONSE message and keeps evidence of the
bytes it came from, with the community string masked.  The mask is placed by a
second walk over the message, `sanitizeV2cMessage`.  SHA-256 is a parameter.
-/

namespace PrinterSdk.Snmp

open PrinterSdk.Data

/-- `ObjectId`. -/
structure ObjectId where
  arcs : List UInt32
  deriving DecidableEq, Repr

/-- `ObjectValue`. -/
inductive ObjectValue where
  | integer (value : Int64)
  | bytes (value : Bytes)
  | null
  | objectId (value : ObjectId)
  | ipAddress (value : { bytes : Bytes // bytes.length = 4 })
  | counter32 (value : UInt32)
  | gauge32 (value : UInt32)
  | unsigned32 (value : UInt32)
  | timeTicks (value : UInt32)
  | opaqueBytes (value : Bytes)
  | nsap (value : Bytes)
  | counter64 (value : UInt64)
  | counter (value : UInt64)
  | noSuchObject
  | noSuchInstance
  | endOfMibView
  | unknown (tag : UInt8) (bytes : Bytes)
  deriving DecidableEq, Repr

/-- `VarBind`. -/
structure VarBind where
  oid : ObjectId
  value : ObjectValue
  deriving DecidableEq, Repr

/-- `ResponseEvidence`. -/
structure ResponseEvidence where
  credentialElidedHash : Digest
  originalLength : Nat
  sanitizedBytes : Option Bytes
  deriving DecidableEq, Repr

/-- `Response`. -/
structure Response where
  requestId : Int32
  errorStatus : Int32
  errorIndex : Int32
  varbinds : List VarBind
  evidence : ResponseEvidence
  deriving DecidableEq, Repr

/-- `DecodeLimits`. -/
structure DecodeLimits where
  maximumMessageBytes : Nat
  maximumVarbinds : Nat
  maximumValueBytes : Nat

/-- `DecodeLimits::default`. -/
def DecodeLimits.default : DecodeLimits where
  maximumMessageBytes := 64 * 1024
  maximumVarbinds := 64
  maximumValueBytes := 16 * 1024

/-! ## Values -/

/-- The arcs of `decode_oid`, most significant group first.  The accumulators are
the arcs pushed so far and the value and count of the inner loop; the input may
only end between two arcs. -/
def decodeArcs (arcs : List UInt32) (value : UInt32) (count : Nat) :
    Bytes → Outcome SnmpError (List UInt32)
  | [] => if count = 0 then .ok arcs else fail .malformed
  | byte :: rest =>
      if 5 < count + 1 ∨ (0xffffffff : UInt32) >>> 7 < value then
        fail .malformed
      else
        let value := value <<< 7 ||| (byte &&& 0x7f).toUInt32
        if byte &&& 0x80 = 0 then
          decodeArcs (arcs ++ [value]) 0 0 rest
        else
          decodeArcs arcs value (count + 1) rest

/-- `left - right` on `u32`, which panics below zero. -/
def subOrPanic (left right : UInt32) : Outcome SnmpError UInt32 :=
  if right ≤ left then .ok (left - right) else panics

/-- The two arcs that `decode_oid` takes the first number apart into. -/
def firstArcs (first : UInt32) : Outcome SnmpError (UInt32 × UInt32) :=
  if first < 40 then .ok (0, first)
  else if first < 80 then (subOrPanic first 40).map (1, ·)
  else (subOrPanic first 80).map (2, ·)

/-- `arcs[0] = arc`, which panics without an arc. -/
def setFirst (arcs : List UInt32) (arc : UInt32) : Outcome SnmpError (List UInt32) :=
  if 0 < arcs.length then .ok (arcs.set 0 arc) else panics

/-- `decode_oid`. -/
def decodeOid (bytes : Bytes) : Outcome SnmpError ObjectId := do
  let arcs ← decodeArcs [] 0 0 bytes
  let first ← okOr arcs.head? (.error .malformed)
  let (firstArc, secondArc) ← firstArcs first
  let arcs ← setFirst arcs secondArc
  return ⟨firstArc :: arcs⟩

/-- The arcs that a number stands for. -/
def splitArc (first : UInt32) : UInt32 × UInt32 :=
  if first < 40 then (0, first) else if first < 80 then (1, first - 40) else (2, first - 80)

/-- The comparisons stand before the differences. -/
theorem firstArcs_eq (first : UInt32) : firstArcs first = .ok (splitArc first) := by
  unfold firstArcs splitArc
  split
  · rfl
  · next from40 =>
      split
      · rw [subOrPanic, if_pos (UInt32.not_lt.mp from40)]
        rfl
      · next from80 =>
          rw [subOrPanic, if_pos (UInt32.not_lt.mp from80)]
          rfl

theorem decodeOid_of_arcs {bytes : Bytes} {first : UInt32} {rest : List UInt32}
    (decoded : decodeArcs [] 0 0 bytes = .ok (first :: rest)) :
    decodeOid bytes = .ok ⟨(splitArc first).1 :: (splitArc first).2 :: rest⟩ := by
  rw [decodeOid, decoded]
  change (firstArcs first >>= _) = _
  rw [firstArcs_eq]
  rfl

/-- `u32::try_from(decode_unsigned(bytes)?)`. -/
def decodeUnsigned32 (bytes : Bytes) : Outcome SnmpError UInt32 := do
  let value ← decodeUnsigned bytes
  if value.toNat < 2 ^ 32 then .ok value.toUInt32 else fail .malformed

/-- `i32::try_from(value)`. -/
def int32TryFrom (value : Int64) : Outcome SnmpError Int32 :=
  if Int32.minValue.toInt ≤ value.toInt ∧ value.toInt ≤ Int32.maxValue.toInt then
    .ok value.toInt32
  else
    fail .malformed

/-- `decode_value`.  Known tags with invalid encodings are malformed, not unknown
values. -/
def decodeValue (tag : UInt8) (bytes : Bytes) : Outcome SnmpError ObjectValue :=
  match tag with
  | 0x02 => (decodeInteger bytes).map .integer
  | 0x04 => .ok (.bytes bytes)
  | 0x05 => if bytes.isEmpty then .ok .null else fail .malformed
  | 0x06 => (decodeOid bytes).map .objectId
  | 0x40 =>
      if four : bytes.length = 4 then .ok (.ipAddress ⟨bytes, four⟩) else fail .malformed
  | 0x41 => (decodeUnsigned32 bytes).map .counter32
  | 0x42 => (decodeUnsigned32 bytes).map .gauge32
  | 0x43 => (decodeUnsigned32 bytes).map .timeTicks
  | 0x44 => .ok (.opaqueBytes bytes)
  | 0x45 => .ok (.nsap bytes)
  | 0x46 => (decodeUnsigned bytes).map .counter64
  | 0x47 => (decodeUnsigned32 bytes).map .unsigned32
  | 0x80 => if bytes.isEmpty then .ok .noSuchObject else fail .malformed
  | 0x81 => if bytes.isEmpty then .ok .noSuchInstance else fail .malformed
  | 0x82 => if bytes.isEmpty then .ok .endOfMibView else fail .malformed
  | _ => .ok (.unknown tag bytes)

/-! ## Messages -/

/-- One turn of the loop over the bindings. -/
def varBind (limits : DecodeLimits) : Read VarBind := do
  let binding ← Cursor.nested 0x30
  let (oid, binding) ← Cursor.value 0x06 256 binding
  let oid ← decodeOid oid
  let ((tag, value), binding) ← Cursor.any limits.maximumValueBytes binding
  binding.finish
  let value ← decodeValue tag value
  return ⟨oid, value⟩

/-- The loop over the bindings.  Every turn reads an element, so that a fuel of the
length of the input is never used up. -/
def varBinds (limits : DecodeLimits) : Nat → List VarBind → Read (List VarBind)
  | 0, _ => Method.panics
  | fuel + 1, varbinds => do
      let remaining ← (← get).remaining
      if remaining.isEmpty then
        return varbinds
      else if limits.maximumVarbinds ≤ varbinds.length then
        Method.fail .limitExceeded
      else
        let varbind ← varBind limits
        varBinds limits fuel (varbinds ++ [varbind])

/-- The response PDU, as far as `decode_response` returns it. -/
structure Pdu where
  requestId : Int32
  errorStatus : Int32
  errorIndex : Int32
  varbinds : List VarBind

/-- The part of `decode_response` that reads the contents of the PDU. -/
def decodePdu (expectedRequestId : Int32) (limits : DecodeLimits) (pdu : Cursor) :
    Outcome SnmpError Pdu := do
  let (requestId, pdu) ← Cursor.integer pdu
  let requestId ← int32TryFrom requestId
  if requestId ≠ expectedRequestId then
    fail .requestIdMismatch
  else
    let (errorStatus, pdu) ← Cursor.integer pdu
    let errorStatus ← int32TryFrom errorStatus
    let (errorIndex, pdu) ← Cursor.integer pdu
    let errorIndex ← int32TryFrom errorIndex
    let (bindings, pdu) ← Cursor.nested 0x30 pdu
    pdu.finish
    let (varbinds, _) ← varBinds limits (bindings.bytes.length + 1) [] bindings
    return ⟨requestId, errorStatus, errorIndex, varbinds⟩

/-- `target.fill(b'*')` on `get_mut(start..end)`. -/
def fillRange (bytes : Bytes) (start finish : Nat) : Option Bytes :=
  if start ≤ finish ∧ finish ≤ bytes.length then
    some (bytes.take start ++ List.replicate (finish - start) 0x2a ++ bytes.drop finish)
  else
    none

/-- `sanitize_v2c_message`. -/
def sanitizeV2cMessage (bytes : Bytes) : Outcome SnmpError Bytes := do
  let (outer, _) ← Cursor.nested 0x30 (Cursor.new bytes)
  let (_, outer) ← Cursor.integer outer
  let valueStart := outer.offset
  let (community, outer) ← Cursor.value 0x04 255 outer
  let valueEnd := outer.offset
  let headerLength ← okOr ((checkedSub valueEnd valueStart).bind fun length =>
    checkedSub length community.length) (.error .malformed)
  let outerHeader ← okOr (checkedSub bytes.length outer.bytes.length) .panic
  let start ← okOr ((checkedAdd outerHeader valueStart).bind (checkedAdd · headerLength)) .panic
  let finish ← okOr (checkedAdd start community.length) (.error .malformed)
  okOr (fillRange bytes start finish) (.error .malformed)

/-- The bytes hashed for the evidence: a domain label and the sanitized message. -/
def evidenceInput (sanitized : Bytes) : Bytes :=
  asBytes "mb-printer-snmp-v2c-evidence-v1" ++ [0] ++ sanitized

/-- The response returned for a PDU, with the evidence of its message. -/
def Pdu.response (pdu : Pdu) (sha256 : Sha256) (originalLength : Nat) (sanitized : Bytes) :
    Response where
  requestId := pdu.requestId
  errorStatus := pdu.errorStatus
  errorIndex := pdu.errorIndex
  varbinds := pdu.varbinds
  evidence := {
    credentialElidedHash := sha256 (evidenceInput sanitized)
    originalLength
    sanitizedBytes := some sanitized }

/-- `decode_response`. -/
def decodeResponse (sha256 : Sha256) (bytes : Bytes) (expectedRequestId : Int32)
    (limits : DecodeLimits) : Outcome SnmpError Response :=
  if limits.maximumMessageBytes < bytes.length then
    fail .limitExceeded
  else do
    let (outer, _) ← Cursor.nested 0x30 (Cursor.new bytes)
    let (version, outer) ← Cursor.integer outer
    if version ≠ 1 then
      fail .malformed
    else
      -- the community is discarded
      let (_, outer) ← Cursor.value 0x04 255 outer
      let (pdu, outer) ← Cursor.nested 0xa2 outer
      outer.finish
      let pdu ← decodePdu expectedRequestId limits pdu
      let sanitized ← sanitizeV2cMessage bytes
      return pdu.response sha256 bytes.length sanitized

/-! ## The decoder never panics -/

theorem noPanic_decodeArcs (arcs : List UInt32) (value : UInt32) (count : Nat) (bytes : Bytes) :
    NoPanic (decodeArcs arcs value count bytes) := by
  induction bytes generalizing arcs value count with
  | nil =>
      unfold decodeArcs
      split
      · exact noPanic_ok _
      · exact noPanic_fail _
  | cons byte rest ih =>
      unfold decodeArcs
      split
      · exact noPanic_fail _
      · dsimp only
        split
        · exact ih _ _ _
        · exact ih _ _ _

theorem noPanic_decodeOid (bytes : Bytes) : NoPanic (decodeOid bytes) := by
  apply NoPanic.bind (noPanic_decodeArcs _ _ _ _)
  intro arcs _
  cases arcs with
  | nil => exact noPanic_fail _
  | cons first rest =>
      change NoPanic (firstArcs first >>= _)
      rw [firstArcs_eq]
      exact noPanic_ok _

theorem noPanic_decodeUnsigned (bytes : Bytes) : NoPanic (decodeUnsigned bytes) := by
  unfold decodeUnsigned
  split
  · exact noPanic_fail _
  · next accepted =>
      have few : bytes.length ≤ 9 := Nat.not_lt.mp fun many => accepted (.inr (.inl many))
      -- a ninth octet is only accepted in front, where it is a zero that is taken off
      have fits : (if bytes.head? = some 0 then bytes.tail else bytes).length ≤ 8 := by
        split
        · rw [List.length_tail]
          omega
        · next other =>
            have notNine : bytes.length ≠ 9 := fun nine => accepted (.inr (.inr ⟨nine, other⟩))
            omega
      change NoPanic (copyToEnd _ _ >>= _)
      rw [copyToEnd_of_le 0 fits]
      exact noPanic_ok _

theorem noPanic_decodeUnsigned32 (bytes : Bytes) : NoPanic (decodeUnsigned32 bytes) := by
  apply NoPanic.bind (noPanic_decodeUnsigned bytes)
  intro value _
  split
  · exact noPanic_ok _
  · exact noPanic_fail _

theorem noPanic_int32TryFrom (value : Int64) : NoPanic (int32TryFrom value) := by
  unfold int32TryFrom
  split
  · exact noPanic_ok _
  · exact noPanic_fail _

theorem noPanic_decodeValue (tag : UInt8) (bytes : Bytes) : NoPanic (decodeValue tag bytes) := by
  have integer := (Cursor.noPanic_decodeInteger bytes).map ObjectValue.integer
  have objectId := (noPanic_decodeOid bytes).map ObjectValue.objectId
  have counter64 := (noPanic_decodeUnsigned bytes).map ObjectValue.counter64
  have unsigned32 (wrap : UInt32 → ObjectValue) := (noPanic_decodeUnsigned32 bytes).map wrap
  unfold decodeValue
  split <;> first | split | skip
  all_goals first | exact noPanic_ok _ | exact noPanic_fail _ | assumption | exact unsigned32 _

theorem noPanic_varBind (limits : DecodeLimits) {cursor : Cursor}
    (machine : cursor.bytes.length ≤ usizeMax) : NoPanic (varBind limits cursor) := by
  apply Method.noPanic_bind (Cursor.noPanic_nested _ machine)
  rintro binding bindings nested
  have within := Nat.le_trans (Cursor.bytes_of_nested nested).1 machine
  apply Method.noPanic_bind (Method.noPanic_lift _ (Cursor.noPanic_value _ _ within))
  rintro ⟨oid, named⟩ _ named'
  rw [← Cursor.bytes_of_value ((Method.lift_eq_ok _ _ _).mp named').1] at within
  apply Method.noPanic_bind (Method.noPanic_lift _ (noPanic_decodeOid _))
  rintro oid _ -
  apply Method.noPanic_bind (Method.noPanic_lift _ (Cursor.noPanic_any _ within))
  rintro ⟨⟨tag, value⟩, binding⟩ _ returned
  rcases (Method.lift_eq_ok _ _ _).mp returned with ⟨read, -⟩
  rcases (Cursor.any_eq_ok _ _ _).mp read with ⟨-, -, lengthOctets, -, reads⟩
  apply Method.noPanic_bind (Method.noPanic_lift _
    (Cursor.noPanic_finish (reads.offset_le (by simp [elementBytes]))))
  rintro ⟨⟩ _ -
  apply Method.noPanic_bind (Method.noPanic_lift _ (noPanic_decodeValue _ _))
  rintro value _ -
  exact Method.noPanic_methodPure _ _

theorem advanced_of_varBind {limits : DecodeLimits} {cursor next : Cursor} {varbind : VarBind}
    (returned : varBind limits cursor = .ok (varbind, next)) :
    next.bytes = cursor.bytes ∧ next.offset ≤ next.bytes.length ∧
      next.rest.length < cursor.rest.length := by
  simp only [varBind, Method.bind_eq_ok, Method.lift_eq_ok, Method.pure_eq_ok] at returned
  rcases returned with ⟨binding, bindings, nested, _, _, ⟨-, rfl⟩, _, _, ⟨-, rfl⟩, _, _,
    ⟨-, rfl⟩, _, _, ⟨-, rfl⟩, _, _, ⟨-, rfl⟩, same⟩
  rcases (Cursor.nested_eq_ok _ _).mp nested with ⟨content, read, -⟩
  cases same
  exact ⟨Cursor.bytes_of_value read, Cursor.advanced_of_value read⟩

/-- Every turn of the loop moves on, so that the fuel outlasts the input. -/
theorem noPanic_varBinds (limits : DecodeLimits) (fuel : Nat) (varbinds : List VarBind)
    (cursor : Cursor) (machine : cursor.bytes.length ≤ usizeMax)
    (inside : cursor.offset ≤ cursor.bytes.length) (enough : cursor.rest.length < fuel) : NoPanic (varBinds limits fuel varbinds cursor) := by
  induction fuel generalizing varbinds cursor with
  | zero => omega
  | succ fuel ih =>
      unfold varBinds
      apply Method.noPanic_bind (noPanic_ok _)
      intro state middle same
      cases same
      apply Method.noPanic_bind (Method.noPanic_lift _ (Cursor.noPanic_remaining inside))
      intro remaining _ same
      rcases (Method.lift_eq_ok _ _ _).mp same with ⟨-, rfl⟩
      split
      · exact Method.noPanic_methodPure _ _
      · split
        · exact Method.noPanic_methodFail _ _
        · apply Method.noPanic_bind (noPanic_varBind limits machine)
          intro varbind next returned
          have advanced := advanced_of_varBind returned
          rw [← advanced.1] at machine
          exact ih _ next machine advanced.2.1 (by omega)

theorem noPanic_decodePdu (expectedRequestId : Int32) (limits : DecodeLimits) {pdu : Cursor}
    (machine : pdu.bytes.length ≤ usizeMax) :
    NoPanic (decodePdu expectedRequestId limits pdu) := by
  apply NoPanic.bind (Cursor.noPanic_integer machine)
  rintro ⟨requestId, pdu⟩ read
  rw [← Cursor.bytes_of_integer read] at machine
  apply NoPanic.bind (noPanic_int32TryFrom _)
  rintro requestId -
  dsimp only
  split
  · exact noPanic_fail _
  · apply NoPanic.bind (Cursor.noPanic_integer machine)
    rintro ⟨errorStatus, pdu⟩ read
    rw [← Cursor.bytes_of_integer read] at machine
    apply NoPanic.bind (noPanic_int32TryFrom _)
    rintro errorStatus -
    apply NoPanic.bind (Cursor.noPanic_integer machine)
    rintro ⟨errorIndex, pdu⟩ read
    rw [← Cursor.bytes_of_integer read] at machine
    apply NoPanic.bind (noPanic_int32TryFrom _)
    rintro errorIndex -
    apply NoPanic.bind (Cursor.noPanic_nested _ machine)
    rintro ⟨bindings, pdu⟩ nested
    have within := Nat.le_trans (Cursor.bytes_of_nested nested).1 machine
    rcases (Cursor.nested_eq_ok _ _).mp nested with ⟨content, read, rfl⟩
    apply NoPanic.bind (Cursor.noPanic_finish (Cursor.advanced_of_value read).1)
    rintro ⟨⟩ -
    apply NoPanic.bind (noPanic_varBinds _ _ _ _ within (Nat.zero_le _)
      (by simp [Cursor.new, Cursor.rest]))
    rintro ⟨varbinds, _⟩ -
    exact noPanic_pure _

end PrinterSdk.Snmp
