import PrinterSdk.Snmp.Response

/-!
# SNMPv2c requests

`encodeGet` asks for one registered object.  A request is built from the inside out: the
object identifier in base 128, minimal integers, and elements with short or long length
octets.
-/

namespace PrinterSdk.Snmp

open PrinterSdk.Data

/-! ## Registered objects -/

/-- `RegisteredObject`. -/
structure RegisteredObject where
  oid : ObjectId
  semanticId : String
  sensitive : Bool
  deriving DecidableEq, Repr

/-- The objects of `ObjectRegistry`, one for each identifier. -/
structure ObjectRegistry where
  objects : List RegisteredObject
  distinct : (objects.map RegisteredObject.oid).Nodup

namespace ObjectRegistry

/-- `ObjectRegistry::default`. -/
def default : ObjectRegistry := ⟨[], List.nodup_nil⟩

/-- `ObjectRegistry::get`. -/
def get (registry : ObjectRegistry) (oid : ObjectId) : Option RegisteredObject :=
  registry.objects.find? fun object => object.oid = oid

/-- `ObjectRegistry::register`. -/
def register (registry : ObjectRegistry) (object : RegisteredObject) :
    Outcome SnmpError ObjectRegistry :=
  if refused : object.semanticId = "" ∨ object.oid ∈ registry.objects.map RegisteredObject.oid then
    fail .unregisteredObject
  else
    .ok ⟨object :: registry.objects,
      List.nodup_cons.mpr ⟨fun member => refused (.inr member), registry.distinct⟩⟩

/-- `ObjectRegistry::permits_root`. -/
def permitsRoot (registry : ObjectRegistry) (root : ObjectId) : Bool :=
  registry.objects.any fun object => root.arcs.isPrefixOf object.oid.arcs

end ObjectRegistry

/-! ## Elements -/

/-- The length octets of `tlv`: the length itself, or its octets behind their number. -/
def lengthOctets (length : Nat) : Bytes :=
  if length < 128 then
    [UInt8.ofNat length]
  else
    let bytes := beBytes 8 length
    let first := (bytes.findIdx? fun byte => byte ≠ 0).getD (bytes.length - 1)
    (0x80 ||| UInt8.ofNat (bytes.length - first)) :: bytes.drop first

/-- `tlv`. -/
def tlv (tag : UInt8) (value : Bytes) : Bytes :=
  elementBytes tag (lengthOctets value.length) value

/-- `sequence`. -/
def sequence (content : Bytes) : Bytes := tlv 0x30 content

/-- The octets that the loop of `integer_tlv` leaves: a first octet that repeats the sign
of the next is dropped. -/
def minimalOctets : Bytes → Bytes
  | first :: second :: rest =>
      if first = 0 ∧ second &&& 0x80 = 0 ∨ first = 0xff ∧ second &&& 0x80 ≠ 0 then
        minimalOctets (second :: rest)
      else
        first :: second :: rest
  | bytes => bytes

/-- `i64::to_be_bytes`. -/
def i64Bytes (value : Int64) : Bytes := beBytes 8 value.toUInt64.toNat

/-- `integer_tlv`. -/
def integerTlv (value : Int64) : Bytes := tlv 0x02 (minimalOctets (i64Bytes value))

/-- The loop of `encode_base128`: groups of seven bits, the least significant last, in the
free places of an array of five. -/
def base128Loop : Nat → UInt32 → Bytes → Bytes
  | 0, _, encoded => encoded
  | index + 1, value, encoded =>
      let encoded := (value &&& 0x7f).toUInt8 :: encoded
      let value := value >>> 7
      if value = 0 then encoded else base128Loop index value encoded

/-- `encode_base128`: every group but the last is marked. -/
def encodeBase128 (value : UInt32) : Bytes :=
  let encoded := base128Loop 5 value []
  encoded.dropLast.map (fun byte => byte ||| 0x80) ++ encoded.drop (encoded.length - 1)

/-- `encode_oid`.  The first two arcs are joined in `u32` arithmetic that wraps; a build
with overflow checks aborts there. -/
def encodeOid (oid : ObjectId) : Outcome SnmpError Bytes :=
  match oid.arcs with
  | first :: second :: rest =>
      if 2 < first ∨ first < 2 ∧ 39 < second then
        fail .invalidOid
      else
        .ok (encodeBase128 (first * 40 + second) ++ rest.flatMap encodeBase128)
  | _ => fail .invalidOid

/-! ## Requests -/

/-- `encode_request`. -/
def encodeRequest (registry : ObjectRegistry) (community : Bytes) (requestId : Int32)
    (oid : ObjectId) (pduTag : UInt8) : Outcome SnmpError Bytes := do
  refuseIf (community.isEmpty ∨ 255 < community.length ∨
    pduTag = 0xa1 ∧ ¬registry.permitsRoot oid) (.error .unregisteredObject)
  let encoded ← encodeOid oid
  let varbind := sequence (tlv 0x06 encoded ++ tlv 0x05 [])
  let varbinds := sequence varbind
  let pdu := tlv pduTag
    (integerTlv requestId.toInt64 ++ (integerTlv 0 ++ (integerTlv 0 ++ varbinds)))
  return sequence (integerTlv 1 ++ (tlv 0x04 community ++ pdu))

/-- `encode_get`. -/
def encodeGet (registry : ObjectRegistry) (community : Bytes) (requestId : Int32)
    (oid : ObjectId) : Outcome SnmpError Bytes :=
  if (registry.get oid).isNone then
    fail .unregisteredObject
  else
    encodeRequest registry community requestId oid 0xa0

end PrinterSdk.Snmp
