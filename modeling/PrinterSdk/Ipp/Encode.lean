import PrinterSdk.Ipp.Message

/-!
# The IPP encoder

The encoder appends to its output while it keeps the same counters as the
decoder.  Values, members and collections recurse over the message itself.
-/

namespace PrinterSdk.Ipp

open PrinterSdk.Data

/-- `encode_scalar`. -/
def encodeScalar (value : Value) : Outcome EncodeError Bytes :=
  let mismatch : Outcome EncodeError Bytes := fail (.tagDataMismatch value.tag.toByte)
  match value.tag, value.data with
  | tag, .outOfBand => if tag.isOutOfBand then .ok [] else mismatch
  | .integer, .integer integer => .ok (i32Bytes integer)
  | .enum, .enum integer => .ok (i32Bytes integer)
  | .boolean, .boolean boolean => .ok [if boolean then 1 else 0]
  | .dateTime, .dateTime dateTime => .ok dateTime.1
  | .resolution, .resolution crossFeed feed units =>
      .ok (i32Bytes crossFeed ++ i32Bytes feed ++ [units])
  | .rangeOfInteger, .rangeOfInteger lower upper =>
      .ok (i32Bytes lower ++ i32Bytes upper)
  | tag, .bytes bytes =>
      if !tag.isOutOfBand &&
          !(tag ∈ [ValueTag.integer, .boolean, .enum, .dateTime, .resolution,
            .rangeOfInteger, .begCollection]) then
        .ok bytes
      else
        mismatch
  | _, _ => mismatch

/-- `Encoder`. -/
structure Encoder where
  output : Bytes
  limits : Limits
  counters : Counters

/-- A method of the encoder. -/
abbrev Encode (α : Type) := Method Encoder EncodeError α

namespace Encoder

/-- `Encoder::add_output`. -/
def addOutput (length : Nat) : Encode Unit := do
  let encoder ← get
  let actual := saturatingAdd encoder.output.length length
  let limit := encoder.limits.maxMessageBytes.toNat
  if limit < actual then
    Method.fail (.limit "message bytes" actual limit)

/-- `Encoder::extend`.  A vector whose length would leave `usize` panics. -/
def extend (bytes : Bytes) : Encode Unit := do
  addOutput bytes.length
  let encoder ← get
  if usizeMax < encoder.output.length + bytes.length then
    Method.panics
  else
    set { encoder with output := encoder.output ++ bytes }

/-- `Encoder::push`. -/
def push (byte : UInt8) : Encode Unit := extend [byte]

/-- `Encoder::add`: check a counter without changing it. -/
def add (kind : Counted) (add limit : Nat) : Encode Unit := do
  let encoder ← get
  let actual := saturatingAdd (encoder.counters kind) add
  if limit < actual then
    Method.fail (.limit kind.text actual limit)

/-- `self.counters.kind += amount`. -/
def count (kind : Counted) (amount : Nat) : Encode Unit := do
  let encoder ← get
  if usizeMax < encoder.counters kind + amount then
    Method.panics
  else
    set { encoder with counters := encoder.counters + Pi.single kind amount }

/-- Check a counter against its limit, then advance it. -/
def charge (kind : Counted) (amount : Nat) : Encode Unit := do
  let encoder ← get
  add kind amount (encoder.limits.bound kind)
  count kind amount

/-- `Encoder::decoded_bytes`. -/
def decodedBytes (length : Nat) : Encode Unit := charge .decodedBytes length

/-- `Encoder::check_name`. -/
def checkName (name : Bytes) : Encode Unit := do
  let encoder ← get
  let limit := encoder.limits.maxNameBytes.toNat
  if limit < name.length then
    Method.fail (.limit "name bytes" name.length limit)

/-- `Encoder::wire_bytes`. -/
def wireBytes (bytes : Bytes) : Encode Unit := do
  let encoder ← get
  let limit := encoder.limits.maxValueBytes.toNat
  if 65535 < bytes.length then
    Method.fail .wireLengthOverflow
  else if limit < bytes.length then
    Method.fail (.limit "value bytes" bytes.length limit)
  else
    decodedBytes bytes.length
    extend (u16Bytes (UInt16.ofNat bytes.length))
    extend bytes

/-- `Encoder::control`. -/
def control (tag : ValueTag) (bytes : Bytes) : Encode Unit := do
  charge .values 1
  push tag.toByte
  wireBytes []
  wireBytes bytes

mutual

/-- `Encoder::value`. -/
def value : Bytes → Value → Nat → Encode Unit
  | name, .mk tag data, depth => do
      charge .values 1
      push tag.toByte
      wireBytes name
      valueData tag data depth

/-- The match of `Encoder::value` on tag and data. -/
def valueData : ValueTag → ValueData → Nat → Encode Unit
  | .begCollection, .collection collected, depth => do
      let limit := (← get).limits.maxCollectionDepth.toNat
      if limit < depth + 1 then
        Method.fail (.limit "collection depth" (depth + 1) limit)
      else
        wireBytes []
        members collected (depth + 1)
        control .endCollection []
  | tag, data, _ => do
      let encoded ← (encodeScalar ⟨tag, data⟩ : Outcome EncodeError Bytes)
      wireBytes encoded

/-- `Encoder::member`. -/
def member : CollectionMember → Nat → Encode Unit
  | .mk name collected, depth => do
      if name.isEmpty || collected.isEmpty then
        Method.fail (.invalidStructure
          "collection members require a name and at least one value")
      else
        charge .collectionMembers 1
        charge .attributes 1
        checkName name
        control .memberAttrName name
        values [] collected depth

/-- The value loop of `Encoder::attribute` and of `Encoder::member`: the first value
carries the name, the others carry none. -/
def values : Bytes → List Value → Nat → Encode Unit
  | _, [], _ => return
  | name, first :: rest, depth => do
      value name first depth
      values [] rest depth

/-- The member loop of `Encoder::value`. -/
def members : List CollectionMember → Nat → Encode Unit
  | [], _ => return
  | first :: rest, depth => do
      member first depth
      members rest depth

end

/-- `Encoder::attribute`. -/
def encodeAttribute (attr : Attribute) (depth : Nat) : Encode Unit := do
  if attr.name.isEmpty || attr.values.isEmpty then
    Method.fail (.invalidStructure
      "attributes require a non-empty name and at least one value")
  else
    charge .attributes 1
    checkName attr.name
    values attr.name attr.values depth

/-- The attribute loop of `encode`. -/
def attributes : List Attribute → Encode Unit
  | [] => return
  | first :: rest => do
      encodeAttribute first 0
      attributes rest

/-- The group loop of `encode`. -/
def groups : List AttributeGroup → Encode Unit
  | [] => return
  | group :: rest => do
      if !isDelimiterTag group.tag then
        Method.fail (.invalidStructure "attribute group has an invalid delimiter tag")
      else
        charge .groups 1
        push group.tag
        attributes group.attributes
        groups rest

/-- The body of `encode`, on a fresh encoder. -/
def message (message : Message) : Encode Unit := do
  push message.version.major
  push message.version.minor
  extend (u16Bytes message.code)
  extend (u32Bytes message.requestId)
  groups message.groups
  push endOfAttributesTag

end Encoder

/-- `encode`. -/
def encode (message : Message) (limits : Limits) : Outcome EncodeError Bytes :=
  if !limits.valid then
    fail .invalidLimits
  else
    (Encoder.message message ⟨[], limits, 0⟩).map (·.2.output)

end PrinterSdk.Ipp
