import PrinterSdk.Ipp.Message

/-!
# The IPP decoder

The decoder keeps the whole input, an offset into it and the running counters.
Each method of the source is a state transformer over that record.  The source
recurses through `collection`; here the recursion is carried by a number of
remaining entries, and running out of it is a panic, which the specification of
the decoder shows never to happen.
-/

namespace PrinterSdk.Ipp

open PrinterSdk.Data

/-- `Decoder`. -/
structure Decoder where
  input : Bytes
  offset : Nat
  limits : Limits
  counters : Counters

/-- A method of the decoder. -/
abbrev Decode (α : Type) := Method Decoder DecodeError α

/-- Apply `update` to the last element, if there is one: `last_mut`. -/
def updateLast {α : Type} (update : α → α) : List α → Option (List α)
  | [] => none
  | [last] => some [update last]
  | first :: second :: rest =>
      (updateLast update (second :: rest)).map (first :: ·)

/-- `i32::from_be_bytes(bytes.try_into().expect(..))`. -/
def expectI32 (bytes : Bytes) : Outcome DecodeError Int32 :=
  (expectArray 4 bytes).map i32OfBytes

/-- `exact_i32`. -/
def exactI32 (raw : Bytes) (tag : ValueTag) (offset : Nat) :
    Outcome DecodeError Int32 :=
  if raw.length ≠ 4 then
    fail (.invalidValue offset tag.toByte
      "integer and enum values must be exactly 4 bytes")
  else
    expectI32 raw

/-- `decode_scalar`. -/
def decodeScalar (tag : ValueTag) (raw : Bytes) (offset : Nat) :
    Outcome DecodeError ValueData :=
  let invalid (reason : String) : Outcome DecodeError ValueData :=
    fail (.invalidValue offset tag.toByte reason)
  if tag.isOutOfBand then
    if !raw.isEmpty then invalid "out-of-band value must be empty"
    else .ok .outOfBand
  else
    match tag with
    | .integer => (exactI32 raw tag offset).map .integer
    | .enum => (exactI32 raw tag offset).map .enum
    | .boolean =>
        match raw with
        | [0] => .ok (.boolean false)
        | [1] => .ok (.boolean true)
        | _ => invalid "boolean must be exactly one byte containing zero or one"
    | .dateTime =>
        if eleven : raw.length = 11 then .ok (.dateTime ⟨raw, eleven⟩)
        else invalid "dateTime must be exactly 11 bytes"
    | .resolution =>
        if raw.length = 9 then do
          let crossFeed ← expectI32 (← sliced raw 0 4)
          let feed ← expectI32 (← sliced raw 4 8)
          let units ← indexed raw 8
          return .resolution crossFeed feed units
        else invalid "resolution must be exactly 9 bytes"
    | .rangeOfInteger =>
        if raw.length = 8 then do
          let lower ← expectI32 (← sliced raw 0 4)
          let upper ← expectI32 (← sliced raw 4 8)
          return .rangeOfInteger lower upper
        else invalid "rangeOfInteger must be exactly 8 bytes"
    | .begCollection => invalid "nested collection was not decoded"
    | _ => .ok (.bytes raw)

namespace Decoder

/-- `Decoder::byte`. -/
def byte : Decode UInt8 := do
  let decoder ← get
  match decoder.input[decoder.offset]? with
  | none => Method.fail (.truncated decoder.offset 1)
  | some byte =>
      let offset ← (okOr (checkedAdd decoder.offset 1) .panic : Outcome DecodeError Nat)
      set { decoder with offset }
      return byte

/-- `Decoder::peek`. -/
def peek : Decode UInt8 := do
  let decoder ← get
  match decoder.input[decoder.offset]? with
  | none => Method.fail .missingEndOfAttributes
  | some byte => return byte

/-- `Decoder::take`. -/
def take (length : Nat) : Decode Bytes := do
  let decoder ← get
  match checkedAdd decoder.offset length with
  | none => Method.fail (.truncated decoder.offset length)
  | some finish =>
      if finish ≤ decoder.input.length then
        set { decoder with offset := finish }
        return (decoder.input.drop decoder.offset).take length
      else
        Method.fail (.truncated decoder.offset (finish - decoder.input.length))

/-- `Decoder::u16`. -/
def u16 : Decode UInt16 := do
  let bytes ← take 2
  let high ← (indexed bytes 0 : Outcome DecodeError UInt8)
  let low ← (indexed bytes 1 : Outcome DecodeError UInt8)
  return u16OfBytes [high, low]

/-- `Decoder::u32`. -/
def u32 : Decode UInt32 := do
  let bytes ← take 4
  let word ← (expectArray 4 bytes : Outcome DecodeError Bytes)
  return u32OfBytes word

/-- `Decoder::bump`: check a counter without changing it. -/
def bump (kind : Counted) (add limit : Nat) : Decode Unit := do
  let decoder ← get
  let actual := saturatingAdd (decoder.counters kind) add
  if limit < actual then
    Method.fail (.limit kind.text actual limit)

/-- `self.counters.kind += add`. -/
def count (kind : Counted) (add : Nat) : Decode Unit := do
  let decoder ← get
  if usizeMax < decoder.counters kind + add then
    Method.panics
  else
    set { decoder with counters := decoder.counters + Pi.single kind add }

/-- The shape of `add_decoded_bytes`, `add_attribute` and `add_value`: check a
counter against its limit, then advance it. -/
def charge (kind : Counted) (add : Nat) : Decode Unit := do
  let decoder ← get
  bump kind add (decoder.limits.bound kind)
  count kind add

/-- `Decoder::add_decoded_bytes`. -/
def addDecodedBytes (length : Nat) : Decode Unit := charge .decodedBytes length

/-- `Decoder::add_attribute`. -/
def addAttribute : Decode Unit := charge .attributes 1

/-- `Decoder::add_value`. -/
def addValue : Decode Unit := charge .values 1

/-- A wire name or value whose length is checked against `limit`. -/
def field (kind : String) (limit : Nat) : Decode Bytes := do
  let length ← u16
  if limit < length.toNat then
    Method.fail (.limit kind length.toNat limit)
  else
    let bytes ← take length.toNat
    addDecodedBytes length.toNat
    return bytes

/-- `Decoder::attribute_value`, up to the decoding of the raw value: the tag, the
name and the raw value of one entry. -/
def entry : Decode (ValueTag × Bytes × Bytes) := do
  let decoder ← get
  let tag := ValueTag.fromByte (← byte)
  let name ← field "name bytes" decoder.limits.maxNameBytes.toNat
  let raw ← field "value bytes" decoder.limits.maxValueBytes.toNat
  addValue
  return (tag, name, raw)

/-- The data of an entry: a nested collection, or the decoded raw value. -/
def valueContent (collection : Nat → Decode (List CollectionMember))
    (collectionDepth : Nat) (tag : ValueTag) (raw : Bytes) (entryOffset : Nat) :
    Decode ValueData := do
  if tag = .begCollection then
    if raw.length ≠ 0 then
      Method.fail (.invalidValue entryOffset tag.toByte
        "begCollection must have an empty value")
    else
      let members ← collection (collectionDepth + 1)
      return .collection members
  else
    (decodeScalar tag raw entryOffset : Outcome DecodeError ValueData)

/-- `Decoder::attribute_value`, over the decoder of a nested collection. -/
def attributeValueWith (collection : Nat → Decode (List CollectionMember))
    (collectionDepth : Nat) : Decode (ValueTag × Bytes × Value) := do
  let entryOffset := (← get).offset
  let (tag, name, raw) ← entry
  let data ← valueContent collection collectionDepth tag raw entryOffset
  return (tag, name, ⟨tag, data⟩)

/-- The checks and counters of a `memberAttrName` entry. -/
def memberName (data : ValueData) (entryOffset : Nat) : Decode Bytes := do
  match data with
  | .bytes name =>
      let limits := (← get).limits
      if name.isEmpty then
        Method.fail (.invalidValue entryOffset ValueTag.memberAttrName.toByte
          "memberAttrName cannot be empty")
      else if limits.maxNameBytes.toNat < name.length then
        Method.fail (.limit "name bytes" name.length limits.maxNameBytes.toNat)
      else
        charge .collectionMembers 1
        addAttribute
        return name
  | _ => Method.panics

/-- `member.values.push(value)` on the last of `members`. -/
def pushMemberValue (members : List CollectionMember) (value : Value) :
    Option (List CollectionMember) :=
  updateLast (fun member => ⟨member.name, member.values ++ [value]⟩) members

/-- `Decoder::collection`, from its entry check on. -/
def enterCollection (body : Nat → List CollectionMember → Decode (List CollectionMember))
    (depth : Nat) : Decode (List CollectionMember) := do
  let limits := (← get).limits
  if limits.maxCollectionDepth.toNat < depth then
    Method.fail (.limit "collection depth" depth limits.maxCollectionDepth.toNat)
  else
    body depth []

/-- The match of `Decoder::collection` on the tag of an entry; `loop` reads the
entries that follow. -/
def collectionEntry (loop : List CollectionMember → Decode (List CollectionMember))
    (members : List CollectionMember) (tag : ValueTag) (value : Value)
    (entryOffset : Nat) : Decode (List CollectionMember) := do
  match tag with
  | .endCollection =>
      match value.data with
      | .bytes [] => return members
      | _ =>
          Method.fail (.invalidValue entryOffset tag.toByte
            "endCollection must have an empty value")
  | .memberAttrName =>
      let name ← memberName value.data entryOffset
      loop (members ++ [⟨name, []⟩])
  | _ =>
      match pushMemberValue members value with
      | none =>
          Method.fail (.invalidValue entryOffset tag.toByte
            "member value precedes memberAttrName")
      | some members => loop members

/-- The loop of `Decoder::collection`: `entries` bounds the entries still to be
read, `members` are those completed so far. -/
def collectionLoop : Nat → Nat → List CollectionMember → Decode (List CollectionMember)
  | 0, _, _ => Method.panics
  | entries + 1, depth, members => do
      let entryOffset := (← get).offset
      let next ← peek
      if next = endOfAttributesTag then
        Method.fail (.endInsideCollection entryOffset)
      else if isDelimiterTag next then
        Method.fail (.illegalTag entryOffset next
          "attribute group delimiter inside a collection")
      else
        let (tag, wireName, value) ←
          attributeValueWith (enterCollection (collectionLoop entries)) depth
        if !wireName.isEmpty then
          Method.fail (.invalidValue entryOffset tag.toByte
            "collection entries must have empty wire names")
        else
          collectionEntry (collectionLoop entries depth) members tag value entryOffset

/-- `Decoder::attribute_value`. -/
def attributeValue (entries depth : Nat) : Decode (ValueTag × Bytes × Value) :=
  attributeValueWith (enterCollection (collectionLoop entries)) depth

/-- `attribute.values.push(value)` on the last of `attributes`. -/
def pushRepeatedValue (attributes : List Attribute) (value : Value) :
    Option (List Attribute) :=
  updateLast (fun last => ⟨last.name, last.values ++ [value]⟩) attributes

/-- One value of a group: a further value of the last attribute when the wire name
is empty, the first value of a new attribute otherwise. -/
def pushAttributeValue (attributes : List Attribute) (name : Bytes) (value : Value)
    (entryOffset : Nat) : Decode (List Attribute) := do
  if name.isEmpty then
    match pushRepeatedValue attributes value with
    | none => Method.fail (.missingRepeatedAttribute entryOffset)
    | some attributes => return attributes
  else
    addAttribute
    return attributes ++ [⟨name, [value]⟩]

/-- The attribute loop of `decode` inside one group. -/
def attributesLoop : Nat → List Attribute → Decode (List Attribute)
  | 0, _ => Method.panics
  | entries + 1, attributes => do
      let decoder ← get
      if decoder.input.length ≤ decoder.offset then
        return attributes
      else
        let next ← peek
        if next = endOfAttributesTag ∨ isDelimiterTag next then
          return attributes
        else
          let (valueTag, name, value) ← attributeValue entries 0
          let attributes ← pushAttributeValue attributes name value decoder.offset
          if valueTag = .memberAttrName ∨ valueTag = .endCollection then
            Method.fail (.illegalTag decoder.offset valueTag.toByte
              "collection control tag outside a collection")
          else
            attributesLoop entries attributes

/-- The group loop of `decode`. -/
def groupsLoop : Nat → List AttributeGroup → Decode (List AttributeGroup)
  | 0, _ => Method.panics
  | entries + 1, groups => do
      let markerOffset := (← get).offset
      let tag ← Method.mapError
        (fun
          | .truncated _ _ => .missingEndOfAttributes
          | other => other)
        byte
      let decoder ← get
      if tag = endOfAttributesTag then
        if decoder.offset ≠ decoder.input.length then
          Method.fail (.trailingBytes decoder.offset)
        else
          return groups
      else if !isDelimiterTag tag then
        Method.fail (.missingGroup markerOffset tag)
      else
        charge .groups 1
        let attributes ← attributesLoop entries []
        groupsLoop entries (groups ++ [⟨tag, attributes⟩])

/-- The body of `decode`, on a fresh decoder. -/
def message : Decode Message := do
  let major ← byte
  let minor ← byte
  let code ← u16
  let requestId ← u32
  let input := (← get).input
  let groups ← groupsLoop (input.length + 1) []
  return ⟨⟨major, minor⟩, code, requestId, groups, input⟩

end Decoder

/-- `decode`. -/
def decode (input : Bytes) (limits : Limits) : Outcome DecodeError Message :=
  if !limits.valid then
    fail .invalidLimits
  else if limits.maxMessageBytes.toNat < input.length then
    fail (.messageTooLarge input.length limits.maxMessageBytes.toNat)
  else
    (Decoder.message ⟨input, 0, limits, 0⟩).map (·.1)

end PrinterSdk.Ipp
