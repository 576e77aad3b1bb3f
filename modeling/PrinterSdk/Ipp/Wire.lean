import PrinterSdk.Ipp.Message

/-!
# The IPP wire format

A specification of the byte string a message denotes and of the resources it
uses, independent of how the encoder writes it and of how the decoder reads it.
A message is a sequence of entries; a collection is an entry followed by the
entries of its members and a closing control entry.

Conditions on messages are local: a `Rule` says what each value and each
collection member must satisfy, and `All` asks it at every nesting depth.
-/

namespace PrinterSdk.Ipp

open PrinterSdk.Data

/-! ## Entries -/

/-- A field prefixed by its sixteen-bit length. -/
def fieldBytes (bytes : Bytes) : Bytes := beBytes 2 bytes.length ++ bytes

/-- One entry: a tag, a name and a raw value. -/
def entryBytes (tag : UInt8) (name raw : Bytes) : Bytes :=
  tag :: (fieldBytes name ++ fieldBytes raw)

/-- What one entry adds to the counters. -/
def entryCost (name raw : Bytes) : Counters :=
  Pi.single .decodedBytes name.length + Pi.single .decodedBytes raw.length +
    Pi.single .values 1

/-- The entry that closes a collection. -/
def endEntry : Bytes := entryBytes ValueTag.endCollection.toByte [] []

/-- The entry that names a collection member. -/
def memberEntry (name : Bytes) : Bytes :=
  entryBytes ValueTag.memberAttrName.toByte [] name

@[simp] theorem length_fieldBytes (bytes : Bytes) :
    (fieldBytes bytes).length = 2 + bytes.length := by
  simp [fieldBytes]

@[simp] theorem length_entryBytes (tag : UInt8) (name raw : Bytes) :
    (entryBytes tag name raw).length = 5 + name.length + raw.length := by
  simp only [entryBytes, List.length_cons, List.length_append, length_fieldBytes]
  omega

/-! ## Data and tags -/

/-- The raw value of an entry that carries `data`.  The entry that opens a
collection has an empty one. -/
def ValueData.raw : ValueData → Bytes
  | .outOfBand => []
  | .integer value => i32Bytes value
  | .boolean value => [if value then 1 else 0]
  | .enum value => i32Bytes value
  | .dateTime value => value.1
  | .resolution crossFeed feed units => i32Bytes crossFeed ++ i32Bytes feed ++ [units]
  | .rangeOfInteger lower upper => i32Bytes lower ++ i32Bytes upper
  | .collection _ => []
  | .bytes content => content

/-- Whether the data is a collection. -/
def ValueData.isCollection : ValueData → Bool
  | .collection _ => true
  | _ => false

namespace ValueTag

/-- The tags whose values stay uninterpreted byte strings. -/
def isOpaque (tag : ValueTag) : Bool :=
  !tag.isOutOfBand &&
    !(tag ∈ [integer, boolean, enum, dateTime, resolution, rangeOfInteger,
      begCollection])

/-- Whether data has the syntax that the tag announces. -/
def fits : ValueTag → ValueData → Bool
  | tag, .outOfBand => tag.isOutOfBand
  | tag, .integer _ => tag = integer
  | tag, .boolean _ => tag = boolean
  | tag, .enum _ => tag = enum
  | tag, .dateTime _ => tag = dateTime
  | tag, .resolution _ _ _ => tag = resolution
  | tag, .rangeOfInteger _ _ => tag = rangeOfInteger
  | tag, .collection _ => tag = begCollection
  | tag, .bytes _ => tag.isOpaque

/-- The tag is the one that reading its own byte gives back. -/
def Canonical (tag : ValueTag) : Prop := fromByte tag.toByte = tag

/-- The byte neither starts a group nor ends the attributes. -/
def IsValueByte (byte : UInt8) : Prop :=
  byte ≠ endOfAttributesTag ∧ isDelimiterTag byte = false

/-- The tag of an ordinary value: canonical, and with no control meaning for the
reader. -/
structure Plain (tag : ValueTag) : Prop where
  canonical : tag.Canonical
  valueByte : IsValueByte tag.toByte
  not_end : tag ≠ endCollection
  not_member : tag ≠ memberAttrName

instance (tag : ValueTag) : Decidable tag.Canonical :=
  inferInstanceAs (Decidable (fromByte tag.toByte = tag))

instance (byte : UInt8) : Decidable (IsValueByte byte) :=
  inferInstanceAs (Decidable (_ ∧ _))

theorem plain_iff (tag : ValueTag) :
    tag.Plain ↔ tag.Canonical ∧ IsValueByte tag.toByte ∧ tag ≠ endCollection ∧
      tag ≠ memberAttrName := by
  constructor
  · intro plain
    exact ⟨plain.canonical, plain.valueByte, plain.not_end, plain.not_member⟩
  · rintro ⟨canonical, valueByte, notEnd, notMember⟩
    exact ⟨canonical, valueByte, notEnd, notMember⟩

instance (tag : ValueTag) : Decidable tag.Plain :=
  decidable_of_iff' _ tag.plain_iff

theorem canonical_fromByte (byte : UInt8) : (fromByte byte).Canonical := by
  rw [Canonical, toByte_fromByte]

end ValueTag

/-! ## Values, members and collections -/

mutual

/-- The entries of a value; `name` is the wire name of the first of them. -/
def Value.wire : Bytes → Value → Bytes
  | name, .mk tag data => entryBytes tag.toByte name data.raw ++ data.nested

/-- The entries that follow the first entry of a value. -/
def ValueData.nested : ValueData → Bytes
  | .collection members => membersWire members ++ endEntry
  | _ => []

/-- The entries of a collection member. -/
def CollectionMember.wire : CollectionMember → Bytes
  | .mk name values => memberEntry name ++ valuesWire values

/-- The entries of values without wire names. -/
def valuesWire : List Value → Bytes
  | [] => []
  | first :: rest => first.wire [] ++ valuesWire rest

/-- The entries of a list of collection members. -/
def membersWire : List CollectionMember → Bytes
  | [] => []
  | first :: rest => first.wire ++ membersWire rest

end

mutual

/-- What a value adds to the counters. -/
def Value.cost : Bytes → Value → Counters
  | name, .mk _ data => entryCost name data.raw + data.nestedCost

def ValueData.nestedCost : ValueData → Counters
  | .collection members => membersCost members + entryCost [] []
  | _ => 0

def CollectionMember.cost : CollectionMember → Counters
  | .mk name values =>
      entryCost [] name + Pi.single .collectionMembers 1 + Pi.single .attributes 1 +
        valuesCost values

def valuesCost : List Value → Counters
  | [] => 0
  | first :: rest => first.cost [] + valuesCost rest

def membersCost : List CollectionMember → Counters
  | [] => 0
  | first :: rest => first.cost + membersCost rest

end

theorem wire_endCollection : Value.wire [] ⟨.endCollection, .bytes []⟩ = endEntry := by
  simp [Value.wire, ValueData.nested, ValueData.raw, endEntry]

theorem wire_memberAttrName (name : Bytes) :
    Value.wire [] ⟨.memberAttrName, .bytes name⟩ = memberEntry name := by
  simp [Value.wire, ValueData.nested, ValueData.raw, memberEntry]

@[simp] theorem valuesWire_append (first rest : List Value) :
    valuesWire (first ++ rest) = valuesWire first ++ valuesWire rest := by
  induction first with
  | nil => rfl
  | cons value values ih => simp [valuesWire, ih]

@[simp] theorem membersWire_append (first rest : List CollectionMember) :
    membersWire (first ++ rest) = membersWire first ++ membersWire rest := by
  induction first with
  | nil => rfl
  | cons member members ih => simp [membersWire, ih]

@[simp] theorem valuesCost_append (first rest : List Value) :
    valuesCost (first ++ rest) = valuesCost first + valuesCost rest := by
  induction first with
  | nil => simp [valuesCost]
  | cons value values ih => simp [valuesCost, ih, add_assoc]

@[simp] theorem membersCost_append (first rest : List CollectionMember) :
    membersCost (first ++ rest) = membersCost first + membersCost rest := by
  induction first with
  | nil => simp [membersCost]
  | cons member members ih => simp [membersCost, ih, add_assoc]

/-! ## Rules at every depth -/

/-- A condition on each value and on each collection member, given the collection
depth it stands at. -/
structure Rule where
  onValue : Nat → ValueTag → ValueData → Prop
  onMember : Nat → Bytes → List Value → Prop

/-- Both conditions. -/
def Rule.both (first second : Rule) : Rule where
  onValue depth tag data := first.onValue depth tag data ∧ second.onValue depth tag data
  onMember depth name values :=
    first.onMember depth name values ∧ second.onMember depth name values

theorem Rule.both_onValue {first second : Rule} {depth : Nat} {tag : ValueTag}
    {data : ValueData} :
    (first.both second).onValue depth tag data ↔
      first.onValue depth tag data ∧ second.onValue depth tag data := Iff.rfl

theorem Rule.both_onMember {first second : Rule} {depth : Nat} {name : Bytes}
    {values : List Value} :
    (first.both second).onMember depth name values ↔
      first.onMember depth name values ∧ second.onMember depth name values := Iff.rfl

mutual

/-- The rule holds of a value and of everything nested in it. -/
def Value.All (rule : Rule) : Nat → Value → Prop
  | depth, .mk tag data => rule.onValue depth tag data ∧ data.All rule depth

def ValueData.All (rule : Rule) : Nat → ValueData → Prop
  | depth, .collection members => membersAll rule (depth + 1) members
  | _, _ => True

def CollectionMember.All (rule : Rule) : Nat → CollectionMember → Prop
  | depth, .mk name values => rule.onMember depth name values ∧ valuesAll rule depth values

def valuesAll (rule : Rule) : Nat → List Value → Prop
  | _, [] => True
  | depth, first :: rest => first.All rule depth ∧ valuesAll rule depth rest

def membersAll (rule : Rule) : Nat → List CollectionMember → Prop
  | _, [] => True
  | depth, first :: rest => first.All rule depth ∧ membersAll rule depth rest

end

@[simp] theorem valuesAll_append (rule : Rule) (depth : Nat) (first rest : List Value) :
    valuesAll rule depth (first ++ rest) ↔
      valuesAll rule depth first ∧ valuesAll rule depth rest := by
  induction first with
  | nil => simp [valuesAll]
  | cons value values ih => simp [valuesAll, ih, and_assoc]

@[simp] theorem membersAll_append (rule : Rule) (depth : Nat)
    (first rest : List CollectionMember) :
    membersAll rule depth (first ++ rest) ↔
      membersAll rule depth first ∧ membersAll rule depth rest := by
  induction first with
  | nil => simp [membersAll]
  | cons member members ih => simp [membersAll, ih, and_assoc]

mutual

theorem Value.all_both (first second : Rule) (depth : Nat) (value : Value) :
    value.All (first.both second) depth ↔
      value.All first depth ∧ value.All second depth := by
  cases value with
  | mk tag data =>
      simp only [Value.All, Rule.both_onValue, data.all_both first second depth]
      exact and_and_and_comm

theorem ValueData.all_both (first second : Rule) (depth : Nat) (data : ValueData) :
    data.All (first.both second) depth ↔
      data.All first depth ∧ data.All second depth := by
  cases data with
  | collection members =>
      simp only [ValueData.All, membersAll_both first second (depth + 1) members]
  | _ => simp [ValueData.All]

theorem CollectionMember.all_both (first second : Rule) (depth : Nat)
    (member : CollectionMember) :
    member.All (first.both second) depth ↔
      member.All first depth ∧ member.All second depth := by
  cases member with
  | mk name values =>
      simp only [CollectionMember.All, Rule.both_onMember,
        valuesAll_both first second depth values]
      exact and_and_and_comm

theorem valuesAll_both (first second : Rule) (depth : Nat) (values : List Value) :
    valuesAll (first.both second) depth values ↔
      valuesAll first depth values ∧ valuesAll second depth values := by
  cases values with
  | nil => simp [valuesAll]
  | cons value rest =>
      simp only [valuesAll, value.all_both first second depth,
        valuesAll_both first second depth rest]
      exact and_and_and_comm

theorem membersAll_both (first second : Rule) (depth : Nat)
    (members : List CollectionMember) :
    membersAll (first.both second) depth members ↔
      membersAll first depth members ∧ membersAll second depth members := by
  cases members with
  | nil => simp [membersAll]
  | cons member rest =>
      simp only [membersAll, member.all_both first second depth,
        membersAll_both first second depth rest]
      exact and_and_and_comm

end

/-! ## Limits on single fields -/

/-- A raw value that the length prefix and the limits admit. -/
structure RawFits (limits : Limits) (raw : Bytes) : Prop where
  wire : raw.length ≤ 65535
  value : raw.length ≤ limits.maxValueBytes.toNat

/-- A name that the length prefix and the limits admit. -/
structure NameFits (limits : Limits) (name : Bytes) : Prop where
  wire : name.length ≤ 65535
  name : name.length ≤ limits.maxNameBytes.toNat

theorem rawFits_nil (limits : Limits) : RawFits limits [] :=
  ⟨Nat.zero_le _, Nat.zero_le _⟩

theorem nameFits_nil (limits : Limits) : NameFits limits [] :=
  ⟨Nat.zero_le _, Nat.zero_le _⟩

/-- The part of well-formedness that both directions check: data has the syntax
of its tag, every field fits its limit, and collections do not nest too deep. -/
def boundedRule (limits : Limits) : Rule where
  onValue depth tag data :=
    tag.fits data ∧ RawFits limits data.raw ∧
      (data.isCollection → depth + 1 ≤ limits.maxCollectionDepth.toNat)
  onMember _ name _ := name ≠ [] ∧ NameFits limits name ∧ RawFits limits name

/-- Every value has an ordinary tag. -/
def plainRule : Rule where
  onValue _ tag _ := tag.Plain
  onMember _ _ _ := True

/-- Every collection member has a value. -/
def filledRule : Rule where
  onValue _ _ _ := True
  onMember _ _ values := values ≠ []

/-! ## Attributes, groups and messages -/

/-- The entries of an attribute: only its first value carries the name. -/
def namedWire (name : Bytes) : List Value → Bytes
  | [] => []
  | first :: rest => first.wire name ++ valuesWire rest

def namedCost (name : Bytes) : List Value → Counters
  | [] => 0
  | first :: rest => first.cost name + valuesCost rest

theorem namedWire_nil (values : List Value) : namedWire [] values = valuesWire values := by
  cases values <;> rfl

theorem namedCost_nil (values : List Value) : namedCost [] values = valuesCost values := by
  cases values <;> rfl

namespace Attribute

def wire (attr : Attribute) : Bytes := namedWire attr.name attr.values

def cost (attr : Attribute) : Counters :=
  namedCost attr.name attr.values + Pi.single .attributes 1

/-- A named attribute with at least one value, all of whose values obey `rule`. -/
structure WellFormed (limits : Limits) (rule : Rule) (attr : Attribute) : Prop where
  named : attr.name ≠ []
  filled : attr.values ≠ []
  nameFits : NameFits limits attr.name
  values : valuesAll rule 0 attr.values

end Attribute

def attributesWire (attributes : List Attribute) : Bytes :=
  attributes.flatMap Attribute.wire

def attributesCost (attributes : List Attribute) : Counters :=
  (attributes.map Attribute.cost).sum

namespace AttributeGroup

def wire (group : AttributeGroup) : Bytes := group.tag :: attributesWire group.attributes

def cost (group : AttributeGroup) : Counters :=
  Pi.single .groups 1 + attributesCost group.attributes

structure WellFormed (limits : Limits) (rule : Rule) (group : AttributeGroup) : Prop where
  delimiter : isDelimiterTag group.tag = true
  attributes : ∀ attr ∈ group.attributes, attr.WellFormed limits rule

end AttributeGroup

def groupsWire (groups : List AttributeGroup) : Bytes :=
  groups.flatMap AttributeGroup.wire

def groupsCost (groups : List AttributeGroup) : Counters :=
  (groups.map AttributeGroup.cost).sum

namespace Message

/-- The fixed eight-byte header. -/
def header (message : Message) : Bytes :=
  message.version.major :: message.version.minor ::
    (u16Bytes message.code ++ u32Bytes message.requestId)

/-- The byte string a message denotes. -/
def wire (message : Message) : Bytes :=
  message.header ++ (groupsWire message.groups ++ [endOfAttributesTag])

/-- The message is well formed with all its values obeying `rule`. -/
def WellFormed (limits : Limits) (rule : Rule) (message : Message) : Prop :=
  ∀ group ∈ message.groups, group.WellFormed limits rule

/-- Every value of the message, at every depth, obeys `rule`. -/
def Obeys (rule : Rule) (message : Message) : Prop :=
  ∀ group ∈ message.groups, ∀ attr ∈ group.attributes, valuesAll rule 0 attr.values

/-- The limits are usable and leave room for the message. -/
structure Affordable (limits : Limits) (message : Message) : Prop where
  valid : limits.valid = true
  length : message.wire.length ≤ limits.maxMessageBytes.toNat
  cost : groupsCost message.groups ≤ limits.bound

theorem wellFormed_both {limits : Limits} {first second : Rule} {message : Message} :
    message.WellFormed limits (first.both second) ↔
      message.WellFormed limits first ∧ message.Obeys second := by
  constructor
  · intro formed
    refine ⟨?_, ?_⟩
    · intro group inside
      refine ⟨(formed group inside).delimiter, ?_⟩
      intro attr member
      have attrFormed := (formed group inside).attributes attr member
      exact ⟨attrFormed.named, attrFormed.filled, attrFormed.nameFits,
        ((valuesAll_both _ _ _ _).mp attrFormed.values).1⟩
    · intro group inside attr member
      have attrFormed := (formed group inside).attributes attr member
      exact ((valuesAll_both _ _ _ _).mp attrFormed.values).2
  · rintro ⟨formed, obeys⟩ group inside
    refine ⟨(formed group inside).delimiter, ?_⟩
    intro attr member
    have attrFormed := (formed group inside).attributes attr member
    exact ⟨attrFormed.named, attrFormed.filled, attrFormed.nameFits,
      (valuesAll_both _ _ _ _).mpr ⟨attrFormed.values, obeys group inside attr member⟩⟩

end Message

end PrinterSdk.Ipp
