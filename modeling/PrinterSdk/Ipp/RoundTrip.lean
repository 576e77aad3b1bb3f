import PrinterSdk.Ipp.DecodeMessage
import PrinterSdk.Ipp.EncodeSpec

/-!
# IPP round trips

What the encoder writes, the decoder reads back, for every message whose tags are
the ones the decoder itself would produce.  In the other direction the decoder
accepts one shape that the encoder refuses: a collection member without values.
-/

namespace PrinterSdk.Ipp

open PrinterSdk.Data

/-! ## Encode, then decode -/

/-- A message with ordinary tags survives the wire: the decoder returns it with the
encoded bytes attached. -/
theorem decode_encode (message : Message) (limits : Limits) (output : Bytes)
    (plain : message.Obeys plainRule) (encoded : encode message limits = .ok output) :
    decode output limits = .ok { message with originalBytes := output } := by
  obtain ⟨formed, _, affordable, wire⟩ := (encode_eq_ok message limits output).mp encoded
  have bounded := (Message.wellFormed_both.mp formed).1
  apply (decode_eq_ok output limits _).mpr
  exact ⟨Message.wellFormed_both.mpr ⟨bounded, plain⟩,
    ⟨affordable.valid, affordable.length, affordable.cost⟩, wire, rfl⟩

/-- A request with a repeated value and a collection inside a collection. -/
def nestedMessage : Message where
  version := ⟨2, 0⟩
  code := getPrinterAttributes
  requestId := 7
  groups := [⟨printerAttributesTag,
    [⟨[0x61], [⟨.integer, .integer 5⟩, ⟨.keyword, .bytes [0x62]⟩]⟩,
      ⟨[0x63], [⟨.begCollection, .collection
        [⟨[0x64], [⟨.boolean, .boolean true⟩, ⟨.begCollection, .collection
          [⟨[0x65], [⟨.noValue, .outOfBand⟩]⟩]⟩]⟩]⟩]⟩]⟩]
  originalBytes := []

theorem decode_encode_nestedMessage :
    encode nestedMessage .default = .ok nestedMessage.wire ∧
      decode nestedMessage.wire .default =
        .ok { nestedMessage with originalBytes := nestedMessage.wire } := by
  have encoded : encode nestedMessage .default = .ok nestedMessage.wire := by
    decide +kernel
  have plain : nestedMessage.Obeys plainRule := by
    simp only [Message.Obeys, nestedMessage, List.forall_mem_singleton, List.forall_mem_cons,
      valuesAll, Value.All, ValueData.All, membersAll, CollectionMember.All, plainRule]
    decide
  exact ⟨encoded, decode_encode _ _ _ plain encoded⟩

/-! ## Decode, then encode -/

/-- What remains behind a length-prefixed field. -/
def skipField (bytes : Bytes) : Bytes := bytes.drop (2 + beNat (bytes.take 2))

/-- The tags of a byte string in order: one for each group delimiter and one for each
entry, whose name and value are skipped. -/
def entryTags : Nat → Bytes → List UInt8
  | 0, _ => []
  | _ + 1, [] => []
  | count + 1, tag :: rest =>
      if tag = endOfAttributesTag ∨ isDelimiterTag tag then
        tag :: entryTags count rest
      else
        tag :: entryTags count (skipField (skipField rest))

/-- The tag names a collection member or closes a collection. -/
def isControlByte (tag : UInt8) : Bool :=
  tag == ValueTag.memberAttrName.toByte || tag == ValueTag.endCollection.toByte

/-- No member name is directly followed by another one or by the end of the
collection. -/
def membersFilled : List UInt8 → Bool
  | [] => true
  | tag :: rest =>
      !(tag == ValueTag.memberAttrName.toByte && rest.head?.any isControlByte) &&
        membersFilled rest

/-- A scan of the encoded bytes alone: behind the eight-byte header, every
`memberAttrName` entry is followed by the entry of a value. -/
def everyMemberFilled (input : Bytes) : Bool :=
  membersFilled (entryTags input.length (input.drop 8))

mutual

/-- The tags of the entries of a value. -/
def Value.tags : Value → List UInt8
  | .mk tag data => tag.toByte :: data.nestedTags

def ValueData.nestedTags : ValueData → List UInt8
  | .collection members => membersTags members ++ [ValueTag.endCollection.toByte]
  | _ => []

def CollectionMember.tags : CollectionMember → List UInt8
  | .mk _ values => ValueTag.memberAttrName.toByte :: valuesTags values

def valuesTags : List Value → List UInt8
  | [] => []
  | first :: rest => first.tags ++ valuesTags rest

def membersTags : List CollectionMember → List UInt8
  | [] => []
  | first :: rest => first.tags ++ membersTags rest

end

/-! ### The scan finds the tags of the message -/

theorem skipField_fieldBytes {field : Bytes} (short : field.length ≤ 65535) (rest : Bytes) :
    skipField (fieldBytes field ++ rest) = rest := by
  have front : (fieldBytes field ++ rest).take 2 = beBytes 2 field.length := by
    rw [fieldBytes, List.append_assoc, List.take_left' (length_beBytes _ _)]
  have size : 2 + beNat (beBytes 2 field.length) = (fieldBytes field).length := by
    rw [beNat_beBytes (Nat.lt_succ_of_le short), length_fieldBytes]
  rw [skipField, front, size, List.drop_left]

theorem entryTags_entry {tag : UInt8} {name raw : Bytes} (valueByte : ValueTag.IsValueByte tag)
    (nameShort : name.length ≤ 65535) (rawShort : raw.length ≤ 65535) (count : Nat)
    (rest : Bytes) :
    entryTags (count + 1) (entryBytes tag name raw ++ rest) = tag :: entryTags count rest := by
  have skipped : skipField (skipField (fieldBytes name ++ fieldBytes raw ++ rest)) = rest := by
    rw [List.append_assoc, skipField_fieldBytes nameShort, skipField_fieldBytes rawShort]
  have notMarker : ¬(tag = endOfAttributesTag ∨ isDelimiterTag tag = true) := by
    simp [valueByte.1, valueByte.2]
  simp only [entryBytes, List.cons_append, entryTags, notMarker, if_false, skipped]

variable {limits : Limits}

theorem entryTags_control (tag : ValueTag) (valueByte : ValueTag.IsValueByte tag.toByte)
    {raw : Bytes} (fits : RawFits limits raw) (count : Nat) (rest : Bytes) :
    entryTags (count + 1) (entryBytes tag.toByte [] raw ++ rest) =
      tag.toByte :: entryTags count rest :=
  entryTags_entry valueByte (Nat.zero_le _) fits.wire count rest

mutual

theorem entryTags_value (value : Value) {name : Bytes} (nameShort : name.length ≤ 65535)
    {depth : Nat} (all : value.All (Decoder.rule limits) depth) (count : Nat) (rest : Bytes) :
    entryTags (value.tags.length + count) (value.wire name ++ rest) =
      value.tags ++ entryTags count rest := by
  cases value with
  | mk tag data =>
      have step := entryTags_entry all.1.2.valueByte nameShort all.1.1.2.1.wire
        (data.nestedTags.length + count) (data.nested ++ rest)
      rw [Value.wire, Value.tags, List.length_cons, List.append_assoc, Nat.add_right_comm, step,
        entryTags_nested data all.2 count rest]
      rfl

theorem entryTags_nested (data : ValueData) {depth : Nat}
    (all : data.All (Decoder.rule limits) depth) (count : Nat) (rest : Bytes) :
    entryTags (data.nestedTags.length + count) (data.nested ++ rest) =
      data.nestedTags ++ entryTags count rest := by
  cases data with
  | collection members =>
      have step := entryTags_members members all (1 + count) (endEntry ++ rest)
      have close := entryTags_control .endCollection (by decide) (rawFits_nil limits) count rest
      rw [ValueData.nested, ValueData.nestedTags, List.length_append, List.length_singleton,
        List.append_assoc, Nat.add_assoc, step, Nat.add_comm 1 count, List.append_assoc]
      exact congrArg _ close
  | _ => simp [ValueData.nested, ValueData.nestedTags]

theorem entryTags_member (member : CollectionMember) {depth : Nat}
    (all : member.All (Decoder.rule limits) depth) (count : Nat) (rest : Bytes) :
    entryTags (member.tags.length + count) (member.wire ++ rest) =
      member.tags ++ entryTags count rest := by
  cases member with
  | mk name values =>
      have step := entryTags_control .memberAttrName (by decide) all.1.1.2.2
        ((valuesTags values).length + count) (valuesWire values ++ rest)
      rw [CollectionMember.wire, CollectionMember.tags, List.length_cons, List.append_assoc,
        Nat.add_right_comm, memberEntry, step, entryTags_values values all.2 count rest]
      rfl

theorem entryTags_values (values : List Value) {depth : Nat}
    (all : valuesAll (Decoder.rule limits) depth values) (count : Nat) (rest : Bytes) :
    entryTags ((valuesTags values).length + count) (valuesWire values ++ rest) =
      valuesTags values ++ entryTags count rest := by
  cases values with
  | nil => simp [valuesTags, valuesWire]
  | cons value values =>
      have step := entryTags_value value (nameFits_nil limits).wire all.1
        ((valuesTags values).length + count) (valuesWire values ++ rest)
      rw [valuesTags, valuesWire, List.length_append, List.append_assoc, Nat.add_assoc, step,
        entryTags_values values all.2 count rest, List.append_assoc]

theorem entryTags_members (members : List CollectionMember) {depth : Nat}
    (all : membersAll (Decoder.rule limits) depth members) (count : Nat) (rest : Bytes) :
    entryTags ((membersTags members).length + count) (membersWire members ++ rest) =
      membersTags members ++ entryTags count rest := by
  cases members with
  | nil => simp [membersTags, membersWire]
  | cons member members =>
      have step := entryTags_member member all.1
        ((membersTags members).length + count) (membersWire members ++ rest)
      rw [membersTags, membersWire, List.length_append, List.append_assoc, Nat.add_assoc, step,
        entryTags_members members all.2 count rest, List.append_assoc]

end

/-- The tags of the groups of a message. -/
def groupsTags (groups : List AttributeGroup) : List UInt8 :=
  groups.flatMap fun group => group.tag ::
    group.attributes.flatMap fun attr => valuesTags attr.values

theorem entryTags_marker {tag : UInt8}
    (marker : tag = endOfAttributesTag ∨ isDelimiterTag tag = true) (count : Nat)
    (rest : Bytes) : entryTags (count + 1) (tag :: rest) = tag :: entryTags count rest := by
  simp only [entryTags, marker, if_true]

theorem entryTags_attribute {attr : Attribute}
    (formed : attr.WellFormed limits (Decoder.rule limits)) (count : Nat) (rest : Bytes) :
    entryTags ((valuesTags attr.values).length + count) (attr.wire ++ rest) =
      valuesTags attr.values ++ entryTags count rest := by
  rcases attr with ⟨name, values⟩
  have all := formed.values
  have nameFits := formed.nameFits
  cases values with
  | nil => exact absurd rfl formed.filled
  | cons value values =>
      have step := entryTags_value value nameFits.wire all.1
        ((valuesTags values).length + count) (valuesWire values ++ rest)
      rw [Attribute.wire, namedWire, valuesTags, List.length_append, List.append_assoc,
        Nat.add_assoc, step, entryTags_values values all.2 count rest, List.append_assoc]

theorem entryTags_attributes {attributes : List Attribute}
    (formed : ∀ attr ∈ attributes, attr.WellFormed limits (Decoder.rule limits))
    (count : Nat) (rest : Bytes) :
    entryTags ((attributes.flatMap fun attr => valuesTags attr.values).length + count)
      (attributesWire attributes ++ rest) =
      (attributes.flatMap fun attr => valuesTags attr.values) ++ entryTags count rest := by
  induction attributes with
  | nil => simp [attributesWire]
  | cons attr attributes ih =>
      have later := ih fun other member => formed other (List.mem_cons_of_mem _ member)
      have step := entryTags_attribute (formed attr List.mem_cons_self)
        ((attributes.flatMap fun attr => valuesTags attr.values).length + count)
        (attributesWire attributes ++ rest)
      rw [attributesWire, List.flatMap_cons, List.flatMap_cons, List.length_append,
        List.append_assoc, Nat.add_assoc, List.append_assoc, ← later]
      exact step

theorem entryTags_groups {groups : List AttributeGroup}
    (formed : ∀ group ∈ groups, group.WellFormed limits (Decoder.rule limits))
    (count : Nat) (rest : Bytes) :
    entryTags ((groupsTags groups).length + count) (groupsWire groups ++ rest) =
      groupsTags groups ++ entryTags count rest := by
  induction groups with
  | nil => simp [groupsWire, groupsTags]
  | cons group groups ih =>
      have later := ih fun other member => formed other (List.mem_cons_of_mem _ member)
      have groupFormed := formed group List.mem_cons_self
      have inner := entryTags_attributes groupFormed.attributes
        ((groupsTags groups).length + count) (groupsWire groups ++ rest)
      rw [later] at inner
      have marker := entryTags_marker (.inr groupFormed.delimiter)
        ((group.attributes.flatMap fun attr => valuesTags attr.values).length +
          ((groupsTags groups).length + count))
        (attributesWire group.attributes ++ (groupsWire groups ++ rest))
      rw [inner] at marker
      simp only [groupsTags, groupsWire, List.flatMap_cons, AttributeGroup.wire,
        List.cons_append, List.append_assoc, List.length_cons, List.length_append]
        at marker ⊢
      rw [← marker]
      congr 1
      omega

/-! ### A filled member shows in the tags -/

theorem ValueTag.Plain.not_control {tag : ValueTag} (plain : tag.Plain) :
    isControlByte tag.toByte = false := by
  have canonical := plain.canonical
  rw [isControlByte, Bool.or_eq_false_iff, beq_eq_false_iff_ne, beq_eq_false_iff_ne]
  constructor
  · intro same
    rw [ValueTag.Canonical, same] at canonical
    exact plain.not_member canonical.symm
  · intro same
    rw [ValueTag.Canonical, same] at canonical
    exact plain.not_end canonical.symm

theorem membersFilled_value {tag : UInt8} (notControl : isControlByte tag = false)
    (rest : List UInt8) : membersFilled (tag :: rest) = membersFilled rest := by
  rw [isControlByte, Bool.or_eq_false_iff] at notControl
  simp [membersFilled, notControl.1]

theorem membersFilled_end (rest : List UInt8) :
    membersFilled (ValueTag.endCollection.toByte :: rest) = membersFilled rest := by
  have different : (ValueTag.endCollection.toByte == ValueTag.memberAttrName.toByte) = false := by
    decide
  simp [membersFilled, different]

mutual

theorem membersFilled_valueTags (value : Value) {depth : Nat}
    (all : value.All (Decoder.rule limits) depth) (rest : List UInt8) :
    membersFilled (value.tags ++ rest) = true ↔
      value.All filledRule depth ∧ membersFilled rest = true := by
  cases value with
  | mk tag data =>
      have nested := membersFilled_nestedTags data all.2 rest
      rw [Value.tags, List.cons_append, membersFilled_value all.1.2.not_control, nested,
        Value.All]
      simp [filledRule]

theorem membersFilled_nestedTags (data : ValueData) {depth : Nat}
    (all : data.All (Decoder.rule limits) depth) (rest : List UInt8) :
    membersFilled (data.nestedTags ++ rest) = true ↔
      data.All filledRule depth ∧ membersFilled rest = true := by
  cases data with
  | collection members =>
      have inner := membersFilled_membersTags members all
        (ValueTag.endCollection.toByte :: rest) (by simp [isControlByte])
      rw [membersFilled_end] at inner
      simpa [ValueData.nestedTags, ValueData.All] using inner
  | _ => simp [ValueData.nestedTags, ValueData.All]

theorem membersFilled_memberTags (member : CollectionMember) {depth : Nat}
    (all : member.All (Decoder.rule limits) depth) (rest : List UInt8)
    (control : rest.head?.any isControlByte = true) :
    membersFilled (member.tags ++ rest) = true ↔
      member.All filledRule depth ∧ membersFilled rest = true := by
  cases member with
  | mk name values =>
      have inner := membersFilled_valuesTags values all.2 rest
      cases values with
      | nil =>
          simp [CollectionMember.tags, valuesTags, membersFilled, control,
            CollectionMember.All, filledRule]
      | cons value values =>
          have plain : isControlByte value.tag.toByte = false := by
            rcases value with ⟨tag, data⟩
            exact all.2.1.1.2.not_control
          have first : ((valuesTags (value :: values)) ++ rest).head? =
              some value.tag.toByte := by
            rcases value with ⟨tag, data⟩
            rfl
          rw [CollectionMember.tags, List.cons_append, membersFilled, first]
          simp [plain, inner, CollectionMember.All, filledRule]

theorem membersFilled_valuesTags (values : List Value) {depth : Nat}
    (all : valuesAll (Decoder.rule limits) depth values) (rest : List UInt8) :
    membersFilled (valuesTags values ++ rest) = true ↔
      valuesAll filledRule depth values ∧ membersFilled rest = true := by
  cases values with
  | nil => simp [valuesTags, valuesAll]
  | cons value values =>
      rw [valuesTags, List.append_assoc, membersFilled_valueTags value all.1,
        membersFilled_valuesTags values all.2, valuesAll, and_assoc]

theorem membersFilled_membersTags (members : List CollectionMember) {depth : Nat}
    (all : membersAll (Decoder.rule limits) depth members) (rest : List UInt8)
    (control : rest.head?.any isControlByte = true) :
    membersFilled (membersTags members ++ rest) = true ↔
      membersAll filledRule depth members ∧ membersFilled rest = true := by
  cases members with
  | nil => simp [membersTags, membersAll]
  | cons member members =>
      have next : (membersTags members ++ rest).head?.any isControlByte = true := by
        cases members with
        | nil => exact control
        | cons other others =>
            rcases other with ⟨name, values⟩
            rfl
      rw [membersTags, List.append_assoc, membersFilled_memberTags member all.1 _ next,
        membersFilled_membersTags members all.2 rest control, membersAll, and_assoc]

end

theorem membersFilled_attributes {attributes : List Attribute}
    (formed : ∀ attr ∈ attributes, attr.WellFormed limits (Decoder.rule limits))
    (rest : List UInt8) :
    membersFilled ((attributes.flatMap fun attr => valuesTags attr.values) ++ rest) = true ↔
      (∀ attr ∈ attributes, valuesAll filledRule 0 attr.values) ∧
        membersFilled rest = true := by
  induction attributes with
  | nil => simp
  | cons attr attributes ih =>
      have later := ih fun other member => formed other (List.mem_cons_of_mem _ member)
      rw [List.flatMap_cons, List.append_assoc,
        membersFilled_valuesTags attr.values (formed attr List.mem_cons_self).values, later]
      simp [and_assoc]

theorem membersFilled_groups {groups : List AttributeGroup}
    (formed : ∀ group ∈ groups, group.WellFormed limits (Decoder.rule limits))
    (rest : List UInt8) :
    membersFilled (groupsTags groups ++ rest) = true ↔
      (∀ group ∈ groups, ∀ attr ∈ group.attributes, valuesAll filledRule 0 attr.values) ∧
        membersFilled rest = true := by
  induction groups with
  | nil => simp [groupsTags]
  | cons group groups ih =>
      have later := ih fun other member => formed other (List.mem_cons_of_mem _ member)
      have groupFormed := formed group List.mem_cons_self
      have notControl : isControlByte group.tag = false := by
        rw [isControlByte, Bool.or_eq_false_iff, beq_eq_false_iff_ne, beq_eq_false_iff_ne]
        have delimiter := groupFormed.delimiter
        constructor
        · intro same
          rw [same] at delimiter
          exact absurd delimiter (by decide)
        · intro same
          rw [same] at delimiter
          exact absurd delimiter (by decide)
      have tags : groupsTags (group :: groups) ++ rest =
          group.tag :: ((group.attributes.flatMap fun attr => valuesTags attr.values) ++
            (groupsTags groups ++ rest)) := by
        simp [groupsTags]
      rw [tags, membersFilled_value notControl,
        membersFilled_attributes groupFormed.attributes, later]
      simp [and_assoc]

theorem length_entryTags_le (count : Nat) (bytes : Bytes) :
    (entryTags count bytes).length ≤ bytes.length := by
  induction count generalizing bytes with
  | zero => exact Nat.zero_le _
  | succ count ih =>
      cases bytes with
      | nil => exact Nat.zero_le _
      | cons tag rest =>
          rw [entryTags]
          split
          · exact Nat.succ_le_succ (ih rest)
          · have skipped : (skipField (skipField rest)).length ≤ rest.length := by
              simp only [skipField, List.length_drop]
              omega
            exact Nat.succ_le_succ (Nat.le_trans (ih _) skipped)

/-- On a decoded message the scan of the bytes tells whether every member has a
value. -/
theorem everyMemberFilled_iff {message : Message}
    (formed : message.WellFormed limits (Decoder.rule limits)) :
    everyMemberFilled message.wire = true ↔ message.Obeys filledRule := by
  have behind : message.wire.drop 8 = groupsWire message.groups ++ [endOfAttributesTag] := by
    rw [Message.wire]
    exact List.drop_left' (by simp [Message.header])
  have size : (groupsTags message.groups).length ≤ (groupsWire message.groups).length := by
    have scanned := entryTags_groups formed 0 []
    have bounded := length_entryTags_le ((groupsTags message.groups).length + 0)
      (groupsWire message.groups ++ [])
    rw [scanned, entryTags, List.append_nil, List.append_nil] at bounded
    exact bounded
  obtain ⟨count, enough⟩ : ∃ count, message.wire.length =
      (groupsTags message.groups).length + (count + 1) := by
    refine ⟨message.wire.length - (groupsTags message.groups).length - 1, ?_⟩
    rw [Message.wire, List.length_append, List.length_append, List.length_singleton]
    omega
  have scanned := entryTags_groups formed (count + 1) [endOfAttributesTag]
  rw [entryTags_marker (.inl rfl)] at scanned
  have nothing : entryTags count [] = [] := by
    cases count <;> rfl
  have last : membersFilled [endOfAttributesTag] = true := by decide
  rw [everyMemberFilled, enough, behind, scanned, nothing, membersFilled_groups formed]
  simp only [last, and_true]
  exact Iff.rfl

/-- What the decoder accepts is re-encoded to the same bytes exactly when no
collection member in these bytes is left without a value. -/
theorem encode_decode_iff (input : Bytes) (limits : Limits) (message : Message)
    (names : limits.maxNameBytes ≤ limits.maxValueBytes)
    (decoded : decode input limits = .ok message) :
    encode message limits = .ok input ↔ everyMemberFilled input = true := by
  obtain ⟨formed, affordable, rfl, _⟩ := (decode_eq_ok input limits message).mp decoded
  have bounded := (Message.wellFormed_both.mp formed).1
  have namesFit : message.NamesFit limits := by
    intro group inside attr member
    have nameFits := ((bounded group inside).attributes attr member).nameFits
    exact ⟨nameFits.wire, Nat.le_trans nameFits.name names⟩
  rw [everyMemberFilled_iff formed, encode_eq_ok]
  constructor
  · rintro ⟨accepted, _⟩
    exact (Message.wellFormed_both.mp accepted).2
  · intro filled
    exact ⟨Message.wellFormed_both.mpr ⟨bounded, filled⟩, namesFit, affordable, rfl⟩

theorem encode_decode_iff_nestedMessage :
    decode nestedMessage.wire .default =
        .ok { nestedMessage with originalBytes := nestedMessage.wire } ∧
      (encode { nestedMessage with originalBytes := nestedMessage.wire } .default =
        .ok nestedMessage.wire ↔ everyMemberFilled nestedMessage.wire = true) := by
  have decoded : decode nestedMessage.wire .default =
      .ok { nestedMessage with originalBytes := nestedMessage.wire } := by
    decide +kernel
  exact ⟨decoded, encode_decode_iff _ _ _ (by decide) decoded⟩

/-- A response whose only collection has the member `d` without a value. -/
def emptyMemberBytes : Bytes :=
  [2, 0, 0, 11, 0, 0, 0, 7, 4, 52, 0, 1, 99, 0, 0, 74, 0, 0, 0, 1, 100, 55, 0, 0, 0, 0, 3]

/-- The message the decoder makes of `emptyMemberBytes`. -/
def emptyMemberMessage : Message where
  version := ⟨2, 0⟩
  code := getPrinterAttributes
  requestId := 7
  groups := [⟨printerAttributesTag,
    [⟨[99], [⟨.begCollection, .collection [⟨[100], []⟩]⟩]⟩]⟩]
  originalBytes := emptyMemberBytes

theorem emptyMember_not_reencoded :
    Limits.default.maxNameBytes ≤ Limits.default.maxValueBytes ∧
      decode emptyMemberBytes .default = .ok emptyMemberMessage ∧
      encode emptyMemberMessage .default = fail (.invalidStructure
        "collection members require a name and at least one value") := by
  refine ⟨?_, ?_, ?_⟩ <;> decide +kernel

end PrinterSdk.Ipp
