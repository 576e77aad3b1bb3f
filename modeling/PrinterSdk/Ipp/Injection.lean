import PrinterSdk.Ipp.DecodeMessage
import PrinterSdk.Ipp.EncodeSpec

/-!
# Values that the reader mistakes for structure

A tag is written as its byte, and `ValueTag` can spell delimiter bytes, control
bytes and known syntaxes as extensions.  The encoder does not look at the byte, so
some values it accepts are read back as structure or not at all.  This module says
exactly which: the reader recovers the structure of an encoded message if and only
if every value of the message is safe on the wire.
-/

namespace PrinterSdk.Ipp

open PrinterSdk.Data

/-! ## Structure -/

mutual

/-- Both values are scalars, or both are collections of the same structure. -/
def Value.SameShape : Value → Value → Prop
  | .mk _ data, .mk _ other => data.SameShape other

def ValueData.SameShape : ValueData → ValueData → Prop
  | .collection members, .collection others => sameMemberShapes members others
  | .collection _, _ => False
  | _, .collection _ => False
  | _, _ => True

def CollectionMember.SameShape : CollectionMember → CollectionMember → Prop
  | .mk name values, .mk otherName others => name = otherName ∧ sameShapes values others

def sameShapes : List Value → List Value → Prop
  | [], [] => True
  | value :: values, other :: others => value.SameShape other ∧ sameShapes values others
  | _, _ => False

def sameMemberShapes : List CollectionMember → List CollectionMember → Prop
  | [], [] => True
  | member :: members, other :: others =>
      member.SameShape other ∧ sameMemberShapes members others
  | _, _ => False

end

/-- The same name, and values of the same structure. -/
def Attribute.SameShape (attr other : Attribute) : Prop :=
  attr.name = other.name ∧ sameShapes attr.values other.values

/-- The same delimiter, and the same sequence of attributes. -/
def AttributeGroup.SameShape (group other : AttributeGroup) : Prop :=
  group.tag = other.tag ∧
    List.Forall₂ Attribute.SameShape group.attributes other.attributes

/-- The same sequence of group tags, in each group the same sequence of attribute
names, and in each attribute the same values and nested collection members, up to
the scalars themselves. -/
def Message.SameStructure (message other : Message) : Prop :=
  List.Forall₂ AttributeGroup.SameShape message.groups other.groups

/-! ## Safe values -/

/-- The raw values that the reader accepts for a scalar tag. -/
def ScalarSyntax (tag : ValueTag) (raw : Bytes) : Prop :=
  match tag with
  | .unsupported | .unknown | .noValue | .notSettable | .deleteAttribute
  | .adminDefine => raw = []
  | .integer | .enum => raw.length = 4
  | .boolean => raw = [0] ∨ raw = [1]
  | .dateTime => raw.length = 11
  | .resolution => raw.length = 9
  | .rangeOfInteger => raw.length = 8
  | .begCollection => False
  | _ => True

/-- A value is safe when its byte neither delimits groups nor controls collections,
and the tag is the one that the reader makes of this byte, or the raw value has the
syntax of the tag that the reader makes of it. -/
def safeRule : Rule where
  onValue _ tag data :=
    ValueTag.IsValueByte tag.toByte ∧
      tag.toByte ≠ ValueTag.endCollection.toByte ∧
      tag.toByte ≠ ValueTag.memberAttrName.toByte ∧
      (tag.Canonical ∨ ScalarSyntax (ValueTag.fromByte tag.toByte) data.raw)
  onMember _ _ _ := True

theorem ValueTag.fromByte_endCollection {tag : ValueTag} (canonical : tag.Canonical) :
    tag.toByte = endCollection.toByte ↔ tag = endCollection := by
  constructor
  · intro same
    rw [Canonical, same] at canonical
    exact canonical.symm
  · rintro rfl
    rfl

theorem ValueTag.fromByte_memberAttrName {tag : ValueTag} (canonical : tag.Canonical) :
    tag.toByte = memberAttrName.toByte ↔ tag = memberAttrName := by
  constructor
  · intro same
    rw [Canonical, same] at canonical
    exact canonical.symm
  · rintro rfl
    rfl

theorem decodes_iff_scalarSyntax {tag : ValueTag} (scalar : tag ≠ .begCollection)
    (raw : Bytes) :
    (∃ data, decodeScalar tag raw 0 = .ok data) ↔ ScalarSyntax tag raw := by
  cases tag with
  | begCollection => exact absurd rfl scalar
  | integer | enum =>
      by_cases width : raw.length = 4
      · simp [decodeScalar, ValueTag.isOutOfBand, Decoder.exactI32_of_length width, Except.map,
          ScalarSyntax, width]
      · simp [decodeScalar, ValueTag.isOutOfBand, Decoder.exactI32_of_length_ne width, fail,
          Except.map, ScalarSyntax, width]
  | boolean =>
      simp only [decodeScalar, ValueTag.isOutOfBand, ScalarSyntax]
      constructor
      · rintro ⟨data, decoded⟩
        split at decoded
        · contradiction
        · split at decoded
          · exact .inl rfl
          · exact .inr rfl
          · cases decoded
      · rintro (rfl | rfl)
        · exact ⟨_, rfl⟩
        · exact ⟨_, rfl⟩
  | dateTime =>
      by_cases width : raw.length = 11 <;>
        simp [decodeScalar, ValueTag.isOutOfBand, width, fail, ScalarSyntax]
  | resolution =>
      by_cases width : raw.length = 9
      · simp [Decoder.decodeScalar_nine width, ScalarSyntax, width]
      · simp [decodeScalar, ValueTag.isOutOfBand, width, fail, ScalarSyntax]
  | rangeOfInteger =>
      by_cases width : raw.length = 8
      · simp [Decoder.decodeScalar_eight width, ScalarSyntax, width]
      · simp [decodeScalar, ValueTag.isOutOfBand, width, fail, ScalarSyntax]
  | unsupported | unknown | noValue | notSettable | deleteAttribute | adminDefine =>
      cases raw <;> simp [decodeScalar, ValueTag.isOutOfBand, fail, ScalarSyntax]
  | _ => exact ⟨fun _ => trivial, fun _ => ⟨_, rfl⟩⟩

/-- The syntax table lists exactly the raw values of scalars that fit the tag. -/
theorem scalarSyntax_iff (tag : ValueTag) (raw : Bytes) :
    ScalarSyntax tag raw ↔
      ∃ data, tag.fits data = true ∧ data.isCollection = false ∧ data.raw = raw := by
  by_cases scalar : tag = .begCollection
  · subst scalar
    simp only [ScalarSyntax, false_iff, not_exists]
    rintro data ⟨fits, notCollection, _⟩
    cases data <;>
      simp [ValueTag.fits, ValueTag.isOutOfBand, ValueTag.isOpaque,
        ValueData.isCollection] at fits notCollection
  · rw [← decodes_iff_scalarSyntax scalar]
    constructor
    · rintro ⟨data, decoded⟩
      obtain ⟨fits, same⟩ := (Decoder.decodeScalar_eq_ok scalar).mp decoded
      refine ⟨data, fits, ?_, same⟩
      cases data with
      | collection members => simp [ValueTag.fits, scalar] at fits
      | _ => rfl
    · rintro ⟨data, fits, _, same⟩
      exact ⟨data, (Decoder.decodeScalar_eq_ok scalar).mpr ⟨fits, same⟩⟩

/-! ## Safe messages are read back -/

section Recovered

variable {limits : Limits}

/-- A message part that the reader returns in place of the encoded one: it obeys the
reader's rule, and has the same wire form, cost and structure. -/
structure Recovers (limits : Limits) (depth : Nat) (value found : Value) : Prop where
  all : found.All (Decoder.rule limits) depth
  wire : ∀ name, found.wire name = value.wire name
  cost : ∀ name, found.cost name = value.cost name
  shape : value.SameShape found

theorem ne_collection_of_scalar {data : ValueData} (scalar : data.isCollection = false)
    (members : List CollectionMember) : data ≠ .collection members := by
  rintro rfl
  cases scalar

theorem exists_collection {data : ValueData} (collected : data.isCollection = true) :
    ∃ members, data = .collection members := by
  cases data with
  | collection members => exact ⟨members, rfl⟩
  | _ => cases collected

theorem sameShape_of_scalar {data other : ValueData} (scalar : data.isCollection = false)
    (otherScalar : other.isCollection = false) : data.SameShape other := by
  simp [ValueData.SameShape, ne_collection_of_scalar scalar, ne_collection_of_scalar otherScalar]

theorem isCollection_of_sameShape {data other : ValueData} (shape : data.SameShape other) :
    data.isCollection = other.isCollection := by
  cases scalar : data.isCollection <;> cases otherScalar : other.isCollection
  · rfl
  · obtain ⟨others, rfl⟩ := exists_collection otherScalar
    simp [ValueData.SameShape, ne_collection_of_scalar scalar] at shape
  · obtain ⟨members, rfl⟩ := exists_collection scalar
    simp [ValueData.SameShape, ne_collection_of_scalar otherScalar] at shape
  · rfl

theorem nested_of_scalar {data : ValueData} (scalar : data.isCollection = false)
    (rule : Rule) (depth : Nat) :
    data.nested = [] ∧ data.nestedCost = 0 ∧ data.All rule depth := by
  cases data with
  | collection members => cases scalar
  | _ => exact ⟨rfl, rfl, trivial⟩

theorem recovers_of_scalar {depth : Nat} {tag : ValueTag} {data : ValueData}
    (scalar : data.isCollection = false)
    (bounded : (boundedRule limits).onValue depth tag data)
    (safe : safeRule.onValue depth tag data) :
    ∃ found, Recovers limits depth ⟨tag, data⟩ found := by
  obtain ⟨valueByte, notEnd, notMember, readable⟩ := safe
  obtain ⟨nothing, free, _⟩ := nested_of_scalar scalar (Decoder.rule limits) depth
  obtain ⟨foundTag, found, canonical, sameByte, fits, foundScalar, sameRaw⟩ :
      ∃ foundTag found, ValueTag.Canonical foundTag ∧ foundTag.toByte = tag.toByte ∧
        foundTag.fits found = true ∧ found.isCollection = false ∧ found.raw = data.raw := by
    rcases readable with canonical | readable
    · exact ⟨tag, data, canonical, rfl, bounded.1, scalar, rfl⟩
    · obtain ⟨found, fits, foundScalar, sameRaw⟩ := (scalarSyntax_iff _ _).mp readable
      exact ⟨_, found, ValueTag.canonical_fromByte _, ValueTag.toByte_fromByte _, fits,
        foundScalar, sameRaw⟩
  obtain ⟨foundNothing, foundFree, all⟩ :=
    nested_of_scalar foundScalar (Decoder.rule limits) depth
  have plain : foundTag.Plain := by
    refine ⟨canonical, by rw [sameByte]; exact valueByte, ?_, ?_⟩
    · intro same
      exact notEnd (sameByte ▸ (ValueTag.fromByte_endCollection canonical).mpr same)
    · intro same
      exact notMember (sameByte ▸ (ValueTag.fromByte_memberAttrName canonical).mpr same)
  refine ⟨⟨foundTag, found⟩, ⟨⟨⟨fits, ?_, by simp [foundScalar]⟩, plain⟩, all⟩, ?_, ?_, ?_⟩
  · rw [sameRaw]
    exact bounded.2.1
  · intro name
    rw [Value.wire, Value.wire, sameByte, sameRaw, nothing, foundNothing]
  · intro name
    rw [Value.cost, Value.cost, sameRaw, free, foundFree]
  · rw [Value.SameShape]
    exact sameShape_of_scalar scalar foundScalar

/-- The same for a list of values; a name goes to the first of them. -/
structure RecoversValues (limits : Limits) (depth : Nat) (values found : List Value) :
    Prop where
  all : valuesAll (Decoder.rule limits) depth found
  wire : ∀ name, namedWire name found = namedWire name values
  cost : ∀ name, namedCost name found = namedCost name values
  shape : sameShapes values found

structure RecoversMembers (limits : Limits) (depth : Nat)
    (members found : List CollectionMember) : Prop where
  all : membersAll (Decoder.rule limits) depth found
  wire : membersWire found = membersWire members
  cost : membersCost found = membersCost members
  shape : sameMemberShapes members found

theorem RecoversValues.cons {depth : Nat} {value found : Value} {values rest : List Value}
    (first : Recovers limits depth value found)
    (later : RecoversValues limits depth values rest) :
    RecoversValues limits depth (value :: values) (found :: rest) where
  all := ⟨first.all, later.all⟩
  wire := by
    intro name
    have tail := later.wire []
    rw [namedWire_nil, namedWire_nil] at tail
    rw [namedWire, namedWire, first.wire, tail]
  cost := by
    intro name
    have tail := later.cost []
    rw [namedCost_nil, namedCost_nil] at tail
    rw [namedCost, namedCost, first.cost, tail]
  shape := by
    rw [sameShapes]
    exact ⟨first.shape, later.shape⟩

mutual

theorem value_recovered (value : Value) {depth : Nat}
    (bounded : value.All (boundedRule limits) depth) (safe : value.All safeRule depth) :
    ∃ found, Recovers limits depth value found := by
  cases value with
  | mk tag data =>
      cases data with
      | collection members =>
          obtain ⟨found, recovered⟩ := members_recovered members bounded.2 safe.2
          have opens : tag = .begCollection := by simpa [ValueTag.fits] using bounded.1.1
          subst opens
          have plain : ValueTag.begCollection.Plain := by decide
          refine ⟨⟨.begCollection, .collection found⟩,
            ⟨⟨⟨rfl, rawFits_nil limits, bounded.1.2.2⟩, plain⟩, recovered.all⟩, ?_, ?_, ?_⟩
          · intro name
            rw [Value.wire, Value.wire, ValueData.nested, ValueData.nested, recovered.wire]
            rfl
          · intro name
            rw [Value.cost, Value.cost, ValueData.nestedCost, ValueData.nestedCost,
              recovered.cost]
            rfl
          · rw [Value.SameShape, ValueData.SameShape]
            exact recovered.shape
      | _ => exact recovers_of_scalar rfl bounded.1 safe.1

theorem member_recovered (member : CollectionMember) {depth : Nat}
    (bounded : member.All (boundedRule limits) depth) (safe : member.All safeRule depth) :
    ∃ found, RecoversMembers limits depth [member] [found] := by
  cases member with
  | mk name values =>
      obtain ⟨found, recovered⟩ := values_recovered values bounded.2 safe.2
      have wire := recovered.wire []
      have cost := recovered.cost []
      rw [namedWire_nil, namedWire_nil] at wire
      rw [namedCost_nil, namedCost_nil] at cost
      refine ⟨⟨name, found⟩, ⟨⟨⟨⟨bounded.1, trivial⟩, recovered.all⟩, trivial⟩, ?_, ?_, ?_⟩⟩
      · simp only [membersWire, CollectionMember.wire, wire]
      · simp only [membersCost, CollectionMember.cost, cost]
      · simpa [sameMemberShapes, CollectionMember.SameShape] using recovered.shape

theorem values_recovered (values : List Value) {depth : Nat}
    (bounded : valuesAll (boundedRule limits) depth values)
    (safe : valuesAll safeRule depth values) :
    ∃ found, RecoversValues limits depth values found := by
  cases values with
  | nil => exact ⟨[], trivial, fun _ => rfl, fun _ => rfl, by simp [sameShapes]⟩
  | cons value values =>
      obtain ⟨found, first⟩ := value_recovered value bounded.1 safe.1
      obtain ⟨rest, later⟩ := values_recovered values bounded.2 safe.2
      exact ⟨found :: rest, RecoversValues.cons first later⟩

theorem members_recovered (members : List CollectionMember) {depth : Nat}
    (bounded : membersAll (boundedRule limits) depth members)
    (safe : membersAll safeRule depth members) :
    ∃ found, RecoversMembers limits depth members found := by
  cases members with
  | nil => exact ⟨[], trivial, rfl, rfl, by simp [sameMemberShapes]⟩
  | cons member members =>
      obtain ⟨found, first⟩ := member_recovered member bounded.1 safe.1
      obtain ⟨rest, later⟩ := members_recovered members bounded.2 safe.2
      have wire := first.wire
      have cost := first.cost
      have shape := first.shape
      simp only [membersWire, membersCost, sameMemberShapes, List.append_nil, add_zero,
        and_true] at wire cost shape
      refine ⟨found :: rest, ⟨first.all.1, later.all⟩, ?_, ?_, ?_⟩
      · rw [membersWire, membersWire, wire, later.wire]
      · rw [membersCost, membersCost, cost, later.cost]
      · rw [sameMemberShapes]
        exact ⟨shape, later.shape⟩

end

theorem attributes_recovered (attributes : List Attribute)
    (formed : ∀ attr ∈ attributes, attr.WellFormed limits (boundedRule limits))
    (safe : ∀ attr ∈ attributes, valuesAll safeRule 0 attr.values) :
    ∃ found, (∀ attr ∈ found, attr.WellFormed limits (Decoder.rule limits)) ∧
      attributesWire found = attributesWire attributes ∧
      attributesCost found = attributesCost attributes ∧
      List.Forall₂ Attribute.SameShape attributes found := by
  induction attributes with
  | nil => exact ⟨[], by simp, rfl, rfl, .nil⟩
  | cons attr attributes ih =>
      obtain ⟨rest, restFormed, wire, cost, shapes⟩ :=
        ih (fun other member => formed other (List.mem_cons_of_mem _ member))
          (fun other member => safe other (List.mem_cons_of_mem _ member))
      have attrFormed := formed attr List.mem_cons_self
      obtain ⟨found, recovered⟩ :=
        values_recovered attr.values attrFormed.values (safe attr List.mem_cons_self)
      have filled : found ≠ [] := by
        rintro rfl
        cases collected : attr.values with
        | nil => exact attrFormed.filled collected
        | cons value values =>
            have shape := recovered.shape
            rw [collected, sameShapes] at shape
            · exact shape
            · simp
            · simp
      refine ⟨⟨attr.name, found⟩ :: rest, ?_, ?_, ?_, .cons ⟨rfl, recovered.shape⟩ shapes⟩
      · intro other member
        rcases List.mem_cons.mp member with rfl | later
        · exact ⟨attrFormed.named, filled, attrFormed.nameFits, recovered.all⟩
        · exact restFormed other later
      · have first := recovered.wire attr.name
        simp only [attributesWire, List.flatMap_cons, Attribute.wire] at wire ⊢
        rw [first, wire]
      · have first := recovered.cost attr.name
        simp only [attributesCost, List.map_cons, List.sum_cons, Attribute.cost] at cost ⊢
        rw [first, cost]

theorem groups_recovered (groups : List AttributeGroup)
    (formed : ∀ group ∈ groups, group.WellFormed limits (boundedRule limits))
    (safe : ∀ group ∈ groups, ∀ attr ∈ group.attributes, valuesAll safeRule 0 attr.values) :
    ∃ found, (∀ group ∈ found, group.WellFormed limits (Decoder.rule limits)) ∧
      groupsWire found = groupsWire groups ∧ groupsCost found = groupsCost groups ∧
      List.Forall₂ AttributeGroup.SameShape groups found := by
  induction groups with
  | nil => exact ⟨[], by simp, rfl, rfl, .nil⟩
  | cons group groups ih =>
      obtain ⟨rest, restFormed, wire, cost, shapes⟩ :=
        ih (fun other member => formed other (List.mem_cons_of_mem _ member))
          (fun other member => safe other (List.mem_cons_of_mem _ member))
      have groupFormed := formed group List.mem_cons_self
      obtain ⟨found, foundFormed, foundWire, foundCost, foundShapes⟩ :=
        attributes_recovered group.attributes groupFormed.attributes
          (safe group List.mem_cons_self)
      refine ⟨⟨group.tag, found⟩ :: rest, ?_, ?_, ?_, .cons ⟨rfl, foundShapes⟩ shapes⟩
      · intro other member
        rcases List.mem_cons.mp member with rfl | later
        · exact ⟨groupFormed.delimiter, foundFormed⟩
        · exact restFormed other later
      · simp only [groupsWire, List.flatMap_cons, AttributeGroup.wire, foundWire] at wire ⊢
        rw [wire]
      · simp only [groupsCost, List.map_cons, List.sum_cons, AttributeGroup.cost,
          foundCost] at cost ⊢
        rw [cost]

end Recovered

/-! ## Only safe messages are read back -/

section Unsafe

variable {limits : Limits}

theorem fieldBytes_inj {field other tail otherTail : Bytes} (short : field.length ≤ 65535)
    (otherShort : other.length ≤ 65535)
    (same : fieldBytes field ++ tail = fieldBytes other ++ otherTail) :
    field = other ∧ tail = otherTail := by
  rw [fieldBytes, fieldBytes, List.append_assoc, List.append_assoc] at same
  obtain ⟨prefixes, rest⟩ := List.append_inj same (by simp)
  have lengths : field.length = other.length := by
    rw [← @beNat_beBytes 2 _ (Nat.lt_succ_of_le short), prefixes,
      beNat_beBytes (Nat.lt_succ_of_le otherShort)]
  exact List.append_inj rest lengths

/-- Two entries that agree as byte strings agree in all their parts. -/
theorem entryBytes_inj {tag otherTag : UInt8} {name raw tail otherName other otherTail : Bytes}
    (nameShort : name.length ≤ 65535) (otherNameShort : otherName.length ≤ 65535)
    (short : raw.length ≤ 65535) (otherShort : other.length ≤ 65535)
    (same : entryBytes tag name raw ++ tail =
      entryBytes otherTag otherName other ++ otherTail) :
    tag = otherTag ∧ raw = other ∧ tail = otherTail := by
  simp only [entryBytes, List.cons_append, List.append_assoc, List.cons.injEq] at same
  obtain ⟨tags, rest⟩ := same
  obtain ⟨_, rest⟩ := fieldBytes_inj nameShort otherNameShort rest
  obtain ⟨raws, rest⟩ := fieldBytes_inj short otherShort rest
  exact ⟨tags, raws, rest⟩

/-- A tag that shares its byte with an ordinary tag of the same data is safe. -/
theorem safe_of_same_byte {depth : Nat} {tag found : ValueTag} {data other : ValueData}
    (plain : found.Plain) (byte : tag.toByte = found.toByte)
    (bounded : tag.fits data = true) (fits : found.fits other = true)
    (raw : data.raw = other.raw) (shape : data.SameShape other) :
    safeRule.onValue depth tag data := by
  have read : ValueTag.fromByte tag.toByte = found := by
    rw [byte]
    exact plain.canonical
  refine ⟨by rw [byte]; exact plain.valueByte, ?_, ?_, ?_⟩
  · rw [byte, Ne, ValueTag.fromByte_endCollection plain.canonical]
    exact plain.not_end
  · rw [byte, Ne, ValueTag.fromByte_memberAttrName plain.canonical]
    exact plain.not_member
  · cases other with
    | collection members =>
        left
        cases data with
        | collection others =>
            have opens : tag = .begCollection := by simpa [ValueTag.fits] using bounded
            rw [opens]
            rfl
        | _ => cases isCollection_of_sameShape shape
    | _ =>
        right
        rw [read, scalarSyntax_iff]
        exact ⟨_, fits, rfl, raw.symm⟩

/-- Scalars have no entries behind their own, so the rest follows at once. -/
theorem scalar_safe {data other : ValueData} {depth : Nat} {tail otherTail : Bytes}
    (scalar : data.isCollection = false) (shape : data.SameShape other)
    (wire : data.nested ++ tail = other.nested ++ otherTail) :
    data.All safeRule depth ∧ tail = otherTail := by
  have otherScalar : other.isCollection = false :=
    (isCollection_of_sameShape shape).symm.trans scalar
  obtain ⟨nested, -, all⟩ := nested_of_scalar scalar safeRule depth
  obtain ⟨otherNested, -, -⟩ := nested_of_scalar otherScalar safeRule depth
  rw [nested, otherNested] at wire
  exact ⟨all, wire⟩

mutual

theorem value_safe (value found : Value) {depth : Nat} {name otherName tail otherTail : Bytes}
    (bounded : value.All (boundedRule limits) depth)
    (all : found.All (Decoder.rule limits) depth)
    (nameShort : name.length ≤ 65535) (otherNameShort : otherName.length ≤ 65535)
    (shape : value.SameShape found)
    (wire : value.wire name ++ tail = found.wire otherName ++ otherTail) :
    value.All safeRule depth ∧ tail = otherTail := by
  cases value with
  | mk tag data =>
      cases found with
      | mk foundTag other =>
          rw [Value.SameShape] at shape
          rw [Value.wire, Value.wire, List.append_assoc, List.append_assoc] at wire
          obtain ⟨byte, raw, rest⟩ := entryBytes_inj nameShort otherNameShort
            bounded.1.2.1.wire all.1.1.2.1.wire wire
          obtain ⟨nested, tails⟩ := nested_safe data other bounded.2 all.2 shape rest
          exact ⟨⟨safe_of_same_byte all.1.2 byte bounded.1.1 all.1.1.1 raw shape, nested⟩,
            tails⟩
  termination_by structural value

theorem nested_safe (data other : ValueData) {depth : Nat} {tail otherTail : Bytes}
    (bounded : data.All (boundedRule limits) depth)
    (all : other.All (Decoder.rule limits) depth) (shape : data.SameShape other)
    (wire : data.nested ++ tail = other.nested ++ otherTail) :
    data.All safeRule depth ∧ tail = otherTail := by
  cases data with
  | collection members =>
      cases other with
      | collection others =>
          rw [ValueData.SameShape] at shape
          rw [ValueData.nested, ValueData.nested, List.append_assoc, List.append_assoc] at wire
          obtain ⟨safe, rest⟩ := members_safe members others bounded all shape wire
          exact ⟨safe, List.append_cancel_left rest⟩
      | _ => cases isCollection_of_sameShape shape
  | _ => exact scalar_safe rfl shape wire
  termination_by structural data

theorem member_safe (member found : CollectionMember) {depth : Nat} {tail otherTail : Bytes}
    (bounded : member.All (boundedRule limits) depth)
    (all : found.All (Decoder.rule limits) depth) (shape : member.SameShape found)
    (wire : member.wire ++ tail = found.wire ++ otherTail) :
    member.All safeRule depth ∧ tail = otherTail := by
  cases member with
  | mk name values =>
      cases found with
      | mk otherName others =>
          rw [CollectionMember.SameShape] at shape
          obtain ⟨rfl, shapes⟩ := shape
          rw [CollectionMember.wire, CollectionMember.wire, List.append_assoc,
            List.append_assoc] at wire
          obtain ⟨safe, rest⟩ := values_safe values others bounded.2 all.2 shapes
            (List.append_cancel_left wire)
          exact ⟨⟨trivial, safe⟩, rest⟩
  termination_by structural member

theorem values_safe (values found : List Value) {depth : Nat} {tail otherTail : Bytes}
    (bounded : valuesAll (boundedRule limits) depth values)
    (all : valuesAll (Decoder.rule limits) depth found) (shapes : sameShapes values found)
    (wire : valuesWire values ++ tail = valuesWire found ++ otherTail) :
    valuesAll safeRule depth values ∧ tail = otherTail := by
  cases values with
  | nil =>
      cases found with
      | nil => exact ⟨trivial, wire⟩
      | cons other others => simp [sameShapes] at shapes
  | cons value values =>
      cases found with
      | nil => simp [sameShapes] at shapes
      | cons other others =>
          rw [sameShapes] at shapes
          rw [valuesWire, valuesWire, List.append_assoc, List.append_assoc] at wire
          obtain ⟨safe, rest⟩ := value_safe value other bounded.1 all.1
            (nameFits_nil limits).wire (nameFits_nil limits).wire shapes.1 wire
          obtain ⟨later, tails⟩ := values_safe values others bounded.2 all.2 shapes.2 rest
          exact ⟨⟨safe, later⟩, tails⟩
  termination_by structural values

theorem members_safe (members found : List CollectionMember) {depth : Nat}
    {tail otherTail : Bytes} (bounded : membersAll (boundedRule limits) depth members)
    (all : membersAll (Decoder.rule limits) depth found)
    (shapes : sameMemberShapes members found)
    (wire : membersWire members ++ tail = membersWire found ++ otherTail) :
    membersAll safeRule depth members ∧ tail = otherTail := by
  cases members with
  | nil =>
      cases found with
      | nil => exact ⟨trivial, wire⟩
      | cons other others => simp [sameMemberShapes] at shapes
  | cons member members =>
      cases found with
      | nil => simp [sameMemberShapes] at shapes
      | cons other others =>
          rw [sameMemberShapes] at shapes
          rw [membersWire, membersWire, List.append_assoc, List.append_assoc] at wire
          obtain ⟨safe, rest⟩ := member_safe member other bounded.1 all.1 shapes.1 wire
          obtain ⟨later, tails⟩ := members_safe members others bounded.2 all.2 shapes.2 rest
          exact ⟨⟨safe, later⟩, tails⟩
  termination_by structural members

end

theorem attributes_safe {attributes found : List Attribute} {tail otherTail : Bytes}
    (formed : ∀ attr ∈ attributes, attr.WellFormed limits (boundedRule limits))
    (foundFormed : ∀ attr ∈ found, attr.WellFormed limits (Decoder.rule limits))
    (shapes : List.Forall₂ Attribute.SameShape attributes found)
    (wire : attributesWire attributes ++ tail = attributesWire found ++ otherTail) :
    (∀ attr ∈ attributes, valuesAll safeRule 0 attr.values) ∧ tail = otherTail := by
  induction shapes with
  | nil => exact ⟨by simp, wire⟩
  | @cons attr other attributes others shape shapes ih =>
      rcases attr with ⟨name, values⟩
      rcases other with ⟨otherName, otherValues⟩
      have attrFormed := formed _ List.mem_cons_self
      have otherFormed := foundFormed _ List.mem_cons_self
      simp only [attributesWire, List.flatMap_cons, List.append_assoc] at wire
      obtain ⟨safe, rest⟩ : valuesAll safeRule 0 values ∧
          attributesWire attributes ++ tail = attributesWire others ++ otherTail := by
        cases values with
        | nil => exact absurd rfl attrFormed.filled
        | cons value values =>
            cases otherValues with
            | nil => exact absurd rfl otherFormed.filled
            | cons otherValue otherValues =>
                have shapes := shape.2
                simp only [sameShapes] at shapes
                simp only [Attribute.wire, namedWire, List.append_assoc] at wire
                obtain ⟨first, rest⟩ := value_safe value otherValue attrFormed.values.1
                  otherFormed.values.1 attrFormed.nameFits.wire otherFormed.nameFits.wire
                  shapes.1 wire
                obtain ⟨later, rest⟩ := values_safe values otherValues attrFormed.values.2
                  otherFormed.values.2 shapes.2 rest
                exact ⟨⟨first, later⟩, rest⟩
      obtain ⟨later, tails⟩ := ih
        (fun attr member => formed attr (List.mem_cons_of_mem _ member))
        (fun attr member => foundFormed attr (List.mem_cons_of_mem _ member)) rest
      refine ⟨?_, tails⟩
      intro attr member
      rcases List.mem_cons.mp member with rfl | inside
      · exact safe
      · exact later attr inside

theorem groups_safe {groups found : List AttributeGroup} {tail otherTail : Bytes}
    (formed : ∀ group ∈ groups, group.WellFormed limits (boundedRule limits))
    (foundFormed : ∀ group ∈ found, group.WellFormed limits (Decoder.rule limits))
    (shapes : List.Forall₂ AttributeGroup.SameShape groups found)
    (wire : groupsWire groups ++ tail = groupsWire found ++ otherTail) :
    ∀ group ∈ groups, ∀ attr ∈ group.attributes, valuesAll safeRule 0 attr.values := by
  induction shapes with
  | nil => simp
  | @cons group other groups others shape shapes ih =>
      simp only [groupsWire, List.flatMap_cons, AttributeGroup.wire, List.cons_append,
        List.append_assoc, List.cons.injEq] at wire
      obtain ⟨safe, rest⟩ := attributes_safe (formed _ List.mem_cons_self).attributes
        (foundFormed _ List.mem_cons_self).attributes shape.2 wire.2
      have later := ih (fun group member => formed group (List.mem_cons_of_mem _ member))
        (fun group member => foundFormed group (List.mem_cons_of_mem _ member)) rest
      intro inner member
      rcases List.mem_cons.mp member with rfl | inside
      · exact safe
      · exact later inner inside

end Unsafe

/-- The reader recovers the structure of an encoded message exactly when every value
of the message, at every depth, is safe. -/
theorem encode_recovered_iff (message : Message) (limits : Limits) (output : Bytes)
    (encoded : encode message limits = .ok output) :
    (∃ found, decode output limits = .ok found ∧ message.SameStructure found) ↔
      message.Obeys safeRule := by
  obtain ⟨formed, _, affordable, rfl⟩ := (encode_eq_ok message limits output).mp encoded
  have bounded := (Message.wellFormed_both.mp formed).1
  constructor
  · rintro ⟨found, decoded, shapes⟩
    obtain ⟨foundFormed, _, wire, _⟩ := (decode_eq_ok _ _ _).mp decoded
    have headers : message.header.length = found.header.length := by
      simp [Message.header]
    rw [Message.wire, Message.wire] at wire
    have groups := (List.append_inj wire headers.symm).2
    exact groups_safe bounded foundFormed shapes groups.symm
  · intro safe
    obtain ⟨groups, groupsFormed, wire, cost, shapes⟩ :=
      groups_recovered message.groups bounded safe
    have sameWire : ({ message with groups := groups, originalBytes := message.wire } :
        Message).wire = message.wire := by
      rw [Message.wire, Message.wire, wire]
      rfl
    refine ⟨{ message with groups := groups, originalBytes := message.wire }, ?_, shapes⟩
    apply (decode_eq_ok _ _ _).mpr
    refine ⟨groupsFormed, ⟨affordable.valid, ?_, ?_⟩, sameWire, rfl⟩
    · rw [sameWire]
      exact affordable.length
    · exact cost ▸ affordable.cost

/-- An integer spelled as an extension of its own byte: not canonical, and safe. -/
def spelledMessage : Message where
  version := ⟨2, 0⟩
  code := getPrinterAttributes
  requestId := 7
  groups := [⟨printerAttributesTag, [⟨[0x61], [⟨.extension 0x21, .bytes [0, 0, 0, 5]⟩]⟩]⟩]
  originalBytes := []

theorem encode_recovered_iff_spelledMessage :
    encode spelledMessage .default = .ok spelledMessage.wire ∧
      ((∃ found, decode spelledMessage.wire .default = .ok found ∧
        spelledMessage.SameStructure found) ↔ spelledMessage.Obeys safeRule) := by
  have encoded : encode spelledMessage .default = .ok spelledMessage.wire := by
    decide +kernel
  exact ⟨encoded, encode_recovered_iff _ _ _ encoded⟩

/-- A value whose extension tag is the end-of-attributes marker. -/
def injectingMessage : Message where
  version := ⟨2, 0⟩
  code := getPrinterAttributes
  requestId := 7
  groups := [⟨printerAttributesTag, [⟨[0x61], [⟨.extension 0x03, .bytes []⟩]⟩]⟩]
  originalBytes := []

theorem injectingMessage_not_recovered :
    encode injectingMessage .default =
        .ok [2, 0, 0, 11, 0, 0, 0, 7, 4, 3, 0, 1, 0x61, 0, 0, 3] ∧
      decode [2, 0, 0, 11, 0, 0, 0, 7, 4, 3, 0, 1, 0x61, 0, 0, 3] .default =
        fail (.trailingBytes 10) := by
  constructor <;> decide +kernel

end PrinterSdk.Ipp
