import PrinterSdk.Ipp.DecodeTotal

/-!
# The size of decoded messages

What a message holds is counted here from the message itself, at every nesting depth, and
not from the counters of the decoder: groups, attributes, collection members, values, the
nesting of collections, and the bytes of names and values.  A message that was decoded
keeps to the limits in all of them.
-/

namespace PrinterSdk.Ipp

open PrinterSdk.Data

/-! ## What a message holds -/

mutual

/-- The value and all values nested in it. -/
def Value.everyValue : Value → List Value
  | .mk tag data => ⟨tag, data⟩ :: data.everyValue

def ValueData.everyValue : ValueData → List Value
  | .collection members => membersEveryValue members
  | _ => []

def CollectionMember.everyValue : CollectionMember → List Value
  | .mk _ values => valuesEveryValue values

def valuesEveryValue : List Value → List Value
  | [] => []
  | first :: rest => first.everyValue ++ valuesEveryValue rest

def membersEveryValue : List CollectionMember → List Value
  | [] => []
  | first :: rest => first.everyValue ++ membersEveryValue rest

end

mutual

/-- All collection members in a value. -/
def Value.everyMember : Value → List CollectionMember
  | .mk _ data => data.everyMember

def ValueData.everyMember : ValueData → List CollectionMember
  | .collection members => membersEveryMember members
  | _ => []

def CollectionMember.everyMember : CollectionMember → List CollectionMember
  | .mk name values => ⟨name, values⟩ :: valuesEveryMember values

def valuesEveryMember : List Value → List CollectionMember
  | [] => []
  | first :: rest => first.everyMember ++ valuesEveryMember rest

def membersEveryMember : List CollectionMember → List CollectionMember
  | [] => []
  | first :: rest => first.everyMember ++ membersEveryMember rest

end

mutual

/-- How many collections a value is nested in at most, counting itself. -/
def Value.depth : Value → Nat
  | .mk _ data => data.depth

def ValueData.depth : ValueData → Nat
  | .collection members => membersDepth members + 1
  | _ => 0

def CollectionMember.depth : CollectionMember → Nat
  | .mk _ values => valuesDepth values

def valuesDepth : List Value → Nat
  | [] => 0
  | first :: rest => max first.depth (valuesDepth rest)

def membersDepth : List CollectionMember → Nat
  | [] => 0
  | first :: rest => max first.depth (membersDepth rest)

end

namespace Message

variable (message : Message)

/-- The attributes of all groups. -/
def everyAttribute : List Attribute := message.groups.flatMap AttributeGroup.attributes

/-- The values of all attributes and of all collection members. -/
def everyValue : List Value :=
  message.everyAttribute.flatMap fun attr => valuesEveryValue attr.values

/-- The collection members at every depth. -/
def everyMember : List CollectionMember :=
  message.everyAttribute.flatMap fun attr => valuesEveryMember attr.values

/-- The names of attributes and of collection members. -/
def everyName : List Bytes :=
  message.everyAttribute.map Attribute.name ++ message.everyMember.map CollectionMember.name

/-- The nesting of the collections. -/
def depth : Nat := valuesDepth (message.everyAttribute.flatMap Attribute.values)

/-- A message within the limits. -/
structure Within (limits : Limits) : Prop where
  groups : message.groups.length ≤ limits.maxGroups.toNat
  attributes :
    message.everyAttribute.length + message.everyMember.length ≤ limits.maxAttributes.toNat
  members : message.everyMember.length ≤ limits.maxCollectionMembers.toNat
  values : message.everyValue.length ≤ limits.maxValues.toNat
  nesting : message.depth ≤ limits.maxCollectionDepth.toNat
  names : ∀ name ∈ message.everyName, name.length ≤ limits.maxNameBytes.toNat
  valueBytes : ∀ value ∈ message.everyValue, value.data.raw.length ≤ limits.maxValueBytes.toNat
  decodedBytes : (message.everyName.map List.length).sum +
    (message.everyValue.map fun value => value.data.raw.length).sum ≤
      limits.maxDecodedBytes.toNat

end Message

/-! ## Counting -/

/-- What the decoder counts at least for some values and collection members. -/
def heldBy (values : List Value) (members : List CollectionMember) : Counters
  | .groups => 0
  | .attributes => members.length
  | .values => values.length
  | .collectionMembers => members.length
  | .decodedBytes => (members.map fun member => member.name.length).sum +
      (values.map fun value => value.data.raw.length).sum

theorem heldBy_append (values moreValues : List Value) (members moreMembers : List CollectionMember) :
    heldBy (values ++ moreValues) (members ++ moreMembers) =
      heldBy values members + heldBy moreValues moreMembers := by
  funext kind
  cases kind with
  | decodedBytes =>
      simp only [heldBy, List.map_append, List.sum_append, Pi.add_apply]
      omega
  | _ => simp [heldBy]

mutual

theorem heldBy_value_le (name : Bytes) (value : Value) :
    heldBy value.everyValue value.everyMember + Pi.single .decodedBytes name.length ≤
      value.cost name := by
  cases value with
  | mk tag data =>
      have nested := heldBy_data_le data
      intro kind
      have inner := nested kind
      rw [Value.cost, Value.everyValue, Value.everyMember]
      cases kind <;> simp [heldBy, entryCost] at inner ⊢ <;> omega

theorem heldBy_data_le (data : ValueData) :
    heldBy data.everyValue data.everyMember ≤ data.nestedCost := by
  cases data with
  | collection members =>
      intro kind
      have inner := heldBy_members_le members kind
      rw [ValueData.nestedCost, ValueData.everyValue, ValueData.everyMember]
      cases kind <;> simp [entryCost] at inner ⊢ <;> omega
  | _ =>
      intro kind
      cases kind <;> exact Nat.le_refl 0

theorem heldBy_member_le (member : CollectionMember) :
    heldBy member.everyValue member.everyMember ≤ member.cost := by
  cases member with
  | mk name values =>
      intro kind
      have inner := heldBy_values_le values kind
      rw [CollectionMember.cost, CollectionMember.everyValue, CollectionMember.everyMember]
      cases kind <;> simp [heldBy, entryCost] at inner ⊢ <;> omega

theorem heldBy_values_le (values : List Value) :
    heldBy (valuesEveryValue values) (valuesEveryMember values) ≤ valuesCost values := by
  cases values with
  | nil =>
      intro kind
      cases kind <;> exact Nat.le_refl 0
  | cons value rest =>
      rw [valuesEveryValue, valuesEveryMember, heldBy_append, valuesCost]
      exact add_le_add (le_self_add.trans (heldBy_value_le [] value)) (heldBy_values_le rest)

theorem heldBy_members_le (members : List CollectionMember) :
    heldBy (membersEveryValue members) (membersEveryMember members) ≤ membersCost members := by
  cases members with
  | nil =>
      intro kind
      cases kind <;> exact Nat.le_refl 0
  | cons member rest =>
      rw [membersEveryValue, membersEveryMember, heldBy_append, membersCost]
      exact add_le_add (heldBy_member_le member) (heldBy_members_le rest)

end

/-- What the decoder counts for some attributes. -/
def heldByAttributes (attributes : List Attribute) : Counters :=
  heldBy (attributes.flatMap fun attr => valuesEveryValue attr.values)
      (attributes.flatMap fun attr => valuesEveryMember attr.values) +
    Pi.single .attributes attributes.length +
    Pi.single .decodedBytes (attributes.map fun attr => attr.name.length).sum

theorem heldBy_attribute_le {attr : Attribute} (filled : attr.values ≠ []) :
    heldBy (valuesEveryValue attr.values) (valuesEveryMember attr.values) +
      Pi.single .attributes 1 + Pi.single .decodedBytes attr.name.length ≤ attr.cost := by
  obtain ⟨name, values⟩ := attr
  cases values with
  | nil => exact absurd rfl filled
  | cons value rest =>
      have both := add_le_add (heldBy_value_le name value) (heldBy_values_le rest)
      rw [add_right_comm, ← heldBy_append] at both
      rw [Attribute.cost, namedCost, add_right_comm]
      exact add_le_add_left both _

theorem heldByAttributes_le {attributes : List Attribute}
    (filled : ∀ attr ∈ attributes, attr.values ≠ []) :
    heldByAttributes attributes ≤ attributesCost attributes := by
  induction attributes with
  | nil =>
      intro kind
      cases kind <;> exact Nat.le_refl 0
  | cons attr rest ih =>
      obtain ⟨here, later⟩ := List.forall_mem_cons.mp filled
      have both := add_le_add (heldBy_attribute_le here) (ih later)
      have split : heldByAttributes (attr :: rest) =
          heldBy (valuesEveryValue attr.values) (valuesEveryMember attr.values) +
            Pi.single .attributes 1 + Pi.single .decodedBytes attr.name.length +
            heldByAttributes rest := by
        rw [heldByAttributes, List.flatMap_cons, List.flatMap_cons, heldBy_append, heldByAttributes]
        funext kind
        cases kind <;> simp <;> omega
      rw [split]
      exact both

/-- A message is counted for all its groups and attributes. -/
theorem heldBy_message_le {groups : List AttributeGroup}
    (filled : ∀ group ∈ groups, ∀ attr ∈ group.attributes, attr.values ≠ []) :
    Pi.single .groups groups.length +
      heldByAttributes (groups.flatMap AttributeGroup.attributes) ≤ groupsCost groups := by
  induction groups with
  | nil =>
      intro kind
      cases kind <;> exact Nat.le_refl 0
  | cons group rest ih =>
      obtain ⟨here, later⟩ := List.forall_mem_cons.mp filled
      have own : Pi.single .groups 1 + heldByAttributes group.attributes ≤ group.cost :=
        add_le_add_right (heldByAttributes_le here) _
      have both := add_le_add own (ih later)
      have split : Pi.single .groups (group :: rest).length +
          heldByAttributes ((group :: rest).flatMap AttributeGroup.attributes) =
            Pi.single .groups 1 + heldByAttributes group.attributes +
              (Pi.single .groups rest.length +
                heldByAttributes (rest.flatMap AttributeGroup.attributes)) := by
        rw [List.flatMap_cons, heldByAttributes, List.flatMap_append, List.flatMap_append,
          heldBy_append, heldByAttributes, heldByAttributes]
        funext kind
        cases kind <;> simp <;> omega
      rw [split]
      exact both

/-! ## Rules at every depth -/

mutual

/-- A rule that holds at every depth holds of every nested value and member. -/
theorem every_of_value {rule : Rule} {depth : Nat} {value : Value} (all : value.All rule depth) :
    (∀ inner ∈ value.everyValue, ∃ depth, rule.onValue depth inner.tag inner.data) ∧
      ∀ member ∈ value.everyMember, ∃ depth, rule.onMember depth member.name member.values := by
  cases value with
  | mk tag data =>
      obtain ⟨values, members⟩ := every_of_data all.2
      refine ⟨?_, members⟩
      intro inner member
      rcases List.mem_cons.mp member with rfl | nested
      · exact ⟨depth, all.1⟩
      · exact values inner nested

theorem every_of_data {rule : Rule} {depth : Nat} {data : ValueData} (all : data.All rule depth) :
    (∀ inner ∈ data.everyValue, ∃ depth, rule.onValue depth inner.tag inner.data) ∧
      ∀ member ∈ data.everyMember, ∃ depth, rule.onMember depth member.name member.values := by
  cases data with
  | collection members => exact every_of_members all
  | _ => exact ⟨nofun, nofun⟩

theorem every_of_member {rule : Rule} {depth : Nat} {member : CollectionMember}
    (all : member.All rule depth) :
    (∀ inner ∈ member.everyValue, ∃ depth, rule.onValue depth inner.tag inner.data) ∧
      ∀ inner ∈ member.everyMember, ∃ depth, rule.onMember depth inner.name inner.values := by
  cases member with
  | mk name values =>
      obtain ⟨every, members⟩ := every_of_values all.2
      refine ⟨every, ?_⟩
      intro inner found
      rcases List.mem_cons.mp found with rfl | nested
      · exact ⟨depth, all.1⟩
      · exact members inner nested

theorem every_of_values {rule : Rule} {depth : Nat} {values : List Value}
    (all : valuesAll rule depth values) :
    (∀ inner ∈ valuesEveryValue values, ∃ depth, rule.onValue depth inner.tag inner.data) ∧
      ∀ member ∈ valuesEveryMember values,
        ∃ depth, rule.onMember depth member.name member.values := by
  cases values with
  | nil => exact ⟨nofun, nofun⟩
  | cons value rest =>
      obtain ⟨values, members⟩ := every_of_value all.1
      obtain ⟨laterValues, laterMembers⟩ := every_of_values all.2
      exact ⟨List.forall_mem_append.mpr ⟨values, laterValues⟩,
        List.forall_mem_append.mpr ⟨members, laterMembers⟩⟩

theorem every_of_members {rule : Rule} {depth : Nat} {members : List CollectionMember}
    (all : membersAll rule depth members) :
    (∀ inner ∈ membersEveryValue members, ∃ depth, rule.onValue depth inner.tag inner.data) ∧
      ∀ member ∈ membersEveryMember members,
        ∃ depth, rule.onMember depth member.name member.values := by
  cases members with
  | nil => exact ⟨nofun, nofun⟩
  | cons member rest =>
      obtain ⟨values, members⟩ := every_of_member all.1
      obtain ⟨laterValues, laterMembers⟩ := every_of_members all.2
      exact ⟨List.forall_mem_append.mpr ⟨values, laterValues⟩,
        List.forall_mem_append.mpr ⟨members, laterMembers⟩⟩

end

mutual

/-- Collections nest no deeper than the rule lets them. -/
theorem depth_value_le {limits : Limits} {depth : Nat} {value : Value}
    (all : value.All (boundedRule limits) depth)
    (within : depth ≤ limits.maxCollectionDepth.toNat) :
    depth + value.depth ≤ limits.maxCollectionDepth.toNat := by
  cases value with
  | mk tag data => exact depth_data_le all.2 all.1.2.2 within

theorem depth_data_le {limits : Limits} {depth : Nat} {data : ValueData}
    (all : data.All (boundedRule limits) depth)
    (shallow : data.isCollection → depth + 1 ≤ limits.maxCollectionDepth.toNat)
    (within : depth ≤ limits.maxCollectionDepth.toNat) :
    depth + data.depth ≤ limits.maxCollectionDepth.toNat := by
  cases data with
  | collection members =>
      have inner := depth_members_le all (shallow rfl)
      rw [ValueData.depth]
      omega
  | _ => exact within

theorem depth_member_le {limits : Limits} {depth : Nat} {member : CollectionMember}
    (all : member.All (boundedRule limits) depth)
    (within : depth ≤ limits.maxCollectionDepth.toNat) :
    depth + member.depth ≤ limits.maxCollectionDepth.toNat := by
  cases member with
  | mk name values => exact depth_values_le all.2 within

theorem depth_values_le {limits : Limits} {depth : Nat} {values : List Value}
    (all : valuesAll (boundedRule limits) depth values)
    (within : depth ≤ limits.maxCollectionDepth.toNat) :
    depth + valuesDepth values ≤ limits.maxCollectionDepth.toNat := by
  cases values with
  | nil => exact within
  | cons value rest =>
      have here := depth_value_le all.1 within
      have later := depth_values_le all.2 within
      rw [valuesDepth]
      omega

theorem depth_members_le {limits : Limits} {depth : Nat} {members : List CollectionMember}
    (all : membersAll (boundedRule limits) depth members)
    (within : depth ≤ limits.maxCollectionDepth.toNat) :
    depth + membersDepth members ≤ limits.maxCollectionDepth.toNat := by
  cases members with
  | nil => exact within
  | cons member rest =>
      have here := depth_member_le all.1 within
      have later := depth_members_le all.2 within
      rw [membersDepth]
      omega

end

/-! ## Decoded messages -/

section

variable {limits : Limits} {message : Message}

theorem wellFormed_attribute (formed : message.WellFormed limits (Decoder.rule limits))
    {attr : Attribute} (member : attr ∈ message.everyAttribute) :
    attr.WellFormed limits (boundedRule limits) := by
  obtain ⟨group, inside, member⟩ := List.mem_flatMap.mp member
  exact ((Message.wellFormed_both.mp formed).1 group inside).attributes attr member

theorem valuesAll_everyAttribute (formed : message.WellFormed limits (Decoder.rule limits)) :
    valuesAll (boundedRule limits) 0 (message.everyAttribute.flatMap Attribute.values) := by
  have every : ∀ attr ∈ message.everyAttribute, valuesAll (boundedRule limits) 0 attr.values :=
    fun attr member => (wellFormed_attribute formed member).values
  generalize message.everyAttribute = attributes at every
  induction attributes with
  | nil => exact trivial
  | cons attr rest ih =>
      obtain ⟨here, later⟩ := List.forall_mem_cons.mp every
      exact (valuesAll_append _ _ _ _).mpr ⟨here, ih later⟩

/-- A well-formed message the decoder could afford is within the limits. -/
theorem within_of_affordable (formed : message.WellFormed limits (Decoder.rule limits))
    (affordable : message.Affordable limits) : message.Within limits := by
  have filled : ∀ group ∈ message.groups, ∀ attr ∈ group.attributes, attr.values ≠ [] :=
    fun group inside attr member => ((formed group inside).attributes attr member).filled
  have counted : ∀ kind, (Pi.single .groups message.groups.length : Counters) kind +
      (heldBy message.everyValue message.everyMember kind +
        (Pi.single .attributes message.everyAttribute.length : Counters) kind +
        (Pi.single .decodedBytes
          (message.everyAttribute.map fun attr => attr.name.length).sum : Counters) kind) ≤
        limits.bound kind :=
    fun kind => (heldBy_message_le filled).trans affordable.cost kind
  refine ⟨?_, ?_, ?_, ?_, ?_, ?_, ?_, ?_⟩
  · simpa [heldBy, Limits.bound] using counted .groups
  · simpa [heldBy, Limits.bound, Nat.add_comm] using counted .attributes
  · simpa [heldBy, Limits.bound] using counted .collectionMembers
  · simpa [heldBy, Limits.bound] using counted .values
  · have shallow := depth_values_le (valuesAll_everyAttribute formed) (Nat.zero_le _)
    rwa [Nat.zero_add] at shallow
  · intro name member
    rcases List.mem_append.mp member with own | nested
    · obtain ⟨attr, found, rfl⟩ := List.mem_map.mp own
      exact (wellFormed_attribute formed found).nameFits.name
    · obtain ⟨inner, found, rfl⟩ := List.mem_map.mp nested
      obtain ⟨attr, holds, inside⟩ := List.mem_flatMap.mp found
      obtain ⟨depth, obeys⟩ :=
        (every_of_values (wellFormed_attribute formed holds).values).2 inner inside
      exact obeys.2.1.name
  · intro value member
    obtain ⟨attr, holds, inside⟩ := List.mem_flatMap.mp member
    obtain ⟨depth, obeys⟩ :=
      (every_of_values (wellFormed_attribute formed holds).values).1 value inside
    exact obeys.2.1.value
  · have decoded := counted .decodedBytes
    simp [heldBy, Limits.bound, Message.everyName, Function.comp_def] at decoded ⊢
    omega

end

/-- The decoder returns a message or an error for every input under every limits, and a
message it returns keeps to all of them. -/
theorem decode_bounded (input : Bytes) (limits : Limits) :
    NoPanic (decode input limits) ∧
      ∀ message, decode input limits = .ok message → message.Within limits := by
  refine ⟨noPanic_decode input limits, ?_⟩
  intro message returned
  obtain ⟨formed, affordable, -, -⟩ := (decode_eq_ok input limits message).mp returned
  exact within_of_affordable formed affordable

end PrinterSdk.Ipp
