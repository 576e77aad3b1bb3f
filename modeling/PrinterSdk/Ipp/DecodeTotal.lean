import PrinterSdk.Ipp.DecodeMessage

/-!
# The decoder never panics

Every counter stays below the offset: an entry takes at least five bytes, and adds at most
one to every count but that of the decoded bytes.  No counter therefore overflows, and the
number of remaining entries the loops are given never runs out.
-/

namespace PrinterSdk.Ipp

open PrinterSdk.Data

namespace Decoder

variable {limits : Limits} {decoder middle result : Decoder}

/-- Every count leaves room for `spare` more below the offset. -/
def Spare (spare : Nat) (decoder : Decoder) : Prop :=
  ∀ kind, decoder.counters kind + spare ≤ decoder.offset

theorem Spare.weaken {spare less : Nat} (room : decoder.Spare spare) (fewer : less ≤ spare) :
    decoder.Spare less := by
  intro kind
  exact Nat.le_trans (Nat.add_le_add_left fewer _) (room kind)

theorem Spare.parsed {spare left : Nat} {bytes : Bytes} {cost : Counters}
    (room : decoder.Spare spare) (parsed : Parsed limits decoder bytes cost result)
    (pays : ∀ kind, cost kind + left ≤ bytes.length + spare) : result.Spare left := by
  intro kind
  have before := room kind
  have paid := pays kind
  rw [← parsed.state]
  change decoder.counters kind + cost kind + left ≤ decoder.offset + bytes.length
  omega

/-! ## Primitive methods -/

theorem noPanic_byte (ready : decoder.Ready limits) : NoPanic (byte decoder) := by
  apply Method.noPanic_get
  cases found : decoder.input[decoder.offset]? with
  | none => exact noPanic_fail _
  | some next =>
      apply Method.noPanic_bind (Method.noPanic_lift _ _)
      · intro offset middle advanced
        exact noPanic_ok _
      · rw [advance_of_found ready found]
        exact noPanic_ok _

theorem noPanic_peek (decoder : Decoder) : NoPanic (peek decoder) := by
  apply Method.noPanic_get
  cases decoder.input[decoder.offset]? with
  | none => exact noPanic_fail _
  | some next => exact noPanic_ok _

theorem noPanic_take (length : Nat) (decoder : Decoder) : NoPanic (take length decoder) := by
  apply Method.noPanic_get
  cases checkedAdd decoder.offset length with
  | none => exact noPanic_fail _
  | some finish =>
      by_cases inside : finish ≤ decoder.input.length
      · simp only [inside, if_true]
        exact noPanic_ok _
      · simp only [inside, if_false]
        exact noPanic_fail _

theorem noPanic_u16 (decoder : Decoder) : NoPanic (u16 decoder) := by
  rw [u16_eq]
  apply Method.noPanic_bind (noPanic_take 2 decoder)
  intro bytes after taken
  exact noPanic_ok _

theorem noPanic_u32 (decoder : Decoder) : NoPanic (u32 decoder) := by
  rw [u32_eq]
  apply Method.noPanic_bind (noPanic_take 4 decoder)
  intro bytes after taken
  exact noPanic_ok _

/-- A counter that is below the offset can be advanced. -/
theorem noPanic_charge {spare amount : Nat} (kind : Counted) (ready : decoder.Ready limits)
    (room : decoder.Spare spare) (pays : amount ≤ spare) :
    NoPanic (charge kind amount decoder) := by
  have fits : ¬usizeMax < decoder.counters kind + amount := by
    have below := room kind
    have inside := ready.offset
    have machine := ready.input
    omega
  apply Method.noPanic_get
  apply Method.noPanic_bind
  · apply Method.noPanic_get
    by_cases exceeded : decoder.limits.bound kind < saturatingAdd (decoder.counters kind) amount
    · simp only [exceeded, if_true]
      exact noPanic_fail _
    · simp only [exceeded, if_false]
      exact noPanic_ok _
  · intro done bumped returned
    have same : bumped = decoder := by
      simp only [bump, Method.bind_eq_ok, Method.get_eq_ok, Prod.mk.injEq] at returned
      obtain ⟨_, _, ⟨rfl, rfl⟩, returned⟩ := returned
      by_cases exceeded : decoder.limits.bound kind <
          saturatingAdd (decoder.counters kind) amount
      · simp [exceeded] at returned
      · simp only [exceeded, if_false, Method.pure_eq_ok, Prod.mk.injEq] at returned
        exact returned.2.symm
    rw [same]
    apply Method.noPanic_get
    rw [if_neg fits]
    exact noPanic_ok _

/-! ## Entries -/

theorem spare_byte {read : UInt8} {spare : Nat} (ready : decoder.Ready limits)
    (room : decoder.Spare spare) (returned : byte decoder = .ok (read, result)) :
    result.Ready limits ∧ result.Spare (spare + 1) := by
  have parsed := ((byte_parses _ _ _ ready).mp returned).2
  refine ⟨parsed.ready, room.parsed parsed fun kind => ?_⟩
  change 0 + (spare + 1) ≤ 1 + spare
  omega

theorem noPanic_field {spare : Nat} (kind : String) (limit : Nat) (ready : decoder.Ready limits)
    (room : decoder.Spare spare) : NoPanic (field kind limit decoder) := by
  apply Method.noPanic_bind (noPanic_u16 decoder)
  intro length counted read
  have measured := ((u16_parses _ _ _ ready).mp read).2
  by_cases long : limit < length.toNat
  · rw [if_pos long]
    exact noPanic_fail _
  · rw [if_neg long]
    apply Method.noPanic_bind (noPanic_take _ _)
    intro bytes taken took
    obtain ⟨size, parsed⟩ := (take_parses _ _ _ _ measured.ready).mp took
    have both := parsed_append.mpr ⟨counted, measured, parsed⟩
    have spare : taken.Spare length.toNat := room.parsed both fun kind => by
      change 0 + 0 + length.toNat ≤ _
      rw [List.length_append, size]
      omega
    apply Method.noPanic_bind (noPanic_charge .decodedBytes parsed.ready spare (Nat.le_refl _))
    intro done charged returned
    exact noPanic_ok _

/-- A field pays for the bytes it counts. -/
theorem spare_field {spare : Nat} {kind : String} {limit : Nat} {read : Bytes}
    (ready : decoder.Ready limits) (room : decoder.Spare spare)
    (returned : field kind limit decoder = .ok (read, result)) :
    result.Ready limits ∧ result.Spare (spare + 2) := by
  have parsed : Parsed limits decoder (fieldBytes read)
      (Pi.single .decodedBytes read.length) result :=
    ((field_parses kind limit _ _ _ ready).mp returned).2
  refine ⟨parsed.ready, room.parsed parsed ?_⟩
  intro other
  rw [length_fieldBytes]
  by_cases same : other = .decodedBytes
  · subst same
    rw [Pi.single_eq_same]
    omega
  · rw [Pi.single_eq_of_ne same]
    omega

theorem noPanic_entry {spare : Nat} (ready : decoder.Ready limits)
    (room : decoder.Spare spare) : NoPanic (entry decoder) := by
  apply Method.noPanic_get
  apply Method.noPanic_bind (noPanic_byte ready)
  intro tag tagged read
  obtain ⟨ready, room⟩ := spare_byte ready room read
  apply Method.noPanic_bind (noPanic_field _ _ ready room)
  intro name named read
  obtain ⟨ready, room⟩ := spare_field ready room read
  apply Method.noPanic_bind (noPanic_field _ _ ready room)
  intro raw filled read
  obtain ⟨ready, room⟩ := spare_field ready room read
  apply Method.noPanic_bind (noPanic_charge .values ready room (by omega))
  intro done counted read
  exact noPanic_ok _

theorem noPanic_exactI32 (raw : Bytes) (tag : ValueTag) (offset : Nat) :
    NoPanic (exactI32 raw tag offset) := by
  by_cases width : raw.length = 4
  · rw [exactI32_of_length width]
    exact noPanic_ok _
  · rw [exactI32_of_length_ne width]
    exact noPanic_fail _

/-- The checks of the length stand before every slice, index and conversion. -/
theorem noPanic_decodeScalar (tag : ValueTag) (raw : Bytes) (offset : Nat) :
    NoPanic (decodeScalar tag raw offset) := by
  cases tag with
  | integer => exact NoPanic.map _ (noPanic_exactI32 _ _ _)
  | enum => exact NoPanic.map _ (noPanic_exactI32 _ _ _)
  | resolution =>
      by_cases width : raw.length = 9
      · rw [decodeScalar_nine width]
        exact noPanic_ok _
      · simp only [decodeScalar, ValueTag.isOutOfBand, Bool.false_eq_true, if_false, width]
        exact noPanic_fail _
  | rangeOfInteger =>
      by_cases width : raw.length = 8
      · rw [decodeScalar_eight width]
        exact noPanic_ok _
      · simp only [decodeScalar, ValueTag.isOutOfBand, Bool.false_eq_true, if_false, width]
        exact noPanic_fail _
  | _ =>
      simp only [decodeScalar, ValueTag.isOutOfBand, Bool.false_eq_true, if_false, if_true]
      repeat' split
      all_goals first | exact noPanic_ok _ | exact noPanic_fail _

/-! ## What an entry pays for -/

theorem entryCost_le (tag : UInt8) (name raw : Bytes) (kind : Counted) :
    entryCost name raw kind + 4 ≤ (entryBytes tag name raw).length := by
  rw [length_entryBytes]
  cases kind <;> simp [entryCost] <;> omega

mutual

/-- A value takes more bytes than it adds to any count, by four at least. -/
theorem cost_value_le (name : Bytes) (value : Value) (kind : Counted) :
    value.cost name kind + 4 ≤ (value.wire name).length := by
  cases value with
  | mk tag data =>
      have first := entryCost_le tag.toByte name data.raw kind
      have nested := cost_nested_le data kind
      rw [Value.wire, List.length_append, Value.cost, Pi.add_apply]
      omega

theorem cost_nested_le (data : ValueData) (kind : Counted) :
    data.nestedCost kind ≤ data.nested.length := by
  cases data with
  | collection members =>
      have inner := cost_members_le members kind
      have last : entryCost [] [] kind + 4 ≤ endEntry.length := entryCost_le _ [] [] kind
      rw [ValueData.nested, List.length_append, ValueData.nestedCost, Pi.add_apply]
      omega
  | _ => exact Nat.le_refl 0

theorem cost_member_le (member : CollectionMember) (kind : Counted) :
    member.cost kind ≤ member.wire.length := by
  cases member with
  | mk name values =>
      have first : entryCost [] name kind + 4 ≤ (memberEntry name).length :=
        entryCost_le _ [] name kind
      have inner := cost_values_le values kind
      rw [CollectionMember.wire, List.length_append, CollectionMember.cost]
      cases kind <;> simp at first inner ⊢ <;> omega

theorem cost_values_le (values : List Value) (kind : Counted) :
    valuesCost values kind ≤ (valuesWire values).length := by
  cases values with
  | nil => exact Nat.le_refl 0
  | cons value rest =>
      have first := cost_value_le [] value kind
      have later := cost_values_le rest kind
      rw [valuesWire, List.length_append, valuesCost, Pi.add_apply]
      omega

theorem cost_members_le (members : List CollectionMember) (kind : Counted) :
    membersCost members kind ≤ (membersWire members).length := by
  cases members with
  | nil => exact Nat.le_refl 0
  | cons member rest =>
      have first := cost_member_le member kind
      have later := cost_members_le rest kind
      rw [membersWire, List.length_append, membersCost, Pi.add_apply]
      omega

end

/-- A value that was read leaves room for the counts that follow it. -/
theorem spare_value {name : Bytes} {value : Value} (room : decoder.Spare 0)
    (parsed : Parsed limits decoder (value.wire name) (value.cost name) result) :
    result.Spare 4 :=
  room.parsed parsed (cost_value_le name value)

/-! ## Collections -/

/-- A decoder of collections that does not panic on short inputs. -/
def CalmCollection (limits : Limits) (collection : Decode (List CollectionMember))
    (room : Nat) : Prop :=
  ∀ decoder, decoder.Ready limits → decoder.Spare 0 → decoder.rest.length < room →
    NoPanic (collection decoder)

theorem noPanic_attributeValueWith {collection : Nat → Decode (List CollectionMember)}
    {depth room : Nat} (calm : CalmCollection limits (collection (depth + 1)) room)
    (ready : decoder.Ready limits) (spare : decoder.Spare 0)
    (short : decoder.rest.length ≤ room) :
    NoPanic (attributeValueWith collection depth decoder) := by
  apply Method.noPanic_get
  apply Method.noPanic_bind (noPanic_entry ready spare)
  rintro ⟨tag, name, raw⟩ entered read
  have parsed : Parsed limits decoder (entryBytes tag.toByte name raw) (entryCost name raw)
      entered := ((entry_parses _ _ _ ready).mp read).2
  have consumed := parsed.length
  rw [length_entryBytes] at consumed
  have paid : entered.Spare 4 := spare.parsed parsed (entryCost_le tag.toByte name raw)
  have room : entered.Spare 0 := paid.weaken (Nat.zero_le _)
  dsimp only
  apply Method.noPanic_bind
  · rw [valueContent]
    by_cases opens : tag = .begCollection
    · rw [if_pos opens]
      by_cases filled : raw.length ≠ 0
      · rw [if_pos filled]
        exact noPanic_fail _
      · rw [if_neg filled]
        apply Method.noPanic_bind (calm _ parsed.ready room (by omega))
        intro members closed returned
        exact noPanic_ok _
    · rw [if_neg opens]
      exact Method.noPanic_lift _ (noPanic_decodeScalar tag raw decoder.offset)
  · intro data filled returned
    exact noPanic_ok _

theorem noPanic_memberName {name : Bytes} {offset : Nat} (ready : decoder.Ready limits)
    (spare : decoder.Spare 4) : NoPanic (memberName (.bytes name) offset decoder) := by
  apply Method.noPanic_get
  by_cases unnamed : name.isEmpty
  · rw [if_pos unnamed]
    exact noPanic_fail _
  · rw [if_neg unnamed]
    by_cases long : decoder.limits.maxNameBytes.toNat < name.length
    · rw [if_pos long]
      exact noPanic_fail _
    · rw [if_neg long]
      apply Method.noPanic_bind (noPanic_charge .collectionMembers ready spare (by omega))
      intro done counted returned
      have charged := ((charge_parses .collectionMembers 1 _ _ _ ready).mp returned).2
      have room : counted.Spare 3 := spare.parsed charged fun kind => by
        cases kind <;> simp
      apply Method.noPanic_bind (noPanic_charge .attributes charged.ready room (by omega))
      intro done added returned
      exact noPanic_ok _

/-- A value is pushed without panicking when the loop goes on without it. -/
theorem noPanic_pushed {loop : List CollectionMember → Decode (List CollectionMember)}
    {members : List CollectionMember} {offset : Nat} {value : Value}
    (calm : ∀ members, NoPanic (loop members decoder)) :
    NoPanic ((match pushMemberValue members value with
      | none => Method.fail (DecodeError.invalidValue offset value.tag.toByte
          "member value precedes memberAttrName")
      | some members => loop members) decoder) := by
  cases pushMemberValue members value with
  | none => exact noPanic_fail _
  | some members => exact calm members

/-- The entries of a collection are handled without panicking when the loop that reads on
is. -/
theorem noPanic_collectionEntry {loop : List CollectionMember → Decode (List CollectionMember)}
    {members : List CollectionMember} {depth offset : Nat} {name : Bytes} {value : Value}
    (carries : Carries limits depth name value) (ready : decoder.Ready limits)
    (spare : decoder.Spare 4)
    (calm : ∀ members after cost, Parsed limits decoder [] cost after → after.Spare 0 →
      NoPanic (loop members after)) :
    NoPanic (collectionEntry loop members value.tag value offset decoder) := by
  have still : Parsed limits decoder [] 0 decoder := (parsed_nothing ready).mpr rfl
  have pushed := @noPanic_pushed decoder loop members offset value fun members =>
    calm members decoder 0 still (spare.weaken (Nat.zero_le _))
  obtain ⟨tag, data⟩ := value
  cases tag with
  | endCollection =>
      simp only [collectionEntry, Value.tag_mk, Value.data_mk]
      split
      · exact noPanic_ok _
      · exact noPanic_fail _
  | memberAttrName =>
      have fits := carries.bounded.1
      cases data with
      | bytes content =>
          apply Method.noPanic_bind (noPanic_memberName ready spare)
          intro memberName named returned
          have counted := ((memberName_eq_ok ready).mp returned).2
          have room : named.Spare 0 := spare.parsed counted fun kind => by
            cases kind <;> simp
          exact calm _ _ _ counted room
      | _ => cases fits
  | _ => exact pushed

theorem calm_enterCollection
    {body : Nat → List CollectionMember → Decode (List CollectionMember)} {depth room : Nat}
    (calm : CalmCollection limits (body depth []) room) :
    CalmCollection limits (enterCollection body depth) room := by
  intro decoder ready spare short
  apply Method.noPanic_get
  by_cases deep : decoder.limits.maxCollectionDepth.toNat < depth
  · rw [if_pos deep]
    exact noPanic_fail _
  · rw [if_neg deep]
    exact calm decoder ready spare short

/-- The collection loop never runs out of entries, nor of room to count. -/
theorem calm_collectionLoop (entries depth : Nat) (members : List CollectionMember) :
    CalmCollection limits (collectionLoop entries depth members) entries := by
  induction entries generalizing depth members with
  | zero =>
      intro decoder ready spare short
      exact absurd short (Nat.not_lt_zero _)
  | succ entries ih =>
      intro decoder ready spare short
      have enough : decoder.rest.length ≤ entries := Nat.le_of_lt_succ short
      have reads := enterCollection_reads (@collectionLoop_reads limits entries (depth + 1))
      apply Method.noPanic_get
      apply Method.noPanic_bind (noPanic_peek decoder)
      intro next peeked returned
      obtain ⟨-, rfl⟩ := peek_eq_ok.mp returned
      by_cases ends : next = endOfAttributesTag
      · rw [if_pos ends]
        exact noPanic_fail _
      rw [if_neg ends]
      by_cases delimits : isDelimiterTag next
      · rw [if_pos delimits]
        exact noPanic_fail _
      rw [if_neg delimits]
      apply Method.noPanic_bind
        (noPanic_attributeValueWith (calm_enterCollection (ih (depth + 1) [])) ready spare enough)
      rintro ⟨tag, wireName, value⟩ entered valued
      obtain ⟨⟨rfl, carries⟩, parsed⟩ := (attributeValueWith_eq_ok reads ready enough).mp valued
      dsimp only
      by_cases named : (!wireName.isEmpty) = true
      · rw [if_pos named]
        exact noPanic_fail _
      · rw [if_neg named]
        have consumed := parsed.length
        have paid := cost_value_le wireName value .groups
        apply noPanic_collectionEntry carries parsed.ready (spare_value spare parsed)
        intro members after cost counted room
        have left := counted.length
        rw [List.length_nil] at left
        exact ih depth members after counted.ready room (by omega)

theorem noPanic_attributeValue {entries depth : Nat} (ready : decoder.Ready limits)
    (spare : decoder.Spare 0) (short : decoder.rest.length ≤ entries) :
    NoPanic (attributeValue entries depth decoder) :=
  noPanic_attributeValueWith
    (calm_enterCollection (calm_collectionLoop entries (depth + 1) [])) ready spare short

/-! ## Groups and messages -/

theorem noPanic_pushAttributeValue {attributes : List Attribute} {name : Bytes} {value : Value}
    {offset : Nat} (ready : decoder.Ready limits) (spare : decoder.Spare 4) :
    NoPanic (pushAttributeValue attributes name value offset decoder) := by
  rw [pushAttributeValue]
  by_cases unnamed : name.isEmpty
  · rw [if_pos unnamed]
    cases pushRepeatedValue attributes value with
    | none => exact noPanic_fail _
    | some attributes => exact noPanic_ok _
  · rw [if_neg unnamed]
    apply Method.noPanic_bind (noPanic_charge .attributes ready spare (by omega))
    intro done counted returned
    exact noPanic_ok _

theorem noPanic_attributesLoop {entries : Nat} {attributes : List Attribute}
    (ready : decoder.Ready limits) (spare : decoder.Spare 0)
    (short : decoder.rest.length < entries) :
    NoPanic (attributesLoop entries attributes decoder) := by
  induction entries generalizing attributes decoder with
  | zero => exact absurd short (Nat.not_lt_zero _)
  | succ entries ih =>
      have enough : decoder.rest.length ≤ entries := Nat.le_of_lt_succ short
      apply Method.noPanic_get
      by_cases past : decoder.input.length ≤ decoder.offset
      · rw [if_pos past]
        exact noPanic_ok _
      rw [if_neg past]
      apply Method.noPanic_bind (noPanic_peek decoder)
      intro next peeked returned
      obtain ⟨-, rfl⟩ := peek_eq_ok.mp returned
      by_cases stops : next = endOfAttributesTag ∨ isDelimiterTag next = true
      · rw [if_pos stops]
        exact noPanic_ok _
      rw [if_neg stops]
      apply Method.noPanic_bind (noPanic_attributeValue ready spare enough)
      rintro ⟨tag, name, value⟩ entered valued
      obtain ⟨-, parsed⟩ := (attributeValue_eq_ok ready enough).mp valued
      have room := spare_value spare parsed
      apply Method.noPanic_bind (noPanic_pushAttributeValue parsed.ready room)
      intro updated added pushed
      obtain ⟨cost, grown, counted⟩ := (pushAttributeValue_eq_ok parsed.ready).mp pushed
      by_cases control : tag = .memberAttrName ∨ tag = .endCollection
      · rw [if_pos control]
        exact noPanic_fail _
      rw [if_neg control]
      have consumed := parsed.length
      have paid := cost_value_le name value .groups
      have left := counted.length
      rw [List.length_nil] at left
      apply ih counted.ready
      · apply room.parsed counted
        intro kind
        cases grown with
        | first => cases kind <;> simp
        | further => simp
      · omega

/-- The attributes of a group pay for what they count. -/
theorem cost_attributesRead_le {attributes final : List Attribute} {bytes : Bytes}
    {cost : Counters} (read : AttributesRead limits attributes bytes cost final)
    (kind : Counted) : cost kind ≤ bytes.length := by
  induction read with
  | stop => exact Nat.le_refl 0
  | @value attributes updated final name bytes added cost value nameFits all grown read ih =>
      have first := cost_value_le name value kind
      have once : added kind ≤ 1 := by
        cases grown with
        | first => cases kind <;> simp
        | further => simp
      rw [List.length_append, Pi.add_apply, Pi.add_apply]
      omega

theorem noPanic_groupsLoop {entries : Nat} {groups : List AttributeGroup}
    (ready : decoder.Ready limits) (spare : decoder.Spare 0)
    (short : decoder.rest.length < entries) :
    NoPanic (groupsLoop entries groups decoder) := by
  induction entries generalizing groups decoder with
  | zero => exact absurd short (Nat.not_lt_zero _)
  | succ entries ih =>
      apply Method.noPanic_get
      apply Method.noPanic_bind (Method.noPanic_mapError _ (noPanic_byte ready))
      intro tag tagged marking
      rw [Method.mapError_eq_ok] at marking
      obtain ⟨markedReady, room⟩ := spare_byte ready spare marking
      have marked := ((byte_parses _ _ _ ready).mp marking).2
      apply Method.noPanic_get
      by_cases ends : tag = endOfAttributesTag
      · rw [if_pos ends]
        by_cases trailing : tagged.offset ≠ tagged.input.length
        · rw [if_pos trailing]
          exact noPanic_fail _
        · rw [if_neg trailing]
          exact noPanic_ok _
      rw [if_neg ends]
      by_cases delimits : (!isDelimiterTag tag) = true
      · rw [if_pos delimits]
        exact noPanic_fail _
      rw [if_neg delimits]
      apply Method.noPanic_bind (noPanic_charge .groups markedReady room (Nat.le_refl _))
      intro done counted charging
      have charged := ((charge_parses .groups 1 _ _ _ markedReady).mp charging).2
      have countedRoom : counted.Spare 0 := room.parsed charged fun kind => by
        cases kind <;> simp
      have fewer := rest_lt_of_marker short marked charged
      apply Method.noPanic_bind (noPanic_attributesLoop charged.ready countedRoom fewer)
      intro attributes middle looped
      obtain ⟨bytes, cost, read, parsed, -⟩ := (attributesLoop_eq_ok charged.ready fewer).mp looped
      apply ih parsed.ready
      · exact countedRoom.parsed parsed fun kind => cost_attributesRead_le read kind
      · exact Nat.lt_of_le_of_lt parsed.rest_le fewer

theorem noPanic_message (ready : decoder.Ready limits) (spare : decoder.Spare 0) :
    NoPanic (message decoder) := by
  apply Method.noPanic_bind (noPanic_byte ready)
  intro major versioned read
  obtain ⟨ready, spare⟩ := spare_byte ready spare read
  apply Method.noPanic_bind (noPanic_byte ready)
  intro minor numbered read
  obtain ⟨ready, spare⟩ := spare_byte ready spare read
  apply Method.noPanic_bind (noPanic_u16 numbered)
  intro code coded read
  have parsed := ((u16_parses _ _ _ ready).mp read).2
  have room : coded.Spare 0 := spare.parsed parsed fun _ => Nat.zero_le _
  apply Method.noPanic_bind (noPanic_u32 coded)
  intro requestId started read
  have begun := ((u32_parses _ _ _ parsed.ready).mp read).2
  have beginning : started.Spare 0 := room.parsed begun fun _ => Nat.zero_le _
  apply Method.noPanic_get
  apply Method.noPanic_bind
  · apply noPanic_groupsLoop begun.ready beginning
    rw [rest, List.length_drop]
    omega
  · intro groups finished returned
    exact noPanic_ok _

end Decoder

/-- `decode` returns a message or an error for every input under every limits. -/
theorem noPanic_decode (input : Bytes) (limits : Limits) : NoPanic (decode input limits) := by
  rw [decode]
  by_cases invalid : (!limits.valid) = true
  · rw [if_pos invalid]
    exact noPanic_fail _
  rw [if_neg invalid]
  by_cases large : limits.maxMessageBytes.toNat < input.length
  · rw [if_pos large]
    exact noPanic_fail _
  rw [if_neg large]
  have machine : limits.maxMessageBytes.toNat ≤ usizeMax :=
    Nat.le_of_lt_succ (UInt64.toNat_lt _)
  have ready : (Decoder.mk input 0 limits 0).Ready limits :=
    ⟨rfl, Nat.zero_le _, Nat.le_trans (Nat.not_lt.mp large) machine, fun _ => Nat.zero_le _⟩
  exact NoPanic.map _ (Decoder.noPanic_message ready fun _ => Nat.le_refl 0)

end PrinterSdk.Ipp
