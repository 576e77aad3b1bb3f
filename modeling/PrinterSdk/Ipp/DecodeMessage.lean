import PrinterSdk.Ipp.DecodeSpec

/-!
# The decoder on whole messages

The loops of the decoder read a collection, a group and a message as the wire
format lays them out.  Each loop is described by how its accumulator grows, and
the number of remaining entries it is given never runs out.
-/

namespace PrinterSdk.Ipp

open PrinterSdk.Data

namespace Decoder

/-- What the decoder guarantees of values and members. -/
def rule (limits : Limits) : Rule := (boundedRule limits).both plainRule

variable {limits : Limits} {decoder middle result : Decoder}

/-! ## Values -/

/-- A value as an entry may carry it: its tag need not be an ordinary one, but
everything nested in it is. -/
structure Carries (limits : Limits) (depth : Nat) (name : Bytes) (value : Value) :
    Prop where
  canonical : value.tag.Canonical
  nameFits : NameFits limits name
  bounded : (boundedRule limits).onValue depth value.tag value.data
  nested : value.data.All (rule limits) depth

/-- The specification of a nested collection, on inputs of at most `room` bytes. -/
def ReadsCollection (limits : Limits) (collection : Decode (List CollectionMember))
    (depth room : Nat) : Prop :=
  ∀ decoder result members, decoder.Ready limits → decoder.rest.length < room →
    (collection decoder = .ok (members, result) ↔
      (depth ≤ limits.maxCollectionDepth.toNat ∧ membersAll (rule limits) depth members) ∧
        Parsed limits decoder (membersWire members ++ endEntry)
          (membersCost members + entryCost [] []) result)

theorem valueContent_eq_ok {collection : Nat → Decode (List CollectionMember)}
    {depth room : Nat}
    (reads : ReadsCollection limits (collection (depth + 1)) (depth + 1) room)
    (ready : decoder.Ready limits) (short : decoder.rest.length < room)
    {tag : ValueTag} {raw : Bytes} {offset : Nat} {data : ValueData} :
    valueContent collection depth tag raw offset decoder = .ok (data, result) ↔
      (tag.fits data ∧ data.raw = raw ∧
        (data.isCollection → depth + 1 ≤ limits.maxCollectionDepth.toNat) ∧
        data.All (rule limits) depth) ∧
        Parsed limits decoder data.nested data.nestedCost result := by
  by_cases opens : tag = .begCollection
  · subst opens
    have fits : ValueTag.begCollection.fits data ↔
        ∃ members, data = .collection members := by
      cases data <;> simp [ValueTag.fits, ValueTag.isOutOfBand, ValueTag.isOpaque]
    rw [fits]
    cases raw with
    | nil =>
        simp only [valueContent, if_true, List.length_nil, ne_eq, not_true_eq_false,
          if_false, Method.bind_eq_ok, Method.pure_eq_ok, Prod.mk.injEq]
        constructor
        · rintro ⟨members, finished, returned, rfl, rfl⟩
          obtain ⟨⟨shallow, all⟩, parsed⟩ := (reads _ _ _ ready short).mp returned
          exact ⟨⟨⟨members, rfl⟩, rfl, fun _ => shallow, all⟩, parsed⟩
        · rintro ⟨⟨⟨members, rfl⟩, _, shallow, all⟩, parsed⟩
          exact ⟨members, result,
            (reads _ _ _ ready short).mpr ⟨⟨shallow rfl, all⟩, parsed⟩, rfl, rfl⟩
    | cons first tail =>
        simp only [valueContent, if_true, List.length_cons, ne_eq, Nat.add_one_ne_zero,
          not_false_eq_true, Method.fail_ne_ok, false_iff]
        rintro ⟨⟨⟨members, rfl⟩, impossible, _⟩, _⟩
        cases impossible
  · simp only [valueContent, opens, if_false, Method.lift_eq_ok, decodeScalar_eq_ok opens]
    have scalar (matched : tag.fits data) : data.isCollection = false ∧
        data.All (rule limits) depth ∧ data.nested = [] ∧ data.nestedCost = 0 := by
      cases data with
      | collection members => simp [ValueTag.fits, opens] at matched
      | _ => exact ⟨rfl, trivial, rfl, rfl⟩
    constructor
    · rintro ⟨⟨matched, same⟩, rfl⟩
      obtain ⟨notCollection, all, nothing, free⟩ := scalar matched
      rw [nothing, free, parsed_nothing ready]
      exact ⟨⟨matched, same, by simp [notCollection], all⟩, rfl⟩
    · rintro ⟨⟨matched, same, _⟩, parsed⟩
      obtain ⟨_, _, nothing, free⟩ := scalar matched
      rw [nothing, free, parsed_nothing ready] at parsed
      exact ⟨⟨matched, same⟩, parsed⟩

theorem attributeValueWith_eq_ok {collection : Nat → Decode (List CollectionMember)}
    {depth room : Nat}
    (reads : ReadsCollection limits (collection (depth + 1)) (depth + 1) room)
    (ready : decoder.Ready limits) (short : decoder.rest.length ≤ room)
    {tag : ValueTag} {name : Bytes} {value : Value} :
    attributeValueWith collection depth decoder = .ok ((tag, name, value), result) ↔
      (value.tag = tag ∧ Carries limits depth name value) ∧
        Parsed limits decoder (value.wire name) (value.cost name) result := by
  have shorter {middle : Decoder} {byte : UInt8} {raw : Bytes} {cost : Counters}
      (entered : Parsed limits decoder (entryBytes byte name raw) cost middle) :
      middle.rest.length < room := by
    have consumed := entered.length
    rw [length_entryBytes] at consumed
    omega
  rcases value with ⟨valueTag, data⟩
  simp only [attributeValueWith, Method.bind_eq_ok, Method.get_eq_ok, Prod.mk.injEq,
    Method.pure_eq_ok]
  rw [Value.wire, Value.cost, parsed_append]
  constructor
  · rintro ⟨_, _, ⟨rfl, rfl⟩, ⟨readTag, readName, raw⟩, middle, opened, content, finished,
      returned, ⟨rfl, rfl, same⟩, rfl⟩
    cases same
    obtain ⟨⟨canonical, nameFits, rawFits⟩, entered⟩ := (entry_parses _ _ _ ready).mp opened
    obtain ⟨⟨matched, rfl, shallow, all⟩, parsed⟩ :=
      (valueContent_eq_ok reads entered.ready (shorter entered)).mp returned
    exact ⟨⟨rfl, canonical, nameFits, ⟨matched, rawFits, shallow⟩, all⟩, middle, entered,
      parsed⟩
  · rintro ⟨⟨rfl, carries⟩, middle, entered, parsed⟩
    obtain ⟨matched, rawFits, shallow⟩ := carries.bounded
    refine ⟨decoder, decoder, ⟨rfl, rfl⟩, (valueTag, name, data.raw), middle,
      (entry_parses _ _ _ ready).mpr ⟨⟨carries.canonical, carries.nameFits, rawFits⟩, entered⟩,
      data, result, ?_, ⟨rfl, rfl, rfl⟩, rfl⟩
    exact (valueContent_eq_ok reads entered.ready (shorter entered)).mpr
      ⟨⟨matched, rfl, shallow, carries.nested⟩, parsed⟩

/-! ## Collections -/

theorem updateLast_eq_some {α : Type} {update : α → α} {items updated : List α} :
    updateLast update items = some updated ↔
      ∃ initial last, items = initial ++ [last] ∧ updated = initial ++ [update last] := by
  induction items generalizing updated with
  | nil => simp [updateLast]
  | cons first tail ih =>
      cases tail with
      | nil =>
          simp only [updateLast, Option.some.injEq]
          constructor
          · rintro rfl
            exact ⟨[], first, rfl, rfl⟩
          · rintro ⟨initial, last, same, rfl⟩
            rcases List.append_eq_singleton_iff.mp same.symm with
              ⟨rfl, single⟩ | ⟨_, impossible⟩
            · cases single
              rfl
            · cases impossible
      | cons second tail =>
          simp only [updateLast, Option.map_eq_some_iff, ih]
          constructor
          · rintro ⟨rest, ⟨initial, last, same, rfl⟩, rfl⟩
            exact ⟨first :: initial, last, by rw [same]; rfl, rfl⟩
          · rintro ⟨initial, last, same, rfl⟩
            cases initial with
            | nil => cases same
            | cons head initial =>
                rw [List.cons_append, List.cons.injEq] at same
                obtain ⟨rfl, same⟩ := same
                exact ⟨_, ⟨initial, last, same, rfl⟩, rfl⟩

theorem memberName_eq_ok (ready : decoder.Ready limits) {data : ValueData} {offset : Nat}
    {name : Bytes} :
    memberName data offset decoder = .ok (name, result) ↔
      (data = .bytes name ∧ name ≠ [] ∧ name.length ≤ limits.maxNameBytes.toNat) ∧
        Parsed limits decoder []
          (Pi.single .collectionMembers 1 + Pi.single .attributes 1) result := by
  cases data with
  | bytes content =>
      have body : Parses limits _ _ _ _ := (((charge_parses .collectionMembers 1).bind
        (fun _ => (charge_parses .attributes 1).bind (fun _ => parses_pure content)
          (fun _ => ()) (fun _ _ _ _ => rfl)) (fun _ => ()) (fun _ _ _ _ => rfl)).guard
          (limits.maxNameBytes.toNat < content.length)
          (.limit "name bytes" content.length limits.maxNameBytes.toNat)).guard
          (content.isEmpty = true)
          (.invalidValue offset ValueTag.memberAttrName.toByte
            "memberAttrName cannot be empty")
      have parses : Parses limits (memberName (.bytes content) offset)
          (fun read => ValueData.bytes content = .bytes read ∧ read ≠ [] ∧
            read.length ≤ limits.maxNameBytes.toNat) (fun _ => [])
          (fun _ => Pi.single .collectionMembers 1 + Pi.single .attributes 1) := by
        refine (body.reading ?_).congr ?_ ?_
        · intro decoder same
          rw [same]
          rfl
        · intro _ _
          exact ⟨rfl, by simp⟩
        · intro read
          simp only [List.isEmpty_iff, Nat.not_lt, true_and, ValueData.bytes.injEq]
          constructor
          · rintro ⟨named, short, rfl⟩
            exact ⟨rfl, named, short⟩
          · rintro ⟨rfl, named, short⟩
            exact ⟨named, short, rfl⟩
      exact parses decoder result name ready
  | _ => simp [memberName]

/-- How reading entries turns the members collected so far into the final ones. -/
inductive MembersRead (limits : Limits) (depth : Nat) :
    List CollectionMember → Bytes → Counters → List CollectionMember → Prop where
  | stop (members : List CollectionMember) : MembersRead limits depth members [] 0 members
  | name {members final : List CollectionMember} {bytes : Bytes} {cost : Counters}
      (name : Bytes) :
      (rule limits).onMember depth name [] →
      MembersRead limits depth (members ++ [⟨name, []⟩]) bytes cost final →
      MembersRead limits depth members (memberEntry name ++ bytes)
        (CollectionMember.cost ⟨name, []⟩ + cost) final
  | value {initial final : List CollectionMember} {last : Bytes} {values : List Value}
      {bytes : Bytes} {cost : Counters} (value : Value) :
      value.All (rule limits) depth →
      MembersRead limits depth (initial ++ [⟨last, values ++ [value]⟩]) bytes cost final →
      MembersRead limits depth (initial ++ [⟨last, values⟩]) (value.wire [] ++ bytes)
        (value.cost [] + cost) final

theorem MembersRead.wire {depth : Nat} {members final : List CollectionMember}
    {bytes : Bytes} {cost : Counters}
    (read : MembersRead limits depth members bytes cost final) :
    membersWire final = membersWire members ++ bytes ∧
      membersCost final = membersCost members + cost ∧
      (membersAll (rule limits) depth members → membersAll (rule limits) depth final) := by
  induction read with
  | stop members => simp
  | name name obeys read ih =>
      obtain ⟨wire, cost, all⟩ := ih
      refine ⟨?_, ?_, ?_⟩
      · simp [wire, membersWire, CollectionMember.wire, valuesWire]
      · simp [cost, membersCost, add_assoc]
      · intro members
        apply all
        simpa [membersAll, CollectionMember.All, valuesAll, members] using obeys
  | value value obeys read ih =>
      obtain ⟨wire, cost, all⟩ := ih
      refine ⟨?_, ?_, ?_⟩
      · simp [wire, membersWire, CollectionMember.wire, valuesWire]
      · simp [cost, membersCost, CollectionMember.cost, valuesCost, add_assoc]
      · intro members
        apply all
        simp only [membersAll_append, membersAll, CollectionMember.All, valuesAll_append,
          valuesAll] at members ⊢
        obtain ⟨initial, ⟨named, values⟩, _⟩ := members
        exact ⟨initial, ⟨named, values, obeys, trivial⟩, trivial⟩

theorem membersRead_values {depth : Nat} {initial final : List CollectionMember}
    {last : Bytes} {bytes : Bytes} {cost : Counters} (collected values : List Value)
    (all : valuesAll (rule limits) depth values)
    (read : MembersRead limits depth (initial ++ [⟨last, collected ++ values⟩]) bytes cost
      final) :
    MembersRead limits depth (initial ++ [⟨last, collected⟩]) (valuesWire values ++ bytes)
      (valuesCost values + cost) final := by
  induction values generalizing collected with
  | nil => simpa [valuesWire, valuesCost] using read
  | cons value values ih =>
      have later := ih (collected ++ [value]) all.2 (by simpa using read)
      simpa [valuesWire, valuesCost, add_assoc] using later.value value all.1

theorem membersRead_members {depth : Nat} (collected members : List CollectionMember)
    (all : membersAll (rule limits) depth members) :
    MembersRead limits depth collected (membersWire members) (membersCost members)
      (collected ++ members) := by
  induction members generalizing collected with
  | nil => simpa [membersWire, membersCost] using MembersRead.stop collected
  | cons member members ih =>
      rcases member with ⟨name, values⟩
      have later := ih (collected ++ [⟨name, values⟩]) all.2
      have read := (membersRead_values [] values all.1.2 later).name name all.1.1
      simpa [membersWire, membersCost, CollectionMember.wire, CollectionMember.cost,
        valuesCost, add_assoc] using read

/-- The specification of the collection loop, on inputs of fewer than `room`
bytes. -/
def ReadsMembers (limits : Limits)
    (loop : List CollectionMember → Decode (List CollectionMember))
    (depth room : Nat) : Prop :=
  ∀ members decoder result final, decoder.Ready limits → decoder.rest.length < room →
    (loop members decoder = .ok (final, result) ↔
      ∃ bytes cost, MembersRead limits depth members bytes cost final ∧
        Parsed limits decoder (bytes ++ endEntry) (cost + entryCost [] []) result)

/-- What may follow an entry of a collection that carries `value`. -/
inductive EntryThen (limits : Limits) (depth : Nat) (members : List CollectionMember)
    (decoder : Decoder) (final : List CollectionMember) (result : Decoder) : Value → Prop
    where
  | finish : members = final → decoder = result →
      EntryThen limits depth members decoder final result ⟨.endCollection, .bytes []⟩
  | name {name bytes : Bytes} {cost : Counters} :
      (rule limits).onMember depth name [] →
      MembersRead limits depth (members ++ [⟨name, []⟩]) bytes cost final →
      Parsed limits decoder ([] ++ (bytes ++ endEntry))
        (Pi.single .collectionMembers 1 + Pi.single .attributes 1 +
          (cost + entryCost [] [])) result →
      EntryThen limits depth members decoder final result ⟨.memberAttrName, .bytes name⟩
  | value {initial : List CollectionMember} {last : Bytes} {values : List Value}
      {bytes : Bytes} {cost : Counters} {value : Value} :
      value.All (rule limits) depth →
      members = initial ++ [⟨last, values⟩] →
      MembersRead limits depth (initial ++ [⟨last, values ++ [value]⟩]) bytes cost final →
      Parsed limits decoder (bytes ++ endEntry) (cost + entryCost [] []) result →
      EntryThen limits depth members decoder final result value

section CollectionEntry

variable {loop : List CollectionMember → Decode (List CollectionMember)} {depth room : Nat}
variable {members final : List CollectionMember} {offset : Nat}

/-- `endCollection` ends the loop, with nothing read after it. -/
theorem collectionEntry_end {data : ValueData} :
    collectionEntry loop members .endCollection ⟨.endCollection, data⟩ offset decoder =
        .ok (final, result) ↔
      EntryThen limits depth members decoder final result ⟨.endCollection, data⟩ := by
  constructor
  · intro returned
    simp only [collectionEntry, Value.data_mk] at returned
    split at returned
    · rw [Method.pure_eq_ok, Prod.mk.injEq] at returned
      exact .finish returned.1 returned.2
    · rw [Method.fail_ne_ok] at returned
      exact returned.elim
  · intro followed
    cases followed with
    | finish same stays =>
        subst same stays
        rfl
    | value all => exact absurd rfl all.1.2.not_end

/-- `memberAttrName` opens a member that later entries fill. -/
theorem collectionEntry_name (reads : ReadsMembers limits loop depth room)
    (ready : decoder.Ready limits) (short : decoder.rest.length < room) {data : ValueData}
    (carries : Carries limits depth [] ⟨.memberAttrName, data⟩) :
    collectionEntry loop members .memberAttrName ⟨.memberAttrName, data⟩ offset decoder =
        .ok (final, result) ↔
      EntryThen limits depth members decoder final result ⟨.memberAttrName, data⟩ := by
  have shorter {middle : Decoder} {counts : Counters}
      (counted : Parsed limits decoder [] counts middle) : middle.rest.length < room := by
    have consumed := counted.length
    rw [List.length_nil] at consumed
    omega
  simp only [collectionEntry, Value.data_mk, Method.bind_eq_ok, memberName_eq_ok ready]
  constructor
  · rintro ⟨name, middle, ⟨⟨rfl, named, within⟩, counted⟩, returned⟩
    obtain ⟨bytes, cost, read, parsed⟩ :=
      (reads _ _ _ _ counted.ready (shorter counted)).mp returned
    have rawFits : RawFits limits name := carries.bounded.2.1
    exact .name ⟨⟨named, ⟨rawFits.wire, within⟩, rawFits⟩, trivial⟩ read
      (parsed_append.mpr ⟨middle, counted, parsed⟩)
  · intro followed
    cases followed with
    | @name name bytes cost obeys read parsed =>
        obtain ⟨middle, counted, parsed⟩ := parsed_append.mp parsed
        exact ⟨name, middle, ⟨⟨rfl, obeys.1.1, obeys.1.2.1.name⟩, counted⟩,
          (reads _ _ _ _ counted.ready (shorter counted)).mpr ⟨bytes, cost, read, parsed⟩⟩
    | value all => exact absurd rfl all.1.2.not_member

/-- An entry that neither ends the collection nor names a member is pushed as a value. -/
theorem collectionEntry_plain {tag : ValueTag} {data : ValueData} (plain : tag.Plain) :
    collectionEntry loop members tag ⟨tag, data⟩ offset =
      match pushMemberValue members ⟨tag, data⟩ with
      | none =>
          Method.fail (.invalidValue offset tag.toByte "member value precedes memberAttrName")
      | some members => loop members := by
  cases tag with
  | endCollection => exact absurd rfl plain.not_end
  | memberAttrName => exact absurd rfl plain.not_member
  | _ => rfl

/-- An ordinary value is added to the member opened last. -/
theorem collectionEntry_value (reads : ReadsMembers limits loop depth room)
    (ready : decoder.Ready limits) (short : decoder.rest.length < room) {tag : ValueTag}
    {data : ValueData} (plain : tag.Plain) (all : Value.All (rule limits) depth ⟨tag, data⟩) :
    collectionEntry loop members tag ⟨tag, data⟩ offset decoder = .ok (final, result) ↔
      EntryThen limits depth members decoder final result ⟨tag, data⟩ := by
  rw [collectionEntry_plain plain]
  constructor
  · intro returned
    cases pushed : pushMemberValue members ⟨tag, data⟩ with
    | none => simp [pushed] at returned
    | some updated =>
        obtain ⟨initial, ⟨last, values⟩, rfl, rfl⟩ := updateLast_eq_some.mp pushed
        rw [pushed] at returned
        obtain ⟨bytes, cost, read, parsed⟩ := (reads _ _ _ _ ready short).mp returned
        exact .value all rfl read parsed
  · intro followed
    cases followed with
    | finish => exact absurd rfl plain.not_end
    | name => exact absurd rfl plain.not_member
    | @value initial last values bytes cost _ _ split read parsed =>
        have pushed : pushMemberValue members ⟨tag, data⟩ =
            some (initial ++ [⟨last, values ++ [⟨tag, data⟩]⟩]) :=
          updateLast_eq_some.mpr ⟨initial, ⟨last, values⟩, split, rfl⟩
        rw [pushed]
        exact (reads _ _ _ _ ready short).mpr ⟨bytes, cost, read, parsed⟩

theorem collectionEntry_eq_ok (reads : ReadsMembers limits loop depth room)
    (ready : decoder.Ready limits) (short : decoder.rest.length < room) {value : Value}
    (carries : Carries limits depth [] value)
    (valueByte : ValueTag.IsValueByte value.tag.toByte) :
    collectionEntry loop members value.tag value offset decoder = .ok (final, result) ↔
      EntryThen limits depth members decoder final result value := by
  rcases value with ⟨tag, data⟩
  by_cases ends : tag = .endCollection
  · subst ends
    exact collectionEntry_end
  by_cases names : tag = .memberAttrName
  · subst names
    exact collectionEntry_name reads ready short carries
  have plain : tag.Plain := ⟨carries.canonical, valueByte, ends, names⟩
  exact collectionEntry_value reads ready short plain
    ⟨⟨carries.bounded, plain⟩, carries.nested⟩

end CollectionEntry

/-- Reading the rest of a collection is reading one entry and then what it calls
for. -/
theorem membersRead_iff_entry {depth : Nat} {members final : List CollectionMember} :
    (∃ bytes cost, MembersRead limits depth members bytes cost final ∧
      Parsed limits decoder (bytes ++ endEntry) (cost + entryCost [] []) result) ↔
      ∃ value middle, (Carries limits depth [] value ∧
        ValueTag.IsValueByte value.tag.toByte) ∧
        Parsed limits decoder (value.wire []) (value.cost []) middle ∧
        EntryThen limits depth members middle final result value := by
  have nameCost (name : Bytes) (cost : Counters) :
      CollectionMember.cost ⟨name, []⟩ + cost + entryCost [] [] =
        Value.cost [] ⟨.memberAttrName, .bytes name⟩ +
          (Pi.single .collectionMembers 1 + Pi.single .attributes 1 +
            (cost + entryCost [] [])) := by
    simp [CollectionMember.cost, valuesCost, Value.cost, ValueData.nestedCost,
      ValueData.raw, add_assoc]
  constructor
  · rintro ⟨bytes, cost, read, parsed⟩
    cases read with
    | stop =>
        have ended : Value.cost [] ⟨.endCollection, .bytes []⟩ = 0 + entryCost [] [] := by
          simp [Value.cost, ValueData.nestedCost, ValueData.raw]
        refine ⟨⟨.endCollection, .bytes []⟩, result, ⟨⟨rfl, nameFits_nil _, ?_, trivial⟩, ?_⟩,
          ?_, .finish rfl rfl⟩
        · exact ⟨rfl, rawFits_nil _, by simp [ValueData.isCollection]⟩
        · exact (by decide : ValueTag.IsValueByte ValueTag.endCollection.toByte)
        · rw [ended, wire_endCollection]
          exact parsed
    | @name _ _ bytes cost name obeys read =>
        rw [nameCost, List.append_assoc] at parsed
        obtain ⟨middle, entered, parsed⟩ := parsed_append.mp parsed
        refine ⟨⟨.memberAttrName, .bytes name⟩, middle,
          ⟨⟨rfl, nameFits_nil _, ?_, trivial⟩, ?_⟩, ?_, .name obeys read parsed⟩
        · exact ⟨rfl, obeys.1.2.2, by simp [ValueData.isCollection]⟩
        · exact (by decide : ValueTag.IsValueByte ValueTag.memberAttrName.toByte)
        · rw [wire_memberAttrName]
          exact entered
    | @value initial _ last values bytes cost value obeys read =>
        rcases value with ⟨tag, data⟩
        rw [List.append_assoc, add_assoc] at parsed
        obtain ⟨middle, entered, parsed⟩ := parsed_append.mp parsed
        exact ⟨⟨tag, data⟩, middle,
          ⟨⟨obeys.1.2.canonical, nameFits_nil _, obeys.1.1, obeys.2⟩, obeys.1.2.valueByte⟩,
          entered, .value obeys rfl read parsed⟩
  · rintro ⟨value, middle, _, entered, followed⟩
    cases followed with
    | finish same stays =>
        subst same stays
        rw [wire_endCollection] at entered
        exact ⟨[], 0, .stop members, by simpa [Value.cost, ValueData.raw,
          ValueData.nestedCost] using entered⟩
    | @name name bytes cost obeys read parsed =>
        refine ⟨_, _, .name name obeys read, ?_⟩
        rw [nameCost, List.append_assoc]
        rw [wire_memberAttrName] at entered
        exact parsed_append.mpr ⟨middle, entered, parsed⟩
    | @value initial last values bytes cost _ obeys split read parsed =>
        subst split
        refine ⟨_, _, .value value obeys read, ?_⟩
        rw [List.append_assoc, add_assoc]
        exact parsed_append.mpr ⟨middle, entered, parsed⟩

theorem enterCollection_reads
    {body : Nat → List CollectionMember → Decode (List CollectionMember)} {depth room : Nat}
    (reads : ReadsMembers limits (body depth) depth room) :
    ReadsCollection limits (enterCollection body depth) depth room := by
  intro decoder result members ready short
  have loop := reads [] decoder result members ready short
  simp only [enterCollection, Method.bind_eq_ok, Method.get_eq_ok, Prod.mk.injEq]
  constructor
  · rintro ⟨_, _, ⟨rfl, rfl⟩, returned⟩
    rw [ready.under] at returned
    by_cases deep : limits.maxCollectionDepth.toNat < depth
    · simp [deep] at returned
    · simp only [deep, if_false] at returned
      obtain ⟨bytes, cost, read, parsed⟩ := loop.mp returned
      obtain ⟨wire, total, all⟩ := read.wire
      rw [membersWire, List.nil_append] at wire
      rw [membersCost, zero_add] at total
      rw [wire, total]
      exact ⟨⟨Nat.not_lt.mp deep, all trivial⟩, parsed⟩
  · rintro ⟨⟨shallow, all⟩, parsed⟩
    refine ⟨decoder, decoder, ⟨rfl, rfl⟩, ?_⟩
    rw [ready.under, if_neg (Nat.not_lt.mpr shallow)]
    exact loop.mpr ⟨_, _, membersRead_members [] members all, parsed⟩

theorem head_of_entry {name : Bytes} {value : Value} {tail : Bytes} {next : UInt8}
    (seen : [next] <+: decoder.rest) (same : value.wire name ++ tail = decoder.rest) :
    next = value.tag.toByte := by
  rcases value with ⟨tag, data⟩
  rw [← same] at seen
  simp only [Value.wire, entryBytes, List.cons_append] at seen
  exact (List.cons_prefix_cons.mp seen).1

theorem entry_seen {name : Bytes} {value : Value} {cost : Counters}
    (entered : Parsed limits decoder (value.wire name) cost result) :
    [value.tag.toByte] <+: decoder.rest := by
  rcases value with ⟨tag, data⟩
  rw [← entered.split]
  simp [Value.wire, entryBytes]

theorem collectionLoop_reads (entries depth : Nat) :
    ReadsMembers limits (collectionLoop entries depth) depth entries := by
  induction entries generalizing depth with
  | zero =>
      intro members decoder result final _ short
      exact absurd short (Nat.not_lt_zero _)
  | succ entries ih =>
      intro members decoder result final ready short
      have reads := enterCollection_reads (ih (depth + 1))
      have shorter {name : Bytes} {value : Value} {middle : Decoder}
          (entered : Parsed limits decoder (value.wire name) (value.cost name) middle) :
          middle.rest.length < entries := by
        have consumed := entered.length
        rcases value with ⟨tag, data⟩
        rw [Value.wire, List.length_append, length_entryBytes] at consumed
        omega
      rw [membersRead_iff_entry]
      simp only [collectionLoop, Method.bind_eq_ok, Method.get_eq_ok, peek_eq_ok,
        Prod.mk.injEq]
      constructor
      · rintro ⟨_, _, ⟨rfl, rfl⟩, next, _, ⟨seen, rfl⟩, returned⟩
        by_cases ends : next = endOfAttributesTag
        · simp [ends] at returned
        by_cases delimits : isDelimiterTag next
        · simp [ends, delimits] at returned
        simp only [ends, delimits, if_false, Bool.false_eq_true, Method.bind_eq_ok] at returned
        obtain ⟨⟨tag, wireName, value⟩, middle, valued, returned⟩ := returned
        obtain ⟨⟨rfl, carries⟩, entered⟩ :=
          (attributeValueWith_eq_ok reads ready (Nat.le_of_lt_succ short)).mp valued
        cases wireName with
        | cons first rest => simp at returned
        | nil =>
            have same := head_of_entry seen entered.split
            have valueByte : ValueTag.IsValueByte value.tag.toByte := by
              rw [← same]
              exact ⟨ends, by simpa using delimits⟩
            refine ⟨value, middle, ⟨carries, valueByte⟩, entered, ?_⟩
            exact (collectionEntry_eq_ok (ih depth) entered.ready (shorter entered) carries
              valueByte).mp returned
      · rintro ⟨value, middle, ⟨carries, valueByte⟩, entered, followed⟩
        refine ⟨decoder, decoder, ⟨rfl, rfl⟩, value.tag.toByte, decoder,
          ⟨entry_seen entered, rfl⟩, ?_⟩
        rw [if_neg valueByte.1, if_neg (by simp [valueByte.2]), Method.bind_eq_ok]
        refine ⟨(value.tag, [], value), middle,
          (attributeValueWith_eq_ok reads ready (Nat.le_of_lt_succ short)).mpr
            ⟨⟨rfl, carries⟩, entered⟩, ?_⟩
        exact (collectionEntry_eq_ok (ih depth) entered.ready (shorter entered) carries
          valueByte).mpr followed

theorem attributeValue_eq_ok {entries depth : Nat} (ready : decoder.Ready limits)
    (short : decoder.rest.length ≤ entries) {tag : ValueTag} {name : Bytes} {value : Value} :
    attributeValue entries depth decoder = .ok ((tag, name, value), result) ↔
      (value.tag = tag ∧ Carries limits depth name value) ∧
        Parsed limits decoder (value.wire name) (value.cost name) result :=
  attributeValueWith_eq_ok (enterCollection_reads (collectionLoop_reads entries (depth + 1)))
    ready short

/-! ## Attributes -/

/-- How reading one value changes the attributes of a group. -/
inductive AttributeAdded (attributes : List Attribute) (name : Bytes) (value : Value) :
    Counters → List Attribute → Prop where
  | first : name ≠ [] →
      AttributeAdded attributes name value (Pi.single .attributes 1)
        (attributes ++ [⟨name, [value]⟩])
  | further {initial : List Attribute} {last : Attribute} :
      name = [] → attributes = initial ++ [last] →
      AttributeAdded attributes name value 0 (initial ++ [⟨last.name, last.values ++ [value]⟩])

theorem pushAttributeValue_eq_ok (ready : decoder.Ready limits)
    {attributes updated : List Attribute} {name : Bytes} {value : Value} {offset : Nat} :
    pushAttributeValue attributes name value offset decoder = .ok (updated, result) ↔
      ∃ cost, AttributeAdded attributes name value cost updated ∧
        Parsed limits decoder [] cost result := by
  cases name with
  | nil =>
      simp only [pushAttributeValue, List.isEmpty_nil, if_true]
      constructor
      · intro returned
        cases pushed : pushRepeatedValue attributes value with
        | none => simp [pushed] at returned
        | some final =>
            obtain ⟨initial, last, split, rfl⟩ := updateLast_eq_some.mp pushed
            rw [pushed, Method.pure_eq_ok, Prod.mk.injEq] at returned
            obtain ⟨rfl, rfl⟩ := returned
            exact ⟨0, .further rfl split, (parsed_nothing ready).mpr rfl⟩
      · rintro ⟨cost, added, parsed⟩
        cases added with
        | first named => exact absurd rfl named
        | @further initial last _ split =>
            have pushed : pushRepeatedValue attributes value =
                some (initial ++ [⟨last.name, last.values ++ [value]⟩]) :=
              updateLast_eq_some.mpr ⟨initial, last, split, rfl⟩
            obtain rfl := (parsed_nothing ready).mp parsed
            rw [pushed]
            rfl
  | cons head tail =>
      simp only [pushAttributeValue, List.isEmpty_cons, Bool.false_eq_true, if_false,
        Method.bind_eq_ok, Method.pure_eq_ok, Prod.mk.injEq]
      constructor
      · rintro ⟨_, middle, counted, rfl, rfl⟩
        exact ⟨_, .first (List.cons_ne_nil _ _),
          ((charge_parses .attributes 1 _ _ _ ready).mp counted).2⟩
      · rintro ⟨cost, added, parsed⟩
        cases added with
        | first =>
            exact ⟨(), result, (charge_parses .attributes 1 _ _ _ ready).mpr
              ⟨trivial, parsed⟩, rfl, rfl⟩
        | further unnamed => cases unnamed

/-- How reading entries turns the attributes of a group into the final ones. -/
inductive AttributesRead (limits : Limits) :
    List Attribute → Bytes → Counters → List Attribute → Prop where
  | stop (attributes : List Attribute) : AttributesRead limits attributes [] 0 attributes
  | value {attributes updated final : List Attribute} {name bytes : Bytes}
      {added cost : Counters} (value : Value) :
      NameFits limits name → value.All (rule limits) 0 →
      AttributeAdded attributes name value added updated →
      AttributesRead limits updated bytes cost final →
      AttributesRead limits attributes (value.wire name ++ bytes)
        (value.cost name + (added + cost)) final

theorem attributesWire_snoc (initial : List Attribute) (last : Attribute) :
    attributesWire (initial ++ [last]) = attributesWire initial ++ last.wire := by
  simp [attributesWire]

theorem attributesCost_snoc (initial : List Attribute) (last : Attribute) :
    attributesCost (initial ++ [last]) = attributesCost initial + last.cost := by
  simp [attributesCost]

theorem namedWire_snoc {values : List Value} (filled : values ≠ []) (name : Bytes)
    (value : Value) :
    namedWire name (values ++ [value]) = namedWire name values ++ value.wire [] ∧
      namedCost name (values ++ [value]) = namedCost name values + value.cost [] := by
  cases values with
  | nil => exact absurd rfl filled
  | cons first rest =>
      simp [namedWire, namedCost, valuesWire, valuesCost, add_assoc]

/-- One more value extends the wire form by its entries. -/
theorem AttributeAdded.wire {attributes updated : List Attribute} {name : Bytes}
    {value : Value} {added : Counters}
    (step : AttributeAdded attributes name value added updated)
    (nameFits : NameFits limits name) (all : value.All (rule limits) 0)
    (wellFormed : ∀ attr ∈ attributes, attr.WellFormed limits (rule limits)) :
    attributesWire updated = attributesWire attributes ++ value.wire name ∧
      attributesCost updated = attributesCost attributes + (value.cost name + added) ∧
      ∀ attr ∈ updated, attr.WellFormed limits (rule limits) := by
  cases step with
  | first named =>
      refine ⟨?_, ?_, ?_⟩
      · simp [attributesWire_snoc, Attribute.wire, namedWire, valuesWire]
      · simp [attributesCost_snoc, Attribute.cost, namedCost, valuesCost]
      · intro attr member
        rcases List.mem_append.mp member with old | new
        · exact wellFormed attr old
        · obtain rfl := List.mem_singleton.mp new
          exact ⟨named, List.cons_ne_nil _ _, nameFits, all, trivial⟩
  | @further initial last unnamed split =>
      subst unnamed split
      have lastFormed := wellFormed last (by simp)
      obtain ⟨wire, cost⟩ := namedWire_snoc lastFormed.filled last.name value
      refine ⟨?_, ?_, ?_⟩
      · simp [attributesWire_snoc, Attribute.wire, wire]
      · rw [attributesCost_snoc, attributesCost_snoc, Attribute.cost, Attribute.cost, cost]
        simp only [add_comm, add_left_comm, add_zero]
      · intro attr member
        rcases List.mem_append.mp member with old | new
        · exact wellFormed attr (List.mem_append_left _ old)
        · obtain rfl := List.mem_singleton.mp new
          refine ⟨lastFormed.named, by simp, lastFormed.nameFits, ?_⟩
          simpa [valuesAll, lastFormed.values] using all

theorem AttributesRead.wire {attributes final : List Attribute} {bytes : Bytes}
    {cost : Counters} (read : AttributesRead limits attributes bytes cost final)
    (wellFormed : ∀ attr ∈ attributes, attr.WellFormed limits (rule limits)) :
    attributesWire final = attributesWire attributes ++ bytes ∧
      attributesCost final = attributesCost attributes + cost ∧
      ∀ attr ∈ final, attr.WellFormed limits (rule limits) := by
  induction read with
  | stop attributes => simpa using wellFormed
  | value value nameFits all step read ih =>
      obtain ⟨stepWire, stepCost, stepFormed⟩ := step.wire nameFits all wellFormed
      obtain ⟨wire, cost, formed⟩ := ih stepFormed
      refine ⟨?_, ?_, formed⟩
      · rw [wire, stepWire, List.append_assoc]
      · rw [cost, stepCost]
        simp only [add_assoc]

theorem attributesRead_values {initial final : List Attribute} {name bytes : Bytes}
    {cost : Counters} (collected values : List Value) (all : valuesAll (rule limits) 0 values)
    (read : AttributesRead limits (initial ++ [⟨name, collected ++ values⟩]) bytes cost
      final) :
    AttributesRead limits (initial ++ [⟨name, collected⟩]) (valuesWire values ++ bytes)
      (valuesCost values + cost) final := by
  induction values generalizing collected with
  | nil => simpa [valuesWire, valuesCost] using read
  | cons value values ih =>
      have later := ih (collected ++ [value]) all.2 (by simpa using read)
      have grown : AttributeAdded (initial ++ [⟨name, collected⟩]) [] value 0
          (initial ++ [⟨name, collected ++ [value]⟩]) := .further rfl rfl
      have step := AttributesRead.value value (nameFits_nil _) all.1 grown later
      simpa [valuesWire, valuesCost, add_assoc] using step

theorem attributesRead_attributes (collected attributes : List Attribute)
    (wellFormed : ∀ attr ∈ attributes, attr.WellFormed limits (rule limits)) :
    AttributesRead limits collected (attributesWire attributes) (attributesCost attributes)
      (collected ++ attributes) := by
  induction attributes generalizing collected with
  | nil =>
      rw [List.append_nil]
      exact .stop collected
  | cons attr attributes ih =>
      rcases attr with ⟨name, values⟩
      have formed := wellFormed _ List.mem_cons_self
      have later := ih (collected ++ [⟨name, values⟩])
        (fun other member => wellFormed other (List.mem_cons_of_mem _ member))
      cases values with
      | nil => exact absurd rfl formed.filled
      | cons value values =>
          have read := attributesRead_values [value] values formed.values.2 later
          have step := AttributesRead.value value formed.nameFits formed.values.1
            (.first formed.named) read
          simpa [attributesWire, attributesCost, Attribute.wire, Attribute.cost, namedWire,
            namedCost, add_assoc, add_left_comm] using step

/-- No further value follows: the input is used up or continues with a tag that ends
the group. -/
def Stops (decoder : Decoder) : Prop :=
  ∀ next, [next] <+: decoder.rest → next = endOfAttributesTag ∨ isDelimiterTag next = true

theorem rest_eq_nil_iff : decoder.rest = [] ↔ decoder.input.length ≤ decoder.offset := by
  rw [rest, List.drop_eq_nil_iff]

theorem exists_next (inside : ¬decoder.input.length ≤ decoder.offset) :
    ∃ next, [next] <+: decoder.rest := by
  cases left : decoder.rest with
  | nil => exact absurd (rest_eq_nil_iff.mp left) inside
  | cons next tail => exact ⟨next, tail, rfl⟩

/-- An entry in a group is an ordinary value exactly when its tag is neither a delimiter
nor a control tag. -/
theorem all_iff_carries {name : Bytes} {value : Value} :
    NameFits limits name ∧ value.All (rule limits) 0 ↔
      Carries limits 0 name value ∧ value.tag.Plain := by
  rcases value with ⟨tag, data⟩
  constructor
  · rintro ⟨nameFits, all⟩
    exact ⟨⟨all.1.2.canonical, nameFits, all.1.1, all.2⟩, all.1.2⟩
  · rintro ⟨carries, plain⟩
    exact ⟨carries.nameFits, ⟨carries.bounded, plain⟩, carries.nested⟩

/-- The attribute loop stops where no further value follows. -/
theorem attributesLoop_stops {entries : Nat} {attributes : List Attribute}
    (stops : Stops decoder) :
    attributesLoop (entries + 1) attributes decoder = .ok (attributes, decoder) := by
  simp only [attributesLoop, Method.bind_eq_ok, Method.get_eq_ok, Prod.mk.injEq]
  refine ⟨decoder, decoder, ⟨rfl, rfl⟩, ?_⟩
  by_cases past : decoder.input.length ≤ decoder.offset
  · rw [if_pos past]
    rfl
  · obtain ⟨next, seen⟩ := exists_next past
    rw [if_neg past, Method.bind_eq_ok]
    refine ⟨next, decoder, peek_eq_ok.mpr ⟨seen, rfl⟩, ?_⟩
    rw [if_pos (stops next seen)]
    rfl

/-- One turn of the attribute loop where it does not stop: it reads a value, adds it
and goes on. -/
theorem attributesLoop_continues {entries : Nat} {attributes final : List Attribute}
    (ready : decoder.Ready limits) (short : decoder.rest.length ≤ entries)
    (continues : ¬Stops decoder) :
    attributesLoop (entries + 1) attributes decoder = .ok (final, result) ↔
      ∃ value name middle, (NameFits limits name ∧ value.All (rule limits) 0) ∧
        Parsed limits decoder (value.wire name) (value.cost name) middle ∧
        ∃ cost updated added, AttributeAdded attributes name value cost updated ∧
          Parsed limits middle [] cost added ∧
          attributesLoop entries updated added = .ok (final, result) := by
  have inside : ¬decoder.input.length ≤ decoder.offset := by
    intro past
    apply continues
    intro next seen
    rw [rest_eq_nil_iff.mpr past] at seen
    simp at seen
  obtain ⟨next, seen⟩ := exists_next inside
  have ordinary : ¬(next = endOfAttributesTag ∨ isDelimiterTag next = true) := by
    intro stops
    apply continues
    intro other found
    rw [rest_eq_cons] at seen found
    rw [seen, Option.some.injEq] at found
    exact found ▸ stops
  have peeks (byte : UInt8) (after : Decoder) :
      peek decoder = .ok (byte, after) ↔ byte = next ∧ after = decoder := by
    rw [peek_eq_ok]
    constructor
    · rintro ⟨found, rfl⟩
      rw [rest_eq_cons] at seen found
      exact ⟨Option.some.inj (found.symm.trans seen), rfl⟩
    · rintro ⟨rfl, rfl⟩
      exact ⟨seen, rfl⟩
  simp only [attributesLoop, Method.bind_eq_ok, Method.get_eq_ok, Prod.mk.injEq]
  constructor
  · rintro ⟨_, _, ⟨rfl, rfl⟩, returned⟩
    rw [if_neg inside, Method.bind_eq_ok] at returned
    obtain ⟨_, _, peeked, returned⟩ := returned
    obtain ⟨rfl, rfl⟩ := (peeks _ _).mp peeked
    simp only [ordinary, if_false, Method.bind_eq_ok] at returned
    obtain ⟨⟨tag, name, value⟩, middle, valued, updated, added, pushed, returned⟩ := returned
    obtain ⟨⟨rfl, carries⟩, entered⟩ := (attributeValue_eq_ok ready short).mp valued
    obtain ⟨cost, grown, counted⟩ := (pushAttributeValue_eq_ok entered.ready).mp pushed
    by_cases control : value.tag = .memberAttrName ∨ value.tag = .endCollection
    · simp [control] at returned
    rw [if_neg control] at returned
    have plain : value.tag.Plain := by
      rw [not_or] at control ordinary
      refine ⟨carries.canonical, ?_, control.2, control.1⟩
      rw [← head_of_entry seen entered.split]
      exact ⟨ordinary.1, by simpa using ordinary.2⟩
    exact ⟨value, name, middle, all_iff_carries.mpr ⟨carries, plain⟩, entered, cost, updated,
      added, grown, counted, returned⟩
  · rintro ⟨value, name, middle, all, entered, cost, updated, added, grown, counted, returned⟩
    obtain ⟨carries, plain⟩ := all_iff_carries.mp all
    refine ⟨decoder, decoder, ⟨rfl, rfl⟩, ?_⟩
    rw [if_neg inside, Method.bind_eq_ok]
    refine ⟨next, decoder, (peeks _ _).mpr ⟨rfl, rfl⟩, ?_⟩
    rw [if_neg ordinary, Method.bind_eq_ok]
    refine ⟨(value.tag, name, value), middle,
      (attributeValue_eq_ok ready short).mpr ⟨⟨rfl, carries⟩, entered⟩, ?_⟩
    rw [Method.bind_eq_ok]
    refine ⟨updated, added, (pushAttributeValue_eq_ok entered.ready).mpr
      ⟨cost, grown, counted⟩, ?_⟩
    rw [if_neg (by simp [plain.not_member, plain.not_end])]
    exact returned

/-- An ordinary value does not stop the loop. -/
theorem not_stops_of_value {name : Bytes} {value : Value} {cost : Counters}
    (all : value.All (rule limits) 0)
    (entered : Parsed limits decoder (value.wire name) cost middle) : ¬Stops decoder := by
  intro stops
  have plain : value.tag.Plain := by
    rcases value with ⟨tag, data⟩
    exact all.1.2
  have stopped := stops _ (entry_seen entered)
  simp [plain.valueByte.1, plain.valueByte.2] at stopped

theorem rest_lt_of_value {entries : Nat} {name : Bytes} {value : Value}
    {added : Decoder} {cost counts : Counters} (short : decoder.rest.length ≤ entries)
    (entered : Parsed limits decoder (value.wire name) cost middle)
    (counted : Parsed limits middle [] counts added) : added.rest.length < entries := by
  have consumed := entered.length
  have unchanged := counted.length
  rcases value with ⟨tag, data⟩
  rw [Value.wire, List.length_append, length_entryBytes] at consumed
  rw [List.length_nil] at unchanged
  omega

theorem attributesLoop_eq_ok {entries : Nat} {attributes final : List Attribute}
    (ready : decoder.Ready limits) (short : decoder.rest.length < entries) :
    attributesLoop entries attributes decoder = .ok (final, result) ↔
      ∃ bytes cost, AttributesRead limits attributes bytes cost final ∧
        Parsed limits decoder bytes cost result ∧ Stops result := by
  induction entries generalizing attributes decoder with
  | zero => exact absurd short (Nat.not_lt_zero _)
  | succ entries ih =>
      have enough : decoder.rest.length ≤ entries := Nat.le_of_lt_succ short
      by_cases stops : Stops decoder
      · rw [attributesLoop_stops stops]
        constructor
        · rintro ⟨rfl, rfl⟩
          exact ⟨[], 0, .stop _, (parsed_nothing ready).mpr rfl, stops⟩
        · rintro ⟨bytes, cost, read, parsed, _⟩
          cases read with
          | stop => rw [(parsed_nothing ready).mp parsed]
          | value value _ all =>
              obtain ⟨middle, entered, -⟩ := parsed_append.mp parsed
              exact absurd stops (not_stops_of_value all entered)
      · rw [attributesLoop_continues ready enough stops]
        constructor
        · rintro ⟨value, name, middle, ⟨nameFits, all⟩, entered, cost, updated, added, grown,
            counted, returned⟩
          obtain ⟨bytes, more, read, parsed, stopped⟩ :=
            (ih counted.ready (rest_lt_of_value enough entered counted)).mp returned
          exact ⟨_, _, .value value nameFits all grown read,
            parsed_append.mpr ⟨middle, entered, parsed_append.mpr ⟨added, counted, parsed⟩⟩,
            stopped⟩
        · rintro ⟨bytes, cost, read, parsed, stopped⟩
          cases read with
          | stop =>
              obtain rfl := (parsed_nothing ready).mp parsed
              exact absurd stopped stops
          | @value _ updated _ name bytes counts cost value nameFits all grown read =>
              obtain ⟨middle, entered, rest⟩ := parsed_append.mp parsed
              rw [← List.nil_append bytes] at rest
              obtain ⟨added, counted, rest⟩ := parsed_append.mp rest
              exact ⟨value, name, middle, ⟨nameFits, all⟩, entered, counts, updated, added,
                grown, counted, (ih counted.ready (rest_lt_of_value enough entered counted)).mpr
                  ⟨bytes, cost, read, rest, stopped⟩⟩

/-! ## Groups and messages -/

/-- A group begins with its delimiter, so the group before it stops there. -/
theorem stops_of_groups {groups : List AttributeGroup} (tail : Bytes)
    (formed : ∀ group ∈ groups, group.WellFormed limits (rule limits))
    (left : groupsWire groups ++ endOfAttributesTag :: tail = decoder.rest) :
    Stops decoder := by
  intro next seen
  rw [← left] at seen
  cases groups with
  | nil => exact .inl (List.cons_prefix_cons.mp seen).1
  | cons group groups =>
      have same : next = group.tag := by
        simp only [groupsWire, List.flatMap_cons, AttributeGroup.wire, List.cons_append] at seen
        exact (List.cons_prefix_cons.mp seen).1
      rw [same]
      exact .inr (formed group List.mem_cons_self).delimiter

/-- Reading a group is reading its tag, counting it and reading its attributes. -/
theorem parsed_group {group : AttributeGroup} {groups : List AttributeGroup} :
    Parsed limits decoder (groupsWire (group :: groups) ++ [endOfAttributesTag])
      (groupsCost (group :: groups)) result ↔
      ∃ tagged, Parsed limits decoder [group.tag] 0 tagged ∧
        ∃ counted, Parsed limits tagged [] (Pi.single .groups 1) counted ∧
          ∃ middle, Parsed limits counted (attributesWire group.attributes)
            (attributesCost group.attributes) middle ∧
            Parsed limits middle (groupsWire groups ++ [endOfAttributesTag])
              (groupsCost groups) result := by
  have wire : groupsWire (group :: groups) ++ [endOfAttributesTag] =
      [group.tag] ++ ([] ++ (attributesWire group.attributes ++
        (groupsWire groups ++ [endOfAttributesTag]))) := by
    simp [groupsWire, AttributeGroup.wire]
  have cost : groupsCost (group :: groups) =
      0 + (Pi.single .groups 1 + (attributesCost group.attributes + groupsCost groups)) := by
    simp [groupsCost, AttributeGroup.cost, add_assoc]
  simp only [wire, cost, parsed_append]

/-- One turn of the group loop: it ends with the input, or reads a group and goes on. -/
theorem groupsLoop_succ {entries : Nat} {groups final : List AttributeGroup}
    (ready : decoder.Ready limits) :
    groupsLoop (entries + 1) groups decoder = .ok (final, result) ↔
      (final = groups ∧ Parsed limits decoder [endOfAttributesTag] 0 result ∧
        result.rest = []) ∨
      ∃ group tagged counted middle, isDelimiterTag group.tag = true ∧
        Parsed limits decoder [group.tag] 0 tagged ∧
        Parsed limits tagged [] (Pi.single .groups 1) counted ∧
        attributesLoop entries [] counted = .ok (group.attributes, middle) ∧
        groupsLoop entries (groups ++ [group]) middle = .ok (final, result) := by
  have marks (tag : UInt8) (tagged : Decoder) : byte decoder = .ok (tag, tagged) ↔
      Parsed limits decoder [tag] 0 tagged := by
    rw [byte_parses decoder tagged tag ready, true_and]
  simp only [groupsLoop, Method.bind_eq_ok, Method.get_eq_ok, Method.mapError_eq_ok,
    Prod.mk.injEq]
  constructor
  · rintro ⟨_, _, ⟨rfl, rfl⟩, tag, tagged, marking, _, _, ⟨rfl, rfl⟩, returned⟩
    have marked := (marks tag tagged).mp marking
    by_cases ends : tag = endOfAttributesTag
    · subst ends
      rw [if_pos rfl] at returned
      by_cases trailing : tagged.offset = tagged.input.length
      · simp only [trailing, ne_eq, not_true_eq_false, if_false, Method.pure_eq_ok,
          Prod.mk.injEq] at returned
        obtain ⟨rfl, rfl⟩ := returned
        exact .inl ⟨rfl, marked, rest_eq_nil_iff.mpr trailing.ge⟩
      · simp [trailing] at returned
    rw [if_neg ends] at returned
    by_cases delimits : isDelimiterTag tag
    · simp only [delimits, Bool.not_true, Bool.false_eq_true, if_false,
        Method.bind_eq_ok] at returned
      obtain ⟨_, counted, charging, attributes, middle, looped, returned⟩ := returned
      have charged := ((charge_parses .groups 1 _ _ _ marked.ready).mp charging).2
      exact .inr ⟨⟨tag, attributes⟩, tagged, counted, middle, delimits, marked, charged,
        looped, returned⟩
    · simp [delimits] at returned
  · rintro (⟨rfl, marked, nothing⟩ | ⟨group, tagged, counted, middle, delimits, marked,
      charged, looped, returned⟩)
    · have finished : result.offset = result.input.length :=
        Nat.le_antisymm marked.ready.offset (rest_eq_nil_iff.mp nothing)
      refine ⟨decoder, decoder, ⟨rfl, rfl⟩, endOfAttributesTag, result,
        (marks _ _).mpr marked, result, result, ⟨rfl, rfl⟩, ?_⟩
      simp [finished]
    · have ends : group.tag ≠ endOfAttributesTag := by
        intro same
        rw [same] at delimits
        exact absurd delimits (by decide)
      refine ⟨decoder, decoder, ⟨rfl, rfl⟩, group.tag, tagged, (marks _ _).mpr marked,
        tagged, tagged, ⟨rfl, rfl⟩, ?_⟩
      rw [if_neg ends, if_neg (by simp [delimits]), Method.bind_eq_ok]
      refine ⟨(), counted,
        (charge_parses .groups 1 _ _ _ marked.ready).mpr ⟨trivial, charged⟩, ?_⟩
      rw [Method.bind_eq_ok]
      exact ⟨group.attributes, middle, looped, returned⟩

/-- What follows a group marker is shorter than the input. -/
theorem rest_lt_of_marker {entries : Nat} {tag : UInt8} {tagged counted : Decoder}
    {amount : Counters} (short : decoder.rest.length < entries + 1)
    (marked : Parsed limits decoder [tag] 0 tagged)
    (charged : Parsed limits tagged [] amount counted) : counted.rest.length < entries := by
  have consumed := marked.length
  have unchanged := charged.length
  rw [List.length_singleton] at consumed
  rw [List.length_nil] at unchanged
  omega

theorem Parsed.rest_le {bytes : Bytes} {cost : Counters}
    (parsed : Parsed limits decoder bytes cost result) :
    result.rest.length ≤ decoder.rest.length := by
  have consumed := parsed.length
  omega

theorem groupsLoop_eq_ok {entries : Nat} {groups final : List AttributeGroup}
    (ready : decoder.Ready limits) (short : decoder.rest.length < entries) :
    groupsLoop entries groups decoder = .ok (final, result) ↔
      ∃ added, (final = groups ++ added ∧
        ∀ group ∈ added, group.WellFormed limits (rule limits)) ∧
        Parsed limits decoder (groupsWire added ++ [endOfAttributesTag]) (groupsCost added)
          result ∧ result.rest = [] := by
  induction entries generalizing groups decoder with
  | zero => exact absurd short (Nat.not_lt_zero _)
  | succ entries ih =>
      rw [groupsLoop_succ ready]
      constructor
      · rintro (⟨rfl, marked, nothing⟩ | ⟨group, tagged, counted, middle, delimits, marked,
          charged, looped, returned⟩)
        · exact ⟨[], ⟨by simp, by simp⟩, marked, nothing⟩
        · have room := rest_lt_of_marker short marked charged
          obtain ⟨bytes, cost, read, parsed, _⟩ :=
            (attributesLoop_eq_ok charged.ready room).mp looped
          obtain ⟨added, ⟨rfl, formed⟩, rest, nothing⟩ :=
            (ih parsed.ready (parsed.rest_le.trans_lt room)).mp returned
          obtain ⟨wire, total, attributesFormed⟩ := read.wire (by simp)
          simp only [attributesWire, attributesCost, List.flatMap_nil, List.nil_append,
            List.map_nil, List.sum_nil, zero_add] at wire total
          subst wire total
          refine ⟨group :: added, ⟨by simp, ?_⟩,
            parsed_group.mpr ⟨tagged, marked, counted, charged, middle, parsed, rest⟩, nothing⟩
          intro other member
          rcases List.mem_cons.mp member with rfl | later
          · exact ⟨delimits, attributesFormed⟩
          · exact formed other later
      · rintro ⟨added, ⟨rfl, formed⟩, parsed, nothing⟩
        cases added with
        | nil => exact .inl ⟨List.append_nil _, parsed, nothing⟩
        | cons group added =>
            obtain ⟨tagged, marked, counted, charged, middle, inner, rest⟩ :=
              parsed_group.mp parsed
            have groupFormed := formed group List.mem_cons_self
            have laterFormed : ∀ later ∈ added, later.WellFormed limits (rule limits) :=
              fun later member => formed later (List.mem_cons_of_mem _ member)
            have room := rest_lt_of_marker short marked charged
            have stops : Stops middle := by
              apply stops_of_groups result.rest laterFormed
              simpa using rest.split
            have looped := (attributesLoop_eq_ok charged.ready room).mpr
              ⟨_, _, attributesRead_attributes [] _ groupFormed.attributes, inner, stops⟩
            have returned := (ih inner.ready (inner.rest_le.trans_lt room)).mpr
              ⟨added, ⟨List.append_cons groups group added, laterFormed⟩, rest, nothing⟩
            exact .inr ⟨group, tagged, counted, middle, groupFormed.delimiter, marked, charged,
              looped, returned⟩

/-- The header of a message, with the state it leaves. -/
theorem parsed_header {read : Message} :
    Parsed limits decoder read.wire (groupsCost read.groups) result ↔
      ∃ major, Parsed limits decoder [read.version.major] 0 major ∧
        ∃ minor, Parsed limits major [read.version.minor] 0 minor ∧
          ∃ code, Parsed limits minor (u16Bytes read.code) 0 code ∧
            ∃ header, Parsed limits code (u32Bytes read.requestId) 0 header ∧
              Parsed limits header (groupsWire read.groups ++ [endOfAttributesTag])
                (groupsCost read.groups) result := by
  have wire : read.wire = [read.version.major] ++ ([read.version.minor] ++
      (u16Bytes read.code ++ (u32Bytes read.requestId ++
        (groupsWire read.groups ++ [endOfAttributesTag])))) := by
    simp [Message.wire, Message.header]
  have free {start finish : Decoder} (bytes more : Bytes) (cost : Counters) :
      Parsed limits start (bytes ++ more) cost finish ↔ ∃ middle,
        Parsed limits start bytes 0 middle ∧ Parsed limits middle more cost finish := by
    rw [← parsed_append, zero_add]
  rw [wire]
  generalize groupsWire read.groups ++ [endOfAttributesTag] = body
  simp only [free]

theorem Parsed.sameInput {bytes : Bytes} {cost : Counters}
    (parsed : Parsed limits decoder bytes cost result) : result.input = decoder.input := by
  rw [← parsed.state]
  rfl

theorem message_eq_ok {read : Message} (ready : decoder.Ready limits) :
    message decoder = .ok (read, result) ↔
      (read.originalBytes = decoder.input ∧ read.WellFormed limits (rule limits)) ∧
        Parsed limits decoder read.wire (groupsCost read.groups) result ∧
        result.rest = [] := by
  have room (later : Decoder) : later.rest.length < later.input.length + 1 := by
    rw [rest, List.length_drop]
    omega
  simp only [message, Method.bind_eq_ok, Method.get_eq_ok, Method.pure_eq_ok,
    Prod.mk.injEq]
  rw [parsed_header]
  constructor
  · rintro ⟨major, _, readMajor, minor, _, readMinor, code, _, readCode, requestId, header,
      readId, _, _, ⟨rfl, rfl⟩, groups, _, looped, rfl, rfl⟩
    have majorRead := ((byte_parses _ _ _ ready).mp readMajor).2
    have minorRead := ((byte_parses _ _ _ majorRead.ready).mp readMinor).2
    have codeRead := ((u16_parses _ _ _ minorRead.ready).mp readCode).2
    have idRead := ((u32_parses _ _ _ codeRead.ready).mp readId).2
    obtain ⟨added, ⟨rfl, formed⟩, parsed, nothing⟩ :=
      (groupsLoop_eq_ok idRead.ready (room header)).mp looped
    have same : header.input = decoder.input := by
      rw [idRead.sameInput, codeRead.sameInput, minorRead.sameInput, majorRead.sameInput]
    exact ⟨⟨same, formed⟩,
      ⟨_, majorRead, _, minorRead, _, codeRead, header, idRead, parsed⟩, nothing⟩
  · rintro ⟨⟨original, formed⟩, ⟨_, majorRead, _, minorRead, _, codeRead, header, idRead,
      parsed⟩, nothing⟩
    have same : header.input = decoder.input := by
      rw [idRead.sameInput, codeRead.sameInput, minorRead.sameInput, majorRead.sameInput]
    refine ⟨read.version.major, _, (byte_parses _ _ _ ready).mpr ⟨trivial, majorRead⟩,
      read.version.minor, _, (byte_parses _ _ _ majorRead.ready).mpr ⟨trivial, minorRead⟩,
      read.code, _, (u16_parses _ _ _ minorRead.ready).mpr ⟨trivial, codeRead⟩,
      read.requestId, header, (u32_parses _ _ _ codeRead.ready).mpr ⟨trivial, idRead⟩,
      header, header, ⟨rfl, rfl⟩, read.groups, result, ?_, ?_, rfl⟩
    · exact (groupsLoop_eq_ok idRead.ready (room header)).mpr
        ⟨read.groups, ⟨by simp, formed⟩, parsed, nothing⟩
    · rw [same, ← original]

end Decoder

/-- The decoder succeeds exactly on the wire forms of affordable messages that obey
its rule, and it then returns that message with the input attached. -/
theorem decode_eq_ok (input : Bytes) (limits : Limits) (message : Message) :
    decode input limits = .ok message ↔
      message.WellFormed limits (Decoder.rule limits) ∧ message.Affordable limits ∧
        message.wire = input ∧ message.originalBytes = input := by
  unfold decode
  by_cases valid : limits.valid
  · by_cases large : limits.maxMessageBytes.toNat < input.length
    · simp only [valid, Bool.not_true, Bool.false_eq_true, if_false, large, if_true, fail,
        reduceCtorEq, false_iff]
      rintro ⟨_, affordable, rfl, _⟩
      exact absurd affordable.length (Nat.not_le.mpr large)
    have small := Nat.not_lt.mp large
    have machine : limits.maxMessageBytes.toNat ≤ usizeMax :=
      Nat.le_of_lt_succ (UInt64.toNat_lt _)
    have ready : (Decoder.mk input 0 limits 0).Ready limits :=
      ⟨rfl, Nat.zero_le _, Nat.le_trans small machine, fun _ => Nat.zero_le _⟩
    simp only [valid, Bool.not_true, Bool.false_eq_true, if_false, large,
      Decoder.map_eq_ok]
    constructor
    · rintro ⟨⟨read, result⟩, returned, rfl⟩
      obtain ⟨⟨original, formed⟩, parsed, nothing⟩ :=
        (Decoder.message_eq_ok ready).mp returned
      have wire : read.wire = input := by
        have whole := parsed.split
        rw [nothing, List.append_nil] at whole
        exact whole
      have counted := parsed.ready.counters
      rw [← parsed.state] at counted
      exact ⟨formed, ⟨valid, by rw [wire]; exact small, by
        simpa [Decoder.after] using counted⟩, wire, original⟩
    · rintro ⟨formed, affordable, wire, original⟩
      let result := (Decoder.mk input 0 limits 0).after message.wire
        (groupsCost message.groups)
      have consumed : message.wire <+: (Decoder.mk input 0 limits 0).rest := by
        rw [wire]
        exact List.prefix_refl input
      have resultReady : result.Ready limits := by
        refine ⟨rfl, ?_, ready.input, ?_⟩
        · simp [result, Decoder.after, wire]
        · simpa [result, Decoder.after] using affordable.cost
      have nothing : result.rest = [] := by
        rw [Decoder.rest_eq_nil_iff]
        simp [result, Decoder.after, wire]
      exact ⟨(message, result), (Decoder.message_eq_ok ready).mpr
        ⟨⟨original, formed⟩, ⟨consumed, resultReady, rfl⟩, nothing⟩, rfl⟩
  · simp only [valid, Bool.not_false, if_true, fail, reduceCtorEq, false_iff]
    rintro ⟨_, affordable, _⟩
    exact absurd affordable.valid valid

end PrinterSdk.Ipp
