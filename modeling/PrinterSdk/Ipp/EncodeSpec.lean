import Mathlib.Tactic.Abel
import PrinterSdk.Ipp.Encode
import PrinterSdk.Ipp.Wire

/-!
# What the encoder writes

`Emits` states exactly when an encoder method succeeds and what it then appends
and counts.  It composes along sequencing, so every method is described by the
wire format of the part of the message it walks.
-/

namespace PrinterSdk.Ipp

open PrinterSdk.Data

namespace Encoder

/-- The encoder once `bytes` are written and `cost` is counted. -/
def after (encoder : Encoder) (bytes : Bytes) (cost : Counters) : Encoder :=
  { encoder with
    output := encoder.output ++ bytes
    counters := encoder.counters + cost }

/-- The encoder works under `limits` and is within them. -/
structure Fits (limits : Limits) (encoder : Encoder) : Prop where
  under : encoder.limits = limits
  output : encoder.output.length ≤ limits.maxMessageBytes.toNat
  counters : encoder.counters ≤ limits.bound

theorem after_after (encoder : Encoder) (first second : Bytes) (cost more : Counters) :
    (encoder.after first cost).after second more =
      encoder.after (first ++ second) (cost + more) := by
  simp [after, add_assoc]

theorem after_nothing (encoder : Encoder) : encoder.after [] 0 = encoder := by
  simp [after]

/-- Counters and output only grow, so being within the limits is inherited by
earlier encoders. -/
theorem Fits.of_after {limits : Limits} {encoder : Encoder} {bytes : Bytes}
    {cost : Counters} (fits : (encoder.after bytes cost).Fits limits) :
    encoder.Fits limits where
  under := fits.under
  output := by
    have within := fits.output
    simp only [after, List.length_append] at within
    omega
  counters := by
    intro kind
    exact Nat.le_trans (Nat.le_add_right _ _) (fits.counters kind)

/-- The method succeeds exactly when `accepts` holds and there is room, and it then
appends `bytes` and counts `cost`. -/
def Emits (limits : Limits) (method : Encode Unit) (bytes : Bytes) (cost : Counters)
    (accepts : Prop) : Prop :=
  ∀ encoder result, encoder.Fits limits →
    (method encoder = .ok ((), result) ↔
      accepts ∧ (encoder.after bytes cost).Fits limits ∧
        encoder.after bytes cost = result)

variable {limits : Limits}

theorem emits_nothing : Emits limits (pure ()) [] 0 True := by
  intro encoder result fits
  rw [Method.pure_eq_ok, after_nothing, Prod.mk.injEq]
  simp [fits]

theorem Emits.congr {method : Encode Unit} {bytes bytes' : Bytes}
    {cost cost' : Counters} {accepts accepts' : Prop}
    (emits : Emits limits method bytes cost accepts)
    (same : accepts → bytes = bytes' ∧ cost = cost')
    (sameAccepts : accepts ↔ accepts') :
    Emits limits method bytes' cost' accepts' := by
  intro encoder result fits
  rw [← sameAccepts, emits encoder result fits]
  constructor
  · rintro ⟨accepted, written⟩
    rw [(same accepted).1, (same accepted).2] at written
    exact ⟨accepted, written⟩
  · rintro ⟨accepted, written⟩
    rw [← (same accepted).1, ← (same accepted).2] at written
    exact ⟨accepted, written⟩

theorem Emits.seq {first next : Encode Unit} {bytes more : Bytes}
    {cost further : Counters} {accepts admits : Prop}
    (emitsFirst : Emits limits first bytes cost accepts)
    (emitsNext : Emits limits next more further admits) :
    Emits limits (first >>= fun _ => next) (bytes ++ more) (cost + further)
      (accepts ∧ admits) := by
  intro encoder result fits
  rw [Method.bind_eq_ok]
  constructor
  · rintro ⟨_, middle, returned, continued⟩
    obtain ⟨accepted, middleFits, rfl⟩ := (emitsFirst _ _ fits).mp returned
    obtain ⟨admitted, resultFits, rfl⟩ := (emitsNext _ _ middleFits).mp continued
    rw [after_after] at resultFits ⊢
    exact ⟨⟨accepted, admitted⟩, resultFits, rfl⟩
  · rintro ⟨⟨accepted, admitted⟩, resultFits, rfl⟩
    rw [← after_after] at resultFits ⊢
    have middleFits := resultFits.of_after
    exact ⟨(), _, (emitsFirst _ _ fits).mpr ⟨accepted, middleFits, rfl⟩,
      (emitsNext _ _ middleFits).mpr ⟨admitted, resultFits, rfl⟩⟩

theorem Emits.guard {method : Encode Unit} {bytes : Bytes} {cost : Counters}
    {accepts : Prop} (emits : Emits limits method bytes cost accepts)
    (refused : Prop) [Decidable refused] (error : EncodeError) :
    Emits limits (if refused then Method.fail error else method) bytes cost
      (¬refused ∧ accepts) := by
  intro encoder result fits
  by_cases refuses : refused
  · simp [refuses]
  · simp only [refuses, if_false, not_false_eq_true, true_and]
    exact emits encoder result fits

/-- A method that first reads the encoder may use its limits. -/
theorem Emits.reading {body : Encoder → Encode Unit} {method : Encode Unit}
    {bytes : Bytes} {cost : Counters} {accepts : Prop}
    (emits : Emits limits method bytes cost accepts)
    (same : ∀ encoder, encoder.limits = limits → body encoder = method) :
    Emits limits (get >>= body) bytes cost accepts := by
  intro encoder result fits
  rw [Method.bind_eq_ok]
  constructor
  · rintro ⟨value, middle, read, returned⟩
    rw [Method.get_eq_ok, Prod.mk.injEq] at read
    obtain ⟨rfl, rfl⟩ := read
    rw [same _ fits.under] at returned
    exact (emits _ _ fits).mp returned
  · intro accepted
    refine ⟨encoder, encoder, by simp, ?_⟩
    rw [same _ fits.under]
    exact (emits _ _ fits).mpr accepted

theorem Emits.check (refused : Prop) [Decidable refused] (error : EncodeError) :
    Emits limits (if refused then Method.fail error else pure ()) [] 0 (¬refused) :=
  (emits_nothing.guard refused error).congr (fun _ => ⟨rfl, rfl⟩) (by simp)

/-! ## Primitive methods -/

theorem charge_emits (kind : Counted) (amount : Nat) :
    Emits limits (charge kind amount) [] (Pi.single kind amount) True := by
  intro encoder result fits
  have room : (encoder.after [] (Pi.single kind amount)).Fits limits ↔
      encoder.counters kind + amount ≤ limits.bound kind := by
    constructor
    · intro afterwards
      simpa [after] using afterwards.counters kind
    · intro within
      refine ⟨fits.under, by simpa [after] using fits.output, ?_⟩
      intro other
      by_cases same : other = kind
      · subst same
        simpa [after] using within
      · simpa [after, Pi.single_eq_of_ne same] using fits.counters other
  rw [room, ← saturatingAdd_le_iff (limits.bound_le_usizeMax kind)]
  simp only [charge, add, count, Method.bind_eq_ok, Method.get_eq_ok, Prod.mk.injEq]
  by_cases exceeded : limits.bound kind < saturatingAdd (encoder.counters kind) amount
  · simp [exceeded, fits.under]
  · by_cases overflow : usizeMax < encoder.counters kind + amount
    · simp [exceeded, overflow, fits.under]
    · simp [exceeded, overflow, fits.under, after]

theorem extend_emits (bytes : Bytes) : Emits limits (extend bytes) bytes 0 True := by
  intro encoder result fits
  have machine : limits.maxMessageBytes.toNat ≤ usizeMax :=
    Nat.le_of_lt_succ (UInt64.toNat_lt _)
  have room : (encoder.after bytes 0).Fits limits ↔
      encoder.output.length + bytes.length ≤ limits.maxMessageBytes.toNat := by
    constructor
    · intro afterwards
      simpa [after] using afterwards.output
    · intro within
      exact ⟨fits.under, by simpa [after] using within,
        by simpa [after] using fits.counters⟩
  rw [room, ← saturatingAdd_le_iff machine]
  simp only [extend, addOutput, Method.bind_eq_ok, Method.get_eq_ok, Prod.mk.injEq]
  by_cases exceeded : limits.maxMessageBytes.toNat <
      saturatingAdd encoder.output.length bytes.length
  · simp [exceeded, fits.under]
  · by_cases overflow : usizeMax < encoder.output.length + bytes.length
    · simp [exceeded, overflow, fits.under]
    · simp [exceeded, overflow, fits.under, after]

theorem push_emits (byte : UInt8) : Emits limits (push byte) [byte] 0 True :=
  extend_emits [byte]

theorem checkName_emits (name : Bytes) :
    Emits limits (checkName name) [] 0 (name.length ≤ limits.maxNameBytes.toNat) := by
  refine (Emits.check (limits.maxNameBytes.toNat < name.length)
    (.limit "name bytes" name.length limits.maxNameBytes.toNat)).reading ?_ |>.congr
    (fun _ => ⟨rfl, rfl⟩) Nat.not_lt
  intro encoder same
  rw [same]

theorem wireBytes_emits (bytes : Bytes) :
    Emits limits (wireBytes bytes) (fieldBytes bytes)
      (Pi.single .decodedBytes bytes.length) (RawFits limits bytes) := by
  have written : Emits limits _ _ _ _ := (charge_emits .decodedBytes bytes.length).seq
    ((extend_emits (u16Bytes (UInt16.ofNat bytes.length))).seq (extend_emits bytes))
  have guarded := (written.guard (limits.maxValueBytes.toNat < bytes.length)
    (.limit "value bytes" bytes.length limits.maxValueBytes.toNat)).guard
    (65535 < bytes.length) .wireLengthOverflow
  refine (guarded.reading ?_).congr ?_ ?_
  · intro encoder same
    rw [same]
    rfl
  · intro accepted
    have small : bytes.length < 2 ^ 16 := Nat.lt_succ_of_le (Nat.not_lt.mp accepted.1)
    rw [u16Bytes, UInt16.toNat_ofNat_of_lt' small]
    exact ⟨rfl, by simp⟩
  · constructor
    · intro accepted
      exact ⟨Nat.not_lt.mp accepted.1, Nat.not_lt.mp accepted.2.1⟩
    · intro fits
      exact ⟨Nat.not_lt.mpr fits.wire, Nat.not_lt.mpr fits.value, trivial, trivial,
        trivial⟩

theorem control_emits (tag : ValueTag) (bytes : Bytes) :
    Emits limits (control tag bytes) (entryBytes tag.toByte [] bytes)
      (entryCost [] bytes) (RawFits limits bytes) := by
  have written : Emits limits _ _ _ _ := (charge_emits .values 1).seq
    ((push_emits tag.toByte).seq ((wireBytes_emits []).seq (wireBytes_emits bytes)))
  refine written.congr ?_ ?_
  · intro _
    exact ⟨rfl, by simp [entryCost, add_comm]⟩
  · simp [rawFits_nil]

/-! ## Values and collections -/

theorem encodeScalar_eq_ok (tag : ValueTag) (data : ValueData) (raw : Bytes) :
    encodeScalar ⟨tag, data⟩ = .ok raw ↔
      (tag.fits data ∧ data.isCollection = false) ∧ data.raw = raw := by
  -- a kind of data with one syntax is encoded behind the tag of that syntax, and no other
  have syntaxed (kind : ValueTag) {fitting : Bytes}
      (encodes : encodeScalar ⟨kind, data⟩ = .ok fitting) (raws : data.raw = fitting)
      (scalar : data.isCollection = false) (fits : tag.fits data = decide (tag = kind))
      (mismatch : tag ≠ kind → encodeScalar ⟨tag, data⟩ = fail (.tagDataMismatch tag.toByte)) :
      encodeScalar ⟨tag, data⟩ = .ok raw ↔
        (tag.fits data ∧ data.isCollection = false) ∧ data.raw = raw := by
    by_cases same : tag = kind
    · rw [fits, same, encodes, raws, scalar]
      simp
    · rw [mismatch same, fits]
      simp [same, fail]
  cases data with
  | outOfBand =>
      change (if tag.isOutOfBand then _ else _) = _ ↔ (tag.isOutOfBand = true ∧ _) ∧ _
      cases tag.isOutOfBand <;> simp [ValueData.isCollection, ValueData.raw, fail]
  | bytes content =>
      change (if tag.isOpaque then _ else _) = _ ↔ (tag.isOpaque = true ∧ _) ∧ _
      cases tag.isOpaque <;> simp [ValueData.isCollection, ValueData.raw, fail]
  | collection members => simp [encodeScalar, ValueData.isCollection, fail]
  | integer value => exact syntaxed .integer rfl rfl rfl rfl fun other => by simp [encodeScalar, other]
  | boolean value => exact syntaxed .boolean rfl rfl rfl rfl fun other => by simp [encodeScalar, other]
  | enum value => exact syntaxed .enum rfl rfl rfl rfl fun other => by simp [encodeScalar, other]
  | dateTime value => exact syntaxed .dateTime rfl rfl rfl rfl fun other => by simp [encodeScalar, other]
  | resolution crossFeed feed units =>
      exact syntaxed .resolution rfl rfl rfl rfl fun other => by simp [encodeScalar, other]
  | rangeOfInteger lower upper =>
      exact syntaxed .rangeOfInteger rfl rfl rfl rfl fun other => by simp [encodeScalar, other]

theorem scalar_emits (tag : ValueTag) (data : ValueData) :
    Emits limits
      (do
        let encoded ← (encodeScalar ⟨tag, data⟩ : Outcome EncodeError Bytes)
        wireBytes encoded)
      (fieldBytes data.raw) (Pi.single .decodedBytes data.raw.length)
      ((tag.fits data ∧ data.isCollection = false) ∧ RawFits limits data.raw) := by
  intro encoder result fits
  have written := wireBytes_emits data.raw encoder result fits
  simp only [Method.bind_eq_ok, Method.lift_eq_ok, encodeScalar_eq_ok]
  constructor
  · rintro ⟨encoded, middle, ⟨⟨matched, rfl⟩, rfl⟩, returned⟩
    obtain ⟨rawFits, rest⟩ := written.mp returned
    exact ⟨⟨matched, rawFits⟩, rest⟩
  · rintro ⟨⟨matched, rawFits⟩, rest⟩
    exact ⟨data.raw, encoder, ⟨⟨matched, rfl⟩, rfl⟩, written.mpr ⟨rawFits, rest⟩⟩

theorem valueData_scalar {tag : ValueTag} {data : ValueData} {depth : Nat}
    (scalar : tag ≠ .begCollection ∨ data.isCollection = false) :
    valueData tag data depth =
      (do
        let encoded ← (encodeScalar ⟨tag, data⟩ : Outcome EncodeError Bytes)
        wireBytes encoded) := by
  cases data with
  | collection collected =>
      cases tag with
      | begCollection => simp [ValueData.isCollection] at scalar
      | _ => rfl
  | _ => cases tag <;> rfl

/-- What the encoder demands of values and members. -/
def rule (limits : Limits) : Rule := (boundedRule limits).both filledRule

mutual

theorem value_emits (name : Bytes) (encoded : Value) (depth : Nat) :
    Emits limits (value name encoded depth) (encoded.wire name) (encoded.cost name)
      (RawFits limits name ∧ encoded.All (rule limits) depth) := by
  cases encoded with
  | mk tag data =>
      have written : Emits limits _ _ _ _ := (charge_emits .values 1).seq
        ((push_emits tag.toByte).seq ((wireBytes_emits name).seq
          (valueData_emits tag data depth)))
      refine written.congr ?_ ?_
      · intro _
        constructor
        · simp [Value.wire, entryBytes]
        · simp only [Value.cost, entryCost, zero_add]
          abel
      · simp [Value.All]

theorem valueData_emits (tag : ValueTag) (data : ValueData) (depth : Nat) :
    Emits limits (valueData tag data depth) (fieldBytes data.raw ++ data.nested)
      (Pi.single .decodedBytes data.raw.length + data.nestedCost)
      ((rule limits).onValue depth tag data ∧ data.All (rule limits) depth) := by
  cases data with
  | collection collected =>
      by_cases opens : tag = .begCollection
      · subst opens
        have written : Emits limits _ _ _ _ := (wireBytes_emits []).seq
          ((members_emits collected (depth + 1)).seq (control_emits .endCollection []))
        have guarded := written.guard (limits.maxCollectionDepth.toNat < depth + 1)
          (.limit "collection depth" (depth + 1) limits.maxCollectionDepth.toNat)
        refine (guarded.reading ?_).congr ?_ ?_
        · intro encoder same
          rw [same]
        · intro _
          exact ⟨rfl, rfl⟩
        · simp [rule, Rule.both_onValue, boundedRule, filledRule, ValueTag.fits,
            ValueData.raw, ValueData.isCollection, ValueData.All, rawFits_nil]
      · rw [valueData_scalar (.inl opens)]
        refine (scalar_emits tag (.collection collected)).congr ?_ ?_
        · simp [ValueData.isCollection]
        · simp [ValueData.isCollection, rule, Rule.both_onValue, boundedRule,
            ValueTag.fits, opens]
  | _ =>
      rw [valueData_scalar (.inr rfl)]
      refine (scalar_emits tag _).congr ?_ ?_
      · simp [ValueData.nested, ValueData.nestedCost]
      · simp [ValueData.isCollection, ValueData.All, rule, Rule.both_onValue,
          boundedRule, filledRule]

theorem member_emits (encoded : CollectionMember) (depth : Nat) :
    Emits limits (member encoded depth) encoded.wire encoded.cost
      (encoded.All (rule limits) depth) := by
  cases encoded with
  | mk name collected =>
      have written : Emits limits _ _ _ _ := (charge_emits .collectionMembers 1).seq
        ((charge_emits .attributes 1).seq ((checkName_emits name).seq
          ((control_emits .memberAttrName name).seq (values_emits [] collected depth))))
      have guarded := written.guard (name.isEmpty || collected.isEmpty)
        (.invalidStructure "collection members require a name and at least one value")
      refine guarded.congr ?_ ?_
      · intro _
        rw [namedWire_nil, namedCost_nil]
        constructor
        · rfl
        · simp only [CollectionMember.cost, zero_add]
          abel
      · have nameFits : name.length ≤ limits.maxNameBytes.toNat ∧ RawFits limits name ↔
            NameFits limits name ∧ RawFits limits name := by
          constructor
          · rintro ⟨short, rawFits⟩
            exact ⟨⟨rawFits.wire, short⟩, rawFits⟩
          · rintro ⟨nameFits, rawFits⟩
            exact ⟨nameFits.name, rawFits⟩
        simp [CollectionMember.All, rule, Rule.both_onMember, boundedRule, filledRule,
          rawFits_nil]
        tauto

theorem values_emits (name : Bytes) (encoded : List Value) (depth : Nat) :
    Emits limits (values name encoded depth) (namedWire name encoded)
      (namedCost name encoded)
      ((encoded ≠ [] → RawFits limits name) ∧
        valuesAll (rule limits) depth encoded) := by
  cases encoded with
  | nil =>
      exact emits_nothing.congr (fun _ => ⟨rfl, rfl⟩) (by simp [valuesAll])
  | cons first rest =>
      have written : Emits limits _ _ _ _ := (value_emits name first depth).seq
        (values_emits [] rest depth)
      refine written.congr ?_ ?_
      · intro _
        rw [namedWire_nil, namedCost_nil]
        exact ⟨rfl, rfl⟩
      · simp [valuesAll, rawFits_nil, and_assoc]

theorem members_emits (encoded : List CollectionMember) (depth : Nat) :
    Emits limits (members encoded depth) (membersWire encoded) (membersCost encoded)
      (membersAll (rule limits) depth encoded) := by
  cases encoded with
  | nil => exact emits_nothing.congr (fun _ => ⟨rfl, rfl⟩) (by simp [membersAll])
  | cons first rest =>
      exact (member_emits first depth).seq (members_emits rest depth)

end

/-! ## Attributes, groups and messages -/

/-- What the encoder demands of an attribute: its name is also held to the limit on
raw values. -/
def AcceptsAttribute (limits : Limits) (attr : Attribute) : Prop :=
  attr.WellFormed limits (rule limits) ∧ RawFits limits attr.name

def AcceptsGroup (limits : Limits) (group : AttributeGroup) : Prop :=
  isDelimiterTag group.tag = true ∧
    ∀ attr ∈ group.attributes, AcceptsAttribute limits attr

theorem encodeAttribute_emits (attr : Attribute) :
    Emits limits (encodeAttribute attr 0) attr.wire attr.cost
      (AcceptsAttribute limits attr) := by
  have written : Emits limits _ _ _ _ := (charge_emits .attributes 1).seq
    ((checkName_emits attr.name).seq (values_emits attr.name attr.values 0))
  have guarded := written.guard (attr.name.isEmpty || attr.values.isEmpty)
    (.invalidStructure "attributes require a non-empty name and at least one value")
  refine guarded.congr ?_ ?_
  · intro _
    constructor
    · rfl
    · rw [Attribute.cost, zero_add, add_comm]
  · simp only [Bool.or_eq_true, List.isEmpty_iff, not_or, true_and]
    constructor
    · rintro ⟨⟨named, filled⟩, short, rawFits, accepted⟩
      have nameFits := rawFits filled
      exact ⟨⟨named, filled, ⟨nameFits.wire, short⟩, accepted⟩, nameFits⟩
    · rintro ⟨wellFormed, nameFits⟩
      exact ⟨⟨wellFormed.named, wellFormed.filled⟩, wellFormed.nameFits.name,
        fun _ => nameFits, wellFormed.values⟩

theorem attributes_emits (encoded : List Attribute) :
    Emits limits (attributes encoded) (attributesWire encoded) (attributesCost encoded)
      (∀ attr ∈ encoded, AcceptsAttribute limits attr) := by
  induction encoded with
  | nil => exact emits_nothing.congr (fun _ => ⟨rfl, rfl⟩) (by simp)
  | cons first rest ih =>
      refine ((encodeAttribute_emits first).seq ih).congr ?_ (by simp)
      intro _
      exact ⟨by simp [attributesWire], by simp [attributesCost]⟩

theorem groups_emits (encoded : List AttributeGroup) :
    Emits limits (groups encoded) (groupsWire encoded) (groupsCost encoded)
      (∀ group ∈ encoded, AcceptsGroup limits group) := by
  induction encoded with
  | nil => exact emits_nothing.congr (fun _ => ⟨rfl, rfl⟩) (by simp)
  | cons group rest ih =>
      have written : Emits limits _ _ _ _ := (charge_emits .groups 1).seq
        ((push_emits group.tag).seq ((attributes_emits group.attributes).seq ih))
      refine (written.guard (!isDelimiterTag group.tag)
        (.invalidStructure "attribute group has an invalid delimiter tag")).congr ?_ ?_
      · intro _
        exact ⟨by simp [groupsWire, AttributeGroup.wire],
          by simp [groupsCost, AttributeGroup.cost, add_assoc]⟩
      · simp [AcceptsGroup, and_assoc]

theorem message_emits (encoded : Message) :
    Emits limits (message encoded) encoded.wire (groupsCost encoded.groups)
      (∀ group ∈ encoded.groups, AcceptsGroup limits group) := by
  have written : Emits limits _ _ _ _ := (push_emits encoded.version.major).seq
    ((push_emits encoded.version.minor).seq ((extend_emits (u16Bytes encoded.code)).seq
      ((extend_emits (u32Bytes encoded.requestId)).seq
        ((groups_emits encoded.groups).seq (push_emits endOfAttributesTag)))))
  refine written.congr ?_ (by simp)
  intro _
  exact ⟨by simp [Message.wire, Message.header], by simp⟩

end Encoder

/-- Every attribute name is within the limit on raw values. -/
def Message.NamesFit (limits : Limits) (message : Message) : Prop :=
  ∀ group ∈ message.groups, ∀ attr ∈ group.attributes, RawFits limits attr.name

/-- The encoder succeeds exactly on the affordable messages that obey its rule, and
it then returns the wire form. -/
theorem encode_eq_ok (message : Message) (limits : Limits) (output : Bytes) :
    encode message limits = .ok output ↔
      message.WellFormed limits (Encoder.rule limits) ∧ message.NamesFit limits ∧
        message.Affordable limits ∧ message.wire = output := by
  have accepts : (∀ group ∈ message.groups, Encoder.AcceptsGroup limits group) ↔
      message.WellFormed limits (Encoder.rule limits) ∧ message.NamesFit limits := by
    constructor
    · intro accepted
      refine ⟨?_, ?_⟩
      · intro group member
        exact ⟨(accepted group member).1,
          fun attr inside => ((accepted group member).2 attr inside).1⟩
      · intro group member attr inside
        exact ((accepted group member).2 attr inside).2
    · rintro ⟨wellFormed, namesFit⟩ group member
      exact ⟨(wellFormed group member).delimiter, fun attr inside =>
        ⟨(wellFormed group member).attributes attr inside,
          namesFit group member attr inside⟩⟩
  unfold encode
  by_cases valid : limits.valid
  · have fresh : (Encoder.mk [] limits 0).Fits limits :=
      ⟨rfl, Nat.zero_le _, fun _ => Nat.zero_le _⟩
    have emitted := fun result => Encoder.message_emits message _ result fresh
    simp only [valid, Bool.not_true, Bool.false_eq_true, if_false]
    rw [← and_assoc, ← accepts]
    constructor
    · intro returned
      cases ran : Encoder.message message ⟨[], limits, 0⟩ with
      | error fault => rw [ran] at returned; cases returned
      | ok step =>
          obtain ⟨accepted, fits, same⟩ := (emitted step.2).mp ran
          rw [ran] at returned
          cases returned
          refine ⟨accepted, ⟨valid, ?_, ?_⟩, congrArg Encoder.output same⟩
          · simpa [Encoder.after] using fits.output
          · simpa [Encoder.after] using fits.counters
    · rintro ⟨accepted, affordable, rfl⟩
      have ran := (emitted _).mpr ⟨accepted, ⟨rfl, ?_, ?_⟩, rfl⟩
      · rw [ran]
        rfl
      · simpa [Encoder.after] using affordable.length
      · simpa [Encoder.after] using affordable.cost
  · simp only [valid, Bool.not_false, if_true, fail]
    constructor
    · intro returned
      cases returned
    · rintro ⟨_, _, affordable, _⟩
      exact absurd affordable.valid valid

end PrinterSdk.Ipp
