import PrinterSdk.Administration.Revalidation
import PrinterSdk.Data.SelfDelimiting
import PrinterSdk.Ipp.Wire

/-!
# Stale values

A plan carries a hash of the attribute it was made on.  The hashed string determines the
attribute: its name, and the tags and data of its values in order.  A plan is therefore
confirmed only while the printer still shows the attribute the plan was made on.
-/

namespace PrinterSdk.Administration

open PrinterSdk.Data PrinterSdk.Ipp

/-- The byte string `attribute_hash` hashes. -/
def hashedAttribute (hashing : Hashing) (attr : Attribute) : Bytes :=
  lengthPrefixed attr.name ++ attr.values.flatMap (hashedValue hashing)

theorem attributeHash_eq (hashing : Hashing) (attr : Attribute) :
    attributeHash hashing attr = hashing.sha256 (hashedAttribute hashing attr) := rfl

/-- Values whose tags are those their bytes stand for, and whose JSON has a length. -/
def Hashable (hashing : Hashing) (datas : Set ValueData) : Set Value :=
  {value | value.tag.Canonical ∧ value.data ∈ datas ∧ hashing.valueJson value.data ∈ measurable}

theorem selfDelimiting_hashedValue {hashing : Hashing} {datas : Set ValueData}
    (json : Set.InjOn hashing.valueJson datas) :
    SelfDelimiting (Hashable hashing datas) (hashedValue hashing) := by
  have parts := @SelfDelimiting.cons UInt8 Bytes _ _ selfDelimiting_lengthPrefixed
  have determines : Set.InjOn (fun value : Value => (value.tag.toByte, hashing.valueJson value.data))
      (Hashable hashing datas) := by
    rintro ⟨tag, data⟩ ⟨canonical, inside, -⟩ ⟨otherTag, otherData⟩
      ⟨otherCanonical, otherInside, -⟩ same
    obtain ⟨tags, encoded⟩ := Prod.mk.inj same
    have sameTag : tag = otherTag := by
      have read := congrArg ValueTag.fromByte tags
      rwa [canonical, otherCanonical] at read
    have sameData : data = otherData := json inside otherInside encoded
    rw [sameTag, sameData]
  exact parts.comp determines fun value hashable => hashable.2.2

/-- The hashed string determines the name and the values of the attribute. -/
theorem hashedAttribute_inj {hashing : Hashing} {datas : Set ValueData}
    (json : Set.InjOn hashing.valueJson datas) {first second : Attribute}
    (named : first.name ∈ measurable) (alsoNamed : second.name ∈ measurable)
    (values : ∀ value ∈ first.values, value ∈ Hashable hashing datas)
    (alsoValues : ∀ value ∈ second.values, value ∈ Hashable hashing datas)
    (same : hashedAttribute hashing first = hashedAttribute hashing second) :
    first = second := by
  obtain ⟨names, rest⟩ := selfDelimiting_lengthPrefixed _ named _ alsoNamed _ _ same
  have lists := (selfDelimiting_hashedValue json).flatMap_inj (fun value _ => List.cons_ne_nil _ _)
    values alsoValues rest
  obtain ⟨name, list⟩ := first
  obtain ⟨otherName, otherList⟩ := second
  rw [Attribute.mk.injEq]
  exact ⟨names, lists⟩

/-- What is assumed of SHA-256 and of the JSON encoding on the two attributes that are
compared: the two hashed strings do not collide, the data of their values is encoded
injectively, and their names and encodings have lengths a machine can hold. -/
structure Collisionless (hashing : Hashing) (first second : Attribute) : Prop where
  sha256 : Set.InjOn hashing.sha256 {hashedAttribute hashing first, hashedAttribute hashing second}
  json : Set.InjOn hashing.valueJson {data | ∃ value ∈ first.values ++ second.values,
    value.data = data}
  names : first.name ∈ measurable ∧ second.name ∈ measurable
  encodings : ∀ value ∈ first.values ++ second.values,
    hashing.valueJson value.data ∈ measurable

/-- The value tags of an attribute are those that reading their own bytes gives back. -/
def CanonicalTags (attr : Attribute) : Prop := ∀ value ∈ attr.values, value.tag.Canonical

instance (attr : Attribute) : Decidable (CanonicalTags attr) :=
  inferInstanceAs (Decidable (∀ value ∈ attr.values, value.tag.Canonical))

/-- Equal hashes are hashes of the same attribute. -/
theorem eq_of_attributeHash_eq {hashing : Hashing} {first second : Attribute}
    (trusted : Collisionless hashing first second) (canonical : CanonicalTags first)
    (alsoCanonical : CanonicalTags second)
    (same : attributeHash hashing first = attributeHash hashing second) : first = second := by
  rw [attributeHash_eq, attributeHash_eq] at same
  have strings : hashedAttribute hashing first = hashedAttribute hashing second :=
    trusted.sha256 (Set.mem_insert _ _) (Set.mem_insert_of_mem _ rfl) same
  apply hashedAttribute_inj trusted.json trusted.names.1 trusted.names.2 _ _ strings
  · intro value member
    have inside := List.mem_append_left second.values member
    exact ⟨canonical value member, ⟨value, inside, rfl⟩, trusted.encodings value inside⟩
  · intro value member
    have inside := List.mem_append_right first.values member
    exact ⟨alsoCanonical value member, ⟨value, inside, rfl⟩, trusted.encodings value inside⟩

/-- A plan that was made on one observation is confirmed on a later one only when the
attribute it changes is still the same there, in its name and in the tags and data of all
its values. -/
theorem confirmed_only_unchanged (hashing : Hashing) (observed later : Message)
    (supportedValues laterValues : Option SupportedPrinterValues) (request : PlanChangeRequest)
    (plan : ConfirmedChangePlan) (binding : ChangeBinding)
    (canonical : ∀ message ∈ [observed, later], ∀ group ∈ message.groups,
      ∀ attr ∈ group.attributes, CanonicalTags attr)
    (trusted : ∀ first second, findAttribute observed (asBytes plan.setting) = some first →
      findAttribute later (asBytes plan.setting) = some second →
      Collisionless hashing first second)
    (planned : planIppChangeWithSupportedValues hashing observed supportedValues request =
      .ok plan)
    (confirmed : validateConfirmedIppChangeWithSupportedValues hashing plan later laterValues
      binding = .ok ()) :
    ∃ attr, findAttribute observed (asBytes plan.setting) = some attr ∧
      findAttribute later (asBytes plan.setting) = some attr := by
  obtain ⟨first, requestedValue, -, permits, -, -, made⟩ :=
    (planIppChange_eq_ok request plan).mp planned
  obtain ⟨-, -, second, laterPermits, hashed⟩ := (validateConfirmed_eq_ok plan binding).mp confirmed
  have setting : request.setting = plan.setting := congrArg ConfirmedChangePlan.setting made
  have expected : attributeHash hashing first = plan.expectedOldValueHash :=
    congrArg ConfirmedChangePlan.expectedOldValueHash made
  have found := permits.present
  rw [setting] at found
  have tags : ∀ message ∈ [observed, later], ∀ attr,
      findAttribute message (asBytes plan.setting) = some attr → CanonicalTags attr := by
    intro message member attr present
    obtain ⟨group, inside, holds⟩ := List.mem_flatMap.mp (List.mem_of_find?_eq_some present)
    exact canonical message member group inside attr holds
  have same : first = second := by
    apply eq_of_attributeHash_eq (trusted first second found laterPermits.present)
    · exact tags observed List.mem_cons_self first found
    · exact tags later (List.mem_cons_of_mem _ List.mem_cons_self) second laterPermits.present
    · exact expected.trans hashed.symm
  exact ⟨first, found, same ▸ laterPermits.present⟩

/-- The current name in the observation of the printer. -/
def nameAttribute : Attribute := ⟨asBytes "printer-name", [.raw .nameWithoutLanguage (asBytes "a")]⟩

theorem confirmed_only_unchanged_rename :
    ∃ plan attr, planIppChangeWithSupportedValues nameHashing nameObservation none
        (nameRequest (.raw .nameWithoutLanguage (asBytes "b"))) = .ok plan ∧
      validateConfirmedIppChangeWithSupportedValues nameHashing plan
        { nameObservation with requestId := 2 } none nameBinding = .ok () ∧
      findAttribute nameObservation (asBytes plan.setting) = some attr ∧
      findAttribute { nameObservation with requestId := 2 } (asBytes plan.setting) = some attr := by
  have found : findAttribute nameObservation (asBytes "printer-name") = some nameAttribute := by
    decide +kernel
  have planned : planIppChangeWithSupportedValues nameHashing nameObservation none
      (nameRequest (.raw .nameWithoutLanguage (asBytes "b"))) =
        .ok (namePlan (.text "b") (.raw .nameWithoutLanguage (asBytes "b"))) := by
    decide +kernel
  have confirmed : validateConfirmedIppChangeWithSupportedValues nameHashing
      (namePlan (.text "b") (.raw .nameWithoutLanguage (asBytes "b")))
      { nameObservation with requestId := 2 } none nameBinding = .ok () := by
    decide +kernel
  have trusted : Collisionless nameHashing nameAttribute nameAttribute := by
    refine ⟨?_, ?_, ⟨by decide +kernel, by decide +kernel⟩, ?_⟩
    · rw [Set.pair_eq_singleton]
      exact Set.injOn_singleton _ _
    · rintro _ ⟨value, member, rfl⟩ _ ⟨other, also, rfl⟩ -
      have single : nameAttribute.values ++ nameAttribute.values =
        List.replicate 2 (.raw .nameWithoutLanguage (asBytes "a")) := rfl
      rw [single] at member also
      rw [List.eq_of_mem_replicate member, List.eq_of_mem_replicate also]
    · intro value _
      have short : nameHashing.valueJson .outOfBand ∈ measurable := by decide +kernel
      exact short
  obtain ⟨attr, before, after⟩ := confirmed_only_unchanged nameHashing nameObservation
    { nameObservation with requestId := 2 } none none _ _ nameBinding (by decide +kernel)
    (by
      intro first second present alsoPresent
      cases found.symm.trans present
      cases found.symm.trans alsoPresent
      exact trusted) planned confirmed
  exact ⟨_, attr, planned, confirmed, before, after⟩

end PrinterSdk.Administration
