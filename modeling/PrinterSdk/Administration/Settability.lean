import PrinterSdk.Administration.Revalidation
import PrinterSdk.Discovery.Normalize

/-!
# Settability in discovery and in administration

Discovery marks a setting as writable and the planner admits a change of it, each
from its own reading of `operations-supported` and
`printer-settable-attributes-supported`.  The readings of the second attribute
coincide; those of the first differ in the values and in the occurrences they
count.
-/

namespace PrinterSdk.Administration

open PrinterSdk.Data PrinterSdk.Ipp PrinterSdk.Discovery

/-! ## What each side says -/

/-- Normalization marks a setting as writable by a confirmed change. -/
def MarksConfirmedWrite (message : Message) (origin : ObservationOrigin)
    (format : Option String) (setting : String) : Prop :=
  ∃ support ∈ (normalizeIpp message origin format).mutationSupport,
    support.setting = setting ∧ support.access = .confirmedWrite

/-- The planner refuses a request neither for a missing operation nor for a setting
that is not settable. -/
structure PassesSettability (hashing : Hashing) (observation : Message)
    (supportedValues : Option SupportedPrinterValues) (request : PlanChangeRequest) :
    Prop where
  advertised :
    planIppChangeWithSupportedValues hashing observation supportedValues request ≠
      .error .operationNotAdvertised
  wellFormed :
    planIppChangeWithSupportedValues hashing observation supportedValues request ≠
      .error .missingOrMalformedSettableMetadata
  settable :
    planIppChangeWithSupportedValues hashing observation supportedValues request ≠
      .error (.attributeNotSettable request.setting)

/-- The message names a setting as settable. -/
def NamesSettable (message : Message) (setting : String) : Prop :=
  ∃ names, settableAttributes message = some names ∧ setting ∈ names

/-- Some `operations-supported` attribute lists Set-Printer-Attributes, as an integer
or as an enum. -/
def ListsSetOperation (message : Message) : Prop :=
  ∃ attr ∈ messageAttributes message, attr.name = asBytes "operations-supported" ∧
    ∃ value ∈ attr.values, value.data = .integer 0x0013 ∨ value.data = .enum 0x0013

/-- The first `operations-supported` attribute lists Set-Printer-Attributes as an
enum. -/
def AdvertisesSetOperation (message : Message) : Prop :=
  ∃ attr, findAttribute message (asBytes "operations-supported") = some attr ∧
    ∃ value ∈ attr.values, value.data = .enum 0x0013

variable {message : Message} {setting : String}

/-! ## The settable attributes -/

/-- The two modules read one value alike. -/
theorem settableKeyword_eq_settableName : settableKeyword = settableName := by
  funext value
  unfold settableKeyword settableName valueText
  split
  · rfl
  · cases value.data with
    | bytes bytes =>
        simp only [Option.bind]
        cases decoded : fromUtf8 bytes with
        | none => rfl
        | some name =>
            have same : name.isEmpty = (asBytes name).isEmpty := by
              rw [Bool.eq_iff_iff, String.isEmpty_iff_utf8ByteSize_eq_zero, List.isEmpty_iff,
                ← List.length_eq_zero_iff]
              rfl
            simp only [same]
    | _ => rfl

theorem validSettableAttributes_eq :
    validSettableAttributes (messageAttributes message) = settableAttributes message := by
  unfold validSettableAttributes settableAttributes findAttribute messageAttributes
  rw [settableKeyword_eq_settableName]
  cases List.find? _ _ with
  | none => rfl
  | some attr =>
      simp only [Option.bind_eq_bind, Option.bind_some]
      cases attr.values.mapM settableName with
      | none => rfl
      | some names => rfl

/-! ## The advertised operations -/

theorem mem_insertOrdered {value other : Int64} {set : List Int64} :
    other ∈ insertOrdered value set ↔ other = value ∨ other ∈ set := by
  induction set with
  | nil => simp [insertOrdered]
  | cons first rest ih =>
      unfold insertOrdered
      split
      · simp
      · split
        · rename_i same
          simp [same]
        · simp only [List.mem_cons, ih]
          constructor
          · rintro (here | here | there)
            · exact Or.inr (Or.inl here)
            · exact Or.inl here
            · exact Or.inr (Or.inr there)
          · rintro (here | here | there)
            · exact Or.inr (Or.inl here)
            · exact Or.inl here
            · exact Or.inr (Or.inr there)

theorem mem_foldl_insertOrdered {other : Int64} {values set : List Int64} :
    other ∈ values.foldl (fun set value => insertOrdered value set) set ↔
      other ∈ values ∨ other ∈ set := by
  induction values generalizing set with
  | nil => simp
  | cons value rest ih =>
      rw [List.foldl_cons, ih, mem_insertOrdered, List.mem_cons]
      constructor
      · rintro (there | here | already)
        · exact Or.inl (Or.inr there)
        · exact Or.inl (Or.inl here)
        · exact Or.inr already
      · rintro ((here | there) | already)
        · exact Or.inr (Or.inl here)
        · exact Or.inl there
        · exact Or.inr (Or.inr already)

theorem valueI64_eq_set {value : Value} :
    valueI64 value = some 0x0013 ↔
      value.data = .integer 0x0013 ∨ value.data = .enum 0x0013 := by
  have widened : ∀ number : Int32, number.toInt64 = 0x0013 ↔ number = 0x0013 := by
    intro number
    rw [← Int64.toInt_inj, ← Int32.toInt_inj, Int32.toInt_toInt64]
    rfl
  unfold valueI64
  cases value.data with
  | integer number => simp [widened]
  | enum number => simp [widened]
  | _ => simp

theorem operationValues_contains_iff :
    (operationValues (messageAttributes message)).contains 0x0013 = true ↔
      ListsSetOperation message := by
  unfold operationValues orderedSet ListsSetOperation
  rw [List.contains_iff_mem, mem_foldl_insertOrdered]
  simp only [values, List.mem_filterMap, List.mem_flatMap, List.mem_filter, beq_iff_eq,
    valueI64_eq_set, List.not_mem_nil, or_false]
  constructor
  · rintro ⟨value, ⟨attr, ⟨member, named⟩, inside⟩, listed⟩
    exact ⟨attr, member, named, value, inside, listed⟩
  · rintro ⟨attr, member, named, value, inside, listed⟩
    exact ⟨value, ⟨attr, ⟨member, named⟩, inside⟩, listed⟩

/-- A value that is read as the operation is that enumeration value. -/
theorem listsSetOperation_iff (value : Value) :
    (match value.data with
      | .enum value => value.toInt == setPrinterAttributes.toNat
      | _ => false) = true ↔ value.data = .enum 0x0013 := by
  cases value.data with
  | enum number =>
      have exact : number.toInt = 19 ↔ number = 0x0013 := by
        rw [← Int32.toInt_inj]
        rfl
      simpa [setPrinterAttributes] using exact
  | _ => simp

theorem operationIsAdvertised_iff :
    operationIsAdvertised message setPrinterAttributes = true ↔
      AdvertisesSetOperation message := by
  unfold operationIsAdvertised AdvertisesSetOperation
  simp only [Option.any_eq_true, List.any_eq_true]
  constructor
  · rintro ⟨attr, found, value, member, listed⟩
    exact ⟨attr, found, value, member, (listsSetOperation_iff value).mp listed⟩
  · rintro ⟨attr, found, value, member, listed⟩
    exact ⟨attr, found, value, member, (listsSetOperation_iff value).mpr listed⟩

/-! ## The two verdicts -/

/-- Refusals that say that a setting cannot be written at all. -/
def refusesSettability (setting : String) (error : ChangePlanError) : Prop :=
  error = .operationNotAdvertised ∨ error = .missingOrMalformedSettableMetadata ∨
    error = .attributeNotSettable setting

theorem validateRequestedValue_settable {supportedValues : Option SupportedPrinterValues}
    {requested : Value} {error : ChangePlanError}
    (fails : validateRequestedValue message supportedValues setting requested = .error error) :
    ¬refusesSettability setting error := by
  unfold validateRequestedValue at fails
  repeat' split at fails
  all_goals cases fails
  all_goals simp [refusesSettability]

/-- The planner's refusals, up to those that come after the settability checks. -/
theorem planIppChange_eq_error {hashing : Hashing}
    {supportedValues : Option SupportedPrinterValues} {request : PlanChangeRequest}
    {error : ChangePlanError} (succeeded : message.code < 0x0100)
    (refuses : refusesSettability request.setting error) :
    planIppChangeWithSupportedValues hashing message supportedValues request = .error error ↔
      (operationIsAdvertised message setPrinterAttributes = false ∧
          .operationNotAdvertised = error) ∨
        operationIsAdvertised message setPrinterAttributes = true ∧
          ((settableAttributes message = none ∧
              .missingOrMalformedSettableMetadata = error) ∨
            ∃ names, settableAttributes message = some names ∧ request.setting ∉ names ∧
              .attributeNotSettable request.setting = error) := by
  have answered : ¬0x0100 ≤ message.code := UInt16.not_le.mpr succeeded
  have later : ∀ found, ¬refusesSettability request.setting found → found ≠ error := by
    rintro found passes rfl
    exact passes refuses
  have missing : ChangePlanError.currentValueMissing request.setting ≠ error :=
    later _ (by simp [refusesSettability])
  have incompatible : ChangePlanError.incompatibleValue ≠ error :=
    later _ (by simp [refusesSettability])
  have validated : validateRequestedValue message supportedValues request.setting
      request.requestedValue ≠ .error error :=
    fun fails => validateRequestedValue_settable fails refuses
  have returned : ∀ plan : ConfirmedChangePlan,
      (pure plan : Except ChangePlanError ConfirmedChangePlan) ≠ .error error := by
    intro plan same
    cases same
  simp only [planIppChangeWithSupportedValues, except_bind_eq_error, refuseIf_eq_error,
    okOr_eq_error, refuseIf_eq_ok, okOr_eq_ok, answered, missing, incompatible, validated,
    returned, and_false, false_and, false_or, or_false, exists_false, not_false_eq_true,
    true_and, exists_const]
  cases operationIsAdvertised message setPrinterAttributes <;> simp

/-- The planner's two checks, read off the message. -/
theorem passesSettability_iff {hashing : Hashing}
    {supportedValues : Option SupportedPrinterValues} {request : PlanChangeRequest}
    (succeeded : message.code < 0x0100) :
    PassesSettability hashing message supportedValues request ↔
      AdvertisesSetOperation message ∧ NamesSettable message request.setting := by
  rw [← operationIsAdvertised_iff]
  constructor
  · rintro ⟨advertised, wellFormed, settable⟩
    rw [ne_eq, planIppChange_eq_error succeeded (by simp [refusesSettability])]
      at advertised wellFormed settable
    cases operation : operationIsAdvertised message setPrinterAttributes with
    | false => simp [operation] at advertised
    | true =>
        refine ⟨rfl, ?_⟩
        cases metadata : settableAttributes message with
        | none => simp [operation, metadata] at wellFormed
        | some names =>
            refine ⟨names, metadata, ?_⟩
            by_contra absent
            simp [operation, metadata, absent] at settable
  · rintro ⟨operation, names, settable, member⟩
    constructor
    case advertised =>
      rw [ne_eq, planIppChange_eq_error succeeded (by simp [refusesSettability])]
      simp [operation]
    case wellFormed =>
      rw [ne_eq, planIppChange_eq_error succeeded (by simp [refusesSettability])]
      simp [operation, settable]
    case settable =>
      rw [ne_eq, planIppChange_eq_error succeeded (by simp [refusesSettability])]
      simp [operation, settable, member]

/-- The mark of normalization, read off the message. -/
theorem marksConfirmedWrite_iff {origin : ObservationOrigin} {format : Option String}
    (named : setting ∈ namedSettings)
    (present : (namedValue (messageAttributes message) setting).isSome = true) :
    MarksConfirmedWrite message origin format setting ↔
      ListsSetOperation message ∧ NamesSettable message setting := by
  have settable : attributeIsSettable (messageAttributes message) setting = true ↔
      ListsSetOperation message ∧ NamesSettable message setting := by
    unfold attributeIsSettable NamesSettable
    rw [Bool.and_eq_true, operationValues_contains_iff, validSettableAttributes_eq,
      Option.any_eq_true]
    simp only [List.contains_iff_mem]
  rw [← settable]
  unfold MarksConfirmedWrite
  constructor
  · rintro ⟨support, member, rfl, confirmed⟩
    rcases List.mem_append.mp member with here | reported
    · obtain ⟨name, _, found⟩ := List.mem_filterMap.mp here
      obtain ⟨value, _, rfl⟩ := Option.map_eq_some_iff.mp found
      by_contra refused
      simp only [mutationSupport] at confirmed refused
      rw [if_neg refused] at confirmed
      cases confirmed
    · obtain ⟨name, _, found⟩ := List.mem_filterMap.mp reported
      obtain ⟨value, _, rfl⟩ := Option.map_eq_some_iff.mp found
      cases confirmed
  · intro settable
    obtain ⟨value, found⟩ := Option.isSome_iff_exists.mp present
    refine ⟨mutationSupport origin setting .confirmedWrite, ?_, rfl, rfl⟩
    refine List.mem_append_left _ (List.mem_filterMap.mpr ⟨setting, named, ?_⟩)
    rw [found, Option.map_some, if_pos settable]

/-- Discovery and administration agree on a setting that is present, unless the
message names it as settable and lists Set-Printer-Attributes only as a plain integer
or only in a later occurrence of `operations-supported`. -/
theorem settability_agrees_iff (hashing : Hashing) (message : Message)
    (origin : ObservationOrigin) (format : Option String)
    (supportedValues : Option SupportedPrinterValues) (request : PlanChangeRequest)
    (succeeded : message.code < 0x0100) (named : request.setting ∈ namedSettings)
    (present : (namedValue (messageAttributes message) request.setting).isSome = true) :
    (MarksConfirmedWrite message origin format request.setting ↔
        PassesSettability hashing message supportedValues request) ↔
      ¬(NamesSettable message request.setting ∧ ListsSetOperation message ∧
        ¬AdvertisesSetOperation message) := by
  have listed : AdvertisesSetOperation message → ListsSetOperation message := by
    rintro ⟨attr, found, value, member, enumerated⟩
    refine ⟨attr, List.mem_of_find?_eq_some found, ?_, value, member, Or.inr enumerated⟩
    simpa using List.find?_some found
  rw [marksConfirmedWrite_iff named present, passesSettability_iff succeeded]
  constructor
  · rintro agree ⟨settable, lists, silent⟩
    exact silent (agree.mp ⟨lists, settable⟩).1
  · intro apart
    constructor
    · rintro ⟨lists, settable⟩
      refine ⟨?_, settable⟩
      by_contra silent
      exact apart ⟨settable, lists, silent⟩
    · rintro ⟨advertises, settable⟩
      exact ⟨listed advertises, settable⟩

/-- Where the observation of a printer comes from. -/
def nameOrigin : ObservationOrigin where
  agentId := none
  printerId := "printer"
  endpoint := "ipp://printer/ipp/print"
  endpointGeneration := 1
  transport := .ipp
  protocol := .ipp
  requestId := "request"
  probeId := none
  observedAt := "2026-01-01T00:00:00Z"
  qualification := none

theorem settability_agrees_name :
    (namedValue (messageAttributes nameObservation) "printer-name").isSome = true ∧
    ((MarksConfirmedWrite nameObservation nameOrigin none "printer-name" ↔
        PassesSettability nameHashing nameObservation none
          (nameRequest (.raw .nameWithoutLanguage (asBytes "b")))) ↔
      ¬(NamesSettable nameObservation "printer-name" ∧ ListsSetOperation nameObservation ∧
        ¬AdvertisesSetOperation nameObservation)) :=
  ⟨by decide +kernel, settability_agrees_iff nameHashing nameObservation nameOrigin none none
    (nameRequest (.raw .nameWithoutLanguage (asBytes "b"))) (by decide) (by decide)
    (by decide +kernel)⟩

/-- A printer that lists its operations with the syntax of an integer. -/
def integerOperations : Message :=
  { nameObservation with
    groups := [⟨printerAttributesTag,
      [⟨asBytes "operations-supported", [⟨.integer, .integer 0x13⟩]⟩,
        ⟨asBytes "printer-settable-attributes-supported",
          [.raw .keyword (asBytes "printer-name")]⟩,
        ⟨asBytes "printer-name", [.raw .nameWithoutLanguage (asBytes "a")]⟩]⟩] }

/-- Discovery reports a writable name whose change the planner refuses. -/
theorem integer_operations_disagree :
    MarksConfirmedWrite integerOperations nameOrigin none "printer-name" ∧
      ¬PassesSettability nameHashing integerOperations none
        (nameRequest (.raw .nameWithoutLanguage (asBytes "b"))) := by
  constructor
  · refine (marksConfirmedWrite_iff (by decide) (by decide +kernel)).mpr ⟨?_, ?_⟩
    · exact ⟨⟨asBytes "operations-supported", [⟨.integer, .integer 0x13⟩]⟩,
        List.mem_cons_self .., rfl, _, List.mem_singleton_self _, Or.inl rfl⟩
    · exact ⟨["printer-name"], by decide +kernel, List.mem_singleton_self _⟩
  · intro passes
    exact passes.advertised (by decide +kernel)

end PrinterSdk.Administration
