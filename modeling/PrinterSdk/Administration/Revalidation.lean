import PrinterSdk.Administration.Change

/-!
# Revalidation against planning

The gate before the write re-checks most of what the planner checked.  It leaves
out the status of the observation and the syntax of the requested value, so it is
as strict as planning exactly when these two checks would have passed.
-/

namespace PrinterSdk.Administration

open PrinterSdk.Data PrinterSdk.Ipp PrinterSdk.Discovery

/-! ## What each gate accepts -/

/-- The checks that both gates make on an observation, with the attribute they
find. -/
structure Permits (observation : Message)
    (supportedValues : Option SupportedPrinterValues) (setting : String)
    (requested : Value) (current : Attribute) : Prop where
  advertised : operationIsAdvertised observation setPrinterAttributes = true
  settable : ∃ names, settableAttributes observation = some names ∧ setting ∈ names
  present : findAttribute observation (asBytes setting) = some current
  allowed : validateRequestedValue observation supportedValues setting requested = .ok ()

variable {hashing : Hashing} {observation : Message}
variable {supportedValues : Option SupportedPrinterValues}

/-- The binding names the plan's printer, endpoint, principal and protocol. -/
structure Binds (binding : ChangeBinding) (plan : ConfirmedChangePlan) : Prop where
  printer : binding.printerId = plan.printerId
  generation : binding.endpointGeneration = plan.endpointGeneration
  principal : binding.principal = plan.principal
  protocol : binding.protocol = plan.protocol

/-- The plan that the planner makes of a request. -/
def plannedChange (hashing : Hashing) (request : PlanChangeRequest) (current : Attribute)
    (requestedValue : SettingValue) : ConfirmedChangePlan where
  printerId := request.printerId
  endpointGeneration := request.endpointGeneration
  setting := request.setting
  expectedOldValueHash := attributeHash hashing current
  requestedValue := requestedValue
  requestedProtocolValue := request.requestedValue
  principal := request.principal
  protocol := request.protocol
  expiresAtUnixMs := request.expiresAtUnixMs

theorem planIppChange_eq_ok (request : PlanChangeRequest) (plan : ConfirmedChangePlan) :
    planIppChangeWithSupportedValues hashing observation supportedValues request = .ok plan ↔
      ∃ current requestedValue,
        observation.code < 0x0100 ∧
        Permits observation supportedValues request.setting request.requestedValue current ∧
        syntaxAdmits request.setting current request.requestedValue = true ∧
        normalizedSettingValue request.requestedValue = some requestedValue ∧
        plannedChange hashing request current requestedValue = plan := by
  simp only [planIppChangeWithSupportedValues, except_bind_eq_ok, refuseIf_eq_ok, okOr_eq_ok,
    except_pure_eq_ok, Bool.not_eq_true, Bool.not_eq_false', not_not, UInt16.not_le]
  constructor
  · rintro ⟨_, succeeded, _, advertised, names, settable, _, member, current, present, _,
      matched, _, allowed, requestedValue, normalized, same⟩
    exact ⟨current, requestedValue, succeeded,
      ⟨advertised, ⟨names, settable, member⟩, present, allowed⟩, matched, normalized, same⟩
  · rintro ⟨current, requestedValue, succeeded, permits, matched, normalized, same⟩
    obtain ⟨names, settable, member⟩ := permits.settable
    exact ⟨(), succeeded, (), permits.advertised, names, settable, (), member, current,
      permits.present, (), matched, (), permits.allowed, requestedValue, normalized, same⟩

theorem validateConfirmed_eq_ok (plan : ConfirmedChangePlan) (binding : ChangeBinding) :
    validateConfirmedIppChangeWithSupportedValues hashing plan observation supportedValues
        binding = .ok () ↔
      binding.nowUnixMs < plan.expiresAtUnixMs ∧ Binds binding plan ∧
        ∃ current,
          Permits observation supportedValues plan.setting plan.requestedProtocolValue
            current ∧
          attributeHash hashing current = plan.expectedOldValueHash := by
  simp only [validateConfirmedIppChangeWithSupportedValues, except_bind_eq_ok,
    refuseIf_eq_ok, okOr_eq_ok, Bool.not_eq_true, Bool.not_eq_false', not_not,
    UInt64.not_le, ne_eq]
  constructor
  · rintro ⟨_, unexpired, _, printer, _, generation, _, principal, _, protocol, _, advertised,
      names, settable, _, member, current, present, _, hashed, allowed⟩
    exact ⟨unexpired, ⟨printer, generation, principal, protocol⟩, current,
      ⟨advertised, ⟨names, settable, member⟩, present, allowed⟩, hashed⟩
  · rintro ⟨unexpired, binds, current, permits, hashed⟩
    obtain ⟨names, settable, member⟩ := permits.settable
    exact ⟨(), unexpired, (), binds.printer, (), binds.generation, (), binds.principal, (),
      binds.protocol, (), permits.advertised, names, settable, (), member, current,
      permits.present, (), hashed, permits.allowed⟩

theorem confirmedIppPlanFromWire_eq_ok {printerId : String} {generation : UInt64}
    {setting : String} {oldHash : Digest} {requested : Value} {principal : String}
    {expires : UInt64} {plan : ConfirmedChangePlan}
    (rebuilt : confirmedIppPlanFromWire printerId generation setting oldHash requested
      principal expires = .ok plan) :
    plan.setting = setting ∧ plan.requestedProtocolValue = requested ∧
      plan.expectedOldValueHash = oldHash ∧ plan.expiresAtUnixMs = expires ∧
      normalizedSettingValue requested = some plan.requestedValue := by
  simp only [confirmedIppPlanFromWire, except_bind_eq_ok, okOr_eq_ok,
    except_pure_eq_ok] at rebuilt
  obtain ⟨requestedValue, normalized, rfl⟩ := rebuilt
  exact ⟨rfl, rfl, rfl, rfl, normalized⟩

/-! ## Strictness -/

/-- The checks of the planner that revalidation leaves out: the observation succeeded,
a current value is present, and the requested value has its syntax unless the setting
is itself a set of supported values. -/
def PlannerAdmits (observation : Message) (setting : String) (requested : Value) : Prop :=
  observation.code < 0x0100 ∧
    ∀ current, findAttribute observation (asBytes setting) = some current →
      current.values ≠ [] ∧
        (namesSupportedValues setting = true ∨
          ∀ value ∈ current.values, compatibleSyntax value.tag requested.tag = true)

theorem syntaxAdmits_iff (setting : String) (current : Attribute) (requested : Value) :
    syntaxAdmits setting current requested = true ↔
      current.values ≠ [] ∧
        (namesSupportedValues setting = true ∨
          ∀ value ∈ current.values, compatibleSyntax value.tag requested.tag = true) := by
  cases supported : namesSupportedValues setting <;>
    simp [syntaxAdmits, supported, List.all_eq_true]

/-- Once revalidation accepts a plan from the wire, planning the same setting and value
on the same observation succeeds exactly when the checks that revalidation leaves out
pass; and revalidation accepts every unexpired plan that was made on the observation
it is given. -/
theorem revalidation_as_strict_iff (hashing : Hashing) (observation : Message)
    (supportedValues : Option SupportedPrinterValues) :
    (∀ printerId generation setting oldHash requested principal expires plan binding,
      confirmedIppPlanFromWire printerId generation setting oldHash requested principal
        expires = .ok plan →
      validateConfirmedIppChangeWithSupportedValues hashing plan observation
        supportedValues binding = .ok () →
      ∀ request : PlanChangeRequest, request.setting = plan.setting →
        request.requestedValue = plan.requestedProtocolValue →
        ((∃ planned, planIppChangeWithSupportedValues hashing observation supportedValues
          request = .ok planned) ↔
            PlannerAdmits observation plan.setting plan.requestedProtocolValue)) ∧
    (∀ (request : PlanChangeRequest) plan (binding : ChangeBinding),
      planIppChangeWithSupportedValues hashing observation supportedValues request =
        .ok plan →
      Binds binding plan → binding.nowUnixMs < plan.expiresAtUnixMs →
      validateConfirmedIppChangeWithSupportedValues hashing plan observation
        supportedValues binding = .ok ()) := by
  constructor
  · intro printerId generation setting oldHash requested principal expires plan binding
      rebuilt validated request sameSetting sameValue
    obtain ⟨_, sameRequested, _, _, normalized⟩ := confirmedIppPlanFromWire_eq_ok rebuilt
    obtain ⟨_, _, current, permits, _⟩ := (validateConfirmed_eq_ok plan binding).mp validated
    rw [← sameSetting, ← sameValue] at permits ⊢
    rw [← sameRequested, ← sameValue] at normalized
    constructor
    · intro planned
      cases planned with
      | intro planned made =>
          obtain ⟨found, _, succeeded, foundPermits, matched, _⟩ :=
            (planIppChange_eq_ok request planned).mp made
          refine ⟨succeeded, ?_⟩
          intro other present
          rw [foundPermits.present, Option.some.injEq] at present
          rw [← present]
          exact (syntaxAdmits_iff _ _ _).mp matched
    · intro admits
      have matched := (syntaxAdmits_iff request.setting current request.requestedValue).mpr
        (admits.2 current permits.present)
      exact ⟨_, (planIppChange_eq_ok request _).mpr
        ⟨current, plan.requestedValue, admits.1, permits, matched, normalized, rfl⟩⟩
  · intro request plan binding made binds unexpired
    obtain ⟨current, requestedValue, _, permits, _, _, rfl⟩ :=
      (planIppChange_eq_ok request plan).mp made
    exact (validateConfirmed_eq_ok _ binding).mpr ⟨unexpired, binds, current, permits, rfl⟩

/-- SHA-256 and JSON as they act on the attribute `printer-name = a`. -/
def nameHashing : Hashing where
  sha256 _ := ⟨[0x8c, 0x90, 0xf5, 0x49, 0xc4, 0xa6, 0x6b, 0xc4, 0x70, 0x72, 0x09, 0xb9, 0x05, 0xda,
    0x23, 0x69, 0xc2, 0xf9, 0xa7, 0xef, 0x2e, 0xff, 0xfb, 0xd5, 0x71, 0x7f, 0x0f, 0x4b,
    0xb3, 0xaf, 0xb2, 0xac], rfl⟩
  valueJson _ := asBytes "\x7b\"kind\":\"bytes\",\"value\":[97]\x7d"

/-- A successful observation of a printer whose name is settable. -/
def nameObservation : Message where
  version := ⟨2, 0⟩
  code := 0
  requestId := 1
  groups := [⟨printerAttributesTag,
    [⟨asBytes "operations-supported", [⟨.enum, .enum 0x13⟩]⟩,
      ⟨asBytes "printer-settable-attributes-supported",
        [.raw .keyword (asBytes "printer-name")]⟩,
      ⟨asBytes "printer-name", [.raw .nameWithoutLanguage (asBytes "a")]⟩]⟩]
  originalBytes := []

/-- The hash that `nameHashing` gives the current name. -/
def nameHash : Digest := nameHashing.sha256 []

def nameBinding : ChangeBinding := ⟨"printer", 1, "principal", .ipp, 5⟩

def namePlan (requested : SettingValue) (value : Value) : ConfirmedChangePlan :=
  ⟨"printer", 1, "printer-name", nameHash, requested, value, "principal", .ipp, 10⟩

def nameRequest (value : Value) : PlanChangeRequest :=
  ⟨"printer", 1, "printer-name", value, "principal", .ipp, 10⟩

theorem revalidation_as_strict_iff_rename :
    ((∃ planned, planIppChangeWithSupportedValues nameHashing nameObservation none
        (nameRequest (.raw .nameWithoutLanguage (asBytes "b"))) = .ok planned) ↔
      PlannerAdmits nameObservation "printer-name"
        (.raw .nameWithoutLanguage (asBytes "b"))) ∧
    validateConfirmedIppChangeWithSupportedValues nameHashing
      (namePlan (.text "b") (.raw .nameWithoutLanguage (asBytes "b"))) nameObservation none
      nameBinding = .ok () := by
  have strict := revalidation_as_strict_iff nameHashing nameObservation none
  constructor
  · exact strict.1 "printer" 1 "printer-name" nameHash
      (.raw .nameWithoutLanguage (asBytes "b")) "principal" 10
      (namePlan (.text "b") (.raw .nameWithoutLanguage (asBytes "b"))) nameBinding
      (by decide +kernel) (by decide +kernel) _ rfl rfl
  · exact strict.2 (nameRequest (.raw .nameWithoutLanguage (asBytes "b"))) _ nameBinding
      (by decide +kernel) ⟨rfl, rfl, rfl, rfl⟩ (by decide +kernel)

/-- An integer is let through as a new printer name, which planning refuses. -/
theorem integer_name_revalidated :
    confirmedIppPlanFromWire "printer" 1 "printer-name" nameHash ⟨.integer, .integer 5⟩
        "principal" 10 = .ok (namePlan (.integer 5) ⟨.integer, .integer 5⟩) ∧
      validateConfirmedIppChangeWithSupportedValues nameHashing
        (namePlan (.integer 5) ⟨.integer, .integer 5⟩) nameObservation none nameBinding =
          .ok () ∧
      planIppChangeWithSupportedValues nameHashing nameObservation none
        (nameRequest ⟨.integer, .integer 5⟩) = .error .incompatibleValue := by
  refine ⟨?_, ?_, ?_⟩ <;> decide +kernel

end PrinterSdk.Administration
