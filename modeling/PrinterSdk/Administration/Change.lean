import PrinterSdk.Data.Digest
import PrinterSdk.Data.Outcome
import PrinterSdk.Discovery.Snapshot
import PrinterSdk.Ipp.Message

/-!
# Planning and revalidating a printer change

A change is planned against one observation of the printer and validated again
against a later one, directly before it is written.  Both gates are modelled check
by check, in the order of the source.
-/

namespace PrinterSdk.Administration

open PrinterSdk.Data PrinterSdk.Ipp PrinterSdk.Discovery

/-- The code outside the repository that the hashes of values use: SHA-256 and the
JSON form of value data. -/
structure Hashing where
  sha256 : Sha256
  valueJson : ValueData → Bytes

/-- `ConfirmedChangePlan`. -/
structure ConfirmedChangePlan where
  printerId : String
  endpointGeneration : UInt64
  setting : String
  expectedOldValueHash : Digest
  requestedValue : SettingValue
  requestedProtocolValue : Value
  principal : String
  protocol : ProtocolFamily
  expiresAtUnixMs : UInt64
  deriving DecidableEq

/-- `ChangeBinding`. -/
structure ChangeBinding where
  printerId : String
  endpointGeneration : UInt64
  principal : String
  protocol : ProtocolFamily
  nowUnixMs : UInt64

/-- `ChangePlanError`. -/
inductive ChangePlanError where
  | unsuccessfulObservation
  | operationNotAdvertised
  | missingOrMalformedSettableMetadata
  | attributeNotSettable (setting : String)
  | currentValueMissing (setting : String)
  | incompatibleValue
  | supportedValuesRequired
  | missingValueConstraints
  | requestedValueNotSupported
  | expired
  | staleBinding (binding : String)
  | staleValue
  deriving DecidableEq, Repr

/-- `SupportedPrinterValues`.  A name inserted twice keeps its last values, so the
most recent insertion stands first. -/
structure SupportedPrinterValues where
  attributes : List (String × List Value)
  unsupportedAttributes : List String
  deriving DecidableEq

/-- `SupportedValuesError`. -/
inductive SupportedValuesError where
  | unsuccessful
  | invalidAttribute
  | invalidName
  deriving DecidableEq, Repr

/-- `PlanChangeRequest`. -/
structure PlanChangeRequest where
  printerId : String
  endpointGeneration : UInt64
  setting : String
  requestedValue : Value
  principal : String
  protocol : ProtocolFamily
  expiresAtUnixMs : UInt64

/-- Whether a setting names a set of supported values. -/
def namesSupportedValues (setting : String) : Bool :=
  endsWith (asBytes setting) (asBytes "-supported")

/-! ## Supported values -/

/-- The attribute loop of `parse_get_printer_supported_values` in one group. -/
def parseSupportedAttributes (tag : UInt8) :
    List Attribute → SupportedPrinterValues →
      Except SupportedValuesError SupportedPrinterValues
  | [], parsed => .ok parsed
  | attr :: attributes, parsed =>
      match fromUtf8 attr.name with
      | none => .error .invalidName
      | some name =>
          if tag = unsupportedAttributesTag then
            parseSupportedAttributes tag attributes
              { parsed with
                unsupportedAttributes := parsed.unsupportedAttributes ++ [name] }
          else if tag = printerAttributesTag then
            if !namesSupportedValues name then
              .error .invalidAttribute
            else
              parseSupportedAttributes tag attributes
                { parsed with attributes := (name, attr.values) :: parsed.attributes }
          else
            parseSupportedAttributes tag attributes parsed

/-- The group loop of `parse_get_printer_supported_values`. -/
def parseSupportedGroups :
    List AttributeGroup → SupportedPrinterValues →
      Except SupportedValuesError SupportedPrinterValues
  | [], parsed => .ok parsed
  | group :: groups, parsed =>
      match parseSupportedAttributes group.tag group.attributes parsed with
      | .error error => .error error
      | .ok parsed => parseSupportedGroups groups parsed

/-- `parse_get_printer_supported_values`. -/
def parseGetPrinterSupportedValues (response : Message) :
    Except SupportedValuesError SupportedPrinterValues :=
  if 0x0100 ≤ response.code then
    .error .unsuccessful
  else
    parseSupportedGroups response.groups ⟨[], []⟩

/-! ## Reading observations -/

/-- `find_attribute`. -/
def findAttribute (message : Message) (name : Bytes) : Option Attribute :=
  (message.groups.flatMap AttributeGroup.attributes).find? fun attr => attr.name == name

/-- `operation_is_advertised`. -/
def operationIsAdvertised (message : Message) (operation : UInt16) : Bool :=
  (findAttribute message (asBytes "operations-supported")).any fun attr =>
    attr.values.any fun value =>
      match value.data with
      | .enum value => value.toInt == operation.toNat
      | _ => false

/-- One value of `printer-settable-attributes-supported`. -/
def settableName (value : Value) : Option String :=
  if value.tag ≠ .keyword then
    none
  else
    match value.data with
    | .bytes bytes =>
        match fromUtf8 bytes with
        | some name => if (asBytes name).isEmpty then none else some name
        | none => none
    | _ => none

/-- `settable_attributes`. -/
def settableAttributes (message : Message) : Option (List String) :=
  match findAttribute message (asBytes "printer-settable-attributes-supported") with
  | none => none
  | some attr =>
      match attr.values.mapM settableName with
      | none => none
      | some names => if names.isEmpty then none else some names

/-- `compatible_syntax`. -/
def compatibleSyntax (current requested : ValueTag) : Bool :=
  current == requested ||
    match current, requested with
    | .textWithLanguage, .textWithoutLanguage => true
    | .textWithoutLanguage, .textWithLanguage => true
    | .nameWithLanguage, .nameWithoutLanguage => true
    | .nameWithoutLanguage, .nameWithLanguage => true
    | _, _ => false

/-- `normalized_setting_value`. -/
def normalizedSettingValue (value : Value) : Option SettingValue :=
  match value.data with
  | .boolean boolean => some (.boolean boolean)
  | .integer integer => some (integerSetting integer)
  | .enum integer => some (integerSetting integer)
  | .bytes bytes =>
      match value.tag with
      | .keyword => (fromUtf8 bytes).map .keyword
      | .textWithLanguage | .textWithoutLanguage | .nameWithLanguage
      | .nameWithoutLanguage => (fromUtf8 bytes).map .text
      | _ => some (.bytes bytes)
  | .rangeOfInteger lower upper =>
      some (.list [integerSetting lower, integerSetting upper])
  | .dateTime octets => some (.bytes octets.1)
  | .resolution crossFeed feed units => some (.text (resolutionText crossFeed feed units))
  | .outOfBand | .collection _ => none

/-- What one value adds to a hash. -/
def hashedValue (hashing : Hashing) (value : Value) : Bytes :=
  let encoded := hashing.valueJson value.data
  value.tag.toByte :: (lengthBytes encoded ++ encoded)

/-- `attribute_hash`. -/
def attributeHash (hashing : Hashing) (attr : Attribute) : Digest :=
  hashing.sha256 (lengthBytes attr.name ++ attr.name ++
    attr.values.flatMap (hashedValue hashing))

/-- `ipp_value_hash`. -/
def ippValueHash (hashing : Hashing) (value : Value) : Digest :=
  hashing.sha256 (hashedValue hashing value)

/-! ## Allowed values -/

/-- `uri.split_once(':').map(|(scheme, _)| scheme)`. -/
def uriScheme (uri : Bytes) : Option Bytes :=
  if 0x3a ∈ uri then some (uri.takeWhile (· ≠ 0x3a)) else none

/-- The comparison of a requested URI with an allowed scheme. -/
def schemeMatches (uri scheme : Bytes) : Bool :=
  match fromUtf8 uri, fromUtf8 scheme with
  | some _, some _ =>
      match uriScheme uri with
      | some actual => actual.map asciiLowercase == scheme.map asciiLowercase
      | none => false
  | _, _ => false

/-- `value_matches`. -/
def valueMatches (requested allowed : Value) : Bool :=
  if allowed.tag = .adminDefine ∧
      (requested.tag = .nameWithLanguage ∨ requested.tag = .nameWithoutLanguage) then
    true
  else if allowed.data = .boolean true then
    true
  else
    match requested.data, allowed.data with
    | .integer value, .rangeOfInteger lower upper => lower ≤ value && value ≤ upper
    | .rangeOfInteger requestedLower requestedUpper,
        .rangeOfInteger allowedLower allowedUpper =>
        allowedLower ≤ requestedLower && requestedUpper ≤ allowedUpper
    | .bytes uri, .bytes scheme =>
        if requested.tag = .uri ∧ allowed.tag = .uriScheme then
          schemeMatches uri scheme
        else
          requested.tag == allowed.tag && requested.data == allowed.data
    | _, _ => requested.tag == allowed.tag && requested.data == allowed.data

/-- `value_matches_any`. -/
def valueMatchesAny (requested : Value) (allowed : List Value) : Bool :=
  allowed.any (valueMatches requested)

/-- `validate_requested_value`. -/
def validateRequestedValue (observation : Message)
    (supportedValues : Option SupportedPrinterValues) (setting : String)
    (requested : Value) : Except ChangePlanError Unit :=
  if namesSupportedValues setting then
    if !operationIsAdvertised observation getPrinterSupportedValues then
      .error .supportedValuesRequired
    else
      match supportedValues with
      | none => .error .supportedValuesRequired
      | some supportedValues =>
          if setting ∈ supportedValues.unsupportedAttributes then
            .error .requestedValueNotSupported
          else
            match supportedValues.attributes.lookup setting with
            | none => .error .missingValueConstraints
            | some allowed =>
                if !valueMatchesAny requested allowed then
                  .error .requestedValueNotSupported
                else
                  .ok ()
  else
    match stripSuffix (asBytes setting) (asBytes "-default") with
    | none => .ok ()
    | some base =>
        match findAttribute observation (base ++ asBytes "-supported") with
        | none => .error .missingValueConstraints
        | some attr =>
            if !valueMatchesAny requested attr.values then
              .error .requestedValueNotSupported
            else
              .ok ()

/-! ## The two gates -/

/-- The syntax check of the planner: a current value is present and the requested
value has its syntax, unless the setting is itself a set of supported values. -/
def syntaxAdmits (setting : String) (current : Attribute) (requested : Value) : Bool :=
  !(current.values.isEmpty ||
    (!namesSupportedValues setting &&
      !current.values.all fun value => compatibleSyntax value.tag requested.tag))

/-- `plan_ipp_change_with_supported_values`. -/
def planIppChangeWithSupportedValues (hashing : Hashing) (observation : Message)
    (supportedValues : Option SupportedPrinterValues) (request : PlanChangeRequest) :
    Except ChangePlanError ConfirmedChangePlan := do
  refuseIf (0x0100 ≤ observation.code) .unsuccessfulObservation
  refuseIf (!operationIsAdvertised observation setPrinterAttributes) .operationNotAdvertised
  let settable ← okOr (settableAttributes observation) .missingOrMalformedSettableMetadata
  refuseIf (request.setting ∉ settable) (.attributeNotSettable request.setting)
  let current ← okOr (findAttribute observation (asBytes request.setting))
    (.currentValueMissing request.setting)
  refuseIf (!syntaxAdmits request.setting current request.requestedValue) .incompatibleValue
  validateRequestedValue observation supportedValues request.setting request.requestedValue
  let requestedValue ← okOr (normalizedSettingValue request.requestedValue)
    .incompatibleValue
  return {
    printerId := request.printerId
    endpointGeneration := request.endpointGeneration
    setting := request.setting
    expectedOldValueHash := attributeHash hashing current
    requestedValue := requestedValue
    requestedProtocolValue := request.requestedValue
    principal := request.principal
    protocol := request.protocol
    expiresAtUnixMs := request.expiresAtUnixMs }

/-- `confirmed_ipp_plan_from_wire`. -/
def confirmedIppPlanFromWire (printerId : String) (endpointGeneration : UInt64)
    (setting : String) (expectedOldValueHash : Digest) (requestedProtocolValue : Value)
    (principal : String) (expiresAtUnixMs : UInt64) :
    Except ChangePlanError ConfirmedChangePlan := do
  let requestedValue ← okOr (normalizedSettingValue requestedProtocolValue)
    .incompatibleValue
  return {
    printerId := printerId
    endpointGeneration := endpointGeneration
    setting := setting
    expectedOldValueHash := expectedOldValueHash
    requestedValue := requestedValue
    requestedProtocolValue := requestedProtocolValue
    principal := principal
    protocol := .ipp
    expiresAtUnixMs := expiresAtUnixMs }

/-- `validate_confirmed_ipp_change_with_supported_values`. -/
def validateConfirmedIppChangeWithSupportedValues (hashing : Hashing)
    (plan : ConfirmedChangePlan) (currentObservation : Message)
    (supportedValues : Option SupportedPrinterValues) (binding : ChangeBinding) :
    Except ChangePlanError Unit := do
  refuseIf (plan.expiresAtUnixMs ≤ binding.nowUnixMs) .expired
  refuseIf (binding.printerId ≠ plan.printerId) (.staleBinding "printer ID")
  refuseIf (binding.endpointGeneration ≠ plan.endpointGeneration)
    (.staleBinding "endpoint generation")
  refuseIf (binding.principal ≠ plan.principal) (.staleBinding "principal")
  refuseIf (binding.protocol ≠ plan.protocol) (.staleBinding "protocol")
  refuseIf (!operationIsAdvertised currentObservation setPrinterAttributes)
    .operationNotAdvertised
  let settable ← okOr (settableAttributes currentObservation)
    .missingOrMalformedSettableMetadata
  refuseIf (plan.setting ∉ settable) (.attributeNotSettable plan.setting)
  let current ← okOr (findAttribute currentObservation (asBytes plan.setting))
    (.currentValueMissing plan.setting)
  refuseIf (attributeHash hashing current ≠ plan.expectedOldValueHash) .staleValue
  validateRequestedValue currentObservation supportedValues plan.setting
    plan.requestedProtocolValue

/-- `ipp_change_is_applied`. -/
def ippChangeIsApplied (plan : ConfirmedChangePlan) (observation : Message) : Bool :=
  (findAttribute observation (asBytes plan.setting)).any fun attr =>
    match attr.values with
    | [value] => normalizedSettingValue value == some plan.requestedValue
    | _ => false

end PrinterSdk.Administration
