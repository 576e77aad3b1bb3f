import PrinterSdk.Data.Utf8
import PrinterSdk.Discovery.Snapshot
import PrinterSdk.Ipp.Message

/-!
# Normalizing an IPP response

`normalizeIpp` reads a decoded response into a snapshot: what it understands becomes
identity, state, supplies, capabilities and settings, and every attribute is kept as
an observation besides.  The first observation carries the bytes of the response.
-/

namespace PrinterSdk.Discovery

open PrinterSdk.Data PrinterSdk.Ipp

/-! ## Reading attributes -/

/-- `values`. -/
def values (attributes : List Attribute) (name : Bytes) : List Value :=
  (attributes.filter fun attr => attr.name == name).flatMap Attribute.values

/-- `first_value`. -/
def firstValue (attributes : List Attribute) (name : Bytes) : Option Value :=
  (attributes.find? fun attr => attr.name == name).bind fun attr => attr.values.head?

/-- `value_text`. -/
def valueText (value : Value) : Option String :=
  match value.data with
  | .bytes bytes => fromUtf8 bytes
  | _ => none

/-- `first_text`. -/
def firstText (attributes : List Attribute) (name : Bytes) : Option String :=
  (firstValue attributes name).bind valueText

/-- `value_i64`. -/
def valueI64 (value : Value) : Option Int64 :=
  match value.data with
  | .integer value => some value.toInt64
  | .enum value => some value.toInt64
  | _ => none

/-- `setting_value`. -/
def settingValue (value : Value) : Option SettingValue :=
  match value.data with
  | .outOfBand => none
  | .integer value => some (integerSetting value)
  | .enum value => some (integerSetting value)
  | .boolean value => some (.boolean value)
  | .bytes bytes =>
      match value.tag with
      | .keyword => (fromUtf8 bytes).map .keyword
      | .textWithLanguage | .nameWithLanguage | .textWithoutLanguage | .nameWithoutLanguage
      | .uri | .uriScheme | .charset | .naturalLanguage | .mimeMediaType =>
          (fromUtf8 bytes).map .text
      | _ => some (.bytes bytes)
  | .rangeOfInteger lower upper => some (.list [integerSetting lower, integerSetting upper])
  | .resolution crossFeed feed units => some (.text (resolutionText crossFeed feed units))
  | .dateTime octets => some (.bytes octets.1)
  | .collection _ => none

/-- `format_setting`. -/
def formatSetting : SettingValue → String
  | .boolean value => toString value
  | .integer value => toString value.toInt
  | .text value => value
  | .keyword value => value
  | .bytes _ => "bytes"
  | .list _ => "list"

/-- `ipp_printer_state`. -/
def ippPrinterState (value : Value) : Option String :=
  match value.data with
  | .enum state =>
      if state = 3 then some "idle"
      else if state = 4 then some "processing"
      else if state = 5 then some "stopped"
      else some (toString state.toInt)
  | _ => (settingValue value).map formatSetting

/-- One value of `printer-settable-attributes-supported`. -/
def settableKeyword (value : Value) : Option String :=
  if value.tag ≠ .keyword then
    none
  else
    (valueText value).bind fun text => if text.isEmpty then none else some text

/-- `valid_settable_attributes`. -/
def validSettableAttributes (attributes : List Attribute) : Option (List String) := do
  let attr ← attributes.find? fun attr =>
    attr.name == asBytes "printer-settable-attributes-supported"
  let names ← attr.values.mapM settableKeyword
  if names.isEmpty then none else some names

/-- A lower-case hexadecimal number of at least four digits. -/
def hexNumber (value : Nat) : String :=
  let digits := Nat.toDigits 16 value
  String.ofList (List.replicate (4 - digits.length) '0' ++ digits)

/-- `ipp_operation_name`.  A negative number is printed in two's complement. -/
def ippOperationName (operation : Int64) : String :=
  if operation = 0x000b then "get-printer-attributes"
  else if operation = 0x0015 then "get-printer-supported-values"
  else if operation = 0x0013 then "set-printer-attributes"
  else "ipp-operation-0x" ++ hexNumber operation.toUInt64.toNat

/-- The octets of data that is not a collection. -/
def scalarBytes : ValueData → Bytes
  | .outOfBand => []
  | .collection _ => []
  | .integer value => i32Bytes value
  | .enum value => i32Bytes value
  | .boolean value => [if value then 1 else 0]
  | .dateTime octets => octets.1
  | .resolution crossFeed feed units => i32Bytes crossFeed ++ i32Bytes feed ++ [units]
  | .rangeOfInteger lower upper => i32Bytes lower ++ i32Bytes upper
  | .bytes bytes => bytes

/-- `scalar_wire_bytes`. -/
def scalarWireBytes (value : Value) : Bytes := scalarBytes value.data

/-- The words that make an attribute name sensitive. -/
def sensitiveNeedles : List String :=
  ["password", "credential", "certificate", "private-key", "printer-uuid", "serial-number",
    "device-id", "wifi", "ssid", "address"]

/-- `is_sensitive_ipp_attribute`. -/
def isSensitiveIppAttribute (name : Bytes) : Bool :=
  let lowered := (asBytes (fromUtf8Lossy name)).map asciiLowercase
  sensitiveNeedles.any fun needle => contains lowered (asBytes needle)

/-- Insert into a sorted list without repetition: `BTreeSet::insert`. -/
def insertOrdered (value : Int64) : List Int64 → List Int64
  | [] => [value]
  | first :: rest =>
      if value < first then value :: first :: rest
      else if value = first then first :: rest
      else first :: insertOrdered value rest

/-- `collect::<BTreeSet<_>>()`. -/
def orderedSet (values : List Int64) : List Int64 :=
  values.foldl (fun set value => insertOrdered value set) []

/-! ## The parts of a snapshot -/

section

variable (attributes : List Attribute) (origin : ObservationOrigin)

/-- `evidence`. -/
def evidence (source : ProtocolSource) : Evidence := ⟨source, .advertised, origin⟩

/-- The evidence of the attribute `name`. -/
def attributeEvidence (name : String) : List Evidence := [evidence origin (.ippAttribute name)]

def normalizedIdentity : PrinterIdentity where
  printerId := origin.printerId
  uuid := firstText attributes (asBytes "printer-uuid")
  serialNumber := firstText attributes (asBytes "printer-serial-number")
  deviceId := firstText attributes (asBytes "printer-device-id")
  manufacturer := none
  model := firstText attributes (asBytes "printer-make-and-model")

def normalizedState : DeviceState where
  state := (firstValue attributes (asBytes "printer-state")).bind ippPrinterState
  reasons := (values attributes (asBytes "printer-state-reasons")).filterMap valueText

/-- `u8::try_from(level).ok()`. -/
def level8 (level : Int64) : Option UInt8 :=
  if 0 ≤ level.toInt ∧ level.toInt ≤ 255 then some level.toUInt64.toUInt8 else none

def normalizedSupplies : List Supply :=
  let names := (values attributes (asBytes "marker-names")).filterMap valueText
  let levels := (values attributes (asBytes "marker-levels")).map fun value =>
    (valueI64 value).bind level8
  names.mapIdx fun index name => {
    id := name
    levelPercent := (levels[index]?.join).filter fun level => level ≤ 100
    evidence := attributeEvidence origin "marker-levels" }

/-- The advertised operations, in ascending order. -/
def operationValues : List Int64 :=
  orderedSet ((values attributes (asBytes "operations-supported")).filterMap valueI64)

def normalizedOperations : List OperationCapability :=
  (operationValues attributes).map fun operation => {
    operation := ippOperationName operation
    availability := .advertised
    evidence := attributeEvidence origin "operations-supported" }

/-- The job attributes that are read as a default and a list of supported values. -/
def jobBases : List String :=
  ["copies", "sides", "orientation-requested", "print-quality", "printer-resolution", "media",
    "media-col", "print-color-mode", "print-scaling", "document-format", "finishings"]

/-- The settings read from every value of an attribute. -/
def settingsOf (name : String) : List SettingValue :=
  (values attributes (asBytes name)).filterMap settingValue

def jobCapability (format : Option String) (base : String) : Option JobCapability :=
  let currentDefault := (firstValue attributes (asBytes (base ++ "-default"))).bind settingValue
  let supported := settingsOf attributes (base ++ "-supported")
  if currentDefault.isNone && supported.isEmpty then
    none
  else
    some {
      id := base
      currentDefault
      supportedValues := if supported.isEmpty then none else some (.values supported)
      formatScope := format
      evidence := attributeEvidence origin
        (if supported.isEmpty then base ++ "-default" else base ++ "-supported") }

def mediaReady (format : Option String) : Option JobCapability :=
  let ready := settingsOf attributes "media-ready"
  if ready.isEmpty then
    none
  else
    some {
      id := "media-ready"
      currentDefault := none
      supportedValues := some (.values ready)
      formatScope := format
      evidence := attributeEvidence origin "media-ready" }

def normalizedCapabilities (format : Option String) : List JobCapability :=
  jobBases.filterMap (jobCapability attributes origin format) ++
    (mediaReady attributes origin format).toList

/-- The settings that a confirmed change may write. -/
def namedSettings : List String := ["printer-name", "printer-info", "printer-location"]

/-- The settings that are only reported. -/
def reportedSettings : List String :=
  ["printer-firmware-name", "printer-firmware-string-version", "printer-firmware-version",
    "printer-up-time", "printer-config-change-time", "uri-authentication-supported",
    "uri-security-supported", "ipp-features-supported"]

/-- The value of a named setting. -/
def namedValue (name : String) : Option SettingValue :=
  (firstValue attributes (asBytes name)).bind settingValue

/-- The value of a reported setting: a single value, or the list of all of them. -/
def reportedValue (name : String) : Option SettingValue :=
  match settingsOf attributes name with
  | [] => none
  | [value] => some value
  | observed => some (.list observed)

/-- The device setting for a value that was read. -/
def deviceSetting (name : String) (value : SettingValue) : DeviceSetting where
  id := name
  currentValue := some value
  sensitive := isSensitiveIppAttribute (asBytes name)
  evidence := attributeEvidence origin name

def normalizedSettings : List DeviceSetting :=
  (namedSettings.filterMap fun name =>
    (namedValue attributes name).map (deviceSetting origin name)) ++
    (reportedSettings.filterMap fun name =>
      (reportedValue attributes name).map (deviceSetting origin name))

/-- Whether the printer advertises persistent writes of the attribute. -/
def attributeIsSettable (name : String) : Bool :=
  (operationValues attributes).contains 0x0013 &&
    (validSettableAttributes attributes).any fun names => names.contains name

/-- The mutation support of a setting that was read. -/
def mutationSupport (name : String) (access : MutationAccess) : MutationSupport where
  setting := name
  access
  constraints := none
  evidence := attributeEvidence origin name

def normalizedMutations : List MutationSupport :=
  (namedSettings.filterMap fun name => (namedValue attributes name).map fun _ =>
    mutationSupport origin name
      (if attributeIsSettable attributes name then .confirmedWrite else .readOnly)) ++
    (reportedSettings.filterMap fun name => (reportedValue attributes name).map fun _ =>
      mutationSupport origin name .readOnly)

/-- The observation of one attribute. -/
def observation (originalBytes : Option Bytes) (attr : Attribute) : ProtocolObservation where
  source := .ippAttribute (fromUtf8Lossy attr.name)
  values := attr.values.map fun value => {
    name := attr.name
    tag := some value.tag.toByte
    value := scalarWireBytes value
    sensitive := isSensitiveIppAttribute attr.name }
  originalBytes
  evidence := evidence origin (.ippAttribute (fromUtf8Lossy attr.name))

def observations (originalBytes : Bytes) : List ProtocolObservation :=
  attributes.mapIdx fun index attr =>
    observation origin (if index = 0 then some originalBytes else none) attr

end

/-- The attributes of a message, over all its groups. -/
def messageAttributes (message : Message) : List Attribute :=
  message.groups.flatMap AttributeGroup.attributes

/-- `normalize_ipp`. -/
def normalizeIpp (message : Message) (origin : ObservationOrigin) (format : Option String) :
    DeviceSnapshot :=
  let attributes := messageAttributes message
  { identity := normalizedIdentity attributes origin
    state := normalizedState attributes
    supplies := normalizedSupplies attributes origin
    jobCapabilities := normalizedCapabilities attributes origin format
    deviceSettings := normalizedSettings attributes origin
    mutationSupport := normalizedMutations attributes origin
    operations := normalizedOperations attributes origin
    observations := observations attributes origin message.originalBytes }

end PrinterSdk.Discovery
