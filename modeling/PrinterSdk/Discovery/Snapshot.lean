import PrinterSdk.Data.Text

/-!
# Discovery snapshots

The protocol-neutral description of a printer: its identity and state, what it
supports, and the protocol observations this was read from, each with the evidence
that backs it.
-/

namespace PrinterSdk.Discovery

open PrinterSdk.Data

/-- `SettingValue`. -/
inductive SettingValue where
  | boolean (value : Bool)
  | integer (value : Int64)
  | text (value : String)
  | keyword (value : String)
  | bytes (value : Bytes)
  | list (values : List SettingValue)

mutual

/-- The derived `PartialEq` of setting values. -/
def SettingValue.same : SettingValue → SettingValue → Bool
  | .boolean value, .boolean other => value == other
  | .integer value, .integer other => value == other
  | .text value, .text other => value == other
  | .keyword value, .keyword other => value == other
  | .bytes value, .bytes other => value == other
  | .list values, .list others => sameSettings values others
  | _, _ => false

def sameSettings : List SettingValue → List SettingValue → Bool
  | [], [] => true
  | value :: values, other :: others => value.same other && sameSettings values others
  | _, _ => false

end

mutual

theorem SettingValue.same_iff (value other : SettingValue) :
    value.same other = true ↔ value = other := by
  cases value with
  | list values =>
      cases other with
      | list others => simp [SettingValue.same, sameSettings_iff values others]
      | _ => simp [SettingValue.same]
  | _ => cases other <;> simp [SettingValue.same]

theorem sameSettings_iff (values others : List SettingValue) :
    sameSettings values others = true ↔ values = others := by
  cases values with
  | nil => cases others <;> simp [sameSettings]
  | cons value values =>
      cases others with
      | nil => simp [sameSettings]
      | cons other others =>
          simp [sameSettings, value.same_iff other, sameSettings_iff values others]

end

instance : DecidableEq SettingValue := fun value other =>
  decidable_of_iff _ (value.same_iff other)

/-- `i64::from(value)` for an `i32`. -/
def integerSetting (value : Int32) : SettingValue := .integer value.toInt64

/-- `format!("{cross_feed}x{feed}@{units}")`. -/
def resolutionText (crossFeed feed : Int32) (units : UInt8) : String :=
  toString crossFeed.toInt ++ "x" ++ toString feed.toInt ++ "@" ++ toString units.toNat

/-- `ValueConstraint`. -/
inductive ValueConstraint where
  | values (values : List SettingValue)
  | integerRange (lower upper : Int64)
  deriving DecidableEq

/-- `ProtocolSource`. -/
inductive ProtocolSource where
  | ippAttribute (name : String)
  | dnsSdTxt (key : String)
  | ieee1284DeviceId
  | pjlVariable (name : String)
  | snmpObject (oid : String)
  | registeredProbe (probeId : String)
  | modelCatalogue (catalogue : String)
  deriving DecidableEq, Repr

/-- `EvidenceKind`. -/
inductive EvidenceKind where
  | advertised
  | observed
  | inferred
  | hardwareQualified (qualificationId : String)
  deriving DecidableEq, Repr

/-- `TransportKind`. -/
inductive TransportKind where
  | ipp | ipps | dnsSd | rawTcp | usb | ippOverUsb | serial | bluetoothRfcomm | ble | snmp
  deriving DecidableEq, Repr

/-- `ProtocolFamily`. -/
inductive ProtocolFamily where
  | ipp | pjl | ieee1284 | brother | snmp | unknown
  deriving DecidableEq, Repr

/-- `QualificationMetadata`. -/
structure QualificationMetadata where
  qualificationId : String
  firmware : Option String
  responseHash : Option String
  deriving DecidableEq, Repr

/-- `ObservationOrigin`. -/
structure ObservationOrigin where
  agentId : Option String
  printerId : String
  endpoint : String
  endpointGeneration : UInt64
  transport : TransportKind
  protocol : ProtocolFamily
  requestId : String
  probeId : Option String
  observedAt : String
  qualification : Option QualificationMetadata
  deriving DecidableEq, Repr

/-- `Evidence`. -/
structure Evidence where
  source : ProtocolSource
  kind : EvidenceKind
  origin : ObservationOrigin
  deriving DecidableEq, Repr

/-- `PrinterIdentity`. -/
structure PrinterIdentity where
  printerId : String
  uuid : Option String
  serialNumber : Option String
  deviceId : Option String
  manufacturer : Option String
  model : Option String
  deriving DecidableEq, Repr

/-- `DeviceState`. -/
structure DeviceState where
  state : Option String
  reasons : List String
  deriving DecidableEq, Repr

/-- `Supply`. -/
structure Supply where
  id : String
  levelPercent : Option UInt8
  evidence : List Evidence
  deriving DecidableEq

/-- `JobCapability`. -/
structure JobCapability where
  id : String
  currentDefault : Option SettingValue
  supportedValues : Option ValueConstraint
  formatScope : Option String
  evidence : List Evidence
  deriving DecidableEq

/-- `DeviceSetting`. -/
structure DeviceSetting where
  id : String
  currentValue : Option SettingValue
  sensitive : Bool
  evidence : List Evidence
  deriving DecidableEq

/-- `MutationAccess`. -/
inductive MutationAccess where
  | readOnly | confirmedWrite | unknown
  deriving DecidableEq, Repr

/-- `MutationSupport`. -/
structure MutationSupport where
  setting : String
  access : MutationAccess
  constraints : Option ValueConstraint
  evidence : List Evidence
  deriving DecidableEq

/-- `CapabilityAvailability`. -/
inductive CapabilityAvailability where
  | advertised | unavailable | unknown
  deriving DecidableEq, Repr

/-- `OperationCapability`. -/
structure OperationCapability where
  operation : String
  availability : CapabilityAvailability
  evidence : List Evidence
  deriving DecidableEq

/-- `RawProtocolValue`. -/
structure RawProtocolValue where
  name : Bytes
  tag : Option UInt8
  value : Bytes
  sensitive : Bool
  deriving DecidableEq, Repr

/-- `ProtocolObservation`. -/
structure ProtocolObservation where
  source : ProtocolSource
  values : List RawProtocolValue
  originalBytes : Option Bytes
  evidence : Evidence
  deriving DecidableEq

/-- `DeviceSnapshot`. -/
structure DeviceSnapshot where
  identity : PrinterIdentity
  state : DeviceState
  supplies : List Supply
  jobCapabilities : List JobCapability
  deviceSettings : List DeviceSetting
  mutationSupport : List MutationSupport
  operations : List OperationCapability
  observations : List ProtocolObservation
  deriving DecidableEq

end PrinterSdk.Discovery
