import PrinterSdk.Data.Digest
import PrinterSdk.Discovery.Snapshot

/-!
# Snapshot output

A snapshot leaves the process in one of four modes, each with the authorization it
needs and the retention it permits.  The two redacted modes hash the identifiers and
endpoints and hide the values that are marked as sensitive.
-/

namespace PrinterSdk.Discovery

open PrinterSdk.Data

/-- `OutputMode`. -/
inductive OutputMode where
  | normalizedRedacted
  | localRawRedacted
  | localRawSensitive
  | cloudRawAuthorized
  deriving DecidableEq, Repr

/-- `OutputAuthorization`. -/
structure OutputAuthorization where
  rawLocal : Bool := false
  sensitiveValues : Bool := false
  cloudRaw : Bool := false
  deriving DecidableEq, Repr

/-- `RetentionPolicy`. -/
structure RetentionPolicy where
  mayPersist : Bool
  mayLog : Bool
  auditRequired : Bool
  deriving DecidableEq, Repr

/-- `PreparedSnapshot`. -/
structure PreparedSnapshot where
  snapshot : DeviceSnapshot
  mode : OutputMode
  retention : RetentionPolicy
  deriving DecidableEq

/-- `OutputPolicyError`. -/
inductive OutputPolicyError where
  | rawLocalNotAuthorized
  | sensitiveNotAuthorized
  | cloudRawNotAuthorized
  deriving DecidableEq, Repr

/-! ## Redaction -/

section

variable (sha256 : Sha256)

/-- `redact_identifier`. -/
def redactIdentifier (value : String) : String :=
  "sha256:" ++ hexBytes (sha256 (asBytes value)).1

/-- Hash the endpoint of one piece of evidence. -/
def redactEvidence (evidence : Evidence) : Evidence :=
  { evidence with
    origin := { evidence.origin with
      endpoint := redactIdentifier sha256 evidence.origin.endpoint } }

def redactIdentity (identity : PrinterIdentity) : PrinterIdentity :=
  { identity with
    uuid := identity.uuid.map (redactIdentifier sha256)
    serialNumber := identity.serialNumber.map (redactIdentifier sha256)
    deviceId := identity.deviceId.map (redactIdentifier sha256) }

def redactSetting (setting : DeviceSetting) : DeviceSetting :=
  { setting with
    currentValue := if setting.sensitive then some (.text "[REDACTED]") else setting.currentValue
    evidence := setting.evidence.map (redactEvidence sha256) }

/-- `redact_sensitive_snapshot`. -/
def redactSensitiveSnapshot (snapshot : DeviceSnapshot) : DeviceSnapshot where
  identity := redactIdentity sha256 snapshot.identity
  state := snapshot.state
  supplies := snapshot.supplies.map fun supply =>
    { supply with evidence := supply.evidence.map (redactEvidence sha256) }
  jobCapabilities := snapshot.jobCapabilities.map fun capability =>
    { capability with evidence := capability.evidence.map (redactEvidence sha256) }
  deviceSettings := snapshot.deviceSettings.map (redactSetting sha256)
  mutationSupport := snapshot.mutationSupport.map fun mutation =>
    { mutation with evidence := mutation.evidence.map (redactEvidence sha256) }
  operations := snapshot.operations.map fun operation =>
    { operation with evidence := operation.evidence.map (redactEvidence sha256) }
  observations := snapshot.observations.map fun observation =>
    { observation with evidence := redactEvidence sha256 observation.evidence }

/-- Hide a value that is marked as sensitive. -/
def redactValue (value : RawProtocolValue) : RawProtocolValue :=
  if value.sensitive then { value with value := asBytes "[REDACTED]" } else value

/-- Whether any observation holds a value that is marked as sensitive. -/
def containsSensitive (observations : List ProtocolObservation) : Bool :=
  observations.any fun observation => observation.values.any fun value => value.sensitive

/-- Hide the sensitive values of an observation, and the bytes of the response when
some observation of it is sensitive. -/
def redactObservation (sensitive : Bool) (observation : ProtocolObservation) :
    ProtocolObservation :=
  { observation with
    values := observation.values.map redactValue
    originalBytes := if sensitive then none else observation.originalBytes }

/-- `prepare_snapshot_output`. -/
def prepareSnapshotOutput (snapshot : DeviceSnapshot) (mode : OutputMode)
    (authorization : OutputAuthorization) : Except OutputPolicyError PreparedSnapshot :=
  match mode with
  | .normalizedRedacted =>
      let redacted := redactSensitiveSnapshot sha256 snapshot
      let cleared := redacted.observations.map fun observation =>
        { observation with values := [], originalBytes := none }
      .ok ⟨{ redacted with observations := cleared }, mode, ⟨true, true, false⟩⟩
  | .localRawRedacted =>
      if !authorization.rawLocal then
        .error .rawLocalNotAuthorized
      else
        let redacted := redactSensitiveSnapshot sha256 snapshot
        let hidden := redacted.observations.map
          (redactObservation (containsSensitive redacted.observations))
        .ok ⟨{ redacted with observations := hidden }, mode, ⟨true, false, true⟩⟩
  | .localRawSensitive =>
      if !authorization.rawLocal then .error .rawLocalNotAuthorized
      else if !authorization.sensitiveValues then .error .sensitiveNotAuthorized
      else .ok ⟨snapshot, mode, ⟨false, false, true⟩⟩
  | .cloudRawAuthorized =>
      if !authorization.cloudRaw then .error .cloudRawNotAuthorized
      else if !authorization.sensitiveValues then .error .sensitiveNotAuthorized
      else .ok ⟨snapshot, mode, ⟨false, false, true⟩⟩

end

end PrinterSdk.Discovery
