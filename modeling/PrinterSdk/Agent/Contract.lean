import PrinterSdk.Discovery.Snapshot
import PrinterSdk.Native.IppClient

/-!
# The wire contract of the agent

Requests, rejections and results of `agent_session.proto`, the validation every request
passes first, and the results the agent builds.
-/

namespace PrinterSdk.Agent

open PrinterSdk.Data PrinterSdk.Discovery PrinterSdk.Ipp PrinterSdk.Native

/-! ## Requests -/

/-- `OperationKind`, without the unspecified one that no request has. -/
inductive OperationKind where
  | ippInspect
  | readSetting
  | runProbe
  | planChange
  | applyChange
  deriving DecidableEq, Repr

/-- `PlanChange`. -/
structure PlanChange where
  settingId : String
  requestedValue : Bytes
  protocol : String
  deriving DecidableEq, Repr

/-- `ApplyChange`. -/
structure ApplyChange where
  settingId : String
  expectedOldValueHash : Bytes
  requestedValue : Bytes
  protocol : String
  planExpiresAtUnixMs : UInt64
  expectedRequestedValueHash : Bytes
  deriving DecidableEq, Repr

/-- `protocol_request::Operation`.  The guarded path refuses the first three whatever
they carry. -/
inductive RequestOperation where
  | ippInspect
  | readSetting
  | runProbe
  | planChange (operation : PlanChange)
  | applyChange (operation : ApplyChange)
  deriving DecidableEq, Repr

/-- The kind of an operation. -/
def RequestOperation.kind : RequestOperation → OperationKind
  | .ippInspect => .ippInspect
  | .readSetting => .readSetting
  | .runProbe => .runProbe
  | .planChange _ => .planChange
  | .applyChange _ => .applyChange

/-- `ProtocolOperationLimits`. -/
structure ProtocolOperationLimits where
  timeoutMs : UInt64
  maximumResponseBytes : UInt64
  deriving DecidableEq, Repr

/-- `ProtocolRequest`. -/
structure ProtocolRequest where
  requestId : String
  contractVersion : UInt32
  authenticatedPrincipal : String
  printerId : String
  endpointGeneration : UInt64
  expiresAtUnixMs : UInt64
  limits : Option ProtocolOperationLimits
  operation : Option RequestOperation
  deriving DecidableEq, Repr

/-! ## Validation -/

/-- `ContractError`. -/
inductive ContractError where
  | missingIdentity
  | expired
  | invalidLimits
  | missingOperation
  | unsupportedOperation
  | initialReleaseIppInspectOnly
  deriving DecidableEq, Repr

/-- The message of a `ContractError`. -/
def ContractError.text : ContractError → String
  | .missingIdentity => "request identity and principal fields must be non-empty"
  | .expired => "request has expired"
  | .invalidLimits => "request limits are missing, zero, or exceed agent capabilities"
  | .missingOperation => "operation is missing"
  | .unsupportedOperation => "operation is not enabled by this agent session"
  | .initialReleaseIppInspectOnly => "initial cloud release accepts only IppInspect"

/-- `validate_request`. -/
def validateRequest (request : ProtocolRequest) (nowUnixMs maximumTimeoutMs : UInt64)
    (maximumResponseBytes : UInt64) (enabledOperations : List OperationKind) :
    Except ContractError Unit := do
  refuseIf (request.requestId.isEmpty ∨ request.authenticatedPrincipal.isEmpty ∨
    request.printerId.isEmpty ∨ request.contractVersion = 0) .missingIdentity
  refuseIf (request.expiresAtUnixMs ≤ nowUnixMs) .expired
  let limits ← okOr request.limits .invalidLimits
  refuseIf (limits.timeoutMs = 0 ∨ limits.maximumResponseBytes = 0 ∨
    maximumTimeoutMs < limits.timeoutMs ∨ maximumResponseBytes < limits.maximumResponseBytes)
    .invalidLimits
  let operation ← okOr request.operation .missingOperation
  refuseIf (operation.kind ∉ enabledOperations) .unsupportedOperation

/-! ## Rejections and results -/

/-- `RejectionReason`, without the unspecified one that the agent never gives. -/
inductive RejectionReason where
  | unsupportedVersion
  | unsupportedOperation
  | unknownPrinter
  | staleEndpoint
  | expired
  | unauthorized
  | limitExceeded
  | policy
  deriving DecidableEq, Repr

/-- `ProtocolRequestRejected`. -/
structure ProtocolRequestRejected where
  requestId : String
  reason : RejectionReason
  safeMessage : String
  deriving DecidableEq, Repr

/-- `ProtocolRequestAccepted`. -/
structure ProtocolRequestAccepted where
  requestId : String
  acceptedAtUnixMs : UInt64
  deriving DecidableEq, Repr

/-- `ResultOutcome`, without the unspecified one that the agent never gives. -/
inductive ResultOutcome where
  | succeeded
  | rejected
  | cancelled
  | timedOut
  | responseTooLarge
  | disconnected
  | ambiguousWrite
  | failed
  deriving DecidableEq, Repr

/-- The wire form of `OutputMode`. -/
inductive WireOutputMode where
  | normalizedRedacted
  | rawRedacted
  | rawSensitive
  deriving DecidableEq, Repr

/-- `ProtocolResult`, without the evidence that a change never has. -/
structure ProtocolResult where
  requestId : String
  outcome : ResultOutcome
  boundedResponse : Bytes
  outputMode : WireOutputMode
  safeError : String
  persistenceAllowed : Bool
  loggingAllowed : Bool
  deriving DecidableEq, Repr

/-- `InitialExecution::Accepted`. -/
structure AcceptedExecution where
  accepted : ProtocolRequestAccepted
  result : ProtocolResult
  deriving DecidableEq, Repr

/-- `InitialExecution`. -/
abbrev InitialExecution := Except ProtocolRequestRejected AcceptedExecution

/-- `reject`. -/
def reject (requestId : String) (reason : RejectionReason) (message : String) :
    ProtocolRequestRejected :=
  ⟨requestId, reason, message⟩

/-- `rejection`. -/
def rejection (requestId : String) (error : ContractError) : ProtocolRequestRejected :=
  let reason : RejectionReason :=
    match error with
    | .expired => .expired
    | .invalidLimits => .limitExceeded
    | .unsupportedOperation | .initialReleaseIppInspectOnly => .unsupportedOperation
    | .missingIdentity | .missingOperation => .policy
  reject requestId reason error.text

/-- `terminal`. -/
def terminal (requestId : String) (outcome : ResultOutcome) (message : String) :
    ProtocolResult where
  requestId
  outcome
  boundedResponse := []
  outputMode := .normalizedRedacted
  safeError := message
  persistenceAllowed := false
  loggingAllowed := false

/-- `bounded_json_result`, given the JSON form of its value. -/
def boundedJsonResult (requestId : String) (json : Option Bytes)
    (maximumResponseBytes : UInt64) : ProtocolResult :=
  match json with
  | some bytes =>
      if bytes.length ≤ maximumResponseBytes.toNat then
        { requestId
          outcome := .succeeded
          boundedResponse := bytes
          outputMode := .normalizedRedacted
          safeError := ""
          persistenceAllowed := false
          loggingAllowed := false }
      else
        terminal requestId .responseTooLarge "response exceeds configured limit"
  | none => terminal requestId .failed "response serialization failed"

/-- `success_empty`. -/
def successEmpty (requestId : String) : ProtocolResult :=
  boundedJsonResult requestId (some (asBytes "\x7b\"verified\":true\x7d")) 1024

/-- `safe_client_error`. -/
def safeClientError : IppClientError → ResultOutcome × String
  | .timeout => (.timedOut, "IPP request timed out")
  | .responseTooLarge _ =>
      (.responseTooLarge, "IPP response exceeded the configured limit")
  | .decode _ => (.failed, "IPP response was malformed")
  | .requestIdMismatch _ _ => (.failed, "IPP response correlation failed")
  | _ => (.failed, "IPP transport failed")

/-- `CloudChangeReceipt`. -/
structure CloudChangeReceipt where
  printerId : String
  endpointGeneration : UInt64
  setting : String
  expectedOldValueHash : Digest
  expectedRequestedValueHash : Digest
  principal : String
  protocol : ProtocolFamily
  expiresAtUnixMs : UInt64
  deriving DecidableEq

end PrinterSdk.Agent
