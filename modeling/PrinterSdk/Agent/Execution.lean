import PrinterSdk.Agent.Contract
import PrinterSdk.Interaction.Concurrent

/-!
# Guarded changes in the agent

`execute_guarded_ipp_change` as a program of the agent, and the state that all requests
to one agent share: the published printers and the consumed request identifiers.
-/

namespace PrinterSdk.Agent

open PrinterSdk.Data PrinterSdk.Interaction PrinterSdk.Ipp PrinterSdk.Native
open PrinterSdk.Administration

/-- `AgentPolicy`, without the fields that concern raw output. -/
structure AgentPolicy where
  agentId : String
  contractVersion : UInt32
  maximumTimeoutMs : UInt64
  maximumResponseBytes : UInt64
  deriving DecidableEq, Repr

/-- `GuardedWritePolicy`. -/
structure GuardedWritePolicy where
  allowedSettings : List String
  deriving DecidableEq, Repr

/-- The code outside the repository that the agent uses: that of the client, and the
JSON forms of requested values and receipts. -/
structure Externals extends Native.Externals where
  parseValue : Bytes → Option Value
  receiptJson : CloudChangeReceipt → Option Bytes

/-- One call of `execute_guarded_ipp_change`. -/
structure Submission where
  request : ProtocolRequest
  nowUnixMs : UInt64
  policy : GuardedWritePolicy
  deriving DecidableEq, Repr

/-- `self.printers.read()` and the lookup of a printer. -/
def printer {ε : Type} (printerId : String) : Client ε (Option PublishedPrinter) :=
  @Fallible.perform operations ε (.printer printerId)

/-- `self.guarded_write_requests.lock()` and the insertion of a request. -/
def consume {ε : Type} (requestId : String) : Client ε Bool :=
  @Fallible.perform operations ε (.consume requestId)

/-- `cancellation.is_cancelled()`. -/
def isCancelled {ε : Type} : Client ε Bool :=
  @Fallible.perform operations ε .isCancelled

/-! ## The two operations -/

/-- `AgentExecutor::plan_cloud_change`. -/
def planCloudChange {ε : Type} (externals : Externals) (request : ProtocolRequest)
    (printer : PublishedPrinter) (operation : PlanChange) (limits : InspectLimits) :
    Client ε ProtocolResult := do
  if operation.protocol ≠ "ipp" then
    return terminal request.requestId .failed "protocol must be IPP"
  match externals.parseValue operation.requestedValue with
  | none => return terminal request.requestId .failed "requested IPP value is malformed"
  | some requestedValue =>
      match ← Fallible.attempt (planChange externals.toExternals printer.endpoint {
          printerId := request.printerId
          endpointGeneration := request.endpointGeneration
          setting := operation.settingId
          requestedValue := requestedValue
          principal := request.authenticatedPrincipal
          protocol := .ipp
          expiresAtUnixMs := request.expiresAtUnixMs } limits) with
      | .error (.read error) =>
          return terminal request.requestId (safeClientError error).1 (safeClientError error).2
      | .error (.endpoint _) =>
          return terminal request.requestId .failed "published printer endpoint is invalid"
      | .error (.supportedValues _) | .error (.invalidPlan _)
      | .error (.supportedValuesRequest _) =>
          return terminal request.requestId .rejected "printer does not confirm this change"
      | .ok plan =>
          return boundedJsonResult request.requestId (externals.receiptJson {
            printerId := plan.printerId
            endpointGeneration := plan.endpointGeneration
            setting := plan.setting
            expectedOldValueHash := plan.expectedOldValueHash
            expectedRequestedValueHash :=
              ippValueHash externals.hashing plan.requestedProtocolValue
            principal := plan.principal
            protocol := plan.protocol
            expiresAtUnixMs := plan.expiresAtUnixMs }) limits.maximumResponseBytes

/-- What `apply_cloud_change` makes of an outcome. -/
def applyResult (requestId : String) :
    Except ApplyChangeError ApplyChangeOutcome → ProtocolResult
  | .ok (.verified _ _) => successEmpty requestId
  | .ok (.rejected _) => terminal requestId .rejected "printer rejected the change"
  | .ok (.readBackMismatch _ _) =>
      terminal requestId .failed "post-write verification did not match"
  | .ok (.ambiguous _ _) =>
      terminal requestId .ambiguousWrite "write outcome is ambiguous and will not be retried"
  | .error _ =>
      terminal requestId .rejected "confirmed change became stale or could not be read"

/-- `AgentExecutor::apply_cloud_change`. -/
def applyCloudChange {ε : Type} (externals : Externals) (request : ProtocolRequest)
    (printer : PublishedPrinter) (operation : ApplyChange) (nowUnixMs : UInt64)
    (limits : InspectLimits) : Client ε ProtocolResult := do
  if sized : operation.protocol = "ipp" ∧ operation.expectedOldValueHash.length = 32 ∧
      operation.expectedRequestedValueHash.length = 32 ∧
      operation.planExpiresAtUnixMs ≤ request.expiresAtUnixMs then
    match externals.parseValue operation.requestedValue with
    | none => return terminal request.requestId .rejected "requested IPP value is malformed"
    | some requestedValue =>
        if operation.expectedRequestedValueHash ≠
            (ippValueHash externals.hashing requestedValue).1 then
          return terminal request.requestId .rejected
            "requested value no longer matches the confirmation"
        match confirmedIppPlanFromWire request.printerId request.endpointGeneration
            operation.settingId ⟨operation.expectedOldValueHash, sized.2.1⟩ requestedValue
            request.authenticatedPrincipal operation.planExpiresAtUnixMs with
        | .error _ =>
            return terminal request.requestId .rejected "confirmed change value is invalid"
        | .ok plan =>
            let outcome ← Fallible.attempt (applyConfirmedChange externals.toExternals
              printer.endpoint plan {
                printerId := request.printerId
                endpointGeneration := request.endpointGeneration
                principal := request.authenticatedPrincipal
                protocol := .ipp
                nowUnixMs := nowUnixMs } limits)
            return applyResult request.requestId outcome
  else
    return terminal request.requestId .rejected "confirmed change fields are invalid"

/-! ## Dispatch -/

/-- The limits under which an accepted request runs. -/
def inspectLimits (limits : ProtocolOperationLimits) : InspectLimits where
  timeout := limits.timeoutMs
  maximumResponseBytes := limits.maximumResponseBytes
  codec := { Limits.default with maxMessageBytes := limits.maximumResponseBytes }

/-- The setting that a change names. -/
def RequestOperation.setting : RequestOperation → Option String
  | .planChange operation => some operation.settingId
  | .applyChange operation => some operation.settingId
  | _ => none

/-- The guards of `execute_guarded_ipp_change_with_cancellation` up to the local
policy. -/
def authorize (policy : AgentPolicy) (submission : Submission) :
    Client ProtocolRequestRejected (PublishedPrinter × RequestOperation) := do
  let request := submission.request
  Fallible.mapError (rejection request.requestId) (Fallible.ofExcept
    (validateRequest request submission.nowUnixMs policy.maximumTimeoutMs
      policy.maximumResponseBytes [.planChange, .applyChange]))
  Fallible.ofExcept (refuseIf (request.contractVersion ≠ policy.contractVersion)
    (reject request.requestId .unsupportedVersion "unsupported contract version"))
  let found ← printer request.printerId
  let printer ← Fallible.ofExcept (okOr found
    (reject request.requestId .unknownPrinter "unknown published printer"))
  Fallible.ofExcept (refuseIf (printer.endpointGeneration ≠ request.endpointGeneration)
    (reject request.requestId .staleEndpoint "stale endpoint generation"))
  let operation ← Fallible.ofExcept (okOr request.operation
    (rejection request.requestId .missingOperation))
  let setting ← Fallible.ofExcept (okOr operation.setting
    (rejection request.requestId .unsupportedOperation))
  Fallible.ofExcept (refuseIf (setting ∉ submission.policy.allowedSettings)
    (reject request.requestId .unauthorized "setting is not authorized by local policy"))
  return (printer, operation)

/-- Consume the identifier of a write request. -/
def consumeWrite (submission : Submission) (operation : RequestOperation) :
    Client ProtocolRequestRejected Unit := do
  if operation.kind = .applyChange then
    let inserted ← consume submission.request.requestId
    Fallible.ofExcept (refuseIf (inserted = false)
      (reject submission.request.requestId .policy
        "guarded write request ID was already consumed"))
  else
    return ()

/-- The rest of `execute_guarded_ipp_change_with_cancellation`, once a write request is
consumed. -/
def dispatch (externals : Externals) (submission : Submission) (printer : PublishedPrinter)
    (operation : RequestOperation) : Client ProtocolRequestRejected AcceptedExecution := do
  let request := submission.request
  let accepted : ProtocolRequestAccepted := ⟨request.requestId, submission.nowUnixMs⟩
  if ← isCancelled then
    return ⟨accepted, terminal request.requestId .cancelled "cancelled"⟩
  match request.limits with
  | none => throw (rejection request.requestId .invalidLimits)
  | some limits =>
      match operation with
      | .planChange operation =>
          return ⟨accepted, ← planCloudChange externals request printer operation
            (inspectLimits limits)⟩
      | .applyChange operation =>
          return ⟨accepted, ← applyCloudChange externals request printer operation
            submission.nowUnixMs (inspectLimits limits)⟩
      | _ => throw (rejection request.requestId .unsupportedOperation)

/-- `AgentExecutor::execute_guarded_ipp_change_with_cancellation`. -/
def executeGuardedIppChange (externals : Externals) (policy : AgentPolicy)
    (submission : Submission) : Program operations InitialExecution :=
  ExceptT.run (do
    let authorized ← authorize policy submission
    consumeWrite submission authorized.2
    dispatch externals submission authorized.1 authorized.2)

/-! ## The shared state -/

/-- The state behind the locks of `AgentExecutor`.  A printer published again replaces
its earlier publication, so the most recent one stands first. -/
structure AgentState where
  printers : List PublishedPrinter
  guardedWriteRequests : List String

/-- The state of a new agent. -/
def AgentState.new : AgentState := ⟨[], []⟩

/-- `AgentExecutor::publish`. -/
def AgentState.publish (state : AgentState) (printer : PublishedPrinter) :
    Except String AgentState := do
  refuseIf (printer.printerId.isEmpty ∨ printer.endpointGeneration = 0)
    "published printer identity and generation must be valid"
  return { state with printers := printer :: state.printers }

/-- The lookup of a printer under the read lock. -/
def AgentState.printer (state : AgentState) (printerId : String) : Option PublishedPrinter :=
  state.printers.find? fun printer => printer.printerId == printerId

/-- The insertion into the consumed requests under their lock, with whether it was
new. -/
def AgentState.consume (state : AgentState) (requestId : String) : Bool × AgentState :=
  if requestId ∈ state.guardedWriteRequests then
    (false, state)
  else
    (true, { state with guardedWriteRequests := requestId :: state.guardedWriteRequests })

/-- How the agent answers the operations of its requests.  Cancellation and everything
that a server does are arbitrary; a panic is never answered. -/
def agent : Environment operations AgentState where
  answers state op reply next :=
    match op with
    | .printer printerId => reply = state.printer printerId ∧ next = state
    | .consume requestId => (reply, next) = state.consume requestId
    | .isCancelled => next = state
    | .post _ _ => next = state
    | .abort => False
  evolves state next := ∃ printer, state.publish printer = .ok next

/-- A reachable state of one agent with all requests that were submitted to it. -/
abbrev AgentWorld := World operations AgentState Submission InitialExecution

end PrinterSdk.Agent
