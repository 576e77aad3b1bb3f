import PrinterSdk.Data.Chunks
import PrinterSdk.Data.Machine
import PrinterSdk.Executor.Transport

/-!
# Preflight and plan execution

The executor of `mb-printer-executor`: whole-plan preflight, physical chunking,
pacing, response collection and validation, with cancellation raced against
every pending effect.  Tracing spans are not modelled; the progress callback is
an effect.
-/

namespace PrinterSdk.Executor

open PrinterSdk.Data PrinterSdk.Interaction PrinterSdk.Protocol

/-- Maximum number of actions accepted by executor preflight. -/
def maxPlanActions : Nat := 16384

/-- Maximum total response bytes retained for one execution. -/
def maxRetainedResponseBytes : Nat := 16 * 1024 * 1024

def maxFixedResponseReads : Nat := 16

def maxMultipartReads : Nat := 4096

/-- Policy applied to reference delays embedded in a protocol plan. -/
inductive ReferenceTiming where
  | preserve
  | increaseBy (extra : Nat)
  | unsafeDiagnosticReduceBy (reduction : Nat)
  deriving DecidableEq, Repr

def ReferenceTiming.apply (timing : ReferenceTiming) (referenceMs : Nat) : Duration :=
  fromMillis <|
    match timing with
    | .preserve => referenceMs
    | .increaseBy extra => saturatingAdd referenceMs extra
    | .unsafeDiagnosticReduceBy reduction => referenceMs - reduction

/-! ## Preflight -/

def invalid (action : Nat) (message : String) : ExecuteError :=
  .invalidPlan action message

def isVariableLength : ResponseValidation → Bool
  | .brotherObjbrnet | .brotherWifiScan | .brotherSystemReport => true
  | _ => false

/-- The per-action checks of preflight, threading the retained-byte budget. -/
def preflightAction (commandLimit index retained : Nat) :
    Action → Except ExecuteError Nat
  | .commandWrite _ bytes atomic =>
      if atomic && decide (bytes.length > commandLimit) then
        .error (.atomicTooLarge index bytes.length commandLimit)
      else
        .ok retained
  | .rasterWrite _ logicalChunk _ =>
      if logicalChunk = 0 then .error (invalid index "zero logical raster chunk")
      else .ok retained
  | .waitForResponse timeoutMs _ validation =>
      if timeoutMs = 0 then
        .error (invalid index "response timeout must be positive")
      else if isVariableLength validation then
        .error (invalid index
          "variable-length validator requires response collection")
      else
        .ok retained
  | .collectResponse timeoutMs idleTimeoutMs maximumBytes _ =>
      if timeoutMs = 0 || idleTimeoutMs = 0 || maximumBytes = 0 then
        .error (invalid index "response collection bounds must be positive")
      else
        match checkedAdd retained maximumBytes with
        | none => .error (invalid index "retained response byte limit overflow")
        | some total =>
            if total > maxRetainedResponseBytes then
              .error (invalid index
                "retained response bytes exceed executor limit")
            else
              .ok total
  | _ => .ok retained

def preflightActions (commandLimit : Nat) :
    Nat → Nat → List Action → Except ExecuteError Unit
  | _, _, [] => .ok ()
  | index, retained, action :: rest =>
      match preflightAction commandLimit index retained action with
      | .error error => .error error
      | .ok total => preflightActions commandLimit (index + 1) total rest

/-- Whole-plan structural validation before any effect. -/
def preflight (plan : Plan) (payloadLimit commandLimit : Nat) :
    Except ExecuteError Unit :=
  if payloadLimit = 0 then
    .error (invalid 0 "zero transport payload limit")
  else if commandLimit = 0 then
    .error (invalid 0 "zero transport command limit")
  else if plan.actions.length > maxPlanActions then
    .error (invalid 0 "plan action count exceeds executor limit")
  else
    preflightActions commandLimit 0 0 plan.actions

/-! ## Effects and their failures -/

def cancelled (progress : Progress) : ExecuteError :=
  .cancelled progress

def nonWriteError (progress : Progress) (source : TransportError) : ExecuteError :=
  if source.kind = .cancelled then cancelled progress
  else .transport progress source

/-- Failure of a response collection, before progress is attached. -/
inductive EffectError where
  | cancelled
  | transport (error : TransportError)
  | response (message : String)
  deriving DecidableEq, Repr

def responseEffectError (progress : Progress) : EffectError → ExecuteError
  | .cancelled => cancelled progress
  | .transport source => nonWriteError progress source
  | .response message => .response progress message

def checkCancelled (progress : Progress) : Exec Unit := do
  if ← effect .isCancelled then
    throw (cancelled progress)

/-- Wait for a paced delay unless cancellation overtakes it. -/
def raceDelay (duration : Duration) (progress : Progress) : Exec Unit := do
  match ← effect (.delay duration) with
  | .cancelled => throw (cancelled progress)
  | .completed () => return ()

/-- Hand one piece to the transport exactly once. -/
def writePiece (bytes : Bytes) (kind : WriteKind) (progress : Progress) :
    Exec Progress := do
  checkCancelled progress
  let progress := { progress with potentiallyAcceptedWrite := true }
  match ← effect (.write bytes kind) with
  | .cancelled => throw (.writeOutcomeUnknown progress none)
  | .completed (.error source) => throw (.writeOutcomeUnknown progress (some source))
  | .completed (.ok ()) =>
      return { progress with
        bytesWritten := saturatingAdd progress.bytesWritten bytes.length }

/-! ## Response collection -/

/-- Response-collection computations, whose failures carry no progress yet. -/
abbrev Collect (α : Type) : Type := Fallible effects EffectError α

def wait (timeout : Duration) : Collect WaitOutcome := do
  match ← effect (.waitResponse timeout) with
  | .cancelled => throw .cancelled
  | .completed (.error error) =>
      if error.kind = .cancelled then throw .cancelled
      else throw (.transport error)
  | .completed (.ok outcome) => return outcome

def isPhomemo (validation : ResponseValidation) : Bool :=
  validation == .phomemoNotification

/-- The reply length a fixed-format validation waits for. -/
def expectedLength : ResponseValidation → Nat
  | .brotherStatus32 => 32
  | .anyNotification => 1
  | .phomemoNotification => 3
  | _ => usizeMax

/-- What a fixed-format collection returns when no further frame arrives. -/
def settle (validation : ResponseValidation) (bytes : Bytes)
    (outcome : WaitOutcome) : WaitOutcome :=
  if bytes.isEmpty || isPhomemo validation then outcome else .response bytes

/-- Reads remaining in the fixed-format collection loop; `first` marks the
initial read, which waits for the whole timeout. -/
def collectResponseReads (timeout : Duration) (validation : ResponseValidation)
    (alreadyRetained : Nat) : Nat → Bool → Bytes → Collect WaitOutcome
  | 0, _, bytes =>
      return if isPhomemo validation then .timeout else .response bytes
  | reads + 1, first, bytes => do
      let remaining := timeout - (← effect .elapsed)
      if remaining = 0 then
        return settle validation bytes .timeout
      else
        match ← wait (if first then timeout else remaining) with
        | .response chunk =>
            match (checkedAdd alreadyRetained bytes.length).bind
                (checkedAdd · chunk.length) with
            | none => throw (.response "response size overflow")
            | some retained =>
                if retained > maxRetainedResponseBytes then
                  throw (.response "retained response bytes exceed executor limit")
                else
                  let bytes := bytes ++ chunk
                  if isPhomemo validation then
                    match bytes.findIdx? (· == 0x1a) with
                    | some start =>
                        if bytes.length - start ≥ expectedLength validation then
                          return .response (bytes.drop start)
                        else
                          collectResponseReads timeout validation alreadyRetained
                            reads false bytes
                    | none =>
                        collectResponseReads timeout validation alreadyRetained
                          reads false bytes
                  else if bytes.length ≥ expectedLength validation then
                    return .response bytes
                  else
                    collectResponseReads timeout validation alreadyRetained
                      reads false bytes
        | outcome => return settle validation bytes outcome

def collectResponse (timeout : Duration) (validation : ResponseValidation)
    (alreadyRetained : Nat) : Collect WaitOutcome :=
  collectResponseReads timeout validation alreadyRetained maxFixedResponseReads
    true []

/-- The exit of the multipart loop. -/
def finishMultipart (timeout : Duration) (becameIdle : Bool) (bytes : Bytes) :
    Collect WaitOutcome := do
  if bytes.isEmpty then
    return .timeout
  else if becameIdle then
    return .response bytes
  else if (← effect .elapsed) < timeout then
    throw (.response "response did not become idle before the read limit")
  else
    return .response bytes

def collectMultipartReads (timeout idleTimeout : Duration) (maximumBytes : Nat) :
    Nat → Bool → Bytes → Collect WaitOutcome
  | 0, _, bytes => finishMultipart timeout false bytes
  | reads + 1, first, bytes => do
      let remaining := timeout - (← effect .elapsed)
      if remaining = 0 then
        finishMultipart timeout false bytes
      else
        match ← wait (if first then timeout else min idleTimeout remaining) with
        | .response chunk =>
            if chunk.isEmpty then
              finishMultipart timeout true bytes
            else
              match checkedAdd bytes.length chunk.length with
              | none => throw (.response "response size overflow")
              | some newLength =>
                  if newLength > maximumBytes then
                    throw (.response "response exceeded declared maximum")
                  else
                    collectMultipartReads timeout idleTimeout maximumBytes reads
                      false (bytes ++ chunk)
        | outcome =>
            return if bytes.isEmpty then outcome else .response bytes

def collectMultipartResponse (timeout idleTimeout : Duration)
    (maximumBytes : Nat) : Collect WaitOutcome :=
  collectMultipartReads timeout idleTimeout maximumBytes maxMultipartReads true []

def responseIsValid (validation : ResponseValidation) (bytes : Bytes) : Bool :=
  match validation with
  | .anyNotification => !bytes.isEmpty
  | .phomemoNotification =>
      decide (bytes.length ≥ 3) && bytes.head? == some 0x1a
  | .brotherStatus32 =>
      decide (bytes.length = 32) && [0x80, 0x20, 0x42].isPrefixOf bytes
  | .brotherObjbrnet => contains bytes (asBytes "OBJBRNET")
  | .brotherWifiScan =>
      contains bytes (asBytes "AVAILABLEWLAN") || contains bytes (asBytes "VAP,")
  | .brotherSystemReport =>
      contains bytes (asBytes "<<PRINTER CONFIGURATION>>")

def validate (validation : ResponseValidation) (bytes : Bytes)
    (progress : Progress) : Except ExecuteError Unit :=
  if responseIsValid validation bytes then .ok ()
  else .error (.response progress "response did not match declared validator")

def retainedBytes (progress : Progress) : Nat :=
  (progress.responses.map List.length).sum

/-- Attach progress to the failure of a response collection. -/
def withProgress (progress : Progress) (collection : Collect WaitOutcome) :
    Exec WaitOutcome :=
  ExceptT.mk do
    match ← collection.run with
    | .ok outcome => return .ok outcome
    | .error error => return .error (responseEffectError progress error)

/-- Validate a reply and retain it. -/
def retainResponse (validation : ResponseValidation) (bytes : Bytes)
    (progress : Progress) : Exec Progress := do
  ExceptT.mk (pure (validate validation bytes progress))
  return { progress with responses := progress.responses ++ [bytes] }

/-! ## The action loop -/

/-- Write the physical pieces of one logical chunk, pacing after each. -/
def writePieces (duration : Duration) : List Bytes → Progress → Exec Progress
  | [], progress => return progress
  | piece :: rest, progress => do
      checkCancelled progress
      let progress ← writePiece piece .raster progress
      raceDelay duration progress
      writePieces duration rest progress

/-- Write the logical chunks of one raster action. -/
def writeLogicalChunks (duration : Duration) (payloadLimit : Nat) :
    List Bytes → Progress → Exec Progress
  | [], progress => return progress
  | logical :: rest, progress => do
      let progress ← writePieces duration (chunks payloadLimit logical) progress
      writeLogicalChunks duration payloadLimit rest progress

/-- One arm of the action loop. -/
def executeAction (timing : ReferenceTiming) (index : Nat) (action : Action)
    (progress : Progress) : Exec Progress :=
  match action with
  | .jobBoundary _ => return progress
  | .subscribeNotifications => do
      match ← effect .subscribe with
      | .cancelled => throw (cancelled progress)
      | .completed (.ok _) => return progress
      | .completed (.error error) => throw (nonWriteError progress error)
  | .delay milliseconds => do
      raceDelay (timing.apply milliseconds) progress
      return progress
  | .commandWrite _ bytes _ => writePiece bytes .command progress
  | .rasterWrite bytes logicalChunk delayMs => do
      let payloadLimit ← effect .payloadLimit
      if payloadLimit = 0 then
        throw (invalid index "zero negotiated transport payload limit")
      writeLogicalChunks (timing.apply delayMs) payloadLimit
        (chunks logicalChunk bytes) progress
  | .waitForResponse timeoutMs fallbackDelayMs validation => do
      match ← withProgress progress
          (collectResponse (fromMillis timeoutMs) validation
            (retainedBytes progress)) with
      | .response bytes => retainResponse validation bytes progress
      | _ =>
          if fallbackDelayMs > 0 then
            raceDelay (timing.apply fallbackDelayMs) progress
            return progress
          else if validation = .brotherStatus32 then
            return progress
          else
            throw (.timeout progress)
  | .collectResponse timeoutMs idleTimeoutMs maximumBytes validation => do
      match ← withProgress progress
          (collectMultipartResponse (fromMillis timeoutMs)
            (fromMillis idleTimeoutMs) maximumBytes) with
      | .response bytes => retainResponse validation bytes progress
      | _ => throw (.timeout progress)

/-- The action loop from a given index on. -/
def executeActions (timing : ReferenceTiming) :
    Nat → List Action → Progress → Exec Progress
  | _, [], progress => return progress
  | index, action :: rest, progress => do
      checkCancelled progress
      let progress ← executeAction timing index action progress
      let progress := { progress with lastCompletedAction := some index }
      effect (.report progress)
      executeActions timing (index + 1) rest progress

/-- Execute a plan: read the transport limits, preflight, run every action. -/
def execute (timing : ReferenceTiming) (plan : Plan) : Exec Progress := do
  let payloadLimit ← effect .payloadLimit
  let commandLimit ← effect .commandLimit
  ExceptT.mk (pure (preflight plan payloadLimit commandLimit))
  executeActions timing 0 plan.actions {}

end PrinterSdk.Executor
