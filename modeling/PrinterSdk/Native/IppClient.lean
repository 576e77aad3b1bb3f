import PrinterSdk.Administration.Change
import PrinterSdk.Interaction.Program
import PrinterSdk.Ipp.Decode
import PrinterSdk.Ipp.Request
import PrinterSdk.Data.Machine

/-!
# The native IPP client

The client of `mb-printer-native` as a program over the operations it performs: one
HTTP exchange for every request.  The programs of the agent run over the same
operations, so these include what the agent shares between its requests.

Everything a server or the network can do in an exchange is its reply: nothing in
time, an error, or a response with any status, any announced length and any sequence
of chunks.  A panic is an operation that is never answered.
-/

namespace PrinterSdk.Native

open PrinterSdk.Data PrinterSdk.Interaction PrinterSdk.Ipp PrinterSdk.Administration

/-! ## Endpoints -/

/-- `IppScheme`. -/
inductive IppScheme where
  | ipp
  | ipps
  deriving DecidableEq, Repr

/-- `IppScheme::as_str`. -/
def IppScheme.asStr : IppScheme → String
  | .ipp => "ipp"
  | .ipps => "ipps"

/-- `IppScheme::http_scheme`. -/
def IppScheme.httpScheme : IppScheme → String
  | .ipp => "http"
  | .ipps => "https"

/-- `IppEndpoint`. -/
structure IppEndpoint where
  scheme : IppScheme
  host : String
  port : UInt16
  resource : String
  deriving DecidableEq, Repr

/-- `IppClientError`, without the details of a failed transport. -/
inductive IppClientError where
  | invalidEndpoint
  | invalidLimits
  | encode (error : EncodeError)
  | transport
  | timeout
  | httpStatus (status : Nat)
  | responseTooLarge (limit : Nat)
  | decode (error : DecodeError)
  | requestIdMismatch (expected actual : UInt32)
  deriving DecidableEq, Repr

/-- `bracket_ipv6`. -/
def bracketIpv6 (host : String) : String :=
  if contains (asBytes host) (asBytes ":") &&
      !(startsWith (asBytes host) (asBytes "[") && endsWith (asBytes host) (asBytes "]")) then
    "[" ++ host ++ "]"
  else
    host

namespace IppEndpoint

/-- `IppEndpoint::validate`. -/
def validate (endpoint : IppEndpoint) : Except IppClientError Unit :=
  let host := asBytes endpoint.host
  let resource := asBytes endpoint.resource
  refuseIf (host.isEmpty || host.any (fun byte => byte ∈ asBytes "\r\n/@") ||
    endpoint.port == 0 || !startsWith resource (asBytes "/") ||
    resource.any (fun byte => byte ∈ asBytes "\r\n")) .invalidEndpoint

/-- `{scheme}://{host}:{port}{resource}`. -/
def text (endpoint : IppEndpoint) (scheme : String) : String :=
  scheme ++ "://" ++ bracketIpv6 endpoint.host ++ ":" ++ toString endpoint.port.toNat ++
    endpoint.resource

/-- `IppEndpoint::printer_uri`. -/
def printerUri (endpoint : IppEndpoint) : Except IppClientError String := do
  endpoint.validate
  return endpoint.text endpoint.scheme.asStr

/-- `IppEndpoint::http_url`.  The parser of URLs is a parameter. -/
def httpUrl (parseUrl : String → Option String) (endpoint : IppEndpoint) :
    Except IppClientError String := do
  endpoint.validate
  okOr (parseUrl (endpoint.text endpoint.scheme.httpScheme)) .invalidEndpoint

end IppEndpoint

/-- `InspectLimits`, with the timeout in milliseconds. -/
structure InspectLimits where
  timeout : UInt64
  maximumResponseBytes : UInt64
  codec : Limits

/-- `InspectLimits::validate`. -/
def InspectLimits.validate (limits : InspectLimits) : Except IppClientError Unit :=
  refuseIf (limits.timeout = 0 ∨ limits.maximumResponseBytes < 8 ∨
    limits.codec.maxMessageBytes < limits.maximumResponseBytes) .invalidLimits

/-! ## Operations -/

/-- What one turn of the response stream yields before it ends. -/
inductive Chunk where
  | data (bytes : Bytes)
  | failed
  | timedOut
  deriving DecidableEq, Repr

/-- What comes of one HTTP exchange. -/
inductive Exchange where
  | timedOut
  | failed
  | responded (status : Nat) (contentLength : Option Nat) (chunks : List Chunk)
  deriving DecidableEq, Repr

/-- `PublishedPrinter`. -/
structure PublishedPrinter where
  printerId : String
  endpointGeneration : UInt64
  endpoint : IppEndpoint
  deriving DecidableEq, Repr

/-- The operations of the client and the agent: look up a published printer, consume a
guarded write request, ask for cancellation, send one HTTP request, or abort. -/
inductive Operation where
  | printer (printerId : String)
  | consume (requestId : String)
  | isCancelled
  | post (url : String) (body : Bytes)
  | abort
  deriving DecidableEq, Repr

/-- What each operation is answered with. -/
def Operation.Reply : Operation → Type
  | .printer _ => Option PublishedPrinter
  | .consume _ => Bool
  | .isCancelled => Bool
  | .post _ _ => Exchange
  | .abort => Empty

/-- The signature of the programs of the client and the agent. -/
abbrev operations : Signature := ⟨Operation, Operation.Reply⟩

/-- A computation of the client. -/
abbrev Client (ε α : Type) := Fallible operations ε α

/-- A panic. -/
def aborts {ε α : Type} : Client ε α := do
  let never : Empty ← @Fallible.perform operations ε .abort
  never.elim

/-- Return a result, or abort where it is a panic. -/
def settle {ε ε' α : Type} (convert : ε → ε') (outcome : Outcome ε α) : Client ε' α :=
  match outcome with
  | .ok value => return value
  | .error (.error error) => throw (convert error)
  | .error .panic => aborts

/-- `self.http.post(url)` with its body, up to the end of the response stream. -/
def post {ε : Type} (url : String) (body : Bytes) : Client ε Exchange :=
  @Fallible.perform operations ε (.post url body)

/-! ## One exchange -/

/-- The loop of `IppClient::inspect` over the response stream. -/
def collect (maximum : UInt64) : List Chunk → Bytes → Except IppClientError Bytes
  | [], bytes => .ok bytes
  | .timedOut :: _, _ => .error .timeout
  | .failed :: _, _ => .error .transport
  | .data chunk :: chunks, bytes =>
      if maximum.toNat < saturatingAdd bytes.length chunk.length then
        .error (.responseTooLarge maximum.toNat)
      else
        collect maximum chunks (bytes ++ chunk)

/-- What `IppClient::inspect` makes of an exchange. -/
def receive (limits : InspectLimits) (expectedRequestId : UInt32) :
    Exchange → Outcome IppClientError Message
  | .timedOut => fail .timeout
  | .failed => fail .transport
  | .responded status contentLength chunks =>
      if status < 200 ∨ 300 ≤ status then
        fail (.httpStatus status)
      else if contentLength.any fun length => limits.maximumResponseBytes.toNat < length then
        fail (.responseTooLarge limits.maximumResponseBytes.toNat)
      else
        match collect limits.maximumResponseBytes chunks [] with
        | .error error => fail error
        | .ok bytes =>
            match decode bytes limits.codec with
            | .error .panic => panics
            | .error (.error error) => fail (.decode error)
            | .ok response =>
                if response.requestId ≠ expectedRequestId then
                  fail (.requestIdMismatch expectedRequestId response.requestId)
                else
                  .ok response

/-- The code outside the repository that the client uses: hashing and the parser of
URLs. -/
structure Externals where
  hashing : Hashing
  parseUrl : String → Option String

/-- `IppClient::inspect`. -/
def inspect (externals : Externals) (endpoint : IppEndpoint) (request : Message)
    (limits : InspectLimits) : Client IppClientError Message := do
  Fallible.ofExcept limits.validate
  let url ← Fallible.ofExcept (endpoint.httpUrl externals.parseUrl)
  let body ← settle .encode (encode request limits.codec)
  let exchange ← post url body
  settle id (receive limits request.requestId exchange)

/-! ## Planning and applying a change -/

/-- `PlanChangeError`. -/
inductive PlanChangeError where
  | endpoint (error : IppClientError)
  | read (error : IppClientError)
  | supportedValues (error : SupportedValuesError)
  | supportedValuesRequest (error : SupportedValuesRequestError)
  | invalidPlan (error : ChangePlanError)
  deriving DecidableEq, Repr

/-- `ApplyChangeError`. -/
inductive ApplyChangeError where
  | preWriteRead (error : IppClientError)
  | invalidPlan (error : ChangePlanError)
  | supportedValues (error : SupportedValuesError)
  | supportedValuesRequest (error : SupportedValuesRequestError)
  | endpoint (error : IppClientError)
  deriving DecidableEq, Repr

/-- `ApplyChangeOutcome`. -/
inductive ApplyChangeOutcome where
  | verified (writeResponse observation : Message)
  | rejected (writeResponse : Message)
  | readBackMismatch (writeResponse observation : Message)
  | ambiguous (stage : String) (error : IppClientError)
  deriving DecidableEq

/-- The attributes that a change of `setting` reads. -/
def requestedAttributes (setting : String) : List Bytes :=
  [asBytes setting, asBytes "operations-supported",
    asBytes "printer-settable-attributes-supported"] ++
    ((stripSuffix (asBytes setting) (asBytes "-default")).map fun base =>
      base ++ asBytes "-supported").toList

/-- The request that reads the attributes for a change of `setting`. -/
def readRequest (printerUri setting : String) : Message :=
  getPrinterAttributesRequest (asBytes printerUri) (requestedAttributes setting) none 1

/-- Ask for the supported values of a setting that names a set of them.  Planning and
applying number this request differently and wrap its errors in their own type. -/
def supportedValues {ε : Type} (externals : Externals) (endpoint : IppEndpoint)
    (printerUri setting : String) (requestId : UInt32) (limits : InspectLimits)
    (read : IppClientError → ε) (invalidRequest : SupportedValuesRequestError → ε)
    (invalidResponse : SupportedValuesError → ε) :
    Client ε (Option SupportedPrinterValues) := do
  if namesSupportedValues setting then
    let request ← Fallible.mapError invalidRequest (Fallible.ofExcept
      (getPrinterSupportedValuesRequest (asBytes printerUri) [asBytes setting] requestId))
    let response ← Fallible.mapError read (inspect externals endpoint request limits)
    let parsed ← Fallible.mapError invalidResponse
      (Fallible.ofExcept (parseGetPrinterSupportedValues response))
    return some parsed
  else
    return none

/-- `IppClient::plan_change`. -/
def planChange (externals : Externals) (endpoint : IppEndpoint) (request : PlanChangeRequest)
    (limits : InspectLimits) : Client PlanChangeError ConfirmedChangePlan := do
  let printerUri ← Fallible.mapError .endpoint (Fallible.ofExcept endpoint.printerUri)
  let observation ← Fallible.mapError .read
    (inspect externals endpoint (readRequest printerUri request.setting) limits)
  let supported ← supportedValues externals endpoint printerUri request.setting 2 limits
    .read .supportedValuesRequest .supportedValues
  Fallible.mapError .invalidPlan (Fallible.ofExcept
    (planIppChangeWithSupportedValues externals.hashing observation supported request))

/-- The write and the read-back of `IppClient::apply_confirmed_change`. -/
def writeAndVerify (externals : Externals) (endpoint : IppEndpoint) (printerUri : String)
    (plan : ConfirmedChangePlan) (limits : InspectLimits) :
    Client ApplyChangeError ApplyChangeOutcome := do
  let writeRequest := setPrinterAttributesRequest (asBytes printerUri) (asBytes plan.setting)
    plan.requestedProtocolValue 2
  match ← Fallible.attempt (inspect externals endpoint writeRequest limits) with
  | .error error => return .ambiguous "write" error
  | .ok writeResponse =>
      if 0x0100 ≤ writeResponse.code then
        return .rejected writeResponse
      match ← Fallible.attempt
          (inspect externals endpoint (readRequest printerUri plan.setting) limits) with
      | .error error => return .ambiguous "verification-read" error
      | .ok observation =>
          if ippChangeIsApplied plan observation then
            return .verified writeResponse observation
          else
            return .readBackMismatch writeResponse observation

/-- `IppClient::apply_confirmed_change`. -/
def applyConfirmedChange (externals : Externals) (endpoint : IppEndpoint)
    (plan : ConfirmedChangePlan) (binding : ChangeBinding) (limits : InspectLimits) :
    Client ApplyChangeError ApplyChangeOutcome := do
  let printerUri ← Fallible.mapError .endpoint (Fallible.ofExcept endpoint.printerUri)
  let supported ← supportedValues externals endpoint printerUri plan.setting 3 limits
    .preWriteRead .supportedValuesRequest .supportedValues
  let immediatelyCurrent ← Fallible.mapError .preWriteRead
    (inspect externals endpoint (readRequest printerUri plan.setting) limits)
  Fallible.mapError .invalidPlan (Fallible.ofExcept
    (validateConfirmedIppChangeWithSupportedValues externals.hashing plan immediatelyCurrent
      supported binding))
  writeAndVerify externals endpoint printerUri plan limits

end PrinterSdk.Native
