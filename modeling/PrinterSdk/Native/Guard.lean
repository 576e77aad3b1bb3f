import PrinterSdk.Administration.Revalidation
import PrinterSdk.Native.IppClient

/-!
# When the client writes

Each function of the client is specified once, against any invariant on the operations
it issues.  Reading functions ask the invariant only for operations that write nothing;
applying a change asks it also for one write, together with what the client has
established by then.
-/

namespace PrinterSdk.Native

open PrinterSdk.Data PrinterSdk.Interaction PrinterSdk.Ipp PrinterSdk.Administration

/-! ## Writes in a history -/

/-- Whether an operation sends a Set-Printer-Attributes request. -/
def isWrite : Operation → Bool
  | .post _ body => operationCode body == setPrinterAttributes
  | _ => false

/-- The number of Set-Printer-Attributes requests in a history. -/
def writeCount (history : List (Event operations)) : Nat :=
  history.countP fun event => isWrite event.op

/-- One answered HTTP request. -/
abbrev exchanged (url : String) (body : Bytes) (exchange : Exchange) : Event operations :=
  ⟨Operation.post url body, exchange⟩

@[simp] theorem writeCount_nil : writeCount [] = 0 := rfl

@[simp] theorem writeCount_append (left right : List (Event operations)) :
    writeCount (left ++ right) = writeCount left + writeCount right :=
  List.countP_append

theorem writeCount_singleton_of_read {event : Event operations}
    (read : isWrite event.op = false) : writeCount [event] = 0 := by
  simp [writeCount, read]

/-! ## The requests of the client -/

theorem readRequest_code (printerUri setting : String) :
    (readRequest printerUri setting).code ≠ setPrinterAttributes := by
  simp [readRequest, getPrinterAttributesRequest, getPrinterAttributes, setPrinterAttributes]

theorem getPrinterSupportedValuesRequest_code {printerUri : Bytes} {attributes : List Bytes}
    {requestId : UInt32} {request : Message}
    (built : getPrinterSupportedValuesRequest printerUri attributes requestId = .ok request) :
    request.code = getPrinterSupportedValues := by
  simp only [getPrinterSupportedValuesRequest, except_bind_eq_ok, except_pure_eq_ok] at built
  obtain ⟨_, _, _, _, rfl⟩ := built
  rfl

/-! ## One exchange -/

variable {externals : Externals} {endpoint : IppEndpoint} {limits : InspectLimits}
variable {invariant : List (Event operations) → Operation → Prop}
variable {history : List (Event operations)}

/-- The HTTP request that carries an IPP request to an endpoint. -/
structure Carries (externals : Externals) (endpoint : IppEndpoint) (limits : InspectLimits)
    (request : Message) (url : String) (body : Bytes) : Prop where
  url : endpoint.httpUrl externals.parseUrl = .ok url
  body : encode request limits.codec = .ok body

/-- A carried request writes exactly when it is a Set-Printer-Attributes request. -/
theorem Carries.isWrite_eq {request : Message} {url : String} {body : Bytes}
    (carries : Carries externals endpoint limits request url body) :
    isWrite (.post url body) = (request.code == setPrinterAttributes) := by
  rw [isWrite, operationCode_encode carries.body]

theorem settle_meets {ε ε' α : Type} {success : List (Event operations) → α → Prop}
    {failure : List (Event operations) → ε' → Prop} (convert : ε → ε') (outcome : Outcome ε α)
    (aborted : invariant history .abort)
    (returned : ∀ value, outcome = .ok value → success history value)
    (failed : ∀ error, failure history error) :
    Fallible.Meets invariant success failure history (settle convert outcome) := by
  match outcome with
  | .ok value => exact returned value rfl
  | .error (.error error) => exact failed (convert error)
  | .error .panic => exact ⟨aborted, fun never => never.elim⟩

/-- Specification of `inspect`: at most one request, and a value only when the exchange
carried it. -/
theorem inspect_meets {request : Message} {success : List (Event operations) → Message → Prop}
    {failure : List (Event operations) → IppClientError → Prop}
    (aborted : ∀ later, invariant later .abort)
    (sends : ∀ url body, Carries externals endpoint limits request url body →
      invariant history (.post url body))
    (unsent : ∀ error, failure history error)
    (received : ∀ url body exchange message,
      Carries externals endpoint limits request url body →
      receive limits request.requestId exchange = .ok message →
      success (history ++ [exchanged url body exchange]) message)
    (lost : ∀ url body exchange error, Carries externals endpoint limits request url body →
      failure (history ++ [exchanged url body exchange]) error) :
    Fallible.Meets invariant success failure history
      (inspect externals endpoint request limits) := by
  unfold inspect
  rw [Fallible.meets_bind]
  apply Fallible.meets_ofExcept _ _ fun error _ => unsent error
  intro _ _
  rw [Fallible.meets_bind]
  apply Fallible.meets_ofExcept _ _ fun error _ => unsent error
  intro url urlEq
  rw [Fallible.meets_bind]
  apply settle_meets _ _ (aborted _) _ unsent
  intro body bodyEq
  have carries : Carries externals endpoint limits request url body := ⟨urlEq, bodyEq⟩
  apply Fallible.Meets.perform_bind (sends url body carries)
  intro exchange
  apply settle_meets _ _ (aborted _)
  · intro message messageEq
    exact received url body exchange message carries messageEq
  · intro error
    exact lost url body exchange error carries

/-! ## Functions that only read -/

section

variable (reads : ∀ later op, isWrite op = false → invariant later op)
include reads

/-- A request other than Set-Printer-Attributes writes nothing. -/
theorem inspect_reads {request : Message} (code : request.code ≠ setPrinterAttributes) :
    Fallible.Meets invariant
      (fun later message => writeCount later = writeCount history ∧
        ∃ url body exchange, Carries externals endpoint limits request url body ∧
          later = history ++ [exchanged url body exchange] ∧
          receive limits request.requestId exchange = .ok message)
      (fun later _ => writeCount later = writeCount history) history
      (inspect externals endpoint request limits) := by
  have read : ∀ url body, Carries externals endpoint limits request url body →
      isWrite (.post url body) = false := by
    intro url body carries
    rw [carries.isWrite_eq]
    exact beq_eq_false_iff_ne.mpr code
  have unchanged : ∀ url body exchange, Carries externals endpoint limits request url body →
      writeCount (history ++ [exchanged url body exchange]) = writeCount history := by
    intro url body exchange carries
    rw [writeCount_append, writeCount_singleton_of_read (read url body carries), Nat.add_zero]
  apply inspect_meets
  · intro later
    exact reads later .abort rfl
  · intro url body carries
    exact reads history _ (read url body carries)
  · intro error
    rfl
  · intro url body exchange message carries messageEq
    exact ⟨unchanged url body exchange carries, url, body, exchange, carries, rfl, messageEq⟩
  · intro url body exchange error carries
    exact unchanged url body exchange carries

theorem supportedValues_reads {ε : Type} (printerUri setting : String) (requestId : UInt32)
    (read : IppClientError → ε) (invalidRequest : SupportedValuesRequestError → ε)
    (invalidResponse : SupportedValuesError → ε) :
    Fallible.Meets invariant (fun later _ => writeCount later = writeCount history)
      (fun later _ => writeCount later = writeCount history) history
      (supportedValues externals endpoint printerUri setting requestId limits read
        invalidRequest invalidResponse) := by
  unfold supportedValues
  split
  case isFalse => rfl
  case isTrue =>
    rw [Fallible.meets_bind, Fallible.meets_mapError]
    apply Fallible.meets_ofExcept _ _ fun _ _ => rfl
    intro request requestEq
    have code : request.code ≠ setPrinterAttributes := by
      rw [getPrinterSupportedValuesRequest_code requestEq]
      decide
    rw [Fallible.meets_bind, Fallible.meets_mapError]
    apply (inspect_reads reads code).mono
    · intro later response received
      rw [Fallible.meets_bind, Fallible.meets_mapError]
      exact Fallible.meets_ofExcept _ (fun _ _ => received.1) fun _ _ => received.1
    · intro later error unchanged
      exact unchanged

/-- Planning a change writes nothing. -/
theorem planChange_reads (request : PlanChangeRequest) :
    Fallible.Meets invariant (fun later _ => writeCount later = writeCount history)
      (fun later _ => writeCount later = writeCount history) history
      (planChange externals endpoint request limits) := by
  unfold planChange
  rw [Fallible.meets_bind, Fallible.meets_mapError]
  apply Fallible.meets_ofExcept _ _ fun _ _ => rfl
  intro printerUri _
  rw [Fallible.meets_bind, Fallible.meets_mapError]
  apply (inspect_reads reads (readRequest_code printerUri request.setting)).mono
  · intro later observation received
    rw [Fallible.meets_bind]
    apply (supportedValues_reads reads _ _ _ _ _ _).mono
    · intro latest supported unchanged
      rw [Fallible.meets_mapError]
      have total := unchanged.trans received.1
      exact Fallible.meets_ofExcept _ (fun _ _ => total) fun _ _ => total
    · intro latest error unchanged
      exact unchanged.trans received.1
  · intro later error unchanged
    exact unchanged

/-! ## Applying a confirmed change -/

/-- The last event of the history re-read the printer, and the re-read admits the
plan. -/
def Reread (externals : Externals) (endpoint : IppEndpoint) (plan : ConfirmedChangePlan)
    (binding : ChangeBinding) (limits : InspectLimits) (printerUri : String)
    (history : List (Event operations)) : Prop :=
  ∃ before url body exchange observation supported,
    history = before ++ [exchanged url body exchange] ∧
    Carries externals endpoint limits (readRequest printerUri plan.setting) url body ∧
    receive limits 1 exchange = .ok observation ∧
    validateConfirmedIppChangeWithSupportedValues externals.hashing plan observation supported
      binding = .ok ()

/-- The Set-Printer-Attributes request of a plan. -/
def writeRequest (printerUri : String) (plan : ConfirmedChangePlan) : Message :=
  setPrinterAttributesRequest (asBytes printerUri) (asBytes plan.setting)
    plan.requestedProtocolValue 2

/-- What is established when a call that began after `history` sends its write. -/
structure ConfirmedWrite (externals : Externals) (endpoint : IppEndpoint)
    (plan : ConfirmedChangePlan) (binding : ChangeBinding) (limits : InspectLimits)
    (history later : List (Event operations)) (printerUri url : String) (body : Bytes) :
    Prop where
  addressed : endpoint.printerUri = .ok printerUri
  first : writeCount later = writeCount history
  reread : Reread externals endpoint plan binding limits printerUri later
  carries : Carries externals endpoint limits (writeRequest printerUri plan) url body

/-- The history ends with a write that the printer accepted and a read-back that shows
the plan's value. -/
def Verified (externals : Externals) (endpoint : IppEndpoint) (plan : ConfirmedChangePlan)
    (limits : InspectLimits) (history : List (Event operations)) : Prop :=
  ∃ before printerUri writeUrl writeBody written readUrl readBody readBack response observation,
    history = before ++ [exchanged writeUrl writeBody written,
      exchanged readUrl readBody readBack] ∧
    Carries externals endpoint limits (writeRequest printerUri plan) writeUrl writeBody ∧
    receive limits 2 written = .ok response ∧ response.code < 0x0100 ∧
    Carries externals endpoint limits (readRequest printerUri plan.setting) readUrl readBody ∧
    receive limits 1 readBack = .ok observation ∧ ippChangeIsApplied plan observation = true

/-- What an outcome says about the history it is returned in. -/
def Applied (externals : Externals) (endpoint : IppEndpoint) (plan : ConfirmedChangePlan)
    (limits : InspectLimits) (history : List (Event operations)) : ApplyChangeOutcome → Prop
  | .verified _ _ => Verified externals endpoint plan limits history
  | _ => True

theorem writeAndVerify_meets {plan : ConfirmedChangePlan} {printerUri : String}
    {failure : List (Event operations) → ApplyChangeError → Prop}
    (writes : ∀ url body,
      Carries externals endpoint limits (writeRequest printerUri plan) url body →
      invariant history (.post url body)) :
    Fallible.Meets invariant (Applied externals endpoint plan limits) failure history
      (writeAndVerify externals endpoint printerUri plan limits) := by
  unfold writeAndVerify
  rw [Fallible.meets_bind, Fallible.meets_attempt]
  apply inspect_meets (fun later => reads later .abort rfl) writes
  · intro error
    trivial
  · intro writeUrl writeBody written response writeCarries responseEq
    dsimp only
    split
    case isTrue => trivial
    case isFalse accepted =>
      rw [Fallible.meets_bind, Fallible.meets_attempt]
      apply (inspect_reads reads (readRequest_code printerUri plan.setting)).mono
      · rintro later observation ⟨-, readUrl, readBody, readBack, readCarries, rfl, readEq⟩
        dsimp only
        split
        case isFalse => trivial
        case isTrue applied =>
          refine ⟨history, printerUri, writeUrl, writeBody, written, readUrl, readBody, readBack,
            response, observation, ?_, writeCarries, responseEq, UInt16.not_le.mp accepted,
            readCarries, readEq, applied⟩
          simp
      · intro later error unchanged
        trivial
  · intro url body exchange error carries
    trivial

/-- Specification of `apply_confirmed_change`: it writes at most once, only after the
re-read that confirms the plan, and not at all when it fails. -/
theorem applyConfirmedChange_meets {plan : ConfirmedChangePlan} {binding : ChangeBinding}
    (writes : ∀ later printerUri url body,
      ConfirmedWrite externals endpoint plan binding limits history later printerUri url body →
      invariant later (.post url body)) :
    Fallible.Meets invariant (Applied externals endpoint plan limits)
      (fun later _ => writeCount later = writeCount history) history
      (applyConfirmedChange externals endpoint plan binding limits) := by
  unfold applyConfirmedChange
  rw [Fallible.meets_bind, Fallible.meets_mapError]
  apply Fallible.meets_ofExcept _ _ fun _ _ => rfl
  intro printerUri uriEq
  rw [Fallible.meets_bind]
  apply (supportedValues_reads reads _ _ _ _ _ _).mono
  · intro later supported unchanged
    rw [Fallible.meets_bind, Fallible.meets_mapError]
    apply (inspect_reads reads (readRequest_code printerUri plan.setting)).mono
    · rintro latest observation ⟨same, url, body, exchange, carries, latestEq, observed⟩
      have total := same.trans unchanged
      rw [Fallible.meets_bind, Fallible.meets_mapError]
      apply Fallible.meets_ofExcept _ _ fun _ _ => total
      intro _ validated
      apply writeAndVerify_meets reads
      intro writeUrl writeBody writeCarries
      exact writes latest printerUri writeUrl writeBody
        ⟨uriEq, total, ⟨later, url, body, exchange, observation, supported, latestEq, carries,
          observed, validated⟩, writeCarries⟩
    · intro latest error same
      exact same.trans unchanged
  · intro later error unchanged
    exact unchanged

end

/-- A run of `apply_confirmed_change` that fails has written nothing. -/
theorem applyConfirmedChange_failed {plan : ConfirmedChangePlan} {binding : ChangeBinding}
    {trace : List (Event operations)} {error : ApplyChangeError}
    (failed : Program.After (applyConfirmedChange externals endpoint plan binding limits).run
      trace (.done (.error error))) :
    writeCount trace = 0 := by
  have meets : Fallible.Meets (fun _ _ => True) (Applied externals endpoint plan limits)
      (fun later _ => writeCount later = writeCount []) []
      (applyConfirmedChange externals endpoint plan binding limits) :=
    applyConfirmedChange_meets (fun _ _ _ => trivial) fun _ _ _ _ _ => trivial
  exact Program.Meets.after meets failed

end PrinterSdk.Native
