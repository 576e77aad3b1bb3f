import PrinterSdk.Agent.Execution
import PrinterSdk.Native.Guard

/-!
# The contract of a guarded change

Each part of the agent's program is specified against one invariant: a request that
writes is sent only in a history that establishes every guard.  The whole program then
meets it with every server and every order of answers.
-/

namespace PrinterSdk.Agent

open PrinterSdk.Data PrinterSdk.Interaction PrinterSdk.Ipp PrinterSdk.Native
open PrinterSdk.Administration

/-! ## The guard of a write -/

/-- Everything a request has established when it sends the Set-Printer-Attributes
request `body` to `url`. -/
structure GuardedWrite (externals : Externals) (policy : AgentPolicy)
    (submission : Submission) (history : List (Event operations)) (url : String) (body : Bytes)
    (change : ApplyChange) (printer : PublishedPrinter) (limits : InspectLimits)
    (printerUri : String) (value : Value) : Prop where
  requested : submission.request.operation = some (.applyChange change)
  allowed : change.settingId ∈ submission.policy.allowedSettings
  lookedUp : ⟨Operation.printer submission.request.printerId, some printer⟩ ∈ history
  generation : printer.endpointGeneration = submission.request.endpointGeneration
  version : submission.request.contractVersion = policy.contractVersion
  requestUnexpired : submission.nowUnixMs < submission.request.expiresAtUnixMs
  planUnexpired : submission.nowUnixMs < change.planExpiresAtUnixMs
  consumed : ⟨Operation.consume submission.request.requestId, true⟩ ∈ history
  first : writeCount history = 0
  limited : submission.request.limits.map inspectLimits = some limits
  addressed : printer.endpoint.printerUri = .ok printerUri
  parsed : externals.parseValue change.requestedValue = some value
  confirmed : change.expectedRequestedValueHash = (ippValueHash externals.hashing value).1
  sent : Carries externals.toExternals printer.endpoint limits (setPrinterAttributesRequest
    (asBytes printerUri) (asBytes change.settingId) value 2) url body
  reread : ∃ before readUrl readBody exchange observation current,
    history = before ++ [exchanged readUrl readBody exchange] ∧
    Carries externals.toExternals printer.endpoint limits
      (readRequest printerUri change.settingId) readUrl readBody ∧
    receive limits 1 exchange = .ok observation ∧
    findAttribute observation (asBytes change.settingId) = some current ∧
    (attributeHash externals.hashing current).1 = change.expectedOldValueHash

/-- The operations a request may issue: all that write nothing, and a guarded write. -/
def Permitted (externals : Externals) (policy : AgentPolicy) (submission : Submission)
    (history : List (Event operations)) (op : Operation) : Prop :=
  isWrite op = true → ∃ url body change printer limits printerUri value,
    op = .post url body ∧ GuardedWrite externals policy submission history url body change
      printer limits printerUri value

/-- The history of a change that was written and read back: the printer accepted the
write, and the read-back shows the normalized form of the requested value. -/
def ReadBack (externals : Externals) (submission : Submission) (change : ApplyChange)
    (history : List (Event operations)) : Prop :=
  ∃ printer limits printerUri value normalized before writeUrl writeBody written response
      readUrl readBody readBack observation name shown,
    ⟨Operation.printer submission.request.printerId, some printer⟩ ∈ history ∧
    submission.request.limits.map inspectLimits = some limits ∧
    externals.parseValue change.requestedValue = some value ∧
    normalizedSettingValue value = some normalized ∧
    history = before ++ [exchanged writeUrl writeBody written,
      exchanged readUrl readBody readBack] ∧
    Carries externals.toExternals printer.endpoint limits (setPrinterAttributesRequest
      (asBytes printerUri) (asBytes change.settingId) value 2) writeUrl writeBody ∧
    receive limits 2 written = .ok response ∧ response.code < 0x0100 ∧
    Carries externals.toExternals printer.endpoint limits
      (readRequest printerUri change.settingId) readUrl readBody ∧
    receive limits 1 readBack = .ok observation ∧
    findAttribute observation (asBytes change.settingId) = some ⟨name, [shown]⟩ ∧
    normalizedSettingValue shown = some normalized

/-- A result that reports success of a change was read back. -/
def Honest (externals : Externals) (submission : Submission)
    (history : List (Event operations)) (result : ProtocolResult) : Prop :=
  ∀ change, submission.request.operation = some (.applyChange change) →
    result.outcome = .succeeded → ReadBack externals submission change history

/-! ## The contract of one request -/

variable {externals : Externals} {policy : AgentPolicy} {submission : Submission}
variable {history : List (Event operations)}

theorem permitted_read (later : List (Event operations)) (op : Operation)
    (read : isWrite op = false) : Permitted externals policy submission later op := by
  intro write
  rw [read] at write
  cases write

/-- What `authorize` has established about the printer and the operation it returns. -/
structure Authorized (policy : AgentPolicy) (submission : Submission)
    (history : List (Event operations)) (printer : PublishedPrinter)
    (operation : RequestOperation) : Prop where
  unexpired : submission.nowUnixMs < submission.request.expiresAtUnixMs
  version : submission.request.contractVersion = policy.contractVersion
  lookedUp : ⟨Operation.printer submission.request.printerId, some printer⟩ ∈ history
  generation : printer.endpointGeneration = submission.request.endpointGeneration
  requested : submission.request.operation = some operation
  allowed : ∃ setting ∈ submission.policy.allowedSettings, operation.setting = some setting
  first : writeCount history = 0

/-- Operations that write nothing leave a request authorized. -/
theorem Authorized.continue {later : List (Event operations)} {printer : PublishedPrinter}
    {operation : RequestOperation}
    (authorized : Authorized policy submission history printer operation)
    (continues : history <+: later) (unwritten : writeCount later = writeCount history) :
    Authorized policy submission later printer operation :=
  { authorized with
    lookedUp := continues.subset authorized.lookedUp
    first := unwritten.trans authorized.first }

theorem validateRequest_eq_ok {request : ProtocolRequest} {now timeout bytes : UInt64}
    {enabled : List OperationKind}
    (valid : validateRequest request now timeout bytes enabled = .ok ()) :
    now < request.expiresAtUnixMs := by
  simp only [validateRequest, except_bind_eq_ok, refuseIf_eq_ok, UInt64.not_le] at valid
  obtain ⟨_, _, _, unexpired, _⟩ := valid
  exact unexpired

theorem authorize_meets :
    Fallible.Meets (Permitted externals policy submission)
      (fun later authorized => Authorized policy submission later authorized.1 authorized.2)
      (fun _ _ => True) [] (authorize policy submission) := by
  unfold authorize
  dsimp only
  rw [Fallible.meets_bind, Fallible.meets_mapError]
  apply Fallible.meets_ofExcept _ _ fun _ _ => trivial
  intro _ valid
  apply Fallible.Meets.ofExcept_bind fun _ _ => trivial
  intro _ version
  apply Fallible.Meets.perform_bind (permitted_read _ _ rfl)
  intro (found : Option PublishedPrinter)
  apply Fallible.Meets.ofExcept_bind fun _ _ => trivial
  intro printer foundEq
  apply Fallible.Meets.ofExcept_bind fun _ _ => trivial
  intro _ generation
  apply Fallible.Meets.ofExcept_bind fun _ _ => trivial
  intro operation operationEq
  apply Fallible.Meets.ofExcept_bind fun _ _ => trivial
  intro setting settingEq
  apply Fallible.Meets.ofExcept_bind fun _ _ => trivial
  intro _ allowed
  rw [refuseIf_eq_ok, not_not] at version generation allowed
  rw [okOr_eq_ok] at foundEq operationEq settingEq
  rw [Fallible.meets_pure]
  exact {
    unexpired := validateRequest_eq_ok valid
    version := version
    lookedUp := by simp [foundEq]
    generation := generation
    requested := operationEq
    allowed := ⟨setting, allowed, settingEq⟩
    first := rfl }

theorem consumeWrite_meets {operation : RequestOperation} :
    Fallible.Meets (Permitted externals policy submission)
      (fun later _ => history <+: later ∧ writeCount later = writeCount history ∧
        (operation.kind = .applyChange →
          ⟨Operation.consume submission.request.requestId, true⟩ ∈ later))
      (fun _ _ => True) history (consumeWrite submission operation) := by
  unfold consumeWrite
  split
  case isFalse plans =>
    exact ⟨List.prefix_rfl, rfl, fun applies => absurd applies plans⟩
  case isTrue =>
    apply Fallible.Meets.perform_bind (permitted_read _ _ rfl)
    intro (inserted : Bool)
    apply Fallible.meets_ofExcept _ _ fun _ _ => trivial
    intro _ fresh
    rw [refuseIf_eq_ok, Bool.not_eq_false] at fresh
    refine ⟨List.prefix_append _ _, ?_, ?_⟩
    · rw [writeCount_append, writeCount_singleton_of_read rfl, Nat.add_zero]
    · intro _
      simp [fresh]

/-! ## The two operations -/

theorem planCloudChange_meets {ε : Type} {printer : PublishedPrinter} {operation : PlanChange}
    {limits : InspectLimits} :
    Fallible.Meets (Permitted externals policy submission) (fun _ _ => True)
      (fun _ (_ : ε) => True) history
      (planCloudChange externals submission.request printer operation limits) := by
  unfold planCloudChange
  split
  case isTrue => trivial
  case isFalse =>
    split
    · trivial
    · rw [Fallible.meets_bind, Fallible.meets_attempt]
      apply (planChange_reads permitted_read _).mono
      · intro later plan _
        trivial
      · intro later error _
        cases error <;> trivial

/-- What `apply_cloud_change` has checked about the plan it rebuilds. -/
structure Rebuilt (externals : Externals) (change : ApplyChange) (value : Value)
    (plan : ConfirmedChangePlan) : Prop where
  parsed : externals.parseValue change.requestedValue = some value
  confirmed : change.expectedRequestedValueHash = (ippValueHash externals.hashing value).1
  setting : plan.setting = change.settingId
  sentValue : plan.requestedProtocolValue = value
  oldHash : plan.expectedOldValueHash.1 = change.expectedOldValueHash
  expires : plan.expiresAtUnixMs = change.planExpiresAtUnixMs
  normalized : normalizedSettingValue value = some plan.requestedValue

section

variable {change : ApplyChange} {printer : PublishedPrinter} {limits : InspectLimits}
variable {plan : ConfirmedChangePlan} {value : Value} {later : List (Event operations)}

/-- A confirmed write of a rebuilt plan is guarded. -/
theorem permitted_write {binding : ChangeBinding} {printerUri url : String} {body : Bytes}
    (authorized : Authorized policy submission history printer (.applyChange change))
    (consumed : ⟨Operation.consume submission.request.requestId, true⟩ ∈ history)
    (limited : submission.request.limits.map inspectLimits = some limits)
    (rebuilt : Rebuilt externals change value plan) (now : binding.nowUnixMs = submission.nowUnixMs)
    (continues : history <+: later)
    (write : ConfirmedWrite externals.toExternals printer.endpoint plan binding limits history
      later printerUri url body) :
    Permitted externals policy submission later (.post url body) := by
  intro _
  obtain ⟨before, readUrl, readBody, exchange, observation, supported, laterEq, carries,
    received, validated⟩ := write.reread
  obtain ⟨unexpired, _, current, permits, hashed⟩ :=
    (validateConfirmed_eq_ok plan binding).mp validated
  obtain ⟨setting, allowed, settingEq⟩ := authorized.allowed
  cases settingEq
  have sent := write.carries
  rw [writeRequest, rebuilt.setting, rebuilt.sentValue] at sent
  rw [rebuilt.setting] at carries
  refine ⟨url, body, change, printer, limits, printerUri, value, rfl, ?_⟩
  exact {
    requested := authorized.requested
    allowed := allowed
    lookedUp := continues.subset authorized.lookedUp
    generation := authorized.generation
    version := authorized.version
    requestUnexpired := authorized.unexpired
    planUnexpired := by rwa [now, rebuilt.expires] at unexpired
    consumed := continues.subset consumed
    first := write.first.trans authorized.first
    limited := limited
    addressed := write.addressed
    parsed := rebuilt.parsed
    confirmed := rebuilt.confirmed
    sent := sent
    reread := ⟨before, readUrl, readBody, exchange, observation, current, laterEq, carries,
      received, rebuilt.setting ▸ permits.present, by rw [hashed, rebuilt.oldHash]⟩ }

theorem ippChangeIsApplied_shows {observation : Message}
    (applied : ippChangeIsApplied plan observation = true) :
    ∃ name shown, findAttribute observation (asBytes plan.setting) = some ⟨name, [shown]⟩ ∧
      normalizedSettingValue shown = some plan.requestedValue := by
  unfold ippChangeIsApplied at applied
  cases found : findAttribute observation (asBytes plan.setting) with
  | none => simp [found] at applied
  | some attr =>
      obtain ⟨name, values⟩ := attr
      match values with
      | [] => simp [found] at applied
      | [shown] =>
          refine ⟨name, shown, rfl, ?_⟩
          simpa [found] using applied
      | first :: second :: rest => simp [found] at applied

/-- A verified change of a rebuilt plan was read back. -/
theorem readBack_of_verified
    (authorized : Authorized policy submission history printer (.applyChange change))
    (limited : submission.request.limits.map inspectLimits = some limits)
    (rebuilt : Rebuilt externals change value plan) (continues : history <+: later)
    (verified : Verified externals.toExternals printer.endpoint plan limits later) :
    ReadBack externals submission change later := by
  obtain ⟨before, printerUri, writeUrl, writeBody, written, readUrl, readBody, readBack,
    response, observation, laterEq, writeCarries, responded, accepted, readCarries, received,
    applied⟩ := verified
  obtain ⟨name, shown, present, same⟩ := ippChangeIsApplied_shows applied
  rw [writeRequest, rebuilt.setting, rebuilt.sentValue] at writeCarries
  rw [rebuilt.setting] at readCarries present
  exact ⟨printer, limits, printerUri, value, plan.requestedValue, before, writeUrl, writeBody,
    written, response, readUrl, readBody, readBack, observation, name, shown,
    continues.subset authorized.lookedUp, limited, rebuilt.parsed, rebuilt.normalized, laterEq,
    writeCarries, responded, accepted, readCarries, received, present, same⟩

theorem applyCloudChange_meets {ε : Type} {failure : List (Event operations) → ε → Prop}
    (authorized : Authorized policy submission history printer (.applyChange change))
    (consumed : ⟨Operation.consume submission.request.requestId, true⟩ ∈ history)
    (limited : submission.request.limits.map inspectLimits = some limits) :
    Fallible.Meets (Permitted externals policy submission) (Honest externals submission) failure
      history (applyCloudChange externals submission.request printer change
        submission.nowUnixMs limits) := by
  have refused : ∀ message, Honest externals submission history
      (terminal submission.request.requestId .rejected message) := by
    intro message change _ succeeded
    cases succeeded
  unfold applyCloudChange
  split
  case isFalse => exact refused _
  case isTrue sized =>
    split
    · exact refused _
    · rename_i value parsed
      split
      case isTrue => exact refused _
      case isFalse confirmed =>
        split
        · exact refused _
        · rename_i plan planned
          obtain ⟨sameSetting, sameValue, sameHash, sameExpiry, normalized⟩ :=
            confirmedIppPlanFromWire_eq_ok planned
          have rebuilt : Rebuilt externals change value plan :=
            ⟨parsed, not_not.mp confirmed, sameSetting, sameValue, congrArg Subtype.val sameHash,
              sameExpiry, normalized⟩
          rw [Fallible.meets_bind, Fallible.meets_attempt]
          apply Fallible.Meets.within
          apply (applyConfirmedChange_meets _ _).mono
          · intro later outcome applied continues other requested succeeded
            cases authorized.requested.symm.trans requested
            cases outcome with
            | verified writeResponse observation =>
                exact readBack_of_verified authorized limited rebuilt continues applied
            | rejected writeResponse => cases succeeded
            | readBackMismatch writeResponse observation => cases succeeded
            | ambiguous stage error => cases succeeded
          · intro later error _ _ other _ succeeded
            cases succeeded
          · intro later op read _
            exact permitted_read later op read
          · intro later printerUri url body write continues
            exact permitted_write authorized consumed limited rebuilt rfl continues write

end

/-! ## The whole request -/

/-- What a request has done when it returns. -/
def Concludes (externals : Externals) (submission : Submission)
    (history : List (Event operations)) : InitialExecution → Prop
  | .ok execution => Honest externals submission history execution.result
  | .error _ => True

theorem dispatch_meets {printer : PublishedPrinter} {operation : RequestOperation}
    (authorized : Authorized policy submission history printer operation)
    (consumed : operation.kind = .applyChange →
      ⟨Operation.consume submission.request.requestId, true⟩ ∈ history) :
    Fallible.Meets (Permitted externals policy submission)
      (fun later execution => Honest externals submission later execution.result)
      (fun _ _ => True) history (dispatch externals submission printer operation) := by
  unfold dispatch
  apply Fallible.Meets.perform_bind (permitted_read _ _ rfl)
  intro (cancelled : Bool)
  have continues : history <+: history ++ [⟨Operation.isCancelled, cancelled⟩] :=
    List.prefix_append _ _
  have unwritten :
      writeCount (history ++ [⟨Operation.isCancelled, cancelled⟩]) = writeCount history := by
    rw [writeCount_append, writeCount_singleton_of_read rfl, Nat.add_zero]
  split
  case isTrue =>
    intro change _ succeeded
    cases succeeded
  case isFalse =>
    split
    · trivial
    · rename_i limits limitsEq
      have limited : submission.request.limits.map inspectLimits = some (inspectLimits limits) := by
        rw [limitsEq, Option.map_some]
      cases operation with
      | planChange operation =>
          rw [Fallible.meets_bind]
          apply planCloudChange_meets.mono
          · intro later result _ change requested
            cases authorized.requested.symm.trans requested
          · intro later error _
            trivial
      | applyChange operation =>
          rw [Fallible.meets_bind]
          apply (applyCloudChange_meets (authorized.continue continues unwritten)
            (continues.subset (consumed rfl)) limited).mono
          · intro later result honest
            exact honest
          · intro later error failed
            exact failed
      | ippInspect => trivial
      | readSetting => trivial
      | runProbe => trivial

/-- The contract of `execute_guarded_ipp_change`: it issues permitted operations only, and
what it returns is honest. -/
theorem executeGuardedIppChange_meets :
    Program.Meets (Permitted externals policy submission) (Concludes externals submission) []
      (executeGuardedIppChange externals policy submission) := by
  have meets : Fallible.Meets (Permitted externals policy submission)
      (fun later execution => Honest externals submission later execution.result)
      (fun _ _ => True) [] (do
        let authorized ← authorize policy submission
        consumeWrite submission authorized.2
        dispatch externals submission authorized.1 authorized.2) := by
    rw [Fallible.meets_bind]
    apply authorize_meets.mono
    · intro later authorized holds
      rw [Fallible.meets_bind]
      apply consumeWrite_meets.mono
      · rintro latest _ ⟨continues, unwritten, consumed⟩
        exact dispatch_meets (holds.continue continues unwritten) consumed
      · intro latest error _
        trivial
    · intro later error _
      trivial
  refine Program.Meets.mono meets ?_
  intro later execution settled
  cases execution with
  | ok execution => exact settled
  | error rejected => trivial

end PrinterSdk.Agent
