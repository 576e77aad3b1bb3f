import PrinterSdk.Executor.WriteStream

/-!
# What an execution error says about its effects

A failed execution must not understate what it handed to the printer.  The
browser result built from an execution error is modelled beside the errors
themselves, because it is what a caller decides a reprint on.
-/

namespace PrinterSdk.Executor

open PrinterSdk.Data PrinterSdk.Interaction PrinterSdk.Protocol

/-! ## The browser result -/

/-- Display texts of execution errors. -/
def ExecuteError.display : ExecuteError → String
  | .atomicTooLarge action length limit =>
      "atomic command at action " ++ toString action ++ " is " ++ toString length ++
        " bytes but transport limit is " ++ toString limit
  | .invalidPlan action message =>
      "invalid execution plan at action " ++ toString action ++ ": " ++ message
  | .replay key => "execution key was already attempted: " ++ key
  | .replayStore _ => "replay store failed"
  | .cancelled _ => "execution cancelled"
  | .writeOutcomeUnknown _ _ => "write outcome is unknown"
  | .transport _ _ => "transport failed"
  | .timeout _ => "response timed out"
  | .response _ message => "invalid response: " ++ message

/-- The object handed to JavaScript.  Numbers are kept exact: rounding a count to
a double never turns a positive count into zero. -/
structure ExecutionValue where
  lastCompletedAction : Int
  bytesWritten : Nat
  potentiallyAcceptedWrite : Bool
  responses : List Bytes
  status : String
  errorCode : Option String
  error : Option String
  deriving DecidableEq, Repr

def executionValue (progress : Progress) (status : String)
    (errorCode error : Option String) : ExecutionValue where
  lastCompletedAction := progress.lastCompletedAction.elim (-1) Int.ofNat
  bytesWritten := progress.bytesWritten
  potentiallyAcceptedWrite := progress.potentiallyAcceptedWrite
  responses := progress.responses
  status := status
  errorCode := errorCode
  error := error

def mapExecutionResult : Except ExecuteError Progress → ExecutionValue
  | .ok progress => executionValue progress "completed" none none
  | .error (.cancelled progress) =>
      executionValue progress
        (if progress.bytesWritten = 0 then "cancelled-before-send"
          else "cancelled-partial")
        (some "cancelled") none
  | .error (.writeOutcomeUnknown progress source) =>
      executionValue progress "outcome-unknown" (some "write-outcome-unknown")
        (source.map TransportError.message)
  | .error (.atomicTooLarge action length limit) =>
      executionValue {} "failed" (some "atomic-too-large")
        (some (ExecuteError.atomicTooLarge action length limit).display)
  | .error (.invalidPlan action message) =>
      executionValue {} "failed" (some "invalid-plan")
        (some (ExecuteError.invalidPlan action message).display)
  | .error (.replay key) =>
      executionValue {} "failed" (some "replay")
        (some (ExecuteError.replay key).display)
  | .error (.replayStore source) =>
      executionValue {} "failed" (some "replay-store")
        (some (ExecuteError.replayStore source).display)
  | .error (.transport progress source) =>
      executionValue progress "failed" (some "transport")
        (some (ExecuteError.transport progress source).display)
  | .error (.timeout progress) =>
      executionValue progress "failed" (some "timeout")
        (some (ExecuteError.timeout progress).display)
  | .error (.response progress message) =>
      executionValue progress "failed" (some "response")
        (some (ExecuteError.response progress message).display)

/-- The browser result reports the progress of an error, or an untouched printer
when the error carries none. -/
theorem mapExecutionResult_error (error : ExecuteError) :
    (mapExecutionResult (.error error)).bytesWritten =
        ((errorProgress error).getD {}).bytesWritten ∧
      (mapExecutionResult (.error error)).potentiallyAcceptedWrite =
        ((errorProgress error).getD {}).potentiallyAcceptedWrite := by
  cases error <;> exact ⟨rfl, rfl⟩

/-! ## Honest errors -/

/-- An error is honest about a run: once a write was attempted it carries a
progress that says so and counts the confirmed bytes, errors without progress
stand for runs that handed nothing over, and the browser result never claims an
untouched printer after a write attempt. -/
def HonestError (trace : List (Event effects)) (error : ExecuteError) : Prop :=
  (handed trace ≠ [] → ∃ progress, errorProgress error = some progress ∧
    progress.potentiallyAcceptedWrite = true ∧
    progress.bytesWritten = confirmed trace) ∧
  (errorProgress error = none → handedBytes trace = []) ∧
  (handed trace ≠ [] →
    ¬((mapExecutionResult (.error error)).bytesWritten = 0 ∧
      (mapExecutionResult (.error error)).potentiallyAcceptedWrite = false))

theorem honestError_of_progress {trace : List (Event effects)} {error : ExecuteError}
    {progress : Progress} (carries : errorProgress error = some progress)
    (written : progress.bytesWritten = confirmed trace)
    (accepted : progress.potentiallyAcceptedWrite = !(handed trace).isEmpty) :
    HonestError trace error := by
  have flagged : handed trace ≠ [] → progress.potentiallyAcceptedWrite = true := by
    intro attempted
    rw [accepted]
    simp [attempted]
  refine ⟨?_, ?_, ?_⟩
  · intro attempted
    exact ⟨progress, carries, flagged attempted, written⟩
  · intro bare
    rw [carries] at bare
    cases bare
  · intro attempted untouched
    rw [(mapExecutionResult_error error).2, carries] at untouched
    simp [flagged attempted] at untouched

theorem honestError_of_untouched {trace : List (Event effects)} {error : ExecuteError}
    (untouched : handed trace = []) : HonestError trace error := by
  refine ⟨?_, ?_, ?_⟩
  · intro attempted
    exact absurd untouched attempted
  · intro _
    simp [handedBytes, untouched]
  · intro attempted
    exact absurd untouched attempted

/-- Execution errors are honest exactly in the runs in which no raster action
reads a zero payload limit after a write was attempted. -/
theorem execute_error_honest_iff (timing : ReferenceTiming) (plan : Plan)
    (resident : plan.Resident) (trace : List (Event effects)) (error : ExecuteError)
    (failed : Program.After (execute timing plan).run trace (.done (.error error))) :
    HonestError trace error ↔ ¬LimitVanished trace := by
  have settled := Program.Meets.after (execute_meets timing resident) failed
  have accounted : Accounted plan trace error := settled
  have account := accounted.2
  cases carries : errorProgress error with
  | some progress =>
      rw [carries] at account
      constructor
      · intro _
        exact account.2.2
      · intro _
        exact honestError_of_progress carries account.1 account.2.1
  | none =>
      rw [carries] at account
      constructor
      · intro honest vanished
        have attempted : handed trace ≠ [] := by
          intro untouched
          exact not_limitVanished_of_handed_eq_nil untouched vanished
        obtain ⟨progress, present, _⟩ := honest.1 attempted
        rw [carries] at present
        cases present
      · intro steady
        rcases account with untouched | vanished
        · exact honestError_of_untouched untouched
        · exact absurd vanished steady

/-- A run that ends with a transport whose limit vanishes before the raster. -/
theorem execute_error_honest_iff_smallPlan :
    ∃ error, Program.After (execute .preserve smallPlan).run (smallRun [0]).1
        (.done (.error error)) ∧
      (HonestError (smallRun [0]).1 error ↔ ¬LimitVanished (smallRun [0]).1) :=
  ⟨.invalidPlan 0 "zero transport payload limit", smallRun_after [0],
    execute_error_honest_iff .preserve smallPlan (by decide) _ _ (smallRun_after [0])⟩

/-- A transport that confirms the first command and then reports a zero payload
limit at the raster action: the command's two bytes are confirmed, yet the error
carries no progress and the browser result claims an untouched printer. -/
theorem smallPlan_error_dishonest :
    ∃ error, Program.After (execute .preserve smallPlan).run (smallRun [512, 0]).1
        (.done (.error error)) ∧
      handed (smallRun [512, 0]).1 = [[0x1b, 0x40]] ∧
      confirmed (smallRun [512, 0]).1 = 2 ∧
      errorProgress error = none ∧
      (mapExecutionResult (.error error)).bytesWritten = 0 ∧
      (mapExecutionResult (.error error)).potentiallyAcceptedWrite = false ∧
      ¬HonestError (smallRun [512, 0]).1 error := by
  refine ⟨.invalidPlan 1 "zero negotiated transport payload limit",
    smallRun_after [512, 0], by decide, by decide, rfl, rfl, rfl, ?_⟩
  intro honest
  obtain ⟨progress, present, _⟩ := honest.1 (by decide)
  cases present

end PrinterSdk.Executor
