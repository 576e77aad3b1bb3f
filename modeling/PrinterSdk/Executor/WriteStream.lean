import Mathlib.Data.List.Induction
import PrinterSdk.Executor.Run

/-!
# The write stream of an execution

Whatever the transport answers and whenever cancellation strikes, the slices
handed to `transport.write` concatenate to a prefix of the plan's byte stream.
-/

namespace PrinterSdk.Executor

open PrinterSdk.Data PrinterSdk.Interaction PrinterSdk.Protocol

/-- Bytes handed to the transport in a run, including those of a write that has
not been answered. -/
def submitted {α : Type} (trace : List (Event effects))
    (residual : Program effects α) : Bytes :=
  handedBytes trace ++
    match residual.pending with
    | some op => (handedBy op).flatten
    | none => []

/-- The progress that a finished run hands to its caller. -/
def resultProgress : Except ExecuteError Progress → Option Progress
  | .ok progress => some progress
  | .error error => errorProgress error

section Runs

variable {plan : Plan} {timing : ReferenceTiming} {trace : List (Event effects)}
variable {residual : Program effects (Except ExecuteError Progress)}

/-- Every operation of a run was permitted when it was issued. -/
theorem permitted_of_issued (resident : plan.Resident)
    (reached : Program.After (execute timing plan).run trace residual)
    {before : List (Event effects)} {op : Effect}
    (issued : Program.Issued trace residual before op) :
    Permitted plan before op :=
  Program.Meets.issued (execute_meets timing resident) reached issued

theorem handedBytes_within_stream (resident : plan.Resident)
    (reached : Program.After (execute timing plan).run trace residual) :
    handedBytes trace <+: plan.stream := by
  induction trace using List.reverseRecOn generalizing residual with
  | nil => exact List.nil_prefix
  | append_singleton before event ih =>
      rcases event with ⟨op, reply⟩
      obtain ⟨resume, cut⟩ := reached.cut
      have earlier := ih cut
      have permitted := permitted_of_issued resident reached
        (Or.inl ⟨reply, [], rfl⟩)
      cases op with
      | write bytes kind => simpa [handedBy] using permitted.1
      | _ => simpa [handedBy] using earlier

theorem submitted_within_stream (resident : plan.Resident)
    (reached : Program.After (execute timing plan).run trace residual) :
    submitted trace residual <+: plan.stream := by
  have answered := handedBytes_within_stream resident reached
  cases residual with
  | done result => simpa [submitted] using answered
  | ask op resume =>
      have permitted := permitted_of_issued resident reached (Or.inr ⟨rfl, rfl⟩)
      cases op with
      | write bytes kind => simpa [submitted, handedBy] using permitted.1
      | _ => simpa [submitted, handedBy] using answered

theorem handedBytes_of_ok (resident : plan.Resident) {progress : Progress}
    (finished : Program.After (execute timing plan).run trace (.done (.ok progress))) :
    handedBytes trace = plan.stream := by
  have settled := Program.Meets.after (execute_meets timing resident) finished
  exact settled.1.bytes

theorem bytesWritten_of_finished (resident : plan.Resident)
    {result : Except ExecuteError Progress} {progress : Progress}
    (finished : Program.After (execute timing plan).run trace (.done result))
    (carries : resultProgress result = some progress) :
    progress.bytesWritten = confirmed trace := by
  have settled := Program.Meets.after (execute_meets timing resident) finished
  cases result with
  | ok done =>
      cases carries
      have synced : Synced plan.stream trace progress := settled.1
      rw [synced.written, synced.confirmed]
  | error error =>
      have accounted : Accounted plan trace error := settled
      have account := accounted.2
      simp only [resultProgress] at carries
      rw [carries] at account
      exact account.1

/-- Executor write stream.  In every run of a plan, at every point of it: the
bytes handed to the transport are a prefix of the plan's byte stream, and the
whole of it when execution succeeds; every raster piece stays inside one logical
chunk and within the payload limit that its action read; and every progress that
is reported, returned or carried by an error counts exactly the bytes of the
confirmed writes. -/
theorem execute_writes_stream (timing : ReferenceTiming) (plan : Plan)
    (resident : plan.Resident) (trace : List (Event effects))
    (residual : Program effects (Except ExecuteError Progress))
    (reached : Program.After (execute timing plan).run trace residual) :
    submitted trace residual <+: plan.stream ∧
    (∀ progress, residual = .done (.ok progress) →
      submitted trace residual = plan.stream) ∧
    (∀ before piece, Program.Issued trace residual before (.write piece .raster) →
      RasterPiece plan before piece) ∧
    (∀ before progress, Program.Issued trace residual before (.report progress) →
      progress.bytesWritten = confirmed before) ∧
    (∀ result progress, residual = .done result →
      resultProgress result = some progress →
      progress.bytesWritten = confirmed trace) := by
  refine ⟨submitted_within_stream resident reached, ?_, ?_, ?_, ?_⟩
  · intro progress finished
    subst finished
    simpa [submitted] using handedBytes_of_ok resident reached
  · intro before piece issued
    exact (permitted_of_issued resident reached issued).2 rfl
  · intro before progress issued
    exact (permitted_of_issued resident reached issued).1
  · intro result progress finished carries
    subst finished
    exact bytesWritten_of_finished resident reached carries

end Runs

/-- A transport that confirms every write and reads the payload limits of a
list, in order; an exhausted list reads as zero. -/
def scriptedTransport (limits : List Nat) : (op : Effect) → op.Reply × List Nat
  | .payloadLimit => (limits.headD 0, limits.tail)
  | .commandLimit => ((512 : Nat), limits)
  | .isCancelled => (false, limits)
  | .subscribe => (.completed (.ok .unavailable), limits)
  | .write _ _ => (.completed (.ok ()), limits)
  | .delay _ => (.completed (), limits)
  | .waitResponse _ => (.completed (.ok .timeout), limits)
  | .elapsed => ((0 : Nat), limits)
  | .report _ => ((), limits)

/-- One command and a five-byte raster in logical chunks of three. -/
def smallPlan : Plan where
  protocol := .m02
  sourceCommit := ""
  actions := [.commandWrite "init" [0x1b, 0x40] true, .rasterWrite [1, 2, 3, 4, 5] 3 0]

/-- A run of `smallPlan` against a scripted transport. -/
def smallRun (limits : List Nat) : List (Event effects) × Except ExecuteError Progress :=
  Program.run scriptedTransport limits (execute .preserve smallPlan).run

theorem smallRun_after (limits : List Nat) :
    Program.After (execute .preserve smallPlan).run (smallRun limits).1
      (.done (smallRun limits).2) :=
  Program.after_run _ _ _

theorem execute_writes_stream_smallPlan :
    submitted (smallRun [512, 2]).1
        (.done (smallRun [512, 2]).2 : Program effects (Except ExecuteError Progress)) <+:
      smallPlan.stream ∧
    handed (smallRun [512, 2]).1 = [[0x1b, 0x40], [1, 2], [3], [4, 5]] :=
  ⟨(execute_writes_stream .preserve smallPlan (by decide) _ _
    (smallRun_after [512, 2])).1, by decide⟩

end PrinterSdk.Executor
