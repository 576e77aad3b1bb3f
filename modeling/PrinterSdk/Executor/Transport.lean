import PrinterSdk.Interaction.Program
import PrinterSdk.Protocol.Action

/-!
# The executor's environment

A transport, a cancellation source and a clock form the environment of one plan
execution.  Every effect is an operation whose reply the environment chooses:
payload limits may differ at every read, a write may fail or be overtaken by
cancellation, a response wait may return anything.
-/

namespace PrinterSdk.Executor

open PrinterSdk.Data PrinterSdk.Interaction

/-- Stable category for a transport-boundary failure. -/
inductive TransportErrorKind where
  | connection | disconnected | unsupported | invalidConfiguration
  | permissionDenied | timeout | cancelled | io
  deriving DecidableEq, Repr

structure TransportError where
  kind : TransportErrorKind
  message : String
  deriving DecidableEq, Repr

inductive WriteKind where
  | command | raster
  deriving DecidableEq, Repr

inductive NotificationSupport where
  | subscribed | unavailable
  deriving DecidableEq, Repr

/-- Result of one bounded response wait. -/
inductive WaitOutcome where
  | response (bytes : Bytes)
  | timeout
  | unavailable
  deriving DecidableEq, Repr

/-- An effect raced against cancellation. -/
inductive Race (α : Type) where
  | completed (value : α)
  | cancelled
  deriving DecidableEq, Repr

/-- Durations are counted in nanoseconds. -/
abbrev Duration := Nat

def fromMillis (milliseconds : Nat) : Duration := milliseconds * 1000000

/-- Observable execution state completed before a result or failure. -/
structure Progress where
  /-- Zero-based index of the most recently completed action. -/
  lastCompletedAction : Option Nat := none
  /-- Total bytes confirmed written by the transport. -/
  bytesWritten : Nat := 0
  /-- Whether a failed or cancelled write may have reached the printer. -/
  potentiallyAcceptedWrite : Bool := false
  /-- Bounded response frames retained by collection actions. -/
  responses : List Bytes := []
  deriving DecidableEq, Repr

/-- Failure returned while preflighting or executing a plan. -/
inductive ExecuteError where
  | atomicTooLarge (action length limit : Nat)
  | invalidPlan (action : Nat) (message : String)
  | replay (key : String)
  | replayStore (source : String)
  | cancelled (progress : Progress)
  | writeOutcomeUnknown (progress : Progress) (source : Option TransportError)
  | transport (progress : Progress) (source : TransportError)
  | timeout (progress : Progress)
  | response (progress : Progress) (message : String)
  deriving DecidableEq, Repr

/-- The progress an error carries, if any. -/
def errorProgress : ExecuteError → Option Progress
  | .cancelled progress => some progress
  | .writeOutcomeUnknown progress _ => some progress
  | .transport progress _ => some progress
  | .timeout progress => some progress
  | .response progress _ => some progress
  | _ => none

/-- Effects of the executor.  `report` is the progress callback and `elapsed`
reads the clock started at the beginning of a response collection. -/
inductive Effect where
  | payloadLimit
  | commandLimit
  | isCancelled
  | subscribe
  | write (bytes : Bytes) (kind : WriteKind)
  | delay (duration : Duration)
  | waitResponse (timeout : Duration)
  | elapsed
  | report (progress : Progress)

/-- What the environment may answer.  An operation raced against cancellation
answers with a `Race`. -/
abbrev Effect.Reply : Effect → Type
  | .payloadLimit => Nat
  | .commandLimit => Nat
  | .isCancelled => Bool
  | .subscribe => Race (Except TransportError NotificationSupport)
  | .write _ _ => Race (Except TransportError Unit)
  | .delay _ => Race Unit
  | .waitResponse _ => Race (Except TransportError WaitOutcome)
  | .elapsed => Duration
  | .report _ => Unit

/-- The executor's effect signature. -/
abbrev effects : Signature where
  Op := Effect
  Reply := Effect.Reply

/-- Perform one effect and return the environment's answer. -/
def effect {ε : Type} (op : Effect) : Fallible effects ε op.Reply :=
  @Fallible.perform effects ε op

/-- Executor computations: interactive and fallible. -/
abbrev Exec (α : Type) : Type := Fallible effects ExecuteError α

end PrinterSdk.Executor
