import PrinterSdk.Data.Machine
import PrinterSdk.Executor.Transport

/-!
# Brother inspection sessions

The operations that the read-only inspections of `mb-printer-native` perform on a
transport, and what they share: draining stale input and the text of an error.

Their loops run until the transport or the clock ends them.  `rounds` bounds the turns
of each loop, and a loop that has used them up performs an operation which is never
answered.  Every finite run of the source is a run for enough rounds, so what holds for
all rounds holds of the source.
-/

namespace PrinterSdk.Native

open PrinterSdk.Data PrinterSdk.Interaction PrinterSdk.Executor

/-- The operations of a session.  `elapsed` reads the clock that a read starts. -/
inductive SessionOperation where
  | commandLimit
  | write (bytes : Bytes)
  | waitResponse (timeoutMs : Nat)
  | delay (milliseconds : Nat)
  | elapsed
  | exhausted
  deriving DecidableEq, Repr

/-- What a transport may answer. -/
abbrev SessionOperation.Reply : SessionOperation → Type
  | .commandLimit => Nat
  | .write _ => Except TransportError Unit
  | .waitResponse _ => Except TransportError WaitOutcome
  | .delay _ => Unit
  | .elapsed => Duration
  | .exhausted => Empty

/-- The signature of a session. -/
abbrev sessionOperations : Signature where
  Op := SessionOperation
  Reply := SessionOperation.Reply

/-- A part of a session, whose failures are texts. -/
abbrev Session (α : Type) : Type := Fallible sessionOperations String α

/-- Perform one operation. -/
def operate {ε : Type} (op : SessionOperation) : Fallible sessionOperations ε op.Reply :=
  @Fallible.perform sessionOperations ε op

/-- A loop that has used up its rounds. -/
def exhausted {ε α : Type} : Fallible sessionOperations ε α := do
  let never : Empty ← operate .exhausted
  never.elim

/-- `Display` of `TransportErrorKind`. -/
def kindText : TransportErrorKind → String
  | .connection => "connection"
  | .disconnected => "disconnected"
  | .unsupported => "unsupported"
  | .invalidConfiguration => "invalid configuration"
  | .permissionDenied => "permission denied"
  | .timeout => "timeout"
  | .cancelled => "cancelled"
  | .io => "I/O"

/-- `TransportError::to_string`. -/
def errorText (error : TransportError) : String := kindText error.kind ++ ": " ++ error.message

/-- Hand bytes to the transport. -/
def writeBytes (bytes : Bytes) : Session Unit := do
  match ← operate (.write bytes) with
  | .ok () => return ()
  | .error error => throw (errorText error)

/-- Wait for a response. -/
def waitFor (timeoutMs : Nat) : Session WaitOutcome := do
  match ← operate (.waitResponse timeoutMs) with
  | .ok outcome => return outcome
  | .error error => throw (errorText error)

def drainTimeoutMs : Nat := 200

def maxDrainBytes : Nat := 32 * 1024

/-- The loop of `drain_stale_responses`, which both inspections define alike. -/
def drainReads : Nat → Nat → Session Unit
  | 0, _ => exhausted
  | rounds + 1, drained => do
      match ← waitFor drainTimeoutMs with
      | .response bytes =>
          match checkedAdd drained bytes.length with
          | none => throw "stale response byte count overflow"
          | some drained =>
              if drained > maxDrainBytes then
                throw "stale responses exceeded 32768-byte drain limit"
              else
                drainReads rounds drained
      | _ => return ()

/-- `drain_stale_responses`. -/
def drainStaleResponses (rounds : Nat) : Session Unit := drainReads rounds 0

/-- The milliseconds of one wait: what is left of the timeout, at least one. -/
def waitMillis (timeout clock : Duration) : Nat := max ((timeout - clock) / 1000000) 1

end PrinterSdk.Native
