import PrinterSdk.Data.Text

/-!
# Printer action plans

The plan language shared by the protocol planner and the executor: an ordered
list of writes, waits and pacing actions for one printer.
-/

namespace PrinterSdk.Protocol

open PrinterSdk.Data

/-- `Protocol`: the wire protocol families of the printer catalogue. -/
inductive WireProtocol where
  | mSeries | m02 | m04 | m110 | dSeries | p12 | tspl | brother
  deriving DecidableEq, Repr

inductive Boundary where
  | start | end
  deriving DecidableEq, Repr

/-- How the executor validates a reply before retaining it. -/
inductive ResponseValidation where
  | anyNotification
  | phomemoNotification
  | brotherStatus32
  | brotherObjbrnet
  | brotherWifiScan
  | brotherSystemReport
  deriving DecidableEq, Repr

/-- One step of a plan. -/
inductive Action where
  | jobBoundary (kind : Boundary)
  | subscribeNotifications
  | commandWrite (name : String) (bytes : Bytes) (atomic : Bool)
  | rasterWrite (bytes : Bytes) (logicalChunk : Nat)
      (delayAfterEachPhysicalWriteMs : Nat)
  | delay (milliseconds : Nat)
  | waitForResponse (timeoutMs fallbackDelayMs : Nat)
      (validation : ResponseValidation)
  | collectResponse (timeoutMs idleTimeoutMs maximumBytes : Nat)
      (validation : ResponseValidation)
  deriving DecidableEq, Repr

structure Plan where
  protocol : WireProtocol
  sourceCommit : String
  actions : List Action
  deriving DecidableEq, Repr

/-- The bytes an action asks the transport to write. -/
def Action.stream : Action → Bytes
  | .commandWrite _ bytes _ => bytes
  | .rasterWrite bytes _ _ => bytes
  | _ => []

/-- The byte stream of a list of actions: the bytes of its command and raster
writes, in action order. -/
def streamOf (actions : List Action) : Bytes :=
  actions.flatMap Action.stream

/-- The byte stream of a whole plan. -/
def Plan.stream (plan : Plan) : Bytes :=
  streamOf plan.actions

/-- The vectors of a plan live in one address space, so the total number of
bytes it writes is representable. -/
def Plan.Resident (plan : Plan) : Prop :=
  plan.stream.length ≤ 2 ^ 64 - 1

instance (plan : Plan) : Decidable plan.Resident :=
  inferInstanceAs (Decidable (_ ≤ _))

@[simp] theorem streamOf_nil : streamOf [] = [] := rfl

@[simp] theorem streamOf_append (left right : List Action) :
    streamOf (left ++ right) = streamOf left ++ streamOf right :=
  List.flatMap_append

@[simp] theorem streamOf_cons (action : Action) (rest : List Action) :
    streamOf (action :: rest) = action.stream ++ streamOf rest :=
  List.flatMap_cons

end PrinterSdk.Protocol
