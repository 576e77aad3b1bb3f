import PrinterSdk.Data.Machine
import PrinterSdk.Executor.Transport
import PrinterSdk.Interaction.Machine
import PrinterSdk.Protocol.CreditFrames

/-!
# The native BLE transport

A `BtleplugTransport` after `connect`.  Notifications are forwarded by a task of
their own into a bounded channel, so frames arrive between any two steps of a
call; the calls themselves borrow the transport and exclude one another.  Each
step below is the code between two points where another thread can be seen to
act, and `Call` says at which of them a pending call stands.
-/

namespace PrinterSdk.Native.Ble

open PrinterSdk.Data PrinterSdk.Executor PrinterSdk.Interaction PrinterSdk.Protocol

def notificationQueueCapacity : Nat := 32

/-! ## Credit flow -/

structure CreditFlowState where
  credits : Nat := 0
  maximumPayload : Option Nat := none
  pendingResponses : List Bytes := []
  deriving DecidableEq, Repr

/-- Apply a control frame; the flag says whether the frame was one. -/
def CreditFlowState.observe (flow : CreditFlowState) (bytes : Bytes) :
    CreditFlowState × Bool :=
  match bytes with
  | [0x01, credits] =>
      ({ flow with credits := saturatingAdd flow.credits credits.toNat }, true)
  | [0x02, low, high] =>
      if limitFromLeBytes low high ≠ 0 then
        ({ flow with maximumPayload := some (limitFromLeBytes low high) }, true)
      else
        (flow, true)
  | _ => (flow, false)

/-! ## The transport -/

inductive NotificationState where
  | unsupported | available | subscribed | disconnected
  deriving DecidableEq, Repr

/-- The receiving end of the notification channel; `ended` once the forwarding
task has dropped the sender. -/
structure Channel where
  queue : List Bytes := []
  ended : Bool := false
  deriving DecidableEq, Repr

/-- Where the pending call stands. -/
inductive Call where
  | idle
  /-- `receive_for_credit`, before a credit is taken. -/
  | acquiring (bytes : Bytes)
  /-- `write_inner`, about to hand the bytes to the peripheral. -/
  | sending (bytes : Bytes)
  /-- `write_inner`, awaiting the peripheral. -/
  | writing
  /-- `receive_flow_response`, awaiting a frame. -/
  | listening
  /-- `wait_notification_state`, awaiting a frame. -/
  | receiving
  deriving DecidableEq, Repr

structure Transport where
  notificationState : NotificationState
  notifications : Option Channel := none
  payloadLimit : Nat
  creditFlow : Option CreditFlowState
  call : Call := .idle
  deriving DecidableEq, Repr

/-- What drives the transport. -/
inductive Label where
  /-- A `subscribe_notifications` call: whether the notification stream opens, and
  whether the peripheral accepts the subscription. -/
  | subscribe (opened accepted : Bool)
  /-- The forwarding task puts a frame into the channel. -/
  | deliver (bytes : Bytes)
  /-- The notification stream ends and the forwarding task with it. -/
  | streamEnds
  /-- A `write` call. -/
  | write (bytes : Bytes)
  /-- A `wait_response` call. -/
  | waitResponse
  /-- The pending `recv` completes. -/
  | receive
  /-- A credit is in hand. -/
  | acquire
  /-- The bytes are handed to the peripheral. -/
  | send
  /-- The peripheral write completes. -/
  | complete (accepted : Bool)
  /-- The timeout of the pending wait fires. -/
  | elapse
  /-- The caller drops the pending call. -/
  | cancel
  /-- A `disconnect` call. -/
  | disconnect
  deriving DecidableEq, Repr

/-- What a step shows. -/
inductive Output where
  | subscribed (result : Except TransportError NotificationSupport)
  /-- A frame taken from the channel. -/
  | received (bytes : Bytes)
  /-- One peripheral write. -/
  | sent (bytes : Bytes)
  | wrote (result : Except TransportError Unit)
  | responded (result : Except TransportError WaitOutcome)

def bleError (kind : TransportErrorKind) (message : String) : TransportError where
  kind := kind
  message := message

/-- The transport right after `connect` on a credit-controlled profile, which
requires a notification characteristic. -/
def connect (payloadLimit : Nat) : Transport where
  notificationState := .available
  payloadLimit := payloadLimit
  creditFlow := some {}

def Transport.finish (transport : Transport) (outputs : List Output) :
    Option (Transport × List Output) :=
  some ({ transport with call := .idle }, outputs)

def Transport.subscribeInner (transport : Transport) (opened accepted : Bool) :
    Option (Transport × List Output) :=
  match transport.notificationState with
  | .unsupported => transport.finish [.subscribed (.ok .unavailable)]
  | .subscribed => transport.finish [.subscribed (.ok .subscribed)]
  | .disconnected =>
      transport.finish [.subscribed (.error
        (bleError .disconnected "BLE transport is disconnected"))]
  | .available =>
      if !opened then
        transport.finish [.subscribed (.error
          (bleError .connection "could not open BLE notification stream"))]
      else if accepted then
        { transport with notifications := some {}, notificationState := .subscribed }.finish
          [.subscribed (.ok .subscribed)]
      else
        transport.finish [.subscribed (.error
          (bleError .connection "could not subscribe to BLE notifications"))]

def validateWriteState (state : NotificationState) (length limit : Nat) :
    Except TransportError Unit :=
  if state = .disconnected then
    .error (bleError .disconnected "BLE transport is disconnected")
  else if length > limit then
    .error (bleError .invalidConfiguration "BLE write exceeds the declared payload limit")
  else
    .ok ()

/-- `write_inner` up to its first suspension. -/
def Transport.writeInner (transport : Transport) (bytes : Bytes) :
    Option (Transport × List Output) :=
  match validateWriteState transport.notificationState bytes.length
      transport.payloadLimit with
  | .error error => transport.finish [.wrote (.error error)]
  | .ok () =>
      match transport.creditFlow with
      | none => some ({ transport with call := .sending bytes }, [])
      | some _ =>
          if transport.notificationState ≠ .subscribed then
            transport.finish [.wrote (.error (bleError .invalidConfiguration
              "BLE credit flow requires notification subscription before writing"))]
          else
            match transport.notifications with
            | none =>
                transport.finish [.wrote (.error (bleError .invalidConfiguration
                  "BLE credit notification receiver is missing"))]
            | some _ => some ({ transport with call := .acquiring bytes }, [])

/-- `wait_inner` up to its first suspension. -/
def Transport.waitInner (transport : Transport) : Option (Transport × List Output) :=
  match transport.creditFlow with
  | some flow =>
      if transport.notificationState ≠ .subscribed then
        transport.finish [.responded (.ok .unavailable)]
      else
        match transport.notifications with
        | none =>
            transport.finish [.responded (.error (bleError .invalidConfiguration
              "BLE credit notification receiver is missing"))]
        | some _ =>
            match flow.pendingResponses with
            | bytes :: rest =>
                { transport with
                  creditFlow := some { flow with pendingResponses := rest } }.finish
                  [.responded (.ok (.response bytes))]
            | [] => some ({ transport with call := .listening }, [])
  | none =>
      match transport.notificationState with
      | .unsupported | .available => transport.finish [.responded (.ok .unavailable)]
      | .disconnected =>
          transport.finish [.responded (.error
            (bleError .disconnected "BLE transport is disconnected"))]
      | .subscribed =>
          match transport.notifications with
          | none =>
              transport.finish [.responded (.error (bleError .invalidConfiguration
                "BLE notification state is inconsistent"))]
          | some _ => some ({ transport with call := .receiving }, [])

def streamEnded : TransportError :=
  bleError .disconnected "BLE notification stream ended"

/-- `recv().await`: pending while the channel is open and empty. -/
def Channel.recv (channel : Channel) : Option (Option Bytes × Channel) :=
  match channel.queue with
  | bytes :: rest => some (some bytes, { channel with queue := rest })
  | [] => if channel.ended then some (none, channel) else none

/-- One turn of the loop of `receive_for_credit`. -/
def Transport.receiveForCredit (transport : Transport) (flow : CreditFlowState)
    (channel : Channel) : Option (Transport × List Output) :=
  if flow.credits ≠ 0 then none
  else
    match channel.recv with
    | none => none
    | some (none, _) =>
        { transport with notificationState := .disconnected }.finish
          [.wrote (.error streamEnded)]
    | some (some bytes, channel) =>
        match flow.observe bytes with
        | (flow, true) =>
            some ({ transport with notifications := some channel, creditFlow := some flow },
              [.received bytes])
        | (flow, false) =>
            if flow.pendingResponses.length = notificationQueueCapacity then
              { transport with
                notifications := some channel
                notificationState := .disconnected }.finish
                [.received bytes, .wrote (.error (bleError .io
                  "BLE response queue is full while waiting for write credit"))]
            else
              some ({ transport with
                  notifications := some channel
                  creditFlow := some
                    { flow with pendingResponses := flow.pendingResponses ++ [bytes] } },
                [.received bytes])

/-- One turn of the loop of `receive_flow_response`. -/
def Transport.receiveFlowResponse (transport : Transport) (flow : CreditFlowState)
    (channel : Channel) : Option (Transport × List Output) :=
  match channel.recv with
  | none => none
  | some (none, _) =>
      { transport with notificationState := .disconnected }.finish
        [.responded (.error streamEnded)]
  | some (some bytes, channel) =>
      match flow.observe bytes with
      | (flow, true) =>
          some ({ transport with notifications := some channel, creditFlow := some flow },
            [.received bytes])
      | (_, false) =>
          { transport with notifications := some channel }.finish
            [.received bytes, .responded (.ok (.response bytes))]

/-- The `recv` of `wait_notification_state`. -/
def Transport.receiveNotification (transport : Transport) (channel : Channel) :
    Option (Transport × List Output) :=
  match channel.recv with
  | none => none
  | some (none, _) =>
      { transport with notificationState := .disconnected }.finish
        [.responded (.error streamEnded)]
  | some (some bytes, channel) =>
      { transport with notifications := some channel }.finish
        [.received bytes, .responded (.ok (.response bytes))]

/-- The pending `recv` completes. -/
def Transport.receive (transport : Transport) : Option (Transport × List Output) :=
  match transport.call, transport.creditFlow, transport.notifications with
  | .acquiring _, some flow, some channel => transport.receiveForCredit flow channel
  | .listening, some flow, some channel => transport.receiveFlowResponse flow channel
  | .receiving, none, some channel => transport.receiveNotification channel
  | _, _, _ => none

/-- The end of `receive_for_credit` and the check of the advertised limit. -/
def Transport.acquire (transport : Transport) : Option (Transport × List Output) :=
  match transport.call, transport.creditFlow with
  | .acquiring bytes, some flow =>
      if flow.credits = 0 then none
      else
        let transport := { transport with
          creditFlow := some { flow with credits := flow.credits - 1 } }
        if flow.maximumPayload.any (bytes.length > ·) then
          transport.finish [.wrote (.error (bleError .invalidConfiguration
            "BLE write exceeds the printer-advertised flow limit"))]
        else
          some ({ transport with call := .sending bytes }, [])
  | _, _ => none

/-- The forwarding task waits for space in the channel. -/
def Transport.deliver (transport : Transport) (bytes : Bytes) :
    Option (Transport × List Output) :=
  match transport.notifications with
  | none => none
  | some channel =>
      if channel.ended || decide (notificationQueueCapacity ≤ channel.queue.length) then none
      else
        some ({ transport with
          notifications := some { channel with queue := channel.queue ++ [bytes] } }, [])

def Transport.disconnectInner (transport : Transport) : Option (Transport × List Output) :=
  if transport.notificationState = .disconnected then some (transport, [])
  else some ({ transport with notificationState := .disconnected, notifications := none }, [])

/-- Whether the pending call stands at a point where it can be dropped. -/
def Call.suspended : Call → Bool
  | .acquiring _ | .writing | .listening | .receiving => true
  | .idle | .sending _ => false

/-- One step of the transport. -/
def step (transport : Transport) : Label → Option (Transport × List Output)
  | .subscribe opened accepted =>
      if transport.call = .idle then transport.subscribeInner opened accepted else none
  | .deliver bytes => transport.deliver bytes
  | .streamEnds =>
      transport.notifications.map fun channel =>
        ({ transport with notifications := some { channel with ended := true } }, [])
  | .write bytes => if transport.call = .idle then transport.writeInner bytes else none
  | .waitResponse => if transport.call = .idle then transport.waitInner else none
  | .receive => transport.receive
  | .acquire => transport.acquire
  | .send =>
      match transport.call with
      | .sending bytes => some ({ transport with call := .writing }, [.sent bytes])
      | _ => none
  | .complete accepted =>
      if transport.call = .writing then
        transport.finish [.wrote
          (if accepted then .ok () else .error (bleError .io "BLE write failed"))]
      else none
  | .elapse =>
      if transport.call = .listening ∨ transport.call = .receiving then
        transport.finish [.responded (.ok .timeout)]
      else none
  | .cancel => if transport.call.suspended then transport.finish [] else none
  | .disconnect => if transport.call = .idle then transport.disconnectInner else none

/-- The transport as a machine. -/
def machine : Machine Transport Label Output where
  step := step

end PrinterSdk.Native.Ble
