import PrinterSdk.Browser.CreditQueue
import PrinterSdk.Protocol.CreditFrames

/-!
# The WebBluetooth transport

One `WebBluetoothTransport` with its characteristic.  JavaScript runs each turn to
its end, so a step is what happens in one turn: a call up to its first `await`, the
continuation of a settled promise, an event listener, an abort, a timer.  Calls may
overlap; each is known by its number.
-/

namespace PrinterSdk.Browser

open PrinterSdk.Data PrinterSdk.Interaction PrinterSdk.Protocol

inductive BluetoothFlowControl where
  | none | phomemoCredit
  deriving DecidableEq, Repr

structure WebBluetoothTransport where
  /-- `writeValueWithoutResponse` exists on the writable characteristic. -/
  writesWithoutResponse : Bool := true
  /-- A notification characteristic was passed to the constructor. -/
  notifications : Bool := true
  configuredPayloadLimit : Nat := 512
  flowControl : BluetoothFlowControl := .none
  replies : List Bytes := []
  /-- `waitForResponse` calls that wait for a frame. -/
  listeners : List Nat := []
  queue : CreditQueue := {}
  negotiatedPayloadLimit : Option Nat := none
  subscribed : Bool := false
  /-- Listeners registered on the characteristic. -/
  handlers : Nat := 0
  /-- `subscribeNotifications` calls that await `startNotifications`. -/
  starting : List Nat := []
  /-- Bytes of the `write` calls that asked for a credit. -/
  writes : List (Nat × Bytes) := []
  /-- `write` calls whose credit promise has resolved. -/
  granted : List Nat := []
  /-- Number of calls made. -/
  calls : Nat := 0
  deriving DecidableEq, Repr

/-- How a call ends. -/
inductive Settled where
  | subscribed (supported : Bool)
  /-- The write is handed to the characteristic. -/
  | issued
  | response (bytes : Bytes)
  | timeout
  | unavailable
  | rejected (message : String)
  deriving DecidableEq, Repr

inductive BluetoothLabel where
  | subscribe (aborted : Bool)
  /-- `startNotifications` settles for a pending attempt, with the reason when it
  fails. -/
  | startSettles (call : Nat) (failure : Option String)
  /-- A `characteristicvaluechanged` event with the characteristic's value. -/
  | notify (value : Option Bytes)
  | write (bytes : Bytes) (aborted : Bool)
  /-- The continuation of a `write` whose credit promise has resolved. -/
  | resume (call : Nat)
  | waitForResponse (aborted : Bool)
  /-- The timer of a pending wait fires. -/
  | elapse (call : Nat)
  /-- The abort signal of a pending call fires. -/
  | abort (call : Nat)
  | disconnect (aborted : Bool)
  deriving DecidableEq, Repr

inductive BluetoothOutput where
  /-- `receiveNotification` is called. -/
  | received (bytes : Bytes)
  /-- `grantCredits` is called. -/
  | credited (count : Nat)
  /-- `writeValueWithoutResponse` is called. -/
  | sent (bytes : Bytes)
  | settled (call : Nat) (outcome : Settled)
  deriving DecidableEq, Repr

def abortError : Settled := .rejected "Operation aborted"

namespace WebBluetoothTransport

def payloadLimit (transport : WebBluetoothTransport) : Nat :=
  min transport.configuredPayloadLimit
    (transport.negotiatedPayloadLimit.getD transport.configuredPayloadLimit)

/-- A response frame goes to the first waiting call, or is kept. -/
def receiveResponse (transport : WebBluetoothTransport) (bytes : Bytes) :
    WebBluetoothTransport × List BluetoothOutput :=
  match transport.listeners with
  | listener :: rest =>
      ({ transport with listeners := rest.erase listener },
        [.settled listener (.response bytes)])
  | [] => ({ transport with replies := transport.replies ++ [bytes] }, [])

def receiveNotification (transport : WebBluetoothTransport) (bytes : Bytes) :
    WebBluetoothTransport × List BluetoothOutput :=
  if transport.flowControl = .phomemoCredit then
    match bytes with
    | [0x01, count] =>
        let (queue, called) := transport.queue.grantCredits count.toNat
        ({ transport with queue := queue, granted := transport.granted ++ called },
          [.credited count.toNat])
    | [0x02, low, high] =>
        if limitFromLeBytes low high > 0 then
          ({ transport with negotiatedPayloadLimit := some (limitFromLeBytes low high) }, [])
        else
          (transport, [])
    | _ => transport.receiveResponse bytes
  else
    transport.receiveResponse bytes

/-- Every registered listener handles one event. -/
def dispatch (bytes : Bytes) :
    Nat → WebBluetoothTransport → WebBluetoothTransport × List BluetoothOutput
  | 0, transport => (transport, [])
  | handlers + 1, transport =>
      let (transport, first) := transport.receiveNotification bytes
      let (transport, rest) := dispatch bytes handlers transport
      (transport, .received bytes :: first ++ rest)

/-- A call that is over in its first turn. -/
def settle (transport : WebBluetoothTransport) (outcome : Settled) :
    Option (WebBluetoothTransport × List BluetoothOutput) :=
  some ({ transport with calls := transport.calls + 1 },
    [.settled transport.calls outcome])

def subscribeNotifications (transport : WebBluetoothTransport) (aborted : Bool) :
    Option (WebBluetoothTransport × List BluetoothOutput) :=
  if aborted then transport.settle abortError
  else if !transport.notifications then transport.settle (.subscribed false)
  else if transport.subscribed then transport.settle (.subscribed true)
  else
    some ({ transport with
      handlers := transport.handlers + 1
      starting := transport.starting ++ [transport.calls]
      calls := transport.calls + 1 }, [])

/-- The end of `write`: hand the bytes to the characteristic. -/
def issue (transport : WebBluetoothTransport) (call : Nat) (bytes : Bytes) :
    List BluetoothOutput :=
  if transport.writesWithoutResponse then [.sent bytes, .settled call .issued]
  else [.settled call
    (.rejected "Bluetooth profile requires write-without-response")]

def write (transport : WebBluetoothTransport) (bytes : Bytes) (aborted : Bool) :
    Option (WebBluetoothTransport × List BluetoothOutput) :=
  if aborted then transport.settle abortError
  else if bytes.length > transport.payloadLimit then
    transport.settle (.rejected "WebBluetooth payload exceeds negotiated limit")
  else if transport.flowControl = .phomemoCredit then
    if !transport.subscribed then
      transport.settle
        (.rejected "WebBluetooth credit flow requires notification subscription")
    else
      let (queue, taken) := transport.queue.takeCredit transport.calls false
      some ({ transport with
        queue := queue
        writes := (transport.calls, bytes) :: transport.writes
        granted :=
          if taken = .resolved then transport.granted ++ [transport.calls]
          else transport.granted
        calls := transport.calls + 1 }, [])
  else
    some ({ transport with calls := transport.calls + 1 },
      transport.issue transport.calls bytes)

/-- The rest of `write` after `await this.takeCredit(signal)`. -/
def resume (transport : WebBluetoothTransport) (call : Nat) :
    Option (WebBluetoothTransport × List BluetoothOutput) :=
  if call ∈ transport.granted then
    (transport.writes.lookup call).map fun bytes =>
      ({ transport with granted := transport.granted.erase call },
        if bytes.length > transport.payloadLimit then
          [.settled call (.rejected "WebBluetooth payload exceeds printer flow limit")]
        else transport.issue call bytes)
  else none

def waitForResponse (transport : WebBluetoothTransport) (aborted : Bool) :
    Option (WebBluetoothTransport × List BluetoothOutput) :=
  if aborted then transport.settle abortError
  else if !transport.subscribed then transport.settle .unavailable
  else
    match transport.replies with
    | queued :: rest => { transport with replies := rest }.settle (.response queued)
    | [] =>
        some ({ transport with
          listeners := transport.listeners ++ [transport.calls]
          calls := transport.calls + 1 }, [])

/-- The abort listener of whatever the call is waiting for. -/
def abort (transport : WebBluetoothTransport) (call : Nat) :
    WebBluetoothTransport × List BluetoothOutput :=
  if call ∈ transport.starting then
    ({ transport with starting := transport.starting.erase call }, [.settled call abortError])
  else if call ∈ transport.queue.creditWaiters then
    ({ transport with queue := transport.queue.abortTaker call }, [.settled call abortError])
  else if call ∈ transport.listeners then
    ({ transport with listeners := transport.listeners.erase call },
      [.settled call abortError])
  else
    (transport, [])

def step (transport : WebBluetoothTransport) :
    BluetoothLabel → Option (WebBluetoothTransport × List BluetoothOutput)
  | .subscribe aborted => transport.subscribeNotifications aborted
  | .startSettles call failure =>
      if call ∈ transport.starting then
        let transport := { transport with starting := transport.starting.erase call }
        match failure with
        | Option.none =>
            some ({ transport with subscribed := true }, [.settled call (.subscribed true)])
        | some reason => some (transport, [.settled call (.rejected reason)])
      else none
  | .notify value =>
      match value with
      | some bytes => some (dispatch bytes transport.handlers transport)
      | Option.none => some (transport, [])
  | .write bytes aborted => transport.write bytes aborted
  | .resume call => transport.resume call
  | .waitForResponse aborted => transport.waitForResponse aborted
  | .elapse call =>
      if call ∈ transport.listeners then
        some ({ transport with listeners := transport.listeners.erase call },
          [.settled call .timeout])
      else none
  | .abort call => some (transport.abort call)
  | .disconnect aborted =>
      if aborted then transport.settle abortError
      else
        some ({ transport with
          queue := { transport.queue with credits := 0 }
          negotiatedPayloadLimit := Option.none
          calls := transport.calls + 1 }, [])

end WebBluetoothTransport

/-- The constructor. -/
def construct (writesWithoutResponse notifications : Bool) (configuredPayloadLimit : Nat)
    (flowControl : BluetoothFlowControl) : Except String WebBluetoothTransport :=
  if configuredPayloadLimit > maxSafeInteger ∨ configuredPayloadLimit = 0 then
    .error "invalid WebBluetooth payload limit"
  else
    .ok {
      writesWithoutResponse := writesWithoutResponse
      notifications := notifications
      configuredPayloadLimit := configuredPayloadLimit
      flowControl := flowControl }

/-- The transport as a machine. -/
def bluetoothMachine : Machine WebBluetoothTransport BluetoothLabel BluetoothOutput where
  step := WebBluetoothTransport.step

end PrinterSdk.Browser
