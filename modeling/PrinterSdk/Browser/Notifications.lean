import PrinterSdk.Browser.WebBluetooth

/-!
# Exactly-once notifications of the WebBluetooth transport

Whatever listeners are registered on the characteristic, every credit is granted
and every response is kept once per listener that ran.  Events are processed once
exactly when one listener is registered.
-/

namespace PrinterSdk.Browser

open PrinterSdk.Data PrinterSdk.Interaction PrinterSdk.Protocol

/-! ## What a run shows -/

def BluetoothOutput.receivedFrames : BluetoothOutput → List Bytes
  | .received bytes => [bytes]
  | _ => []

def BluetoothOutput.creditedCount : BluetoothOutput → Nat
  | .credited count => count
  | _ => 0

def BluetoothOutput.sentBytes : BluetoothOutput → List Bytes
  | .sent bytes => [bytes]
  | _ => []

def BluetoothOutput.returnedFrames : BluetoothOutput → List Bytes
  | .settled _ (.response bytes) => [bytes]
  | _ => []

/-- Frames handed to `receiveNotification`. -/
def receivedFrames (outputs : List BluetoothOutput) : List Bytes :=
  outputs.flatMap BluetoothOutput.receivedFrames

/-- Credits handed to `grantCredits`. -/
def creditedCount (outputs : List BluetoothOutput) : Nat :=
  (outputs.map BluetoothOutput.creditedCount).sum

/-- Writes handed to the characteristic. -/
def sentBytes (outputs : List BluetoothOutput) : List Bytes :=
  outputs.flatMap BluetoothOutput.sentBytes

/-- Frames returned by `waitForResponse`. -/
def returnedFrames (outputs : List BluetoothOutput) : List Bytes :=
  outputs.flatMap BluetoothOutput.returnedFrames

abbrev BluetoothTrace : Type := List (Transition BluetoothLabel BluetoothOutput)

/-- The frame of a `characteristicvaluechanged` event. -/
def BluetoothLabel.arrivedFrames : BluetoothLabel → List Bytes
  | .notify (some bytes) => [bytes]
  | _ => []

/-- The frames of all events, in order. -/
def arrivedFrames (trace : BluetoothTrace) : List Bytes :=
  trace.flatMap fun transition => transition.event.arrivedFrames

/-- The frames that are responses under a flow control. -/
def BluetoothFlowControl.responses (flowControl : BluetoothFlowControl)
    (frames : List Bytes) : List Bytes :=
  match flowControl with
  | .none => frames
  | .phomemoCredit => Protocol.responses frames

/-- Credits granted by frames under a flow control. -/
def BluetoothFlowControl.creditTotal (flowControl : BluetoothFlowControl)
    (frames : List Bytes) : Nat :=
  match flowControl with
  | .none => 0
  | .phomemoCredit => Protocol.creditTotal frames

@[simp] theorem receivedFrames_append (left right : List BluetoothOutput) :
    receivedFrames (left ++ right) = receivedFrames left ++ receivedFrames right :=
  List.flatMap_append

@[simp] theorem creditedCount_append (left right : List BluetoothOutput) :
    creditedCount (left ++ right) = creditedCount left + creditedCount right := by
  simp [creditedCount]

@[simp] theorem sentBytes_append (left right : List BluetoothOutput) :
    sentBytes (left ++ right) = sentBytes left ++ sentBytes right :=
  List.flatMap_append

@[simp] theorem returnedFrames_append (left right : List BluetoothOutput) :
    returnedFrames (left ++ right) = returnedFrames left ++ returnedFrames right :=
  List.flatMap_append

@[simp] theorem responses_append (flowControl : BluetoothFlowControl)
    (left right : List Bytes) :
    flowControl.responses (left ++ right) =
      flowControl.responses left ++ flowControl.responses right := by
  cases flowControl with
  | none => rfl
  | phomemoCredit => exact Protocol.responses_append left right

@[simp] theorem creditTotal_append (flowControl : BluetoothFlowControl)
    (left right : List Bytes) :
    flowControl.creditTotal (left ++ right) =
      flowControl.creditTotal left + flowControl.creditTotal right := by
  cases flowControl with
  | none => rfl
  | phomemoCredit => exact Protocol.creditTotal_append left right

/-! ## One notification -/

variable {transport next : WebBluetoothTransport} {outputs shown : List BluetoothOutput}

/-- What one run of a registered listener does. -/
structure Handles (bytes : Bytes) (transport next : WebBluetoothTransport)
    (outputs : List BluetoothOutput) : Prop where
  flowControl : next.flowControl = transport.flowControl
  silent : receivedFrames outputs = []
  unsent : sentBytes outputs = []
  credited : creditedCount outputs = transport.flowControl.creditTotal [bytes]
  credits : next.queue.credits + next.granted.length ≤
    transport.queue.credits + transport.granted.length + creditedCount outputs
  exact : next.queue.credits < maxSafeInteger →
    next.queue.credits + next.granted.length =
      transport.queue.credits + transport.granted.length + creditedCount outputs
  responses : (transport.listeners ≠ [] → transport.replies = []) →
    returnedFrames outputs ++ next.replies =
      transport.replies ++ transport.flowControl.responses [bytes]
  waiting : (transport.listeners ≠ [] → transport.replies = []) →
    next.listeners ≠ [] → next.replies = []

theorem handles_receiveResponse {bytes : Bytes}
    (response : transport.flowControl.responses [bytes] = [bytes])
    (uncredited : transport.flowControl.creditTotal [bytes] = 0) :
    Handles bytes transport (transport.receiveResponse bytes).1
      (transport.receiveResponse bytes).2 := by
  unfold WebBluetoothTransport.receiveResponse
  split
  · rename_i listener rest waiting
    constructor
    case flowControl => rfl
    case silent => rfl
    case unsent => rfl
    case credited => rw [uncredited]; rfl
    case credits => exact Nat.le_refl _
    case exact => exact fun _ => rfl
    case responses =>
      intro kept
      have emptied := kept (by simp [waiting])
      simp [response, emptied, returnedFrames, BluetoothOutput.returnedFrames]
    case waiting =>
      intro kept _
      exact kept (by simp [waiting])
  · rename_i nobody
    constructor
    case flowControl => rfl
    case silent => rfl
    case unsent => rfl
    case credited => rw [uncredited]; rfl
    case credits => exact Nat.le_refl _
    case exact => exact fun _ => rfl
    case responses =>
      intro _
      simp [response, returnedFrames]
    case waiting =>
      intro _ waiting
      exact absurd nobody waiting

/-- A credit frame is granted to the waiting writes and kept for later ones. -/
theorem handles_credit (controlled : transport.flowControl = .phomemoCredit) (count : UInt8) :
    Handles [0x01, count] transport
      { transport with
        queue := (transport.queue.grantCredits count.toNat).1
        granted := transport.granted ++ (transport.queue.grantCredits count.toNat).2 }
      [.credited count.toNat] := by
  have total := serve_total count.toNat transport.queue.creditWaiters
  constructor
  case flowControl => rfl
  case silent => rfl
  case unsent => rfl
  case credited =>
    rw [controlled]
    rfl
  case credits =>
    simp only [CreditQueue.grantCredits, creditedCount, List.map_cons, List.map_nil,
      BluetoothOutput.creditedCount, List.sum_cons, List.sum_nil, List.length_append]
    omega
  case exact =>
    simp only [CreditQueue.grantCredits, creditedCount, List.map_cons, List.map_nil,
      BluetoothOutput.creditedCount, List.sum_cons, List.sum_nil, List.length_append]
    omega
  case responses =>
    intro _
    rw [controlled]
    exact (List.append_nil _).symm
  case waiting => exact id

/-- A limit frame only moves the negotiated limit. -/
theorem handles_limit (controlled : transport.flowControl = .phomemoCredit)
    (low high : UInt8) (limit : Option Nat) :
    Handles [0x02, low, high] transport
      { transport with negotiatedPayloadLimit := limit } [] := by
  constructor
  case flowControl => rfl
  case silent => rfl
  case unsent => rfl
  case credited =>
    rw [controlled]
    rfl
  case credits => exact Nat.le_refl _
  case exact => exact fun _ => rfl
  case responses =>
    intro _
    rw [controlled]
    exact (List.append_nil _).symm
  case waiting => exact id

theorem handles_receiveNotification (bytes : Bytes) :
    Handles bytes transport (transport.receiveNotification bytes).1
      (transport.receiveNotification bytes).2 := by
  unfold WebBluetoothTransport.receiveNotification
  split
  · rename_i controlled
    split
    · rename_i count
      exact handles_credit controlled count
    · rename_i low high
      split
      · exact handles_limit controlled low high _
      · exact handles_limit controlled low high transport.negotiatedPayloadLimit
    · rename_i noCredit noLimit
      have response := isControl_eq_false noCredit noLimit
      refine handles_receiveResponse ?_ ?_
      · rw [controlled]
        simp [BluetoothFlowControl.responses, Protocol.responses, response]
      · rw [controlled]
        simp [BluetoothFlowControl.creditTotal, creditOf_of_not_control response]
  · rename_i uncontrolled
    have free : transport.flowControl = .none := by
      cases control : transport.flowControl with
      | none => rfl
      | phomemoCredit => exact absurd control uncontrolled
    refine handles_receiveResponse ?_ ?_
    · rw [free]
      rfl
    · rw [free]
      rfl

/-! ## The invariant -/

/-- Credits and responses of a transport, accounted for by the outputs so far. -/
structure Balanced (flowControl : BluetoothFlowControl) (outputs : List BluetoothOutput)
    (transport : WebBluetoothTransport) : Prop where
  flow : transport.flowControl = flowControl
  credits : flowControl = .phomemoCredit →
    (sentBytes outputs).length + transport.granted.length + transport.queue.credits ≤
      creditedCount outputs
  credited : creditedCount outputs = flowControl.creditTotal (receivedFrames outputs)
  responses : returnedFrames outputs ++ transport.replies =
    flowControl.responses (receivedFrames outputs)
  waiting : transport.listeners ≠ [] → transport.replies = []

variable {flowControl : BluetoothFlowControl}

/-- One listener that runs keeps the balance. -/
theorem Balanced.handle (balanced : Balanced flowControl outputs transport) {bytes : Bytes}
    (handles : Handles bytes transport next shown) :
    Balanced flowControl (outputs ++ .received bytes :: shown) next := by
  have received : receivedFrames (.received bytes :: shown) = [bytes] := by
    rw [← List.singleton_append, receivedFrames_append, handles.silent]
    rfl
  have sent : sentBytes (.received bytes :: shown) = [] := handles.unsent
  have counted : creditedCount (.received bytes :: shown) = creditedCount shown := by
    simp [creditedCount, BluetoothOutput.creditedCount]
  have returned : returnedFrames (.received bytes :: shown) = returnedFrames shown := rfl
  have added := handles.credits
  constructor
  case flow => rw [handles.flowControl, balanced.flow]
  case credits =>
    intro controlled
    have before := balanced.credits controlled
    rw [sentBytes_append, sent, List.append_nil, creditedCount_append, counted]
    omega
  case credited =>
    rw [creditedCount_append, counted, handles.credited, balanced.flow, balanced.credited,
      receivedFrames_append, received, creditTotal_append]
  case responses =>
    rw [returnedFrames_append, returned, List.append_assoc,
      handles.responses balanced.waiting, ← List.append_assoc, balanced.responses,
      balanced.flow, receivedFrames_append, received, responses_append]
  case waiting => exact handles.waiting balanced.waiting

/-- Every registered listener that runs keeps the balance. -/
theorem Balanced.dispatch (balanced : Balanced flowControl outputs transport) (bytes : Bytes)
    (handlers : Nat) :
    Balanced flowControl
      (outputs ++ (WebBluetoothTransport.dispatch bytes handlers transport).2)
      (WebBluetoothTransport.dispatch bytes handlers transport).1 := by
  induction handlers generalizing transport outputs with
  | zero => simpa [WebBluetoothTransport.dispatch] using balanced
  | succ handlers ih =>
      have rest := ih (balanced.handle (handles_receiveNotification bytes))
      rw [List.append_assoc] at rest
      exact rest

/-- A step that handles no event moves credits and responses within the transport. -/
theorem Balanced.move (balanced : Balanced flowControl outputs transport)
    (silent : receivedFrames shown = []) (uncredited : creditedCount shown = 0)
    (flow : next.flowControl = transport.flowControl)
    (credits : flowControl = .phomemoCredit →
      (sentBytes shown).length + next.granted.length + next.queue.credits ≤
        transport.granted.length + transport.queue.credits)
    (responses : returnedFrames shown ++ next.replies = transport.replies)
    (waiting : next.listeners ≠ [] → next.replies = []) :
    Balanced flowControl (outputs ++ shown) next := by
  constructor
  case flow => rw [flow, balanced.flow]
  case credits =>
    intro controlled
    have before := balanced.credits controlled
    have moved := credits controlled
    rw [sentBytes_append, List.length_append, creditedCount_append, uncredited]
    omega
  case credited =>
    rw [creditedCount_append, uncredited, receivedFrames_append, silent, List.append_nil,
      balanced.credited]
    rfl
  case responses =>
    rw [returnedFrames_append, List.append_assoc, responses, receivedFrames_append, silent,
      List.append_nil, balanced.responses]
  case waiting => exact waiting

/-- A step that leaves credits and responses where they are. -/
theorem Balanced.keep (balanced : Balanced flowControl outputs transport)
    (silent : receivedFrames shown = []) (uncredited : creditedCount shown = 0)
    (unsent : sentBytes shown = []) (unreturned : returnedFrames shown = [])
    (flow : next.flowControl = transport.flowControl)
    (granted : next.granted = transport.granted)
    (credits : next.queue.credits ≤ transport.queue.credits)
    (replies : next.replies = transport.replies)
    (listeners : next.listeners ≠ [] → transport.listeners ≠ []) :
    Balanced flowControl (outputs ++ shown) next := by
  refine balanced.move silent uncredited flow ?_ ?_ ?_
  · intro _
    rw [unsent, granted]
    exact Nat.add_le_add (Nat.le_of_eq (Nat.zero_add _)) credits
  · rw [unreturned, replies]
    rfl
  · intro waiting
    rw [replies]
    exact balanced.waiting (listeners waiting)

theorem erase_ne_nil {calls : List Nat} {call : Nat} (left : calls.erase call ≠ []) :
    calls ≠ [] := by
  rintro rfl
  exact left rfl

theorem Balanced.settle (balanced : Balanced flowControl outputs transport)
    {outcome : Settled} (other : ∀ bytes, outcome ≠ .response bytes)
    (stepped : transport.settle outcome = some (next, shown)) :
    Balanced flowControl (outputs ++ shown) next := by
  cases stepped
  have unreturned : returnedFrames [.settled transport.calls outcome] = [] := by
    cases outcome with
    | response bytes => exact absurd rfl (other bytes)
    | _ => rfl
  exact balanced.keep rfl rfl rfl unreturned rfl rfl (Nat.le_refl _) rfl id

theorem Balanced.subscribeNotifications (balanced : Balanced flowControl outputs transport)
    {aborted : Bool}
    (stepped : transport.subscribeNotifications aborted = some (next, shown)) :
    Balanced flowControl (outputs ++ shown) next := by
  unfold WebBluetoothTransport.subscribeNotifications at stepped
  split at stepped
  · exact balanced.settle (by simp [abortError]) stepped
  · split at stepped
    · exact balanced.settle (by simp) stepped
    · split at stepped
      · exact balanced.settle (by simp) stepped
      · cases stepped
        exact balanced.keep rfl rfl rfl rfl rfl rfl (Nat.le_refl _) rfl id

/-- Issuing a write neither grants nor returns anything. -/
theorem issue_shows (transport : WebBluetoothTransport) (call : Nat) (bytes : Bytes) :
    receivedFrames (transport.issue call bytes) = [] ∧
      creditedCount (transport.issue call bytes) = 0 ∧
      returnedFrames (transport.issue call bytes) = [] ∧
      (sentBytes (transport.issue call bytes)).length ≤ 1 := by
  unfold WebBluetoothTransport.issue
  split
  · exact ⟨rfl, rfl, rfl, Nat.le_refl _⟩
  · exact ⟨rfl, rfl, rfl, Nat.zero_le _⟩

theorem Balanced.write (balanced : Balanced flowControl outputs transport) {bytes : Bytes}
    {aborted : Bool} (stepped : transport.write bytes aborted = some (next, shown)) :
    Balanced flowControl (outputs ++ shown) next := by
  unfold WebBluetoothTransport.write at stepped
  split at stepped
  · exact balanced.settle (by simp [abortError]) stepped
  · split at stepped
    · exact balanced.settle (by simp) stepped
    · split at stepped
      · split at stepped
        · exact balanced.settle (by simp) stepped
        · by_cases credit : transport.queue.credits > 0
          · simp only [CreditQueue.takeCredit, Bool.false_eq_true, ↓reduceIte, credit] at stepped
            cases stepped
            refine balanced.move rfl rfl rfl ?_ rfl balanced.waiting
            intro _
            simp only [sentBytes, List.flatMap_nil, List.length_nil, List.length_append,
              List.length_singleton]
            omega
          · simp only [CreditQueue.takeCredit, Bool.false_eq_true, ↓reduceIte, credit,
              reduceCtorEq] at stepped
            cases stepped
            exact balanced.keep rfl rfl rfl rfl rfl rfl (Nat.le_refl _) rfl id
      · rename_i uncontrolled
        cases stepped
        obtain ⟨silent, uncredited, unreturned, _⟩ :=
          issue_shows transport transport.calls bytes
        refine balanced.move silent uncredited rfl ?_ ?_ balanced.waiting
        · intro controlled
          exact absurd (balanced.flow.trans controlled) uncontrolled
        · rw [unreturned]
          rfl

theorem Balanced.resume (balanced : Balanced flowControl outputs transport) {call : Nat}
    (stepped : transport.resume call = some (next, shown)) :
    Balanced flowControl (outputs ++ shown) next := by
  unfold WebBluetoothTransport.resume at stepped
  split at stepped
  · rename_i granted
    simp only [Option.map_eq_some_iff] at stepped
    obtain ⟨bytes, _, same⟩ := stepped
    cases same
    have one := List.length_erase_of_mem granted
    have some := List.length_pos_of_mem granted
    split
    · refine balanced.move rfl rfl rfl ?_ rfl balanced.waiting
      intro _
      rw [one]
      exact Nat.add_le_add_right (by simp [sentBytes, BluetoothOutput.sentBytes]) _
    · obtain ⟨silent, uncredited, unreturned, sent⟩ :=
        issue_shows transport call bytes
      refine balanced.move silent uncredited rfl ?_ ?_ balanced.waiting
      · intro _
        simp only [one]
        omega
      · rw [unreturned]
        rfl
  · cases stepped

theorem Balanced.waitForResponse (balanced : Balanced flowControl outputs transport)
    {aborted : Bool} (stepped : transport.waitForResponse aborted = some (next, shown)) :
    Balanced flowControl (outputs ++ shown) next := by
  unfold WebBluetoothTransport.waitForResponse at stepped
  split at stepped
  · exact balanced.settle (by simp [abortError]) stepped
  · split at stepped
    · exact balanced.settle (by simp) stepped
    · split at stepped
      · rename_i queued rest kept
        cases stepped
        refine balanced.move rfl rfl rfl ?_ ?_ ?_
        · intro _
          simp [sentBytes, BluetoothOutput.sentBytes]
        · simp [returnedFrames, BluetoothOutput.returnedFrames, kept]
        · intro waiting
          have emptied := balanced.waiting waiting
          rw [kept] at emptied
          cases emptied
      · rename_i emptied
        cases stepped
        refine balanced.move rfl rfl rfl ?_ rfl ?_
        · intro _
          simp [sentBytes]
        · intro _
          exact emptied

theorem Balanced.abort (balanced : Balanced flowControl outputs transport) (call : Nat) :
    Balanced flowControl (outputs ++ (transport.abort call).2) (transport.abort call).1 := by
  unfold WebBluetoothTransport.abort
  split
  · exact balanced.keep rfl rfl rfl rfl rfl rfl (Nat.le_refl _) rfl id
  · split
    · exact balanced.keep rfl rfl rfl rfl rfl rfl (Nat.le_refl _) rfl id
    · split
      · exact balanced.keep rfl rfl rfl rfl rfl rfl (Nat.le_refl _) rfl erase_ne_nil
      · exact balanced.keep rfl rfl rfl rfl rfl rfl (Nat.le_refl _) rfl id

/-- Every step keeps the balance. -/
theorem Balanced.step (balanced : Balanced flowControl outputs transport)
    {event : BluetoothLabel} (stepped : transport.step event = some (next, shown)) :
    Balanced flowControl (outputs ++ shown) next := by
  cases event with
  | subscribe aborted => exact balanced.subscribeNotifications stepped
  | startSettles call failure =>
      simp only [WebBluetoothTransport.step] at stepped
      split at stepped
      · split at stepped
        · cases stepped
          exact balanced.keep rfl rfl rfl rfl rfl rfl (Nat.le_refl _) rfl id
        · cases stepped
          exact balanced.keep rfl rfl rfl rfl rfl rfl (Nat.le_refl _) rfl id
      · cases stepped
  | notify value =>
      cases value with
      | some bytes =>
          have dispatched : WebBluetoothTransport.dispatch bytes transport.handlers transport =
              (next, shown) := Option.some.inj stepped
          have kept := balanced.dispatch bytes transport.handlers
          rw [dispatched] at kept
          exact kept
      | none =>
          cases stepped
          exact balanced.keep rfl rfl rfl rfl rfl rfl (Nat.le_refl _) rfl id
  | write bytes aborted => exact balanced.write stepped
  | resume call => exact balanced.resume stepped
  | waitForResponse aborted => exact balanced.waitForResponse stepped
  | elapse call =>
      simp only [WebBluetoothTransport.step] at stepped
      split at stepped
      · cases stepped
        exact balanced.keep rfl rfl rfl rfl rfl rfl (Nat.le_refl _) rfl erase_ne_nil
      · cases stepped
  | abort call =>
      have aborted : transport.abort call = (next, shown) := Option.some.inj stepped
      have kept := balanced.abort call
      rw [aborted] at kept
      exact kept
  | disconnect aborted =>
      simp only [WebBluetoothTransport.step] at stepped
      split at stepped
      · exact balanced.settle (by simp [abortError]) stepped
      · cases stepped
        exact balanced.keep rfl rfl rfl rfl rfl rfl (Nat.zero_le _) rfl id

variable {start : WebBluetoothTransport} {trace : BluetoothTrace}

theorem balanced_construct {writesWithoutResponse notifications : Bool}
    {configuredPayloadLimit : Nat}
    (constructed : construct writesWithoutResponse notifications configuredPayloadLimit
      flowControl = .ok start) : Balanced flowControl [] start := by
  unfold construct at constructed
  split at constructed
  · cases constructed
  · cases constructed
    exact ⟨rfl, fun _ => Nat.le_refl _, by cases flowControl <;> rfl,
      by cases flowControl <;> rfl, fun _ => rfl⟩

theorem balanced_of_run (balanced : Balanced flowControl [] start)
    (run : Machine.Run bluetoothMachine start trace transport) :
    Balanced flowControl (Machine.outputs trace) transport := by
  apply run.invariant
  · exact balanced
  · intro trace state event next outputs balanced stepped
    rw [Machine.outputs_snoc]
    exact balanced.step stepped

/-! ## Exactly once -/

/-- A step of a run that dispatches an event with a value. -/
structure Dispatches (start : WebBluetoothTransport) (trace : BluetoothTrace)
    (state next : WebBluetoothTransport) (bytes : Bytes) (outputs : List BluetoothOutput) :
    Prop where
  intro ::
  within : ∃ before after, trace = before ++ ⟨.notify (some bytes), outputs⟩ :: after ∧
    Machine.Run bluetoothMachine start before state
  stepped : bluetoothMachine.step state (.notify (some bytes)) = some (next, outputs)

/-- Each event of a run is processed exactly once: one call of
`receiveNotification`, exactly the credits of a credit frame, every other frame
returned at most once, and no more writes than credits. -/
structure ExactlyOnce (flowControl : BluetoothFlowControl) (start : WebBluetoothTransport)
    (trace : BluetoothTrace) : Prop where
  processed : ∀ state next bytes outputs, Dispatches start trace state next bytes outputs →
    receivedFrames outputs = [bytes]
  credited : ∀ state next bytes outputs, Dispatches start trace state next bytes outputs →
    next.queue.credits < maxSafeInteger →
    next.queue.credits + next.granted.length =
      state.queue.credits + state.granted.length + flowControl.creditTotal [bytes]
  returned : returnedFrames (Machine.outputs trace) <+:
    flowControl.responses (arrivedFrames trace)
  writes : flowControl = .phomemoCredit →
    (sentBytes (Machine.outputs trace)).length ≤ Protocol.creditTotal (arrivedFrames trace)

/-- Exactly one listener is registered whenever an event arrives. -/
def OneHandler (start : WebBluetoothTransport) (trace : BluetoothTrace) : Prop :=
  ∀ state next bytes outputs, Dispatches start trace state next bytes outputs →
    state.handlers = 1

theorem receivedFrames_dispatch (bytes : Bytes) (handlers : Nat)
    (transport : WebBluetoothTransport) :
    receivedFrames (WebBluetoothTransport.dispatch bytes handlers transport).2 =
      List.replicate handlers bytes := by
  induction handlers generalizing transport with
  | zero => rfl
  | succ handlers ih =>
      have handled : Handles bytes transport _ _ := handles_receiveNotification bytes
      simp only [WebBluetoothTransport.dispatch, List.cons_append, List.replicate_succ]
      rw [← List.singleton_append, receivedFrames_append, receivedFrames_append, handled.silent,
        ih]
      rfl

/-- A step, if it is made, receives no frame. -/
def Unheard (result : Option (WebBluetoothTransport × List BluetoothOutput)) : Prop :=
  ∀ next shown, result = some (next, shown) → receivedFrames shown = []

theorem unheard_none : Unheard none := by
  rintro _ _ ⟨⟩

theorem unheard_some {shown : List BluetoothOutput} (silent : receivedFrames shown = []) :
    Unheard (some (transport, shown)) := by
  rintro _ _ ⟨⟩
  exact silent

theorem Unheard.ite {condition : Prop} [Decidable condition]
    {result other : Option (WebBluetoothTransport × List BluetoothOutput)}
    (first : Unheard result) (second : Unheard other) :
    Unheard (if condition then result else other) := by
  split
  · exact first
  · exact second

/-- Only events with a value reach `receiveNotification`. -/
theorem unheard_of_no_event {event : BluetoothLabel}
    (other : ∀ bytes, event ≠ .notify (some bytes)) : Unheard (transport.step event) := by
  have settled (call : Nat) (outcome : Settled) :
      receivedFrames [.settled call outcome] = [] := rfl
  cases event with
  | notify value =>
      cases value with
      | some bytes => exact absurd rfl (other bytes)
      | none => exact unheard_some rfl
  | subscribe aborted =>
      exact .ite (unheard_some (settled _ _))
        (.ite (unheard_some (settled _ _)) (.ite (unheard_some (settled _ _)) (unheard_some rfl)))
  | startSettles call failure =>
      refine .ite ?_ unheard_none
      cases failure with
      | none => exact unheard_some (settled _ _)
      | some reason => exact unheard_some (settled _ _)
  | write bytes aborted =>
      exact .ite (unheard_some (settled _ _)) (.ite (unheard_some (settled _ _))
        (.ite (.ite (unheard_some (settled _ _)) (unheard_some rfl))
          (unheard_some (issue_shows transport _ _).1)))
  | resume call =>
      refine .ite ?_ unheard_none
      intro next shown resumed
      obtain ⟨bytes, _, same⟩ := Option.map_eq_some_iff.mp resumed
      cases same
      split
      · exact settled _ _
      · exact (issue_shows transport _ _).1
  | waitForResponse aborted =>
      refine .ite (unheard_some (settled _ _)) (.ite (unheard_some (settled _ _)) ?_)
      split
      · exact unheard_some (settled _ _)
      · exact unheard_some rfl
  | elapse call => exact .ite (unheard_some (settled _ _)) unheard_none
  | abort call =>
      have silent : receivedFrames (transport.abort call).2 = [] := by
        unfold WebBluetoothTransport.abort
        split_ifs <;> rfl
      exact unheard_some silent
  | disconnect aborted => exact .ite (unheard_some (settled _ _)) (unheard_some rfl)

theorem OneHandler.of_append {later : BluetoothTrace}
    (one : OneHandler start (trace ++ later)) : OneHandler start trace := by
  intro state next bytes outputs dispatches
  obtain ⟨⟨before, after, whole, reached⟩, stepped⟩ := dispatches
  refine one state next bytes outputs ⟨⟨before, after ++ later, ?_, reached⟩, stepped⟩
  rw [whole, List.append_assoc, List.cons_append]

/-- With one listener at every event, what is received is what arrived. -/
theorem receivedFrames_of_run (run : Machine.Run bluetoothMachine start trace transport)
    (one : OneHandler start trace) :
    receivedFrames (Machine.outputs trace) = arrivedFrames trace := by
  induction run with
  | start => rfl
  | @step trace state next event outputs reached stepped ih =>
      have arrived : arrivedFrames (trace ++ [⟨event, outputs⟩]) =
          arrivedFrames trace ++ event.arrivedFrames := by
        simp [arrivedFrames]
      rw [Machine.outputs_snoc, receivedFrames_append, ih one.of_append, arrived]
      congr 1
      by_cases dispatched : ∃ bytes, event = .notify (some bytes)
      · obtain ⟨bytes, rfl⟩ := dispatched
        have single := one state next bytes outputs ⟨⟨trace, [], rfl, reached⟩, stepped⟩
        have handled : WebBluetoothTransport.dispatch bytes state.handlers state =
            (next, outputs) := Option.some.inj stepped
        have received := receivedFrames_dispatch bytes state.handlers state
        rw [handled, single] at received
        exact received
      · have other : ∀ bytes, event ≠ .notify (some bytes) :=
          fun bytes same => dispatched ⟨bytes, same⟩
        rw [unheard_of_no_event other _ _ stepped]
        unfold BluetoothLabel.arrivedFrames
        split
        · exact absurd rfl (other _)
        · rfl

/-- In every run of a transport each event is processed exactly once if and only if
exactly one listener is registered on the characteristic whenever an event arrives. -/
theorem exactly_once_iff_one_handler (writesWithoutResponse notifications : Bool)
    (configuredPayloadLimit : Nat) (flowControl : BluetoothFlowControl)
    (start transport : WebBluetoothTransport) (trace : BluetoothTrace)
    (constructed : construct writesWithoutResponse notifications configuredPayloadLimit
      flowControl = .ok start)
    (run : Machine.Run bluetoothMachine start trace transport) :
    ExactlyOnce flowControl start trace ↔ OneHandler start trace := by
  have initial := balanced_construct constructed
  constructor
  · intro exactly state next bytes outputs dispatches
    have handled : WebBluetoothTransport.dispatch bytes state.handlers state =
        (next, outputs) := Option.some.inj dispatches.stepped
    have received := receivedFrames_dispatch bytes state.handlers state
    rw [handled, exactly.processed state next bytes outputs dispatches] at received
    have counted := congrArg List.length received
    simpa using counted.symm
  · intro one
    have balanced := balanced_of_run initial run
    have arrived := receivedFrames_of_run run one
    constructor
    case processed =>
      intro state next bytes outputs dispatches
      have handled : WebBluetoothTransport.dispatch bytes state.handlers state =
          (next, outputs) := Option.some.inj dispatches.stepped
      have received := receivedFrames_dispatch bytes state.handlers state
      rw [handled, one state next bytes outputs dispatches] at received
      exact received
    case credited =>
      intro state next bytes outputs dispatches below
      obtain ⟨before, after, _, reached⟩ := dispatches.within
      have handled : WebBluetoothTransport.dispatch bytes state.handlers state =
          (next, outputs) := Option.some.inj dispatches.stepped
      rw [one state next bytes outputs dispatches] at handled
      have same : (state.receiveNotification bytes).1 = next := congrArg Prod.fst handled
      have handles : Handles bytes state (state.receiveNotification bytes).1
        (state.receiveNotification bytes).2 := handles_receiveNotification bytes
      have added := handles.exact (by rw [same]; exact below)
      rw [handles.credited, (balanced_of_run initial reached).flow, same] at added
      exact added
    case returned =>
      rw [← arrived, ← balanced.responses]
      exact List.prefix_append _ _
    case writes =>
      intro controlled
      have spent := balanced.credits controlled
      rw [balanced.credited, arrived, controlled] at spent
      have total : BluetoothFlowControl.creditTotal .phomemoCredit (arrivedFrames trace) =
        Protocol.creditTotal (arrivedFrames trace) := rfl
      omega

/-- A fresh credit-controlled transport. -/
def creditControlled : WebBluetoothTransport where
  configuredPayloadLimit := 64
  flowControl := .phomemoCredit

/-- A subscription, one credit and one write. -/
def creditedWrite : List BluetoothLabel :=
  [.subscribe false, .startSettles 0 none, .notify (some [0x01, 1]), .write [7] false, .resume 1]

theorem exactly_once_credited_write :
    ∃ start trace transport, construct true true 64 .phomemoCredit = .ok start ∧
      bluetoothMachine.run start creditedWrite = some (trace, transport) ∧
      sentBytes (Machine.outputs trace) = [[7]] ∧
      (ExactlyOnce .phomemoCredit start trace ↔ OneHandler start trace) := by
  have constructed : construct true true 64 .phomemoCredit = .ok creditControlled := rfl
  have computed : bluetoothMachine.run creditControlled creditedWrite = some (_, _) := rfl
  exact ⟨_, _, _, constructed, computed, rfl, exactly_once_iff_one_handler true true 64
    .phomemoCredit _ _ _ constructed (Machine.run_sound computed)⟩

/-- A failed subscription is tried again before a frame with one credit arrives. -/
def retriedSubscription : List BluetoothLabel :=
  [.subscribe false, .startSettles 0 (some "GATT Server is disconnected"),
    .subscribe false, .startSettles 1 none, .notify (some [0x01, 1]),
    .write [7] false, .write [8] false, .resume 2, .resume 3]

theorem retried_subscription_overruns :
    ∃ start trace transport, construct true true 64 .phomemoCredit = .ok start ∧
      Machine.Run bluetoothMachine start trace transport ∧
      arrivedFrames trace = [[0x01, 1]] ∧
      sentBytes (Machine.outputs trace) = [[7], [8]] ∧
      ¬ExactlyOnce .phomemoCredit start trace := by
  have computed : bluetoothMachine.run creditControlled retriedSubscription = some (_, _) := rfl
  refine ⟨creditControlled, _, _, rfl, Machine.run_sound computed, rfl, rfl, ?_⟩
  intro exactly
  exact absurd (exactly.writes rfl) (by decide)

end PrinterSdk.Browser
