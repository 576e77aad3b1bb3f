import PrinterSdk.Native.Ble

/-!
# Credits, limits and responses of the native BLE transport

Writes and waits draw on one notification channel and set frames aside for each
other.  One invariant over whole runs says where every delivered frame is: still
in the channel, taken as a control frame, set aside, or returned.
-/

namespace PrinterSdk.Native.Ble

open PrinterSdk.Data PrinterSdk.Executor PrinterSdk.Interaction PrinterSdk.Protocol

/-! ## Frames -/

/-- What `observe` does with a control frame. -/
theorem observe_control {flow after : CreditFlowState} {bytes : Bytes}
    (observed : flow.observe bytes = (after, true)) :
    isControl bytes = true ∧ after.credits ≤ flow.credits + creditOf bytes ∧
      after.maximumPayload = (limitOf bytes).or flow.maximumPayload ∧
      after.pendingResponses = flow.pendingResponses := by
  unfold CreditFlowState.observe at observed
  split at observed
  · cases observed
    exact ⟨rfl, Nat.min_le_left _ _, rfl, rfl⟩
  · split at observed
    · rename_i nonzero
      cases observed
      refine ⟨rfl, Nat.le_refl _, ?_, rfl⟩
      simp [limitOf, nonzero]
    · rename_i zero
      cases observed
      refine ⟨rfl, Nat.le_refl _, ?_, rfl⟩
      simp [limitOf, zero]
  · cases observed

/-- `observe` leaves the state alone at any other frame. -/
theorem observe_response {flow after : CreditFlowState} {bytes : Bytes}
    (observed : flow.observe bytes = (after, false)) :
    isControl bytes = false ∧ after = flow := by
  unfold CreditFlowState.observe at observed
  split at observed
  · cases observed
  · split at observed
    · cases observed
    · cases observed
  · rename_i noCredit noLimit
    cases observed
    exact ⟨isControl_eq_false noCredit noLimit, rfl⟩

/-! ## What a run shows -/

/-- The frame an event puts into the channel. -/
def deliveredBy : Label → List Bytes
  | .deliver bytes => [bytes]
  | _ => []

/-- The frame an output takes from the channel. -/
def receivedBy : Output → List Bytes
  | .received bytes => [bytes]
  | _ => []

/-- The bytes an output hands to the peripheral. -/
def sentBy : Output → List Bytes
  | .sent bytes => [bytes]
  | _ => []

/-- The frame an output returns from `wait_response`. -/
def returnedBy : Output → List Bytes
  | .responded (.ok (.response bytes)) => [bytes]
  | _ => []

abbrev Trace : Type := List (Transition Label Output)

/-- Frames put into the notification channel, in order of arrival. -/
def delivered (trace : Trace) : List Bytes :=
  trace.flatMap fun transition => deliveredBy transition.event

/-- Frames taken from the channel. -/
def received (trace : Trace) : List Bytes :=
  (Machine.outputs trace).flatMap receivedBy

/-- Peripheral writes. -/
def sent (trace : Trace) : List Bytes :=
  (Machine.outputs trace).flatMap sentBy

/-- Frames returned by `wait_response`. -/
def returned (trace : Trace) : List Bytes :=
  (Machine.outputs trace).flatMap returnedBy

variable {trace : Trace}

@[simp] theorem delivered_snoc (event : Label) (outputs : List Output) :
    delivered (trace ++ [⟨event, outputs⟩]) = delivered trace ++ deliveredBy event := by
  simp [delivered]

@[simp] theorem received_snoc (event : Label) (outputs : List Output) :
    received (trace ++ [⟨event, outputs⟩]) =
      received trace ++ outputs.flatMap receivedBy := by
  simp [received]

@[simp] theorem sent_snoc (event : Label) (outputs : List Output) :
    sent (trace ++ [⟨event, outputs⟩]) = sent trace ++ outputs.flatMap sentBy := by
  simp [sent]

@[simp] theorem returned_snoc (event : Label) (outputs : List Output) :
    returned (trace ++ [⟨event, outputs⟩]) =
      returned trace ++ outputs.flatMap returnedBy := by
  simp [returned]

/-! ## The invariant -/

/-- Credits a pending call has taken but not yet spent. -/
def Call.held : Call → Nat
  | .sending _ => 1
  | _ => 0

/-- Where every delivered frame and every granted credit is. -/
structure Flowing (trace : Trace) (transport : Transport) (flow : CreditFlowState) :
    Prop where
  present : transport.creditFlow = some flow
  supported : transport.notificationState ≠ .unsupported
  /-- Every write and every credit in hand was granted by a received frame. -/
  credits : (sent trace).length + transport.call.held + flow.credits ≤
    creditTotal (received trace)
  limit : flow.maximumPayload = lastLimit (received trace)
  /-- Nothing is lost between the forwarding task and the calls. -/
  channel : ∀ channel, transport.notifications = some channel →
    delivered trace = received trace ++ channel.queue
  unlinked : transport.notifications = none → transport.notificationState ≠ .disconnected →
    delivered trace = received trace
  taken : received trace <+: delivered trace
  fresh : transport.notificationState = .available →
    transport.notifications = none ∧ delivered trace = [] ∧ received trace = []
  /-- Responses are set aside and returned in order. -/
  pending : transport.notificationState ≠ .disconnected →
    returned trace ++ flow.pendingResponses = responses (received trace)
  ordered : returned trace <+: responses (received trace)
  failed : transport.notificationState = .disconnected → transport.call = .idle
  listening : transport.call = .listening → flow.pendingResponses = []
  sending : ∀ bytes, transport.call = .sending bytes →
    ∀ maximum, flow.maximumPayload = some maximum → bytes.length ≤ maximum

theorem flowing_connect (payloadLimit : Nat) : Flowing [] (connect payloadLimit) {} where
  present := rfl
  supported := by simp [connect]
  credits := Nat.le_refl _
  limit := rfl
  channel := by simp [connect]
  unlinked := fun _ _ => rfl
  taken := List.prefix_rfl
  fresh := fun _ => ⟨rfl, rfl, rfl⟩
  pending := fun _ => rfl
  ordered := List.prefix_rfl
  failed := by simp [connect]
  listening := by simp [connect]
  sending := by simp [connect]

/-- Outputs that move no frame and no credit. -/
def Idle (outputs : List Output) : Prop :=
  outputs.flatMap receivedBy = [] ∧ outputs.flatMap sentBy = [] ∧
    outputs.flatMap returnedBy = []

variable {transport next : Transport} {flow : CreditFlowState} {event : Label}
variable {outputs : List Output}

/-- A step that moves no frame and no credit, and at most abandons a call or the
connection. -/
theorem Flowing.move (flowing : Flowing trace transport flow)
    (still : deliveredBy event = []) (idle : Idle outputs)
    (sameFlow : next.creditFlow = transport.creditFlow)
    (sameChannel : next.notifications = transport.notifications)
    (state : next.notificationState = transport.notificationState ∨
      next.notificationState = .disconnected)
    (held : next.call.held ≤ transport.call.held)
    (failed : next.notificationState = .disconnected → next.call = .idle)
    (listening : next.call = .listening → flow.pendingResponses = [])
    (sending : ∀ bytes, next.call = .sending bytes → transport.call = .sending bytes) :
    Flowing (trace ++ [⟨event, outputs⟩]) next flow := by
  obtain ⟨noneReceived, noneSent, noneReturned⟩ := idle
  have kept : received (trace ++ [⟨event, outputs⟩]) = received trace := by
    rw [received_snoc, noneReceived, List.append_nil]
  have sentKept : sent (trace ++ [⟨event, outputs⟩]) = sent trace := by
    rw [sent_snoc, noneSent, List.append_nil]
  have returnedKept : returned (trace ++ [⟨event, outputs⟩]) = returned trace := by
    rw [returned_snoc, noneReturned, List.append_nil]
  have deliveredKept : delivered (trace ++ [⟨event, outputs⟩]) = delivered trace := by
    rw [delivered_snoc, still, List.append_nil]
  constructor
  case present => rw [sameFlow, flowing.present]
  case supported =>
    rcases state with same | gone
    · rw [same]
      exact flowing.supported
    · simp [gone]
  case credits =>
    have before := flowing.credits
    rw [kept, sentKept]
    omega
  case limit => rw [kept, flowing.limit]
  case channel =>
    intro channel found
    rw [sameChannel] at found
    rw [deliveredKept, kept]
    exact flowing.channel channel found
  case unlinked =>
    intro none alive
    rw [deliveredKept, kept]
    rcases state with same | gone
    · exact flowing.unlinked (sameChannel ▸ none) (same ▸ alive)
    · exact absurd gone alive
  case taken =>
    rw [deliveredKept, kept]
    exact flowing.taken
  case fresh =>
    intro available
    rw [deliveredKept, kept, sameChannel]
    rcases state with same | gone
    · exact flowing.fresh (same ▸ available)
    · rw [gone] at available
      cases available
  case pending =>
    intro connected
    rw [returnedKept, kept]
    rcases state with same | gone
    · exact flowing.pending (same ▸ connected)
    · exact absurd gone connected
  case ordered =>
    rw [returnedKept, kept]
    exact flowing.ordered
  case failed => exact failed
  case listening => exact listening
  case sending =>
    intro bytes now
    exact flowing.sending bytes (sending bytes now)

/-- A call that ends, moving nothing. -/
theorem Flowing.finish (flowing : Flowing trace transport flow)
    (still : deliveredBy event = []) (idle : Idle outputs) :
    Flowing (trace ++ [⟨event, outputs⟩]) { transport with call := .idle } flow :=
  flowing.move still idle rfl rfl (Or.inl rfl) (Nat.zero_le _) (fun _ => rfl) (by simp)
    (by simp)

/-- A call that ends by losing the connection. -/
theorem Flowing.fail (flowing : Flowing trace transport flow)
    (still : deliveredBy event = []) (idle : Idle outputs) :
    Flowing (trace ++ [⟨event, outputs⟩])
      { transport with notificationState := .disconnected, call := .idle } flow :=
  flowing.move still idle rfl rfl (Or.inr rfl) (Nat.zero_le _) (fun _ => rfl) (by simp)
    (by simp)

/-! ## One lemma per step -/

theorem Flowing.subscribeInner (flowing : Flowing trace transport flow)
    {opened accepted : Bool}
    (stepped : transport.subscribeInner opened accepted = some (next, outputs)) :
    Flowing (trace ++ [⟨.subscribe opened accepted, outputs⟩]) next flow := by
  unfold Transport.subscribeInner Transport.finish at stepped
  split at stepped
  · cases stepped
    exact flowing.finish rfl ⟨rfl, rfl, rfl⟩
  · cases stepped
    exact flowing.finish rfl ⟨rfl, rfl, rfl⟩
  · cases stepped
    exact flowing.finish rfl ⟨rfl, rfl, rfl⟩
  · rename_i available
    split at stepped
    · cases stepped
      exact flowing.finish rfl ⟨rfl, rfl, rfl⟩
    split at stepped
    · cases stepped
      obtain ⟨_, noneDelivered, noneReceived⟩ := flowing.fresh available
      have before := flowing.credits
      constructor
      case present => exact flowing.present
      case supported => simp
      case credits =>
        simp only [sent_snoc, received_snoc, sentBy, receivedBy, List.flatMap_cons,
          List.flatMap_nil, List.append_nil, Call.held]
        omega
      case limit => simpa [receivedBy] using flowing.limit
      case channel =>
        intro channel found
        cases found
        simp [deliveredBy, receivedBy, noneDelivered, noneReceived]
      case unlinked => simp
      case taken => simp [deliveredBy, receivedBy, noneDelivered, noneReceived]
      case fresh => simp
      case pending =>
        intro _
        simpa [receivedBy, returnedBy] using flowing.pending (by simp [available])
      case ordered => simpa [receivedBy, returnedBy] using flowing.ordered
      case failed => simp
      case listening => simp
      case sending => simp
    · cases stepped
      exact flowing.finish rfl ⟨rfl, rfl, rfl⟩

theorem Flowing.deliver (flowing : Flowing trace transport flow) {bytes : Bytes}
    (stepped : transport.deliver bytes = some (next, outputs)) :
    Flowing (trace ++ [⟨.deliver bytes, outputs⟩]) next flow := by
  unfold Transport.deliver at stepped
  split at stepped
  · cases stepped
  · rename_i channel found
    split at stepped
    · cases stepped
    · cases stepped
      have whole := flowing.channel channel found
      constructor
      case present => exact flowing.present
      case supported => exact flowing.supported
      case credits => simpa using flowing.credits
      case limit => simpa using flowing.limit
      case channel =>
        intro channel found
        cases found
        simp [deliveredBy, whole]
      case unlinked => simp
      case taken => simpa [deliveredBy] using flowing.taken.trans (List.prefix_append _ _)
      case fresh =>
        intro available
        rw [(flowing.fresh available).1] at found
        cases found
      case pending => simpa using flowing.pending
      case ordered => simpa using flowing.ordered
      case failed => exact flowing.failed
      case listening => exact flowing.listening
      case sending => exact flowing.sending

theorem Flowing.streamEnds (flowing : Flowing trace transport flow) {channel : Channel}
    (found : transport.notifications = some channel) :
    Flowing (trace ++ [⟨.streamEnds, []⟩])
      { transport with notifications := some { channel with ended := true } } flow := by
  have whole := flowing.channel channel found
  constructor
  case present => exact flowing.present
  case supported => exact flowing.supported
  case credits => simpa using flowing.credits
  case limit => simpa using flowing.limit
  case channel =>
    intro channel found
    cases found
    simpa [deliveredBy] using whole
  case unlinked => simp
  case taken => simpa [deliveredBy] using flowing.taken
  case fresh =>
    intro available
    rw [(flowing.fresh available).1] at found
    cases found
  case pending => simpa using flowing.pending
  case ordered => simpa using flowing.ordered
  case failed => exact flowing.failed
  case listening => exact flowing.listening
  case sending => exact flowing.sending

theorem Flowing.writeInner (flowing : Flowing trace transport flow) {bytes : Bytes}
    (stepped : transport.writeInner bytes = some (next, outputs)) :
    Flowing (trace ++ [⟨.write bytes, outputs⟩]) next flow := by
  unfold Transport.writeInner Transport.finish at stepped
  split at stepped
  · cases stepped
    exact flowing.finish rfl ⟨rfl, rfl, rfl⟩
  · split at stepped
    · rename_i absent
      rw [flowing.present] at absent
      cases absent
    · split at stepped
      · cases stepped
        exact flowing.finish rfl ⟨rfl, rfl, rfl⟩
      · rename_i subscribed
        split at stepped
        · cases stepped
          exact flowing.finish rfl ⟨rfl, rfl, rfl⟩
        · cases stepped
          refine flowing.move rfl ⟨rfl, rfl, rfl⟩ rfl rfl (Or.inl rfl) (Nat.zero_le _) ?_
            (by simp) (by simp)
          intro gone
          exact absurd gone (by simp_all)

/-- A wait returns the first response set aside. -/
theorem Flowing.popPending (flowing : Flowing trace transport flow) {bytes : Bytes}
    {rest : List Bytes} (connected : transport.notificationState ≠ .disconnected)
    (waiting : flow.pendingResponses = bytes :: rest) :
    Flowing (trace ++ [⟨.waitResponse, [.responded (.ok (.response bytes))]⟩])
      { transport with
        creditFlow := some { flow with pendingResponses := rest }
        call := .idle }
      { flow with pendingResponses := rest } := by
  have account := flowing.pending connected
  rw [waiting] at account
  have before := flowing.credits
  constructor
  case present => rfl
  case supported => exact flowing.supported
  case credits =>
    simp only [sent_snoc, received_snoc, sentBy, receivedBy, List.flatMap_cons,
      List.flatMap_nil, List.append_nil, Call.held]
    omega
  case limit => simpa [receivedBy] using flowing.limit
  case channel => simpa [deliveredBy, receivedBy] using flowing.channel
  case unlinked => simpa [deliveredBy, receivedBy] using flowing.unlinked
  case taken => simpa [deliveredBy, receivedBy] using flowing.taken
  case fresh => simpa [deliveredBy, receivedBy] using flowing.fresh
  case pending =>
    intro _
    simpa [receivedBy, returnedBy] using account
  case ordered =>
    refine ⟨rest, ?_⟩
    simpa [receivedBy, returnedBy] using account
  case failed => simp
  case listening => simp
  case sending => simp

theorem Flowing.waitInner (flowing : Flowing trace transport flow)
    (stepped : transport.waitInner = some (next, outputs)) :
    ∃ after, Flowing (trace ++ [⟨.waitResponse, outputs⟩]) next after := by
  unfold Transport.waitInner Transport.finish at stepped
  split at stepped
  case h_2 absent =>
    rw [flowing.present] at absent
    cases absent
  case h_1 found =>
    rw [flowing.present] at found
    cases found
    split at stepped
    · cases stepped
      exact ⟨flow, flowing.finish rfl ⟨rfl, rfl, rfl⟩⟩
    · rename_i subscribed
      have connected : transport.notificationState ≠ .disconnected := by
        intro gone
        simp [gone] at subscribed
      split at stepped
      · cases stepped
        exact ⟨flow, flowing.finish rfl ⟨rfl, rfl, rfl⟩⟩
      · split at stepped
        · rename_i bytes rest waiting
          cases stepped
          exact ⟨_, flowing.popPending connected waiting⟩
        · rename_i drained
          cases stepped
          refine ⟨flow, flowing.move rfl ⟨rfl, rfl, rfl⟩ rfl rfl (Or.inl rfl) (Nat.zero_le _) ?_
            (fun _ => drained) (by simp)⟩
          intro gone
          exact absurd gone connected

/-- A frame taken from the channel is its first. -/
theorem recv_some {channel rest : Channel} {bytes : Bytes}
    (took : channel.recv = some (some bytes, rest)) : channel.queue = bytes :: rest.queue := by
  unfold Channel.recv at took
  split at took
  · rename_i first later queued
    cases took
    exact queued
  · split at took
    · cases took
    · cases took

/-- A call takes one frame and accounts for it. -/
theorem Flowing.take (flowing : Flowing trace transport flow) {channel rest : Channel}
    {bytes : Bytes} {after : CreditFlowState} {shown : List Bytes}
    (found : transport.notifications = some channel)
    (took : channel.recv = some (some bytes, rest))
    (still : deliveredBy event = [])
    (takes : outputs.flatMap receivedBy = [bytes])
    (noneSent : outputs.flatMap sentBy = [])
    (shows : outputs.flatMap returnedBy = shown)
    (present : next.creditFlow = some after)
    (left : next.notifications = some rest)
    (held : next.call.held = 0)
    (credits : after.credits ≤ flow.credits + creditOf bytes)
    (limit : after.maximumPayload = (limitOf bytes).or flow.maximumPayload)
    (account : next.notificationState = .subscribed ∧
        shown ++ after.pendingResponses = flow.pendingResponses ++ responses [bytes] ∨
      next.notificationState = .disconnected ∧ next.call = .idle ∧ shown = [])
    (connected : transport.notificationState = .subscribed)
    (listening : next.call = .listening → after.pendingResponses = []) :
    Flowing (trace ++ [⟨event, outputs⟩]) next after := by
  have whole := flowing.channel channel found
  have pending := flowing.pending (by simp [connected])
  have before := flowing.credits
  have queued := recv_some took
  have grown : received (trace ++ [⟨event, outputs⟩]) = received trace ++ [bytes] := by
    rw [received_snoc, takes]
  have unsent : sent (trace ++ [⟨event, outputs⟩]) = sent trace := by
    rw [sent_snoc, noneSent, List.append_nil]
  have seen : returned (trace ++ [⟨event, outputs⟩]) = returned trace ++ shown := by
    rw [returned_snoc, shows]
  have split : delivered (trace ++ [⟨event, outputs⟩]) =
      received trace ++ [bytes] ++ rest.queue := by
    rw [delivered_snoc, still, List.append_nil, whole, queued, List.append_assoc,
      List.singleton_append]
  have balance : next.notificationState = .subscribed →
      returned (trace ++ [⟨event, outputs⟩]) ++ after.pendingResponses =
        responses (received (trace ++ [⟨event, outputs⟩])) := by
    intro subscribed
    rcases account with ⟨_, same⟩ | ⟨gone, _⟩
    · rw [seen, grown, responses_append, ← pending, List.append_assoc, same, List.append_assoc]
    · rw [subscribed] at gone
      cases gone
  constructor
  case present => exact present
  case supported =>
    rcases account with ⟨same, _⟩ | ⟨gone, _⟩
    · simp [same]
    · simp [gone]
  case credits =>
    rw [unsent, grown, creditTotal_append, creditTotal_singleton, held]
    omega
  case limit => rw [limit, grown, lastLimit_append, lastLimit_singleton, flowing.limit]
  case channel =>
    intro channel found
    rw [left] at found
    cases found
    rw [split, grown]
  case unlinked => simp [left]
  case taken =>
    rw [split, grown]
    exact List.prefix_append _ _
  case fresh =>
    intro available
    rcases account with ⟨same, _⟩ | ⟨gone, _⟩
    · rw [same] at available
      cases available
    · rw [gone] at available
      cases available
  case pending =>
    intro alive
    rcases account with ⟨same, _⟩ | ⟨gone, _⟩
    · exact balance same
    · exact absurd gone alive
  case ordered =>
    rcases account with ⟨same, _⟩ | ⟨_, _, none⟩
    · exact ⟨_, balance same⟩
    · rw [seen, none, List.append_nil, grown, responses_append]
      exact flowing.ordered.trans (List.prefix_append _ _)
  case failed =>
    intro gone
    rcases account with ⟨same, _⟩ | ⟨_, idle, _⟩
    · rw [same] at gone
      cases gone
    · exact idle
  case listening => exact listening
  case sending =>
    intro bytes now
    rw [now] at held
    cases held

theorem Flowing.receiveForCredit (flowing : Flowing trace transport flow)
    {channel : Channel} {bytes : Bytes} (acquiring : transport.call = .acquiring bytes)
    (connected : transport.notificationState = .subscribed)
    (found : transport.notifications = some channel)
    (stepped : transport.receiveForCredit flow channel = some (next, outputs)) :
    ∃ after, Flowing (trace ++ [⟨.receive, outputs⟩]) next after := by
  unfold Transport.receiveForCredit Transport.finish at stepped
  split at stepped
  · cases stepped
  · split at stepped
    · cases stepped
    · cases stepped
      exact ⟨flow, flowing.fail rfl ⟨rfl, rfl, rfl⟩⟩
    · rename_i frame rest took
      split at stepped
      · rename_i after observed
        cases stepped
        obtain ⟨control, credits, limit, kept⟩ := observe_control observed
        refine ⟨after, flowing.take found took rfl rfl rfl rfl rfl rfl (by simp [acquiring, Call.held])
          credits limit (Or.inl ⟨connected, ?_⟩) connected (by simp [acquiring])⟩
        simp [returnedBy, kept, responses, control]
      · rename_i after observed
        obtain ⟨response, rfl⟩ := observe_response observed
        have limit : after.maximumPayload = (limitOf frame).or after.maximumPayload := by
          rw [limitOf_of_not_control response, Option.none_or]
        split at stepped
        · cases stepped
          exact ⟨after, flowing.take found took rfl rfl rfl rfl flowing.present rfl rfl
            (Nat.le_add_right _ _) limit (Or.inr ⟨rfl, rfl, rfl⟩) connected (by simp)⟩
        · cases stepped
          refine ⟨_, flowing.take found took rfl rfl rfl rfl rfl rfl (by simp [acquiring, Call.held])
            (Nat.le_add_right _ _) limit (Or.inl ⟨connected, ?_⟩) connected
            (by simp [acquiring])⟩
          simp [returnedBy, responses, response]

theorem Flowing.receiveFlowResponse (flowing : Flowing trace transport flow)
    {channel : Channel} (listening : transport.call = .listening)
    (connected : transport.notificationState = .subscribed)
    (found : transport.notifications = some channel)
    (stepped : transport.receiveFlowResponse flow channel = some (next, outputs)) :
    ∃ after, Flowing (trace ++ [⟨.receive, outputs⟩]) next after := by
  have drained := flowing.listening listening
  unfold Transport.receiveFlowResponse Transport.finish at stepped
  split at stepped
  · cases stepped
  · cases stepped
    exact ⟨flow, flowing.fail rfl ⟨rfl, rfl, rfl⟩⟩
  · rename_i frame rest took
    split at stepped
    · rename_i after observed
      cases stepped
      obtain ⟨control, credits, limit, kept⟩ := observe_control observed
      refine ⟨after, flowing.take found took rfl rfl rfl rfl rfl rfl (by simp [listening, Call.held])
        credits limit (Or.inl ⟨connected, ?_⟩) connected (by simp [kept, drained])⟩
      simp [returnedBy, kept, responses, control]
    · rename_i after observed
      obtain ⟨response, rfl⟩ := observe_response observed
      cases stepped
      have limit : after.maximumPayload = (limitOf frame).or after.maximumPayload := by
        rw [limitOf_of_not_control response, Option.none_or]
      refine ⟨after, flowing.take found took rfl rfl rfl rfl flowing.present rfl rfl
        (Nat.le_add_right _ _) limit (Or.inl ⟨connected, ?_⟩) connected (by simp)⟩
      simp [returnedBy, responses, response, drained]

/-- A pending call that has a channel is subscribed. -/
theorem Flowing.subscribed (flowing : Flowing trace transport flow) {channel : Channel}
    (found : transport.notifications = some channel) (busy : transport.call ≠ .idle) :
    transport.notificationState = .subscribed := by
  cases state : transport.notificationState with
  | unsupported => exact absurd state flowing.supported
  | available =>
      rw [(flowing.fresh state).1] at found
      cases found
  | subscribed => rfl
  | disconnected => exact absurd (flowing.failed state) busy

theorem Flowing.receive (flowing : Flowing trace transport flow)
    (stepped : transport.receive = some (next, outputs)) :
    ∃ after, Flowing (trace ++ [⟨.receive, outputs⟩]) next after := by
  unfold Transport.receive at stepped
  split at stepped
  · rename_i acquiring present found
    rw [flowing.present] at present
    cases present
    exact flowing.receiveForCredit acquiring (flowing.subscribed found (by simp [acquiring]))
      found stepped
  · rename_i listening present found
    rw [flowing.present] at present
    cases present
    exact flowing.receiveFlowResponse listening
      (flowing.subscribed found (by simp [listening])) found stepped
  · rename_i receiving absent found
    rw [flowing.present] at absent
    cases absent
  · cases stepped

/-- A call takes one credit and either ends or is about to send. -/
theorem Flowing.spend (flowing : Flowing trace transport flow) {call : Call}
    (still : deliveredBy event = []) (idle : Idle outputs)
    (credit : flow.credits ≠ 0) (busy : transport.call ≠ .idle)
    (calls : call = .idle ∨ ∃ bytes, call = .sending bytes ∧
      ∀ maximum, flow.maximumPayload = some maximum → bytes.length ≤ maximum) :
    Flowing (trace ++ [⟨event, outputs⟩])
      { transport with
        creditFlow := some { flow with credits := flow.credits - 1 }
        call := call }
      { flow with credits := flow.credits - 1 } := by
  obtain ⟨noneReceived, noneSent, noneReturned⟩ := idle
  have before := flowing.credits
  have held : call.held ≤ 1 := by
    rcases calls with rfl | ⟨bytes, rfl, _⟩
    · exact Nat.zero_le _
    · exact Nat.le_refl _
  have alive : transport.notificationState ≠ .disconnected :=
    fun gone => busy (flowing.failed gone)
  constructor
  case present => rfl
  case supported => exact flowing.supported
  case credits =>
    simp only [sent_snoc, received_snoc, noneSent, noneReceived, List.append_nil]
    omega
  case limit => simpa [noneReceived] using flowing.limit
  case channel => simpa [still, noneReceived] using flowing.channel
  case unlinked => simpa [still, noneReceived] using flowing.unlinked
  case taken => simpa [still, noneReceived] using flowing.taken
  case fresh => simpa [still, noneReceived] using flowing.fresh
  case pending => simpa [noneReturned, noneReceived] using flowing.pending
  case ordered => simpa [noneReturned, noneReceived] using flowing.ordered
  case failed => exact fun gone => absurd gone alive
  case listening =>
    rcases calls with rfl | ⟨bytes, rfl, _⟩
    · simp
    · simp
  case sending =>
    rcases calls with rfl | ⟨sending, rfl, fits⟩
    · simp
    · intro bytes now
      cases now
      exact fits

theorem Flowing.acquire (flowing : Flowing trace transport flow)
    (stepped : transport.acquire = some (next, outputs)) :
    ∃ after, Flowing (trace ++ [⟨.acquire, outputs⟩]) next after := by
  unfold Transport.acquire Transport.finish at stepped
  split at stepped
  · rename_i bytes held acquiring present
    rw [flowing.present] at present
    cases present
    have busy : transport.call ≠ .idle := by simp [acquiring]
    split at stepped
    · cases stepped
    · rename_i credit
      simp only at stepped
      split at stepped
      · cases stepped
        exact ⟨_, flowing.spend rfl ⟨rfl, rfl, rfl⟩ credit busy (Or.inl rfl)⟩
      · rename_i fits
        cases stepped
        refine ⟨_, flowing.spend rfl ⟨rfl, rfl, rfl⟩ credit busy (Or.inr ⟨bytes, rfl, ?_⟩)⟩
        intro maximum advertised
        simpa [advertised] using fits
  · cases stepped

theorem Flowing.send (flowing : Flowing trace transport flow) {bytes : Bytes}
    (sending : transport.call = .sending bytes) :
    Flowing (trace ++ [⟨.send, [.sent bytes]⟩]) { transport with call := .writing } flow := by
  have before := flowing.credits
  have alive : transport.notificationState ≠ .disconnected := by
    intro gone
    rw [flowing.failed gone] at sending
    cases sending
  rw [sending] at before
  constructor
  case present => exact flowing.present
  case supported => exact flowing.supported
  case credits =>
    simp only [sent_snoc, received_snoc, sentBy, receivedBy, List.flatMap_cons,
      List.flatMap_nil, List.append_nil, List.length_append, List.length_singleton, Call.held]
      at before ⊢
    omega
  case limit => simpa [receivedBy] using flowing.limit
  case channel => simpa [deliveredBy, receivedBy] using flowing.channel
  case unlinked => simpa [deliveredBy, receivedBy] using flowing.unlinked
  case taken => simpa [deliveredBy, receivedBy] using flowing.taken
  case fresh => simpa [deliveredBy, receivedBy] using flowing.fresh
  case pending => simpa [receivedBy, returnedBy] using flowing.pending
  case ordered => simpa [receivedBy, returnedBy] using flowing.ordered
  case failed => exact fun gone => absurd gone alive
  case listening => simp
  case sending => simp

/-- Disconnecting drops the channel with whatever it holds. -/
theorem Flowing.disconnectInner (flowing : Flowing trace transport flow)
    (idle : transport.call = .idle)
    (stepped : transport.disconnectInner = some (next, outputs)) :
    Flowing (trace ++ [⟨.disconnect, outputs⟩]) next flow := by
  unfold Transport.disconnectInner at stepped
  split at stepped
  · cases stepped
    exact flowing.move rfl ⟨rfl, rfl, rfl⟩ rfl rfl (Or.inl rfl) (Nat.le_refl _)
      (fun _ => idle) flowing.listening (fun _ now => now)
  · cases stepped
    constructor
    case present => exact flowing.present
    case supported => simp
    case credits => simpa using flowing.credits
    case limit => simpa using flowing.limit
    case channel => simp
    case unlinked => simp
    case taken => simpa [deliveredBy] using flowing.taken
    case fresh => simp
    case pending => simp
    case ordered => simpa using flowing.ordered
    case failed => exact fun _ => idle
    case listening => exact flowing.listening
    case sending => exact flowing.sending

/-- Every step keeps the account of frames and credits. -/
theorem Flowing.step (flowing : Flowing trace transport flow)
    (stepped : step transport event = some (next, outputs)) :
    ∃ after, Flowing (trace ++ [⟨event, outputs⟩]) next after := by
  cases event with
  | subscribe opened accepted =>
      simp only [Ble.step] at stepped
      split at stepped
      · exact ⟨flow, flowing.subscribeInner stepped⟩
      · cases stepped
  | deliver bytes => exact ⟨flow, flowing.deliver stepped⟩
  | streamEnds =>
      simp only [Ble.step, Option.map_eq_some_iff] at stepped
      obtain ⟨channel, found, same⟩ := stepped
      cases same
      exact ⟨flow, flowing.streamEnds found⟩
  | write bytes =>
      simp only [Ble.step] at stepped
      split at stepped
      · exact ⟨flow, flowing.writeInner stepped⟩
      · cases stepped
  | waitResponse =>
      simp only [Ble.step] at stepped
      split at stepped
      · exact flowing.waitInner stepped
      · cases stepped
  | receive => exact flowing.receive stepped
  | acquire => exact flowing.acquire stepped
  | send =>
      simp only [Ble.step] at stepped
      split at stepped
      · rename_i bytes sending
        cases stepped
        exact ⟨flow, flowing.send sending⟩
      · cases stepped
  | complete accepted =>
      simp only [Ble.step, Transport.finish] at stepped
      split at stepped
      · cases stepped
        exact ⟨flow, flowing.finish rfl ⟨rfl, rfl, rfl⟩⟩
      · cases stepped
  | elapse =>
      simp only [Ble.step, Transport.finish] at stepped
      split at stepped
      · cases stepped
        exact ⟨flow, flowing.finish rfl ⟨rfl, rfl, rfl⟩⟩
      · cases stepped
  | cancel =>
      simp only [Ble.step, Transport.finish] at stepped
      split at stepped
      · cases stepped
        exact ⟨flow, flowing.finish rfl ⟨rfl, rfl, rfl⟩⟩
      · cases stepped
  | disconnect =>
      simp only [Ble.step] at stepped
      split at stepped
      · rename_i idle
        exact ⟨flow, flowing.disconnectInner idle stepped⟩
      · cases stepped

/-- Every run keeps the account. -/
theorem flowing_of_run {payloadLimit : Nat}
    (run : Machine.Run machine (connect payloadLimit) trace transport) :
    ∃ flow, Flowing trace transport flow := by
  apply run.invariant
  · exact ⟨{}, flowing_connect payloadLimit⟩
  · intro trace state event next outputs holds stepped
    obtain ⟨flow, flowing⟩ := holds
    exact flowing.step stepped

/-! ## Credit safety and order of responses -/

/-- The error of a write that finds the responses set aside at their bound. -/
def queueFull : TransportError :=
  bleError .io "BLE response queue is full while waiting for write credit"

/-- A step at which the transport fails or is disconnected by its caller. -/
def Fails (transition : Transition Label Output) : Prop :=
  transition.event = .disconnect ∨ .wrote (.error queueFull) ∈ transition.outputs ∨
    .wrote (.error streamEnded) ∈ transition.outputs ∨
    .responded (.error streamEnded) ∈ transition.outputs

/-- What holds of a step, if it can be taken. -/
def Every (holds : Transport → List Output → Prop) (result : Option (Transport × List Output)) :
    Prop :=
  ∀ next outputs, result = some (next, outputs) → holds next outputs

section

variable {holds : Transport → List Output → Prop}

theorem every_none : Every holds none := by
  rintro next outputs ⟨⟩

theorem every_some (held : holds next outputs) : Every holds (some (next, outputs)) := by
  rintro _ _ ⟨⟩
  exact held

theorem every_guard {condition : Prop} [Decidable condition]
    {result : Option (Transport × List Output)} (every : Every holds result) :
    Every holds (if condition then result else none) := by
  split
  · exact every
  · exact every_none

end

/-- A step of `transport` disconnects only when it fails. -/
abbrev Explained (transport : Transport) (event : Label) :
    Option (Transport × List Output) → Prop :=
  Every fun next outputs => next.notificationState = .disconnected →
    transport.notificationState = .disconnected ∨ Fails ⟨event, outputs⟩

theorem explained_kept
    (kept : next.notificationState = .disconnected → transport.notificationState = .disconnected) :
    Explained transport event (some (next, outputs)) :=
  every_some fun gone => .inl (kept gone)

theorem explained_failed (failed : Fails ⟨event, outputs⟩) :
    Explained transport event (some (next, outputs)) :=
  every_some fun _ => .inr failed

theorem explained_receiveForCredit (flow : CreditFlowState) (channel : Channel) :
    Explained transport event (transport.receiveForCredit flow channel) := by
  unfold Transport.receiveForCredit
  repeat' split
  all_goals first
    | exact every_none
    | exact explained_kept fun gone => gone
    | exact explained_failed (by simp [Fails, queueFull])

theorem explained_receiveFlowResponse (flow : CreditFlowState) (channel : Channel) :
    Explained transport event (transport.receiveFlowResponse flow channel) := by
  unfold Transport.receiveFlowResponse
  repeat' split
  all_goals first
    | exact every_none
    | exact explained_kept fun gone => gone
    | exact explained_failed (by simp [Fails])

theorem explained_receiveNotification (channel : Channel) :
    Explained transport event (transport.receiveNotification channel) := by
  unfold Transport.receiveNotification
  repeat' split
  all_goals first
    | exact every_none
    | exact explained_kept fun gone => gone
    | exact explained_failed (by simp [Fails])

theorem explained_receive : Explained transport event transport.receive := by
  unfold Transport.receive
  split
  · exact explained_receiveForCredit _ _
  · exact explained_receiveFlowResponse _ _
  · exact explained_receiveNotification _
  · exact every_none

theorem explained_acquire : Explained transport event transport.acquire := by
  unfold Transport.acquire
  repeat' split
  all_goals first
    | exact every_none
    | exact explained_kept fun gone => gone

theorem explained_writeInner (bytes : Bytes) :
    Explained transport event (transport.writeInner bytes) := by
  unfold Transport.writeInner
  repeat' split
  all_goals exact explained_kept fun gone => gone

theorem explained_waitInner : Explained transport event transport.waitInner := by
  unfold Transport.waitInner
  repeat' split
  all_goals exact explained_kept fun gone => gone

theorem explained_subscribeInner (opened accepted : Bool) :
    Explained transport event (transport.subscribeInner opened accepted) := by
  unfold Transport.subscribeInner
  repeat' split
  all_goals first
    | exact explained_kept fun gone => gone
    | exact explained_kept (by rintro ⟨⟩)

theorem explained_deliver (bytes : Bytes) :
    Explained transport event (transport.deliver bytes) := by
  unfold Transport.deliver
  repeat' split
  all_goals first
    | exact every_none
    | exact explained_kept fun gone => gone

theorem explained_step : Explained transport event (step transport event) := by
  cases event with
  | subscribe opened accepted => exact every_guard (explained_subscribeInner opened accepted)
  | deliver bytes => exact explained_deliver bytes
  | write bytes => exact every_guard (explained_writeInner bytes)
  | waitResponse => exact every_guard explained_waitInner
  | receive => exact explained_receive
  | acquire => exact explained_acquire
  | complete accepted => exact every_guard (explained_kept fun gone => gone)
  | elapse => exact every_guard (explained_kept fun gone => gone)
  | cancel => exact every_guard (explained_kept fun gone => gone)
  | disconnect =>
      intro _ _ _ _
      exact .inr (.inl rfl)
  | streamEnds =>
      change Explained transport .streamEnds (transport.notifications.map _)
      cases transport.notifications with
      | none => exact every_none
      | some channel => exact explained_kept fun gone => gone
  | send =>
      change Explained transport .send (match transport.call with | .sending _ => _ | _ => none)
      split
      · exact explained_kept fun gone => gone
      · exact every_none

/-- Only a failing step disconnects. -/
theorem fails_of_disconnected (stepped : step transport event = some (next, outputs))
    (alive : transport.notificationState ≠ .disconnected)
    (gone : next.notificationState = .disconnected) : Fails ⟨event, outputs⟩ :=
  (explained_step _ _ stepped gone).resolve_left alive

/-- A run without a failing step keeps its connection. -/
theorem connected_of_run {payloadLimit : Nat}
    (run : Machine.Run machine (connect payloadLimit) trace transport)
    (unfailed : ∀ transition ∈ trace, ¬Fails transition) :
    transport.notificationState ≠ .disconnected := by
  induction run with
  | start => simp [connect]
  | @step trace state next event outputs reached stepped ih =>
      intro gone
      have alive := ih fun transition member => unfailed transition (List.mem_append_left _ member)
      exact unfailed ⟨event, outputs⟩ (by simp) (fails_of_disconnected stepped alive gone)

/-- The frames a transport has not read yet. -/
def Transport.unread (transport : Transport) : List Bytes :=
  (transport.notifications.map Channel.queue).getD []

/-- What was delivered has been received or is unread. -/
theorem Flowing.delivered_eq (flowing : Flowing trace transport flow)
    (alive : transport.notificationState ≠ .disconnected) :
    delivered trace = received trace ++ transport.unread := by
  unfold Transport.unread
  cases found : transport.notifications with
  | some channel => exact flowing.channel channel found
  | none =>
      rw [flowing.unlinked found alive]
      exact (List.append_nil _).symm

/-- However frames, calls, timeouts and cancellations interleave: no more writes
than credits received; `wait_response` returns a prefix of the delivered responses,
so each at most once, in order and none skipped, and never a control frame; and
unless the transport has failed every delivered response that is not yet returned
is set aside or still in the channel. -/
theorem credit_flow_safe (payloadLimit : Nat) (trace : Trace) (transport : Transport)
    (run : Machine.Run machine (connect payloadLimit) trace transport) :
    (sent trace).length ≤ creditTotal (received trace) ∧
      received trace <+: delivered trace ∧
      (∀ bytes ∈ returned trace, isControl bytes = false) ∧
      returned trace <+: responses (delivered trace) ∧
      ((∀ transition ∈ trace, ¬Fails transition) →
        ∃ aside, transport.creditFlow.map CreditFlowState.pendingResponses = some aside ∧
          returned trace ++ aside ++ responses transport.unread =
            responses (delivered trace)) := by
  obtain ⟨flow, flowing⟩ := flowing_of_run run
  have before := flowing.credits
  have ordered : returned trace <+: responses (delivered trace) :=
    flowing.ordered.trans (responses_mono flowing.taken)
  refine ⟨by omega, flowing.taken, ?_, ordered, ?_⟩
  · intro bytes member
    exact isControl_of_mem_responses (ordered.mem member)
  · intro unfailed
    have alive := connected_of_run run unfailed
    have aside : transport.creditFlow.map CreditFlowState.pendingResponses =
        some flow.pendingResponses := by
      rw [flowing.present]
      rfl
    refine ⟨flow.pendingResponses, aside, ?_⟩
    rw [flowing.pending alive, flowing.delivered_eq alive, responses_append]

/-- A limit, a response and a credit arrive before the first write. -/
def exchange : List Label :=
  [.subscribe true true, .deliver [0x02, 20, 0], .deliver [0x1a, 0x08, 0xa2], .deliver [0x01, 1],
    .write [7], .receive, .receive, .receive, .acquire, .send, .complete true, .waitResponse]

theorem credit_flow_safe_exchange :
    ∃ trace transport, machine.run (connect 512) exchange = some (trace, transport) ∧
      sent trace = [[7]] ∧ returned trace = [[0x1a, 0x08, 0xa2]] ∧
      (sent trace).length ≤ creditTotal (received trace) :=
  have computed : machine.run (connect 512) exchange = some (_, _) := rfl
  ⟨_, _, rfl, rfl, rfl, (credit_flow_safe 512 _ _ (Machine.run_sound computed)).1⟩

/-! ## Payload limits -/

/-- No write exceeds the most recent limit of a sequence of frames. -/
def Fits (bytes : Bytes) (frames : List Bytes) : Prop :=
  ∀ limit, lastLimit frames = some limit → bytes.length ≤ limit

/-- Every peripheral write of a run respects the most recent non-zero limit frame
delivered before it was sent. -/
def LimitsRespected (trace : Trace) : Prop :=
  ∀ before transition after, trace = before ++ transition :: after →
    ∀ bytes ∈ transition.outputs.flatMap sentBy, Fits bytes (delivered before)

/-- Every peripheral write of a run fits the most recent non-zero limit frame that
is still unread in the channel when the write is sent. -/
def UnreadLimitsFit (payloadLimit : Nat) (trace : Trace) : Prop :=
  ∀ before transition after, trace = before ++ transition :: after →
    ∀ state next, Machine.Run machine (connect payloadLimit) before state →
      machine.step state transition.event = some (next, transition.outputs) →
      ∀ bytes ∈ transition.outputs.flatMap sentBy, Fits bytes state.unread

/-- A step makes no peripheral write. -/
abbrev Silent : Option (Transport × List Output) → Prop :=
  Every fun _ outputs => outputs.flatMap sentBy = []

theorem silent_receiveForCredit (flow : CreditFlowState) (channel : Channel) :
    Silent (transport.receiveForCredit flow channel) := by
  unfold Transport.receiveForCredit
  repeat' split
  all_goals first
    | exact every_none
    | exact every_some (by rfl)

theorem silent_receiveFlowResponse (flow : CreditFlowState) (channel : Channel) :
    Silent (transport.receiveFlowResponse flow channel) := by
  unfold Transport.receiveFlowResponse
  repeat' split
  all_goals first
    | exact every_none
    | exact every_some (by rfl)

theorem silent_receiveNotification (channel : Channel) :
    Silent (transport.receiveNotification channel) := by
  unfold Transport.receiveNotification
  repeat' split
  all_goals first
    | exact every_none
    | exact every_some (by rfl)

theorem silent_receive : Silent transport.receive := by
  unfold Transport.receive
  split
  · exact silent_receiveForCredit _ _
  · exact silent_receiveFlowResponse _ _
  · exact silent_receiveNotification _
  · exact every_none

theorem silent_acquire : Silent transport.acquire := by
  unfold Transport.acquire
  repeat' split
  all_goals first
    | exact every_none
    | exact every_some (by rfl)

theorem silent_writeInner (bytes : Bytes) : Silent (transport.writeInner bytes) := by
  unfold Transport.writeInner
  repeat' split
  all_goals exact every_some (by rfl)

theorem silent_waitInner : Silent transport.waitInner := by
  unfold Transport.waitInner
  repeat' split
  all_goals exact every_some (by rfl)

theorem silent_subscribeInner (opened accepted : Bool) :
    Silent (transport.subscribeInner opened accepted) := by
  unfold Transport.subscribeInner
  repeat' split
  all_goals exact every_some (by rfl)

theorem silent_deliver (bytes : Bytes) : Silent (transport.deliver bytes) := by
  unfold Transport.deliver
  repeat' split
  all_goals first
    | exact every_none
    | exact every_some (by rfl)

theorem silent_disconnectInner : Silent transport.disconnectInner := by
  unfold Transport.disconnectInner
  split
  all_goals exact every_some (by rfl)

/-- A step that does not send makes no peripheral write. -/
theorem silent_step (event : Label) (other : event ≠ .send) : Silent (step transport event) := by
  cases event with
  | send => exact absurd rfl other
  | subscribe opened accepted => exact every_guard (silent_subscribeInner opened accepted)
  | deliver bytes => exact silent_deliver bytes
  | write bytes => exact every_guard (silent_writeInner bytes)
  | waitResponse => exact every_guard silent_waitInner
  | receive => exact silent_receive
  | acquire => exact silent_acquire
  | complete accepted => exact every_guard (every_some (by rfl))
  | elapse => exact every_guard (every_some (by rfl))
  | cancel => exact every_guard (every_some (by rfl))
  | disconnect => exact every_guard silent_disconnectInner
  | streamEnds =>
      change Silent (transport.notifications.map _)
      cases transport.notifications with
      | none => exact every_none
      | some channel => exact every_some (by rfl)

/-- Only a call about to send makes a peripheral write. -/
theorem sending_of_sent {bytes : Bytes} (stepped : step transport event = some (next, outputs))
    (sends : bytes ∈ outputs.flatMap sentBy) : transport.call = .sending bytes := by
  cases event with
  | send =>
      simp only [step] at stepped
      split at stepped
      · rename_i sending
        cases stepped
        simp only [List.flatMap_cons, sentBy, List.flatMap_nil, List.append_nil,
          List.mem_singleton] at sends
        rw [sending, sends]
      · cases stepped
  | _ =>
      rw [silent_step _ (by rintro ⟨⟩) _ _ stepped] at sends
      cases sends

/-- A run respects every delivered limit exactly when each of its writes fits the
limit frames still unread at that moment. -/
theorem limits_respected_iff (payloadLimit : Nat) (trace : Trace) (transport : Transport)
    (run : Machine.Run machine (connect payloadLimit) trace transport) :
    LimitsRespected trace ↔ UnreadLimitsFit payloadLimit trace := by
  constructor
  · intro respected before transition after whole state next reached stepped bytes sends limit
      unread
    obtain ⟨flow, flowing⟩ := flowing_of_run reached
    have alive : state.notificationState ≠ .disconnected := by
      intro gone
      have sending := sending_of_sent stepped sends
      rw [flowing.failed gone] at sending
      cases sending
    refine respected before transition after whole bytes sends limit ?_
    rw [flowing.delivered_eq alive, lastLimit_append, unread, Option.some_or]
  · intro fits before transition after whole bytes sends limit announced
    rw [whole] at run
    obtain ⟨state, next, reached, stepped⟩ := run.cut
    obtain ⟨flow, flowing⟩ := flowing_of_run reached
    have sending := sending_of_sent stepped sends
    have alive : state.notificationState ≠ .disconnected := by
      intro gone
      rw [flowing.failed gone] at sending
      cases sending
    rw [flowing.delivered_eq alive, lastLimit_append, ← flowing.limit] at announced
    cases unread : lastLimit state.unread with
    | some newest =>
        rw [unread, Option.some_or] at announced
        cases announced
        exact fits before transition after whole state next reached stepped bytes sends limit unread
    | none =>
        rw [unread, Option.none_or] at announced
        exact flowing.sending bytes sending limit announced

/-- Two credits, a write, a limit of 32 bytes, and a write of 100 bytes. -/
def overlong : List Label :=
  [.subscribe true true, .deliver [0x01, 2], .write [7], .receive, .acquire, .send, .complete true,
    .deliver [0x02, 32, 0], .write (List.replicate 100 0), .acquire, .send]

theorem overlong_exceeds_limit :
    ∃ trace transport, Machine.Run machine (connect 512) trace transport ∧
      ¬LimitsRespected trace := by
  obtain ⟨trace, transport, computed, sends, announced⟩ :
      ∃ trace transport, machine.run (connect 512) overlong = some (trace, transport) ∧
        trace = trace.dropLast ++ [⟨.send, [.sent (List.replicate 100 0)]⟩] ∧
        lastLimit (delivered trace.dropLast) = some 32 := ⟨_, _, rfl, rfl, rfl⟩
  refine ⟨trace, transport, Machine.run_sound computed, ?_⟩
  intro respected
  have short := respected _ _ _ sends (List.replicate 100 0) (by simp [sentBy]) 32 announced
  simp at short

/-- A write sent after the limit frame was read. -/
theorem limits_respected_exchange :
    ∃ trace transport, machine.run (connect 512) exchange = some (trace, transport) ∧
      (LimitsRespected trace ↔ UnreadLimitsFit 512 trace) :=
  have computed : machine.run (connect 512) exchange = some (_, _) := rfl
  ⟨_, _, computed, limits_respected_iff 512 _ _ (Machine.run_sound computed)⟩

end PrinterSdk.Native.Ble
