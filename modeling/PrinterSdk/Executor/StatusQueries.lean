import Mathlib.Data.List.Infix
import PrinterSdk.Executor.Execute
import PrinterSdk.Interaction.Assumption
import PrinterSdk.Protocol.StatusPlan

/-!
# Phomemo status queries

A transport that reports no error and no cancellation may still answer a status query
with anything: odd chunks, garbage, silence.  The collector resynchronises on the frame
marker, and a query without a frame falls back to a delay, so only the limit on retained
bytes can end such an execution.
-/

namespace PrinterSdk.Executor

open PrinterSdk.Data PrinterSdk.Interaction PrinterSdk.Protocol

/-- The transport reports no error, and the cancellation source no cancellation. -/
def Untroubled : Event effects → Prop
  | ⟨.isCancelled, reply⟩ => reply = false
  | ⟨.subscribe, reply⟩ => ∃ support, reply = .completed (.ok support)
  | ⟨.write _ _, reply⟩ => reply = .completed (.ok ())
  | ⟨.delay _, reply⟩ => reply = .completed ()
  | ⟨.waitResponse _, reply⟩ => ∃ outcome, reply = .completed (.ok outcome)
  | _ => True

/-- What one event adds to the bytes the executor counts: a report begins a new action
with the responses retained so far, and a chunk adds its length. -/
def counting (count : Nat) : Event effects → Nat
  | ⟨.report progress, _⟩ => retainedBytes progress
  | ⟨.waitResponse _, .completed (.ok (.response chunk))⟩ => count + chunk.length
  | _ => count

/-- The bytes the executor counts: those of the retained responses and those read for the
action at hand. -/
def counted (trace : List (Event effects)) : Nat := trace.foldl counting 0

@[simp] theorem counted_append_singleton (trace : List (Event effects)) (event : Event effects) :
    counted (trace ++ [event]) = counting (counted trace) event := by
  simp [counted]

/-- A run without errors and cancellation that stays within the limit on retained
bytes. -/
structure Calm (trace : List (Event effects)) : Prop where
  untroubled : ∀ event ∈ trace, Untroubled event
  within : ∀ before, before <+: trace → counted before ≤ maxRetainedResponseBytes

/-- The limits preflight reads admit a three-byte command. -/
def Admits : Event effects → Prop
  | ⟨.payloadLimit, limit⟩ => limit ≠ 0
  | ⟨.commandLimit, limit⟩ => 3 ≤ limit
  | _ => True

theorem Calm.initial {before trace : List (Event effects)} (calm : Calm trace)
    (begins : before <+: trace) : Calm before :=
  ⟨fun event member => calm.untroubled event (begins.subset member),
    fun earlier first => calm.within earlier (first.trans begins)⟩

/-- The assumption of this module. -/
def calmly : Assumption effects where
  holds trace := Calm trace ∧ ∀ event ∈ trace, Admits event
  closed begins held :=
    ⟨held.1.initial begins, fun event member => held.2 event (begins.subset member)⟩

section Steps

variable {ε α : Type} {history : List (Event effects)} {progress : Progress}

/-- One effect of a calm run. -/
theorem effect_calmly {op : Effect} {next : op.Reply → Fallible effects ε α}
    {success : List (Event effects) → α → Prop}
    (continues : ∀ reply, Untroubled ⟨op, reply⟩ → Admits ⟨op, reply⟩ →
      Calm (history ++ [⟨op, reply⟩]) →
      Fallible.Succeeds calmly success (history ++ [⟨op, reply⟩]) (next reply)) :
    Fallible.Succeeds calmly success history (effect op >>= next) := by
  apply Fallible.Succeeds.perform_bind
  intro reply held
  have last : (⟨op, reply⟩ : Event effects) ∈ history ++ [⟨op, reply⟩] := by simp
  exact continues reply (held.1.untroubled _ last) (held.2 _ last) held.1

theorem checkCancelled_calmly (progress : Progress) :
    Fallible.Succeeds calmly (fun later _ => counted later = counted history) history
      (checkCancelled progress) := by
  apply effect_calmly
  intro reply quiet _ _
  change reply = false at quiet
  subst quiet
  intro _
  exact counted_append_singleton history _

theorem raceDelay_calmly (duration : Duration) (progress : Progress) :
    Fallible.Succeeds calmly (fun later _ => counted later = counted history) history
      (raceDelay duration progress) := by
  apply effect_calmly
  intro reply quiet _ _
  change reply = .completed () at quiet
  subst quiet
  intro _
  exact counted_append_singleton history _

theorem writePiece_calmly (bytes : Bytes) (kind : WriteKind) (progress : Progress) :
    Fallible.Succeeds calmly (fun _ after => after.responses = progress.responses) history
      (writePiece bytes kind progress) := by
  apply (checkCancelled_calmly progress).bind
  intro later _ _ _
  apply effect_calmly
  intro reply quiet _ _
  change reply = .completed (.ok ()) at quiet
  subst quiet
  intro _
  rfl

/-- The bytes of a chunk that a wait returns. -/
def WaitOutcome.size : WaitOutcome → Nat
  | .response chunk => chunk.length
  | _ => 0

theorem wait_calmly (timeout : Duration) :
    Fallible.Succeeds calmly
      (fun later outcome => counted later = counted history + outcome.size) history
      (wait timeout) := by
  apply effect_calmly
  intro reply quiet _ _
  obtain ⟨outcome, answered⟩ := quiet
  change reply = .completed (.ok outcome) at answered
  subst answered
  intro _
  rw [counted_append_singleton]
  cases outcome with
  | response chunk => rfl
  | timeout => rfl
  | unavailable => rfl

/-- A reply that the Phomemo validator accepts. -/
def Framed (bytes : Bytes) : Prop := 3 ≤ bytes.length ∧ bytes.head? = some 0x1a

theorem responseIsValid_framed {bytes : Bytes} (framed : Framed bytes) :
    responseIsValid .phomemoNotification bytes = true := by
  simp [responseIsValid, framed.1, framed.2]

/-- The collector resynchronises on the frame marker. -/
theorem framed_drop {bytes : Bytes} {start : Nat}
    (found : bytes.findIdx? (· == 0x1a) = some start) (long : bytes.length - start ≥ 3) :
    Framed (bytes.drop start) := by
  obtain ⟨inside, marker, -⟩ := List.findIdx?_eq_some_iff_getElem.mp found
  constructor
  · rw [List.length_drop]
    exact long
  · rw [List.head?_drop, List.getElem?_eq_getElem inside]
    exact congrArg some (beq_iff_eq.mp marker)

/-- Whatever arrives, a query's collection ends with a frame or with none. -/
theorem collectResponseReads_calmly (timeout : Duration) {alreadyRetained : Nat} (reads : Nat)
    (first : Bool) {bytes : Bytes} (counts : counted history = alreadyRetained + bytes.length) :
    Fallible.Succeeds calmly
      (fun _ outcome => ∀ reply, outcome = .response reply → Framed reply) history
      (collectResponseReads timeout .phomemoNotification alreadyRetained reads first bytes) := by
  induction reads generalizing first bytes history with
  | zero =>
      intro _ reply returned
      cases returned
  | succ reads ih =>
      apply effect_calmly
      intro clock _ _ _
      have ticked : counted (history ++ [⟨.elapsed, clock⟩]) = alreadyRetained + bytes.length := by
        rw [counted_append_singleton]
        exact counts
      by_cases expired : timeout - clock = 0
      · simp only [expired, ↓reduceIte]
        intro _ reply returned
        simp [settle, isPhomemo] at returned
      · simp only [expired, ↓reduceIte]
        apply (wait_calmly _).bind
        intro later outcome calm grew
        rw [ticked] at grew
        cases outcome with
        | timeout =>
            intro _ reply returned
            simp [settle, isPhomemo] at returned
        | unavailable =>
            intro _ reply returned
            simp [settle, isPhomemo] at returned
        | response chunk =>
            have within := calm.1.within later List.prefix_rfl
            change counted later = alreadyRetained + bytes.length + chunk.length at grew
            rw [grew] at within
            have machine : maxRetainedResponseBytes ≤ usizeMax := by decide
            have summed := checkedAdd_bind (within.trans machine)
            have fits : ¬alreadyRetained + bytes.length + chunk.length >
                maxRetainedResponseBytes := Nat.not_lt.mpr within
            have counts' : counted later = alreadyRetained + (bytes ++ chunk).length := by
              rw [grew, List.length_append, Nat.add_assoc]
            simp only [summed, fits, ↓reduceIte, isPhomemo, expectedLength, beq_self_eq_true]
            split
            · rename_i start found
              by_cases long : (bytes ++ chunk).length - start ≥ 3
              · simp only [long, ↓reduceIte]
                intro _ reply returned
                cases returned
                exact framed_drop found long
              · simp only [long, ↓reduceIte]
                exact ih false counts'
            · exact ih false counts'

theorem withProgress_eq (progress : Progress) (collection : Collect WaitOutcome) :
    withProgress progress collection =
      Fallible.mapError (responseEffectError progress) collection := by
  unfold withProgress Fallible.mapError
  congr 2
  funext result
  cases result with
  | ok outcome => rfl
  | error error => rfl

theorem withProgress_calmly {collection : Collect WaitOutcome}
    {success : List (Event effects) → WaitOutcome → Prop} (progress : Progress)
    (succeeds : Fallible.Succeeds calmly success history collection) :
    Fallible.Succeeds calmly success history (withProgress progress collection) := by
  rw [withProgress_eq]
  exact succeeds.mapError (responseEffectError progress)

/-- The actions of a status query. -/
def Queries : Action → Prop
  | .subscribeNotifications => True
  | .commandWrite _ _ _ => True
  | .waitForResponse _ fallbackDelayMs validation =>
      0 < fallbackDelayMs ∧ validation = .phomemoNotification
  | _ => False

/-- Every retained response is a frame. -/
def AllFramed (progress : Progress) : Prop := ∀ response ∈ progress.responses, Framed response

/-- An action of a status query does not fail, and retains only frames. -/
theorem executeAction_calmly (timing : ReferenceTiming) (index : Nat) {action : Action}
    (queries : Queries action) (counts : counted history = retainedBytes progress)
    (framed : AllFramed progress) :
    Fallible.Succeeds calmly (fun _ after => AllFramed after) history
      (executeAction timing index action progress) := by
  cases action with
  | subscribeNotifications =>
      apply effect_calmly
      intro reply quiet _ _
      obtain ⟨support, answered⟩ := quiet
      change reply = .completed (.ok support) at answered
      subst answered
      exact fun _ => framed
  | commandWrite name bytes atomic =>
      apply (writePiece_calmly bytes .command progress).mono
      intro later after same response member
      rw [same] at member
      exact framed response member
  | waitForResponse timeoutMs fallbackDelayMs validation =>
      obtain ⟨positive, rfl⟩ := queries
      have begins : counted history = retainedBytes progress + ([] : Bytes).length := counts
      have collects := collectResponseReads_calmly (fromMillis timeoutMs) maxFixedResponseReads
        true begins
      apply (withProgress_calmly progress collects).bind
      intro later outcome _ replies
      have falls : Fallible.Succeeds calmly (fun _ after => AllFramed after) later
          (do
            raceDelay (timing.apply fallbackDelayMs) progress
            return progress : Exec Progress) := by
        apply (raceDelay_calmly _ progress).bind
        intro _ _ _ _ _
        exact framed
      have delays : fallbackDelayMs > 0 := positive
      cases outcome with
      | timeout =>
          simp only [delays, ↓reduceIte]
          exact falls
      | unavailable =>
          simp only [delays, ↓reduceIte]
          exact falls
      | response bytes =>
          have frame := replies bytes rfl
          simp only [retainResponse, validate, responseIsValid_framed frame, ↓reduceIte]
          intro _ response member
          rcases List.mem_append.mp member with earlier | new
          · exact framed response earlier
          · rw [List.mem_singleton.mp new]
            exact frame
  | jobBoundary kind => exact queries.elim
  | delay milliseconds => exact queries.elim
  | rasterWrite bytes logicalChunk delayMs => exact queries.elim
  | collectResponse timeoutMs idleTimeoutMs maximumBytes validation => exact queries.elim

/-- The action loop over status queries does not fail. -/
theorem executeActions_calmly (timing : ReferenceTiming) (index : Nat) {actions : List Action}
    (queries : ∀ action ∈ actions, Queries action)
    (counts : counted history = retainedBytes progress) (framed : AllFramed progress) :
    Fallible.Succeeds calmly (fun _ after => AllFramed after) history
      (executeActions timing index actions progress) := by
  induction actions generalizing index history progress with
  | nil => exact fun _ => framed
  | cons action rest ih =>
      apply (checkCancelled_calmly progress).bind
      intro checked _ _ same
      apply (executeAction_calmly timing index (queries action List.mem_cons_self)
        (same.trans counts) framed).bind
      intro acted after _ kept
      apply effect_calmly
      intro _ _ _ _
      apply ih (index + 1) fun other member => queries other (List.mem_cons_of_mem _ member)
      · rw [counted_append_singleton]
        rfl
      · exact kept

theorem preflight_statusActions {plan : Plan} {payloadLimit commandLimit : Nat}
    (actions : plan.actions = phomemoStatusActions) (payload : payloadLimit ≠ 0)
    (command : 3 ≤ commandLimit) : preflight plan payloadLimit commandLimit = .ok () := by
  have positive : commandLimit ≠ 0 := Nat.ne_of_gt (Nat.lt_of_lt_of_le (by decide) command)
  have fits : ¬3 > commandLimit := Nat.not_lt.mpr command
  simp [preflight, actions, payload, positive, phomemoStatusActions, phomemoQueries, phomemoQuery,
    cmd, preflightActions, preflightAction, fits, isVariableLength, maxPlanActions]

theorem execute_calmly (timing : ReferenceTiming) {plan : Plan}
    (actions : plan.actions = phomemoStatusActions) :
    Fallible.Succeeds calmly (fun _ after => AllFramed after) [] (execute timing plan) := by
  apply effect_calmly
  intro payloadLimit _ payload _
  apply effect_calmly
  intro commandLimit _ command _
  rw [preflight_statusActions actions payload command, actions]
  change Fallible.Succeeds calmly _ _ (executeActions timing 0 phomemoStatusActions {})
  apply executeActions_calmly
  · intro action member
    simp only [phomemoStatusActions, List.mem_cons, List.mem_flatMap, phomemoQuery,
      List.not_mem_nil, or_false] at member
    rcases member with rfl | ⟨query, _, rfl | rfl⟩
    · trivial
    · trivial
    · exact ⟨by decide, rfl⟩
  · rfl
  · intro response member
    cases member

end Steps

/-- Status queries do not fail on odd replies.  On a transport whose limits admit a
three-byte command, and while errors and cancellation stay away and the bytes the
executor counts stay within its limit, a Phomemo status plan is executed to its end
whatever arrives, and every response it retains is a frame. -/
theorem status_queries_succeed {σ : Type} (answer : σ → (op : Effect) → op.Reply × σ) (state : σ)
    (timing : ReferenceTiming) {printer : PrinterDefinition} {plan : Plan}
    (phomemo : printer.isPhomemo) (planned : statusPlan printer = .ok plan)
    (calm : Calm (Program.run answer state (execute timing plan).run).1)
    (admits : ∀ event ∈ (Program.run answer state (execute timing plan).run).1, Admits event) :
    ∃ progress, (Program.run answer state (execute timing plan).run).2 = .ok progress ∧
      ∀ response ∈ progress.responses, 3 ≤ response.length ∧ response.head? = some 0x1a := by
  rw [statusPlan_phomemo phomemo] at planned
  cases planned
  exact (execute_calmly timing rfl).run ⟨calm, admits⟩

/-- A transport without errors whose waits are answered from a list, and then time out. -/
def oddTransport (commandLimit : Nat) : List Bytes → (op : Effect) → op.Reply × List Bytes
  | replies, .payloadLimit => ((20 : Nat), replies)
  | replies, .commandLimit => (commandLimit, replies)
  | replies, .isCancelled => (false, replies)
  | replies, .subscribe => (.completed (.ok .subscribed), replies)
  | replies, .write _ _ => (.completed (.ok ()), replies)
  | replies, .delay _ => (.completed (), replies)
  | [], .waitResponse _ => (.completed (.ok .timeout), [])
  | reply :: replies, .waitResponse _ => (.completed (.ok (.response reply)), replies)
  | replies, .elapsed => ((0 : Nat), replies)
  | replies, .report _ => ((), replies)

theorem untroubled_oddTransport (commandLimit : Nat) (replies : List Bytes) (op : Effect) :
    Untroubled ⟨op, (oddTransport commandLimit replies op).1⟩ := by
  cases op with
  | payloadLimit => trivial
  | commandLimit => trivial
  | isCancelled => cases replies <;> rfl
  | subscribe => cases replies <;> exact ⟨.subscribed, rfl⟩
  | write bytes kind => cases replies <;> rfl
  | delay duration => cases replies <;> rfl
  | waitResponse timeout =>
      cases replies with
      | nil => exact ⟨.timeout, rfl⟩
      | cons reply replies => exact ⟨.response reply, rfl⟩
  | elapsed => trivial
  | report progress => trivial

/-- The plan of a catalogued printer. -/
def m02StatusPlan : Plan where
  protocol := .m02
  sourceCommit := sourceCommit
  actions := phomemoStatusActions

/-- Garbage before a marker, a frame in pieces, and silence. -/
def oddReplies : List Bytes := [[0xff, 0x00], [0x1a], [0x04, 0x64], [0x1a, 0x06, 0x88, 0x00]]

theorem status_queries_succeed_odd :
    ∃ progress, (Program.run (oddTransport 20) oddReplies
        (execute .preserve m02StatusPlan).run).2 = .ok progress ∧
      ∀ response ∈ progress.responses, 3 ≤ response.length ∧ response.head? = some 0x1a := by
  have phomemo : (gattPrinter "m02" .m02 203).isPhomemo := ⟨by decide, by decide⟩
  apply status_queries_succeed (oddTransport 20) oddReplies .preserve phomemo rfl
  · constructor
    · exact Program.forall_run (untroubled_oddTransport 20) _ _
    · intro before begins
      have counts : ∀ before ∈ (Program.run (oddTransport 20) oddReplies
          (execute .preserve m02StatusPlan).run).1.inits,
          counted before ≤ maxRetainedResponseBytes := by decide +kernel
      exact counts before ((List.mem_inits _ _).mpr begins)
  · apply Program.forall_run
    intro replies op
    cases op with
    | payloadLimit => cases replies <;> exact (by decide : (20 : Nat) ≠ 0)
    | commandLimit => cases replies <;> exact (by decide : 3 ≤ 20)
    | _ => trivial

/-- A transport whose commands are limited to two bytes reports no error, but preflight
refuses the plan. -/
theorem narrow_commands_refused :
    statusPlan (gattPrinter "m02" .m02 203) = .ok m02StatusPlan ∧
    Calm (Program.run (oddTransport 2) [] (execute .preserve m02StatusPlan).run).1 ∧
    (Program.run (oddTransport 2) [] (execute .preserve m02StatusPlan).run).2 =
      .error (.atomicTooLarge 1 3 2) := by
  refine ⟨rfl, ⟨Program.forall_run (untroubled_oddTransport 2) _ _, ?_⟩, rfl⟩
  intro before begins
  have counts : ∀ before ∈ (Program.run (oddTransport 2) []
      (execute .preserve m02StatusPlan).run).1.inits,
      counted before ≤ maxRetainedResponseBytes := by decide +kernel
  exact counts before ((List.mem_inits _ _).mpr begins)

end PrinterSdk.Executor
