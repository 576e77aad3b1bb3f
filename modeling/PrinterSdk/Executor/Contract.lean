import PrinterSdk.Executor.Execute

/-!
# Run contract of the executor

One contract carries everything that is known about a run between two effects:
which bytes have been handed to the transport, how many of them the transport
confirmed, and whether a raster action has read a vanished payload limit.  Each
executor function is specified once against it, and the whole execution follows
by sequencing.
-/

namespace PrinterSdk.Executor

open PrinterSdk.Data PrinterSdk.Interaction PrinterSdk.Protocol

/-! ## What a history says about writes -/

/-- The slices an operation hands to `transport.write`. -/
def handedBy : Effect → List Bytes
  | .write bytes _ => [bytes]
  | _ => []

/-- The slices handed to `transport.write`, in order. -/
def handed (history : List (Event effects)) : List Bytes :=
  history.flatMap fun event => handedBy event.op

/-- The bytes handed to the transport so far. -/
def handedBytes (history : List (Event effects)) : Bytes :=
  (handed history).flatten

/-- Bytes of a write that the transport confirmed. -/
def confirmedBy : Event effects → Nat
  | ⟨.write bytes _, .completed (.ok ())⟩ => bytes.length
  | _ => 0

/-- Sum of the lengths of the confirmed writes. -/
def confirmed (history : List (Event effects)) : Nat :=
  (history.map confirmedBy).sum

/-- Whether an event is a payload-limit read that returned zero. -/
def readsZeroLimit : Event effects → Prop
  | ⟨.payloadLimit, limit⟩ => limit = 0
  | _ => False

/-- The payload limit was read as zero after a write had been handed over. -/
def LimitVanished (history : List (Event effects)) : Prop :=
  ∃ before event after, history = before ++ event :: after ∧
    readsZeroLimit event ∧ handed before ≠ []

variable {history : List (Event effects)} {event : Event effects}

@[simp] theorem handed_nil : handed [] = [] := rfl

@[simp] theorem handed_append (left right : List (Event effects)) :
    handed (left ++ right) = handed left ++ handed right :=
  List.flatMap_append

@[simp] theorem handed_cons (event : Event effects) (rest : List (Event effects)) :
    handed (event :: rest) = handedBy event.op ++ handed rest :=
  List.flatMap_cons

@[simp] theorem handedBytes_nil : handedBytes [] = [] := rfl

@[simp] theorem handedBytes_append (left right : List (Event effects)) :
    handedBytes (left ++ right) = handedBytes left ++ handedBytes right := by
  simp [handedBytes]

@[simp] theorem handedBytes_singleton (event : Event effects) :
    handedBytes [event] = (handedBy event.op).flatten := by
  simp [handedBytes]

@[simp] theorem confirmed_nil : confirmed [] = 0 := rfl

@[simp] theorem confirmed_snoc :
    confirmed (history ++ [event]) = confirmed history + confirmedBy event := by
  simp [confirmed]

theorem not_limitVanished_of_handed_eq_nil (none : handed history = []) :
    ¬LimitVanished history := by
  intro vanished
  obtain ⟨before, event, after, historyEq, _, some⟩ := vanished
  rw [historyEq, handed_append] at none
  exact some (List.append_eq_nil_iff.mp none).1

/-- Appending one event can only make the limit vanish by being a zero read. -/
theorem limitVanished_snoc :
    LimitVanished (history ++ [event]) ↔
      LimitVanished history ∨ (readsZeroLimit event ∧ handed history ≠ []) := by
  constructor
  · intro vanished
    obtain ⟨before, zero, after, historyEq, isZero, some⟩ := vanished
    rcases List.eq_nil_or_concat after with rfl | ⟨after, last, rfl⟩
    · have parts := List.append_inj' historyEq rfl
      rw [parts.1, List.singleton_inj.mp parts.2]
      exact Or.inr ⟨isZero, some⟩
    · rw [List.concat_eq_append, ← List.cons_append, ← List.append_assoc] at historyEq
      have parts := List.append_inj' historyEq rfl
      exact Or.inl ⟨before, zero, after, parts.1, isZero, some⟩
  · intro vanished
    rcases vanished with vanished | ⟨isZero, some⟩
    · obtain ⟨before, zero, after, historyEq, isZero, some⟩ := vanished
      exact ⟨before, zero, after ++ [event], by simp [historyEq], isZero, some⟩
    · exact ⟨history, event, [], rfl, isZero, some⟩

/-! ## The contract -/

/-- `Synced sent history progress`: every write handed over so far was confirmed,
together they are `sent`, and `progress` accounts for exactly them. -/
structure Synced (sent : Bytes) (history : List (Event effects))
    (progress : Progress) : Prop where
  bytes : handedBytes history = sent
  confirmed : confirmed history = sent.length
  written : progress.bytesWritten = sent.length
  accepted : progress.potentiallyAcceptedWrite = !(handed history).isEmpty
  steady : ¬LimitVanished history

/-- `piece` is a physical piece of the raster action currently executed: it lies
inside one logical chunk of that action's bytes and respects the payload limit
that the action read when it started. -/
def RasterPiece (plan : Plan) (history : List (Event effects))
    (piece : Bytes) : Prop :=
  ∃ (earlier later : List Action) (bytes : Bytes) (logicalChunk delayMs offset : Nat)
      (before after : List (Event effects)) (limit : Nat),
    plan.actions = earlier ++ .rasterWrite bytes logicalChunk delayMs :: later ∧
    history = before ++ ⟨.payloadLimit, limit⟩ :: after ∧
    (∀ event ∈ after, event.op ≠ .payloadLimit) ∧
    handedBytes before = streamOf earlier ∧
    handedBytes after = bytes.take offset ∧
    piece <+: bytes.drop offset ∧
    piece.length ≤ min logicalChunk limit ∧
    offset % logicalChunk + piece.length ≤ logicalChunk

/-- The effects a plan permits at a point of its execution. -/
def Permitted (plan : Plan) (history : List (Event effects)) : Effect → Prop
  | .write bytes kind =>
      handedBytes history ++ bytes <+: plan.stream ∧
        (kind = .raster → RasterPiece plan history bytes)
  | .report progress =>
      progress.bytesWritten = confirmed history ∧
        (progress.potentiallyAcceptedWrite = !(handed history).isEmpty)
  | _ => True

/-- An error accounts for the run that produced it, unless it carries no
progress; that happens before the first write and on a vanished limit only. -/
def Accounted (plan : Plan) (history : List (Event effects))
    (error : ExecuteError) : Prop :=
  handedBytes history <+: plan.stream ∧
    match errorProgress error with
    | some progress =>
        progress.bytesWritten = confirmed history ∧
          progress.potentiallyAcceptedWrite = !(handed history).isEmpty ∧
          ¬LimitVanished history
    | none => handed history = [] ∨ LimitVanished history

/-- A history predicate that survives every effect except a limit read. -/
def KeptByEffects (keeps : List (Event effects) → Prop) : Prop :=
  ∀ history event, event.op ≠ .payloadLimit → keeps history →
    keeps (history ++ [event])

theorem keptByEffects_true : KeptByEffects fun _ => True :=
  fun _ _ _ _ => trivial

/-- An effect that neither writes nor reads a payload limit. -/
def Quiet (op : Effect) : Prop :=
  handedBy op = [] ∧ op ≠ .payloadLimit

variable {plan : Plan} {sent : Bytes} {progress : Progress}
variable {keeps : List (Event effects) → Prop}

theorem confirmedBy_eq_zero_of_handedBy (silent : handedBy event.op = []) :
    confirmedBy event = 0 := by
  rcases event with ⟨op, reply⟩
  cases op with
  | write bytes kind => simp [handedBy] at silent
  | _ => rfl

theorem not_readsZeroLimit (other : event.op ≠ .payloadLimit) :
    ¬readsZeroLimit event := by
  rcases event with ⟨op, reply⟩
  cases op with
  | payloadLimit => exact absurd rfl other
  | _ => exact id

/-- A quiet effect changes nothing the contract speaks about. -/
theorem Synced.quiet (synced : Synced sent history progress)
    (quiet : Quiet event.op) : Synced sent (history ++ [event]) progress where
  bytes := by simp [synced.bytes, quiet.1]
  confirmed := by
    simp [synced.confirmed, confirmedBy_eq_zero_of_handedBy quiet.1]
  written := synced.written
  accepted := by simp [synced.accepted, quiet.1]
  steady := by
    rw [limitVanished_snoc]
    intro vanished
    rcases vanished with vanished | ⟨isZero, _⟩
    · exact synced.steady vanished
    · exact not_readsZeroLimit quiet.2 isZero

/-- A failure that carries the current progress is accounted for. -/
theorem Synced.accounted (synced : Synced sent history progress)
    (within : sent <+: plan.stream) (error : ExecuteError)
    (carries : errorProgress error = some progress) :
    Accounted plan history error := by
  refine ⟨synced.bytes ▸ within, ?_⟩
  rw [carries]
  exact ⟨by rw [synced.written, synced.confirmed], synced.accepted, synced.steady⟩

/-- An effect followed by a continuation. -/
theorem effect_bind {ε α : Type} {op : Effect} {next : op.Reply → Fallible effects ε α}
    {invariant : List (Event effects) → Effect → Prop}
    {success : List (Event effects) → α → Prop}
    {failure : List (Event effects) → ε → Prop}
    (permitted : invariant history op)
    (continues : ∀ reply, Fallible.Meets invariant success failure
      (history ++ [⟨op, reply⟩]) (next reply)) :
    Fallible.Meets invariant success failure history (effect op >>= next) :=
  Fallible.Meets.perform_bind permitted continues

/-- Contract of a computation that leaves the write state alone: it may stop
with an accounted error, and otherwise keeps the history in sync. -/
abbrev StaysSynced (plan : Plan) (keeps : List (Event effects) → Prop)
    (sent : Bytes) (history : List (Event effects))
    (computation : Exec Progress) : Prop :=
  Fallible.Meets (Permitted plan)
    (fun later progress => Synced sent later progress ∧ keeps later)
    (Accounted plan) history computation

/-! ## Effects without writes -/

theorem quiet_isCancelled : Quiet .isCancelled := ⟨rfl, by simp⟩

theorem quiet_subscribe : Quiet .subscribe := ⟨rfl, by simp⟩

theorem quiet_delay (duration : Duration) : Quiet (.delay duration) :=
  ⟨rfl, by simp⟩

theorem quiet_waitResponse (timeout : Duration) : Quiet (.waitResponse timeout) :=
  ⟨rfl, by simp⟩

theorem quiet_elapsed : Quiet .elapsed := ⟨rfl, by simp⟩

theorem quiet_report (progress : Progress) : Quiet (.report progress) :=
  ⟨rfl, by simp⟩

theorem checkCancelled_meets (synced : Synced sent history progress)
    (within : sent <+: plan.stream) (kept : KeptByEffects keeps)
    (here : keeps history) :
    Fallible.Meets (Permitted plan)
      (fun later _ => Synced sent later progress ∧ keeps later)
      (Accounted plan) history (checkCancelled progress) := by
  refine effect_bind trivial ?_
  intro reply
  have next : Synced sent (history ++ [⟨.isCancelled, reply⟩]) progress :=
    synced.quiet quiet_isCancelled
  cases reply with
  | true => exact next.accounted within (cancelled progress) rfl
  | false => exact ⟨next, kept _ _ (by simp) here⟩

theorem raceDelay_meets (duration : Duration) (synced : Synced sent history progress)
    (within : sent <+: plan.stream) (kept : KeptByEffects keeps)
    (here : keeps history) :
    Fallible.Meets (Permitted plan)
      (fun later _ => Synced sent later progress ∧ keeps later)
      (Accounted plan) history (raceDelay duration progress) := by
  refine effect_bind trivial ?_
  intro reply
  have next : Synced sent (history ++ [⟨.delay duration, reply⟩]) progress :=
    synced.quiet (quiet_delay duration)
  cases reply with
  | cancelled => exact next.accounted within (cancelled progress) rfl
  | completed value => exact ⟨next, kept _ _ (by simp) here⟩

theorem errorProgress_nonWriteError (progress : Progress) (source : TransportError) :
    errorProgress (nonWriteError progress source) = some progress := by
  unfold nonWriteError cancelled
  split <;> rfl

theorem errorProgress_responseEffectError (progress : Progress) (error : EffectError) :
    errorProgress (responseEffectError progress error) = some progress := by
  cases error with
  | cancelled => rfl
  | transport source => exact errorProgress_nonWriteError progress source
  | response message => rfl

/-! ## Writes -/

/-- A write that the transport confirmed advances the contract by its bytes. -/
theorem Synced.wrote (synced : Synced sent history progress) (bytes : Bytes)
    (kind : WriteKind) (fits : (sent ++ bytes).length ≤ usizeMax) :
    Synced (sent ++ bytes)
      (history ++ [⟨.write bytes kind, .completed (.ok ())⟩])
      { progress with
        potentiallyAcceptedWrite := true
        bytesWritten := saturatingAdd progress.bytesWritten bytes.length } where
  bytes := by simp [synced.bytes, handedBy]
  confirmed := by simp [synced.confirmed, confirmedBy]
  written := by
    rw [List.length_append] at fits
    simp only [synced.written, List.length_append]
    exact saturatingAdd_eq fits
  accepted := by simp [handedBy]
  steady := by
    rw [limitVanished_snoc]
    intro vanished
    rcases vanished with vanished | ⟨isZero, _⟩
    · exact synced.steady vanished
    · exact isZero

/-- A write whose outcome is unknown is handed over but not confirmed. -/
theorem Synced.unknown (synced : Synced sent history progress) (bytes : Bytes)
    (kind : WriteKind) (within : sent ++ bytes <+: plan.stream)
    {reply : Race (Except TransportError Unit)}
    (unconfirmed : confirmedBy ⟨.write bytes kind, reply⟩ = 0)
    (error : ExecuteError)
    (carries : errorProgress error =
      some { progress with potentiallyAcceptedWrite := true }) :
    Accounted plan (history ++ [⟨.write bytes kind, reply⟩]) error := by
  refine ⟨by simpa [synced.bytes, handedBy] using within, ?_⟩
  rw [carries]
  refine ⟨?_, by simp [handedBy], ?_⟩
  · simp [unconfirmed, synced.written, synced.confirmed]
  · rw [limitVanished_snoc]
    intro vanished
    rcases vanished with vanished | ⟨isZero, _⟩
    · exact synced.steady vanished
    · exact isZero

theorem writePiece_meets (bytes : Bytes) (kind : WriteKind)
    (synced : Synced sent history progress) (resident : plan.Resident)
    (within : sent ++ bytes <+: plan.stream) (kept : KeptByEffects keeps)
    (here : keeps history)
    (permits : kind = .raster → ∀ later, handedBytes later = sent → keeps later →
      RasterPiece plan later bytes) :
    StaysSynced plan keeps (sent ++ bytes) history
      (writePiece bytes kind progress) := by
  have sentWithin : sent <+: plan.stream :=
    (List.prefix_append sent bytes).trans within
  have fits : (sent ++ bytes).length ≤ usizeMax :=
    within.length_le.trans resident
  refine (checkCancelled_meets synced sentWithin kept here).bind ?_
  intro later _ settled
  obtain ⟨synced, here⟩ := settled
  refine effect_bind ⟨by rwa [synced.bytes], fun raster => permits raster _ synced.bytes here⟩ ?_
  intro reply
  cases reply with
  | cancelled => exact synced.unknown bytes kind within rfl (.writeOutcomeUnknown _ none) rfl
  | completed outcome =>
      cases outcome with
      | error source =>
          exact synced.unknown bytes kind within rfl
            (.writeOutcomeUnknown _ (some source)) rfl
      | ok value => exact ⟨synced.wrote bytes kind fits, kept _ _ (by simp) here⟩

end PrinterSdk.Executor
