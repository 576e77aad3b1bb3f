import PrinterSdk.Executor.Contract

/-!
# Every action of a plan keeps the run contract

Each arm of the action loop is specified against the contract of
`Executor.Contract`; the loop and the whole execution follow by induction on the
remaining actions.
-/

namespace PrinterSdk.Executor

open PrinterSdk.Data PrinterSdk.Interaction PrinterSdk.Protocol

variable {plan : Plan} {sent : Bytes} {progress : Progress}
variable {history : List (Event effects)}

/-! ## Response collection -/

/-- Contract of a response collection: whatever it returns, nothing was written
and no limit was read. -/
abbrev OnlyListens {α : Type} (plan : Plan) (sent : Bytes) (progress : Progress)
    (history : List (Event effects)) (computation : Collect α) : Prop :=
  Fallible.Meets (Permitted plan)
    (fun later _ => Synced sent later progress)
    (fun later _ => Synced sent later progress) history computation

theorem wait_meets (timeout : Duration) (synced : Synced sent history progress) :
    OnlyListens plan sent progress history (wait timeout) := by
  refine effect_bind trivial ?_
  intro reply
  have next : Synced sent (history ++ [⟨.waitResponse timeout, reply⟩]) progress :=
    synced.quiet (quiet_waitResponse timeout)
  cases reply with
  | cancelled => exact next
  | completed outcome =>
      cases outcome with
      | ok outcome => exact next
      | error error =>
          simp only
          split
          · exact next
          · exact next

theorem collectResponseReads_meets (timeout : Duration)
    (validation : ResponseValidation) (alreadyRetained reads : Nat) (first : Bool)
    (bytes : Bytes) (synced : Synced sent history progress) :
    OnlyListens plan sent progress history
      (collectResponseReads timeout validation alreadyRetained reads first bytes) := by
  induction reads generalizing first bytes history with
  | zero => exact synced
  | succ reads ih =>
      refine effect_bind trivial ?_
      intro clock
      have clocked : Synced sent (history ++ [⟨.elapsed, clock⟩]) progress :=
        synced.quiet quiet_elapsed
      by_cases expired : timeout - clock = 0
      · simp only [expired, ↓reduceIte]
        exact clocked
      · simp only [expired, ↓reduceIte]
        refine (wait_meets _ clocked).bind ?_
        intro later outcome listened
        cases outcome with
        | timeout => exact listened
        | unavailable => exact listened
        | response chunk =>
            simp only
            split
            · exact listened
            · split
              · exact listened
              · split
                · split
                  · split
                    · exact listened
                    · exact ih _ _ listened
                  · exact ih _ _ listened
                · split
                  · exact listened
                  · exact ih _ _ listened

theorem finishMultipart_meets (timeout : Duration) (becameIdle : Bool)
    (bytes : Bytes) (synced : Synced sent history progress) :
    OnlyListens plan sent progress history
      (finishMultipart timeout becameIdle bytes) := by
  unfold OnlyListens finishMultipart
  split
  · exact synced
  · split
    · exact synced
    · refine effect_bind trivial ?_
      intro clock
      have clocked : Synced sent (history ++ [⟨.elapsed, clock⟩]) progress :=
        synced.quiet quiet_elapsed
      split
      · exact clocked
      · exact clocked

theorem collectMultipartReads_meets (timeout idleTimeout : Duration)
    (maximumBytes reads : Nat) (first : Bool) (bytes : Bytes)
    (synced : Synced sent history progress) :
    OnlyListens plan sent progress history
      (collectMultipartReads timeout idleTimeout maximumBytes reads first bytes) := by
  induction reads generalizing first bytes history with
  | zero => exact finishMultipart_meets _ _ _ synced
  | succ reads ih =>
      refine effect_bind trivial ?_
      intro clock
      have clocked : Synced sent (history ++ [⟨.elapsed, clock⟩]) progress :=
        synced.quiet quiet_elapsed
      by_cases expired : timeout - clock = 0
      · simp only [expired, ↓reduceIte]
        exact finishMultipart_meets _ _ _ clocked
      · simp only [expired, ↓reduceIte]
        refine (wait_meets _ clocked).bind ?_
        intro later outcome listened
        cases outcome with
        | timeout => exact listened
        | unavailable => exact listened
        | response chunk =>
            simp only
            split
            · exact finishMultipart_meets _ _ _ listened
            · split
              · exact listened
              · split
                · exact listened
                · exact ih _ _ listened

/-- Attaching the current progress to a listening failure accounts for it. -/
theorem withProgress_meets (within : sent <+: plan.stream)
    {collection : Collect WaitOutcome}
    (listens : OnlyListens plan sent progress history collection) :
    Fallible.Meets (Permitted plan)
      (fun later _ => Synced sent later progress) (Accounted plan) history
      (withProgress progress collection) := by
  unfold Fallible.Meets withProgress
  simp only [ExceptT.run_mk, Program.meets_bind]
  refine Program.Meets.mono listens ?_
  intro later result settled
  cases result with
  | ok outcome => exact settled
  | error error =>
      exact settled.accounted within _ (errorProgress_responseEffectError progress error)

/-- Retaining a reply leaves the write state alone. -/
theorem retainResponse_meets (validation : ResponseValidation) (bytes : Bytes)
    (within : sent <+: plan.stream) (synced : Synced sent history progress) :
    StaysSynced plan (fun _ => True) sent history
      (retainResponse validation bytes progress) := by
  unfold StaysSynced retainResponse validate
  rw [Fallible.meets_bind]
  split
  · exact ⟨⟨synced.bytes, synced.confirmed, synced.written, synced.accepted,
      synced.steady⟩, trivial⟩
  · exact synced.accounted within
      (.response progress "response did not match declared validator") rfl

/-! ## Raster writes -/

/-- The raster action after the actions `earlier` has read `limit`, and no limit
has been read since. -/
def SinceLimitRead (earlier : List Action) (limit : Nat)
    (history : List (Event effects)) : Prop :=
  ∃ before after, history = before ++ ⟨.payloadLimit, limit⟩ :: after ∧
    (∀ event ∈ after, event.op ≠ .payloadLimit) ∧
    handedBytes before = streamOf earlier

theorem keptByEffects_sinceLimitRead (earlier : List Action) (limit : Nat) :
    KeptByEffects (SinceLimitRead earlier limit) := by
  intro history event other since
  obtain ⟨before, after, historyEq, quiet, bytes⟩ := since
  refine ⟨before, after ++ [event], by simp [historyEq], ?_, bytes⟩
  intro candidate member
  rcases List.mem_append.mp member with inside | last
  · exact quiet candidate inside
  · rwa [List.mem_singleton.mp last]

/-- The raster action that is being executed, and the limit it has read. -/
structure RasterAt (plan : Plan) (bytes : Bytes) (logicalChunk delayMs limit : Nat)
    (earlier later : List Action) : Prop where
  actions : plan.actions = earlier ++ .rasterWrite bytes logicalChunk delayMs :: later
  logicalPositive : 0 < logicalChunk
  limitPositive : 0 < limit

section Raster

variable {bytes : Bytes} {logicalChunk delayMs limit : Nat}
variable {earlier later : List Action}
variable {doneChunks restChunks donePieces restPieces : List Bytes}
variable {logical piece : Bytes}

/-- The bytes of a raster action before one of its physical pieces. -/
theorem taken_of_splits (at_ : RasterAt plan bytes logicalChunk delayMs limit earlier later)
    (chunkSplit : chunks logicalChunk bytes = doneChunks ++ logical :: restChunks)
    (pieceSplit : chunks limit logical = donePieces ++ piece :: restPieces) :
    doneChunks.flatten ++ donePieces.flatten =
        bytes.take (doneChunks.length * logicalChunk + donePieces.length * limit) ∧
      piece <+: bytes.drop
        (doneChunks.length * logicalChunk + donePieces.length * limit) ∧
      donePieces.length * limit + piece.length ≤ logicalChunk ∧
      donePieces.length * limit < logicalChunk := by
  obtain ⟨chunksFlat, logicalEq, _⟩ := chunks_split at_.logicalPositive chunkSplit
  obtain ⟨piecesFlat, pieceEq, pieceStart⟩ := chunks_split at_.limitPositive pieceSplit
  have logicalLength : logical.length ≤ logicalChunk := by
    rw [logicalEq]
    exact List.length_take_le _ _
  have startsInside : donePieces.length * limit < logicalChunk :=
    pieceStart.trans_le logicalLength
  refine ⟨?_, ?_, ?_, startsInside⟩
  · rw [chunksFlat, piecesFlat, List.take_add, logicalEq, List.take_take,
      Nat.min_eq_left startsInside.le]
  · rw [pieceEq, logicalEq, ← List.drop_drop, List.drop_take, List.take_take]
    exact List.take_prefix _ _
  · rw [pieceEq, List.length_take, List.length_drop]
    omega

/-- A physical piece is one that the plan permits. -/
theorem rasterPiece_of_splits
    (at_ : RasterAt plan bytes logicalChunk delayMs limit earlier later)
    (chunkSplit : chunks logicalChunk bytes = doneChunks ++ logical :: restChunks)
    (pieceSplit : chunks limit logical = donePieces ++ piece :: restPieces)
    (sentSoFar : handedBytes history =
      streamOf earlier ++ doneChunks.flatten ++ donePieces.flatten)
    (since : SinceLimitRead earlier limit history) :
    RasterPiece plan history piece := by
  obtain ⟨before, after, historyEq, quiet, beforeBytes⟩ := since
  obtain ⟨taken, inside, ends, starts⟩ := taken_of_splits at_ chunkSplit pieceSplit
  have member : piece ∈ chunks limit logical := by simp [pieceSplit]
  refine ⟨earlier, later, bytes, logicalChunk, delayMs, _, before, after, limit,
    at_.actions, historyEq, quiet, beforeBytes, ?_, inside, ?_, ?_⟩
  · have split : handedBytes history = streamOf earlier ++ handedBytes after := by
      rw [historyEq, ← List.singleton_append, handedBytes_append, handedBytes_append,
        beforeBytes]
      rfl
    rw [split, List.append_assoc] at sentSoFar
    rw [← taken]
    exact List.append_cancel_left sentSoFar
  · exact Nat.le_min.mpr ⟨by omega, length_le_of_mem_chunks member⟩
  · rw [Nat.mul_comm doneChunks.length, Nat.mul_add_mod, Nat.mod_eq_of_lt starts]
    exact ends

/-- The bytes sent up to and including a piece are a prefix of the stream. -/
theorem sent_within
    (at_ : RasterAt plan bytes logicalChunk delayMs limit earlier later)
    (chunkSplit : chunks logicalChunk bytes = doneChunks ++ logical :: restChunks)
    (pieceSplit : chunks limit logical = donePieces ++ restPieces) :
    streamOf earlier ++ doneChunks.flatten ++ donePieces.flatten <+: plan.stream := by
  have whole : bytes =
      doneChunks.flatten ++ donePieces.flatten ++
        (restPieces.flatten ++ restChunks.flatten) := by
    have logicalWhole := flatten_chunks at_.limitPositive logical
    rw [pieceSplit, List.flatten_append] at logicalWhole
    have bytesWhole := flatten_chunks at_.logicalPositive bytes
    rw [chunkSplit, List.flatten_append, List.flatten_cons, ← logicalWhole] at bytesWhole
    simp only [List.append_assoc] at bytesWhole ⊢
    exact bytesWhole.symm
  refine ⟨(restPieces.flatten ++ restChunks.flatten) ++ streamOf later, ?_⟩
  have actionStream : Action.stream (.rasterWrite bytes logicalChunk delayMs) = bytes := rfl
  rw [Plan.stream, at_.actions, streamOf_append, streamOf_cons, actionStream]
  conv_rhs => rw [whole]
  simp only [List.append_assoc]

theorem writePieces_meets (duration : Duration) (resident : plan.Resident)
    (at_ : RasterAt plan bytes logicalChunk delayMs limit earlier later)
    (chunkSplit : chunks logicalChunk bytes = doneChunks ++ logical :: restChunks)
    (pieceSplit : chunks limit logical = donePieces ++ restPieces)
    (synced : Synced (streamOf earlier ++ doneChunks.flatten ++ donePieces.flatten)
      history progress)
    (since : SinceLimitRead earlier limit history) :
    StaysSynced plan (SinceLimitRead earlier limit)
      (streamOf earlier ++ doneChunks.flatten ++ logical) history
      (writePieces duration restPieces progress) := by
  induction restPieces generalizing donePieces history progress with
  | nil =>
      have logicalWhole := flatten_chunks at_.limitPositive logical
      rw [pieceSplit, List.append_nil] at logicalWhole
      rw [logicalWhole] at synced
      exact ⟨synced, since⟩
  | cons piece restPieces ih =>
      have kept := keptByEffects_sinceLimitRead earlier limit
      have nextSplit : chunks limit logical = (donePieces ++ [piece]) ++ restPieces := by
        rw [pieceSplit, List.append_assoc, List.singleton_append]
      have nextWithin := sent_within at_ chunkSplit nextSplit
      rw [List.flatten_append, List.flatten_singleton, ← List.append_assoc] at nextWithin
      refine (checkCancelled_meets synced (sent_within at_ chunkSplit pieceSplit)
        kept since).bind ?_
      intro checked _ settled
      refine (writePiece_meets piece .raster settled.1 resident nextWithin kept settled.2
        ?_).bind ?_
      · intro _ earlierHistory sentSoFar since
        exact rasterPiece_of_splits at_ chunkSplit pieceSplit sentSoFar since
      · intro wrote progress settled
        refine (raceDelay_meets duration settled.1 nextWithin kept settled.2).bind ?_
        intro paced _ settled
        refine ih nextSplit ?_ settled.2
        rw [List.flatten_append, List.flatten_singleton, ← List.append_assoc]
        exact settled.1

theorem writeLogicalChunks_meets (duration : Duration) (resident : plan.Resident)
    (at_ : RasterAt plan bytes logicalChunk delayMs limit earlier later)
    (chunkSplit : chunks logicalChunk bytes = doneChunks ++ restChunks)
    (synced : Synced (streamOf earlier ++ doneChunks.flatten) history progress)
    (since : SinceLimitRead earlier limit history) :
    StaysSynced plan (SinceLimitRead earlier limit)
      (streamOf earlier ++ bytes) history
      (writeLogicalChunks duration limit restChunks progress) := by
  induction restChunks generalizing doneChunks history progress with
  | nil =>
      have bytesWhole := flatten_chunks at_.logicalPositive bytes
      rw [chunkSplit, List.append_nil] at bytesWhole
      rw [bytesWhole] at synced
      exact ⟨synced, since⟩
  | cons logical restChunks ih =>
      have nextSplit : chunks logicalChunk bytes = (doneChunks ++ [logical]) ++ restChunks := by
        rw [chunkSplit, List.append_assoc, List.singleton_append]
      refine (writePieces_meets duration resident at_ chunkSplit (List.nil_append _).symm
        ?_ since).bind ?_
      · simpa using synced
      · intro wrote progress settled
        refine ih nextSplit ?_ settled.2
        rw [List.flatten_append, List.flatten_singleton, ← List.append_assoc]
        exact settled.1

end Raster

/-! ## The action loop -/

/-- Preflight leaves no raster action with an empty logical chunk. -/
def RastersChunked (actions : List Action) : Prop :=
  ∀ bytes logicalChunk delayMs,
    Action.rasterWrite bytes logicalChunk delayMs ∈ actions → 0 < logicalChunk

theorem rastersChunked_of_preflightActions {commandLimit index retained : Nat}
    {actions : List Action}
    (passes : preflightActions commandLimit index retained actions = .ok ()) :
    RastersChunked actions := by
  induction actions generalizing index retained with
  | nil => simp [RastersChunked]
  | cons action rest ih =>
      simp only [preflightActions] at passes
      cases checked : preflightAction commandLimit index retained action with
      | error error => simp [checked] at passes
      | ok total =>
          simp only [checked] at passes
          intro bytes logicalChunk delayMs member
          rcases List.mem_cons.mp member with here | inRest
          · rw [← here] at checked
            simp only [preflightAction] at checked
            split at checked
            · cases checked
            · omega
          · exact ih passes bytes logicalChunk delayMs inRest

theorem rastersChunked_of_preflight {payloadLimit commandLimit : Nat}
    (passes : preflight plan payloadLimit commandLimit = .ok ()) :
    RastersChunked plan.actions := by
  unfold preflight at passes
  split at passes
  · cases passes
  · split at passes
    · cases passes
    · split at passes
      · cases passes
      · exact rastersChunked_of_preflightActions passes

theorem errorProgress_of_preflightAction {commandLimit index retained : Nat}
    {action : Action} {error : ExecuteError}
    (fails : preflightAction commandLimit index retained action = .error error) :
    errorProgress error = none := by
  unfold preflightAction at fails
  repeat' split at fails
  all_goals cases fails
  all_goals rfl

theorem errorProgress_of_preflightActions {commandLimit index retained : Nat}
    {actions : List Action} {error : ExecuteError}
    (fails : preflightActions commandLimit index retained actions = .error error) :
    errorProgress error = none := by
  induction actions generalizing index retained with
  | nil => cases fails
  | cons action rest ih =>
      simp only [preflightActions] at fails
      cases checked : preflightAction commandLimit index retained action with
      | error failure =>
          simp only [checked] at fails
          cases fails
          exact errorProgress_of_preflightAction checked
      | ok total =>
          simp only [checked] at fails
          exact ih fails

/-- Preflight failures carry no progress. -/
theorem errorProgress_of_preflight {payloadLimit commandLimit : Nat}
    {error : ExecuteError}
    (fails : preflight plan payloadLimit commandLimit = .error error) :
    errorProgress error = none := by
  unfold preflight at fails
  split at fails
  · cases fails
    rfl
  · split at fails
    · cases fails
      rfl
    · split at fails
      · cases fails
        rfl
      · exact errorProgress_of_preflightActions fails

theorem within_of_actions {earlier later : List Action} {action : Action}
    (actions : plan.actions = earlier ++ action :: later) :
    streamOf earlier ++ action.stream <+: plan.stream := by
  refine ⟨streamOf later, ?_⟩
  rw [Plan.stream, actions, streamOf_append, streamOf_cons, List.append_assoc]

/-- A raster action that reads a zero limit stops the run without progress. -/
theorem accounted_of_zero_limit (synced : Synced sent history progress)
    (within : sent <+: plan.stream) (action : Nat) (message : String) :
    Accounted plan (history ++ [⟨.payloadLimit, (0 : Nat)⟩])
      (invalid action message) := by
  refine ⟨by simpa [synced.bytes, handedBy] using within, ?_⟩
  simp only [invalid, errorProgress]
  rw [limitVanished_snoc]
  cases wrote : handed history with
  | nil => exact Or.inl (by simp [wrote, handedBy])
  | cons first rest => exact Or.inr (Or.inr ⟨rfl, by simp⟩)

theorem rasterWrite_meets (timing : ReferenceTiming) (index : Nat)
    {bytes : Bytes} {logicalChunk delayMs : Nat} {earlier later : List Action}
    (resident : plan.Resident)
    (actions : plan.actions =
      earlier ++ .rasterWrite bytes logicalChunk delayMs :: later)
    (logicalPositive : 0 < logicalChunk)
    (synced : Synced (streamOf earlier) history progress) :
    StaysSynced plan (fun _ => True) (streamOf earlier ++ bytes) history
      (executeAction timing index (.rasterWrite bytes logicalChunk delayMs) progress) := by
  have within : streamOf earlier <+: plan.stream :=
    (List.prefix_append _ _).trans (within_of_actions actions)
  refine effect_bind trivial ?_
  intro limit
  by_cases vanished : limit = 0
  · subst vanished
    exact accounted_of_zero_limit synced within index
      "zero negotiated transport payload limit"
  · simp only [vanished, ↓reduceIte]
    have at_ : RasterAt plan bytes logicalChunk delayMs limit earlier later :=
      ⟨actions, logicalPositive, Nat.pos_of_ne_zero vanished⟩
    have read : Synced (streamOf earlier ++ ([] : List Bytes).flatten)
        (history ++ [⟨.payloadLimit, limit⟩]) progress := by
      refine ⟨by simp [synced.bytes, handedBy], ?_, by simp [synced.written],
        by simp [synced.accepted, handedBy], ?_⟩
      · rw [confirmed_snoc, confirmedBy_eq_zero_of_handedBy rfl]
        simp [synced.confirmed]
      · rw [limitVanished_snoc]
        intro gone
        rcases gone with gone | ⟨isZero, _⟩
        · exact synced.steady gone
        · exact vanished isZero
    refine (writeLogicalChunks_meets _ resident at_ (List.nil_append _).symm read
      ⟨history, [], rfl, by simp, synced.bytes⟩).mono ?_ (fun _ _ => id)
    intro wrote progress settled
    exact ⟨settled.1, trivial⟩

theorem executeAction_meets (timing : ReferenceTiming) (index : Nat)
    {action : Action} {earlier later : List Action} (resident : plan.Resident)
    (actions : plan.actions = earlier ++ action :: later)
    (chunked : RastersChunked plan.actions)
    (synced : Synced (streamOf earlier) history progress) :
    StaysSynced plan (fun _ => True) (streamOf earlier ++ action.stream) history
      (executeAction timing index action progress) := by
  have wholeWithin := within_of_actions actions
  have within : streamOf earlier <+: plan.stream :=
    (List.prefix_append _ _).trans wholeWithin
  unfold StaysSynced
  cases action with
  | jobBoundary kind =>
      simp only [Action.stream, List.append_nil]
      exact ⟨synced, trivial⟩
  | subscribeNotifications =>
      simp only [Action.stream, List.append_nil]
      refine effect_bind trivial ?_
      intro reply
      have next : Synced (streamOf earlier) (history ++ [⟨.subscribe, reply⟩])
          progress := synced.quiet quiet_subscribe
      cases reply with
      | cancelled => exact next.accounted within (cancelled progress) rfl
      | completed outcome =>
          cases outcome with
          | ok support => exact ⟨next, trivial⟩
          | error error =>
              exact next.accounted within (nonWriteError progress error)
                (errorProgress_nonWriteError progress error)
  | delay milliseconds =>
      simp only [Action.stream, List.append_nil]
      refine (raceDelay_meets _ synced within keptByEffects_true trivial).bind ?_
      intro paced _ settled
      exact settled
  | commandWrite name bytes atomic =>
      exact writePiece_meets bytes .command synced resident wholeWithin
        keptByEffects_true trivial (by simp)
  | rasterWrite bytes logicalChunk delayMs =>
      have member : Action.rasterWrite bytes logicalChunk delayMs ∈ plan.actions := by
        simp [actions]
      exact rasterWrite_meets timing index resident actions
        (chunked bytes logicalChunk delayMs member) synced
  | waitForResponse timeoutMs fallbackDelayMs validation =>
      simp only [Action.stream, List.append_nil]
      refine (withProgress_meets within
        (collectResponseReads_meets _ _ _ _ _ _ synced)).bind ?_
      intro listened outcome settled
      cases outcome with
      | response bytes => exact retainResponse_meets validation bytes within settled
      | timeout | unavailable =>
          simp only
          split
          · refine (raceDelay_meets _ settled within keptByEffects_true trivial).bind ?_
            intro paced _ settled
            exact settled
          · split
            · exact ⟨settled, trivial⟩
            · exact settled.accounted within (.timeout progress) rfl
  | collectResponse timeoutMs idleTimeoutMs maximumBytes validation =>
      simp only [Action.stream, List.append_nil]
      refine (withProgress_meets within
        (collectMultipartReads_meets _ _ _ _ _ _ synced)).bind ?_
      intro listened outcome settled
      cases outcome with
      | response bytes => exact retainResponse_meets validation bytes within settled
      | timeout | unavailable =>
          exact settled.accounted within (.timeout progress) rfl

theorem executeActions_meets (timing : ReferenceTiming) (index : Nat)
    {earlier later : List Action} (resident : plan.Resident)
    (actions : plan.actions = earlier ++ later)
    (chunked : RastersChunked plan.actions)
    (synced : Synced (streamOf earlier) history progress) :
    StaysSynced plan (fun _ => True) plan.stream history
      (executeActions timing index later progress) := by
  induction later generalizing earlier index history progress with
  | nil =>
      rw [List.append_nil] at actions
      rw [Plan.stream, actions]
      exact ⟨synced, trivial⟩
  | cons action later ih =>
      have within : streamOf earlier <+: plan.stream :=
        (List.prefix_append _ _).trans (within_of_actions actions)
      have nextActions : plan.actions = (earlier ++ [action]) ++ later := by
        rw [actions, List.append_assoc, List.singleton_append]
      refine (checkCancelled_meets synced within keptByEffects_true trivial).bind ?_
      intro checked _ settled
      refine (executeAction_meets timing index resident actions chunked settled.1).bind ?_
      intro executed progress settled
      obtain ⟨synced, _⟩ := settled
      refine effect_bind ⟨by simp [synced.written, synced.confirmed], synced.accepted⟩ ?_
      intro reply
      have counted : Synced (streamOf earlier ++ action.stream) executed
          { progress with lastCompletedAction := some index } :=
        ⟨synced.bytes, synced.confirmed, synced.written, synced.accepted, synced.steady⟩
      refine ih (index + 1) nextActions ?_
      rw [streamOf_append, streamOf_cons, streamOf_nil, List.append_nil]
      exact counted.quiet (quiet_report _)

/-- Every run of a plan keeps the contract. -/
theorem execute_meets (timing : ReferenceTiming) (resident : plan.Resident) :
    StaysSynced plan (fun _ => True) plan.stream [] (execute timing plan) := by
  refine effect_bind trivial ?_
  intro payloadLimit
  refine effect_bind trivial ?_
  intro commandLimit
  rw [Fallible.meets_bind]
  have started : Synced (streamOf [])
      [⟨.payloadLimit, payloadLimit⟩, ⟨.commandLimit, commandLimit⟩] {} :=
    ⟨rfl, rfl, rfl, rfl, not_limitVanished_of_handed_eq_nil rfl⟩
  cases checked : preflight plan payloadLimit commandLimit with
  | error error =>
      have bare := errorProgress_of_preflight checked
      have accounted : Accounted plan
          [⟨.payloadLimit, payloadLimit⟩, ⟨.commandLimit, commandLimit⟩] error := by
        refine ⟨List.nil_prefix, ?_⟩
        rw [bare]
        exact Or.inl rfl
      exact accounted
  | ok value =>
      exact executeActions_meets timing 0 resident (List.nil_append _).symm
        (rastersChunked_of_preflight checked) started

end PrinterSdk.Executor
