import PrinterSdk.Executor.Execute

/-!
# Responses do not depend on how they are split

A transport hands over a reply in chunks of its own choosing.  While the chunks of a
stream arrive in time and are followed by an idle timeout, what a response action makes
of them depends on the stream alone: both collection loops keep the concatenation of the
chunks seen so far, and their limits are limits on its length.
-/

namespace PrinterSdk.Executor

open PrinterSdk.Data PrinterSdk.Interaction PrinterSdk.Protocol

/-- A split of a stream as a transport may make it: no chunk is empty, and each is held
in memory. -/
structure Splits (stream : Bytes) (chunks : List Bytes) : Prop where
  whole : chunks.flatten = stream
  nonempty : ∀ chunk ∈ chunks, chunk ≠ []
  resident : ∀ chunk ∈ chunks, chunk.length ≤ isizeMax

/-- The chunks arrive within the deadline: the clock never reaches the timeout, every
wait is answered with the next chunk and, when there is none, with an idle timeout. -/
inductive Delivered (timeout : Duration) : List Bytes → List (Event effects) → Prop where
  | start (chunks : List Bytes) : Delivered timeout chunks []
  | clock {chunks : List Bytes} {trace : List (Event effects)} (clock : Duration) :
      clock < timeout → Delivered timeout chunks trace →
      Delivered timeout chunks (⟨.elapsed, clock⟩ :: trace)
  | chunk {chunks : List Bytes} {trace : List (Event effects)} (wait : Duration)
      (chunk : Bytes) : Delivered timeout chunks trace →
      Delivered timeout (chunk :: chunks)
        (⟨.waitResponse wait, .completed (.ok (.response chunk))⟩ :: trace)
  | idle {trace : List (Event effects)} (wait : Duration) : Delivered timeout [] trace →
      Delivered timeout [] (⟨.waitResponse wait, .completed (.ok .timeout)⟩ :: trace)
  | other {chunks : List Bytes} {trace : List (Event effects)} (op : Effect)
      (reply : op.Reply) : op ≠ .elapsed → (∀ wait, op ≠ .waitResponse wait) →
      Delivered timeout chunks trace → Delivered timeout chunks (⟨op, reply⟩ :: trace)

/-- `result` is what a computation returns when the chunks are delivered to it. -/
def Arrives {ε α : Type} (timeout : Duration) (chunks : List Bytes)
    (computation : Fallible effects ε α) (result : Except ε α) : Prop :=
  ∃ trace, Delivered timeout chunks trace ∧ Program.After computation.run trace (.done result)

section Runs

variable {ε α β : Type} {timeout : Duration} {chunks : List Bytes}
variable {trace earlier later : List (Event effects)}

theorem Delivered.elapsed {clock : Duration}
    (delivered : Delivered timeout chunks (⟨.elapsed, clock⟩ :: trace)) :
    clock < timeout ∧ Delivered timeout chunks trace := by
  cases delivered with
  | clock _ early delivered => exact ⟨early, delivered⟩
  | other _ _ notClock => exact absurd rfl notClock

theorem Delivered.waited {wait : Duration} {reply : Race (Except TransportError WaitOutcome)}
    (delivered : Delivered timeout chunks (⟨.waitResponse wait, reply⟩ :: trace)) :
    (∃ chunk rest, chunks = chunk :: rest ∧ reply = .completed (.ok (.response chunk)) ∧
      Delivered timeout rest trace) ∨
    (chunks = [] ∧ reply = .completed (.ok .timeout) ∧ Delivered timeout [] trace) := by
  cases delivered with
  | chunk _ chunk delivered => exact .inl ⟨chunk, _, rfl, rfl, delivered⟩
  | idle _ delivered => exact .inr ⟨rfl, rfl, delivered⟩
  | other _ _ _ notWait => exact absurd rfl (notWait wait)

theorem Delivered.initial (delivered : Delivered timeout chunks (earlier ++ later)) :
    Delivered timeout chunks earlier := by
  induction earlier generalizing chunks with
  | nil => exact .start chunks
  | cons event earlier ih =>
      cases delivered with
      | clock clock early delivered => exact .clock clock early (ih delivered)
      | chunk wait chunk delivered => exact .chunk wait chunk (ih delivered)
      | idle wait delivered => exact .idle wait (ih delivered)
      | other op reply notClock notWait delivered =>
          exact .other op reply notClock notWait (ih delivered)

/-- A transport that hands over the chunks of a list, at once. -/
def handingOver : List Bytes → (op : Effect) → op.Reply × List Bytes
  | chunks, .payloadLimit => ((512 : Nat), chunks)
  | chunks, .commandLimit => ((512 : Nat), chunks)
  | chunks, .isCancelled => (false, chunks)
  | chunks, .subscribe => (.completed (.ok .subscribed), chunks)
  | chunks, .write _ _ => (.completed (.ok ()), chunks)
  | chunks, .delay _ => (.completed (), chunks)
  | [], .waitResponse _ => (.completed (.ok .timeout), [])
  | chunk :: chunks, .waitResponse _ => (.completed (.ok (.response chunk)), chunks)
  | chunks, .elapsed => ((0 : Nat), chunks)
  | chunks, .report _ => ((), chunks)

theorem delivered_handingOver (positive : 0 < timeout) (chunks : List Bytes)
    (program : Program effects α) :
    Delivered timeout chunks (program.run handingOver chunks).1 := by
  induction program generalizing chunks with
  | done value => exact .start chunks
  | ask op resume ih =>
      cases op with
      | elapsed => exact .clock _ positive (ih _ _)
      | waitResponse wait =>
          cases chunks with
          | nil => exact .idle wait (ih _ _)
          | cons chunk chunks => exact .chunk wait chunk (ih _ _)
      | _ => cases chunks <;> exact .other _ _ (by simp) (by simp) (ih _ _)

/-- Whatever the split, the chunks can be delivered. -/
theorem exists_arrives (positive : 0 < timeout) (chunks : List Bytes)
    (computation : Fallible effects ε α) : ∃ result, Arrives timeout chunks computation result :=
  ⟨_, _, delivered_handingOver positive chunks computation.run, Program.after_run _ _ _⟩

/-- A result that every delivery forces is the result of every delivery. -/
theorem arrives_iff {computation : Fallible effects ε α} {outcome result : Except ε α}
    (positive : 0 < timeout)
    (forced : ∀ other, Arrives timeout chunks computation other → other = outcome) :
    Arrives timeout chunks computation result ↔ result = outcome := by
  constructor
  · exact forced result
  · intro same
    obtain ⟨other, arrives⟩ := exists_arrives positive chunks computation
    rw [same, ← forced other arrives]
    exact arrives

/-! ## The collection loops -/

/-- A wait is answered with the next chunk, or with the idle timeout. -/
theorem after_wait_bind {wait_ : Duration} {next : WaitOutcome → Collect α}
    {result : Except EffectError α} (delivered : Delivered timeout chunks trace)
    (returned : Program.After (wait wait_ >>= next).run trace (.done result)) :
    (∃ chunk rest, chunks = chunk :: rest ∧
      ∃ later, Delivered timeout rest later ∧
        Program.After (next (.response chunk)).run later (.done result)) ∨
    (chunks = [] ∧ ∃ later, Delivered timeout [] later ∧
      Program.After (next .timeout).run later (.done result)) := by
  obtain ⟨reply, later, rfl, continued⟩ :=
    @Fallible.after_perform_bind effects EffectError α (.waitResponse wait_) _ _ _ returned
  rcases delivered.waited with ⟨chunk, rest, whole, answered, more⟩ | ⟨none, answered, more⟩
  · subst answered
    exact .inl ⟨chunk, rest, whole, later, more, continued⟩
  · subst answered
    exact .inr ⟨none, later, more, continued⟩

/-- The clock stays before the deadline. -/
theorem after_elapsed_bind {next : Duration → Fallible effects ε α} {result : Except ε α}
    (delivered : Delivered timeout chunks trace)
    (returned : Program.After (effect .elapsed >>= next).run trace (.done result)) :
    ∃ clock later, timeout - clock ≠ 0 ∧ Delivered timeout chunks later ∧
      Program.After (next clock).run later (.done result) := by
  obtain ⟨clock, later, rfl, continued⟩ :=
    @Fallible.after_perform_bind effects ε α .elapsed _ _ _ returned
  obtain ⟨early, more⟩ := delivered.elapsed
  exact ⟨clock, later, Nat.sub_ne_zero_of_lt early, more, continued⟩

/-- What the multipart loop makes of a whole stream. -/
def multipartOutcome (maximumBytes : Nat) (stream : Bytes) : Except EffectError WaitOutcome :=
  if maximumBytes < stream.length then
    .error (.response "response exceeded declared maximum")
  else if stream.isEmpty then
    .ok .timeout
  else
    .ok (.response stream)

/-- The multipart loop has read `bytes`, and the rest of the stream is delivered to it. -/
theorem collectMultipartReads_delivered {idleTimeout : Duration} {maximumBytes reads : Nat}
    {first : Bool} {bytes : Bytes} {result : Except EffectError WaitOutcome}
    (enough : chunks.length < reads) (nonempty : ∀ chunk ∈ chunks, chunk ≠ [])
    (resident : ∀ chunk ∈ chunks, maximumBytes + chunk.length ≤ usizeMax)
    (within : bytes.length ≤ maximumBytes) (delivered : Delivered timeout chunks trace)
    (returned : Program.After
      (collectMultipartReads timeout idleTimeout maximumBytes reads first bytes).run trace
      (.done result)) :
    result = multipartOutcome maximumBytes (bytes ++ chunks.flatten) := by
  induction reads generalizing first bytes chunks trace with
  | zero => exact absurd enough (Nat.not_lt_zero _)
  | succ reads ih =>
      obtain ⟨clock, later, running, delivered, returned⟩ := after_elapsed_bind delivered returned
      simp only [running, ↓reduceIte] at returned
      rcases after_wait_bind delivered returned with
        ⟨chunk, rest, rfl, last, delivered, returned⟩ | ⟨rfl, last, delivered, returned⟩
      · have some : chunk.isEmpty = false :=
          List.isEmpty_eq_false_iff.mpr (nonempty chunk List.mem_cons_self)
        have room := resident chunk List.mem_cons_self
        have summed : checkedAdd bytes.length chunk.length =
            Option.some (bytes.length + chunk.length) := by
          rw [checkedAdd_eq_some]
          exact ⟨(Nat.add_le_add_right within _).trans room, rfl⟩
        simp only [some, summed, Bool.false_eq_true, ↓reduceIte] at returned
        rw [List.flatten_cons, ← List.append_assoc]
        split at returned
        · rename_i exceeds
          cases returned
          have long : maximumBytes < (bytes ++ chunk ++ rest.flatten).length := by
            rw [List.length_append, List.length_append]
            exact exceeds.trans_le (Nat.le_add_right _ _)
          rw [multipartOutcome, if_pos long]
        · rename_i fits
          apply ih (Nat.lt_of_succ_lt_succ enough) _ _ _ delivered returned
          · exact fun other member => nonempty other (List.mem_cons_of_mem _ member)
          · exact fun other member => resident other (List.mem_cons_of_mem _ member)
          · rw [List.length_append]
            exact Nat.not_lt.mp fits
      · cases returned
        rw [List.flatten_nil, List.append_nil, multipartOutcome, if_neg (Nat.not_lt.mpr within)]
        cases bytes with
        | nil => rfl
        | cons byte bytes => rfl

/-- What the fixed-format loop makes of a whole status reply. -/
def statusOutcome (alreadyRetained : Nat) (stream : Bytes) : Except EffectError WaitOutcome :=
  if maxRetainedResponseBytes < alreadyRetained + stream.length then
    .error (.response "retained response bytes exceed executor limit")
  else
    .ok (.response stream)

/-- The fixed-format loop has read `bytes`, and the rest of a status reply is delivered
to it. -/
theorem collectResponseReads_delivered {alreadyRetained reads : Nat} {first : Bool}
    {bytes : Bytes} {result : Except EffectError WaitOutcome} (enough : chunks.length ≤ reads)
    (incomplete : bytes.length < 32) (whole : (bytes ++ chunks.flatten).length = 32)
    (resident : alreadyRetained + 32 ≤ usizeMax) (delivered : Delivered timeout chunks trace)
    (returned : Program.After
      (collectResponseReads timeout .brotherStatus32 alreadyRetained reads first bytes).run trace
      (.done result)) :
    result = statusOutcome alreadyRetained (bytes ++ chunks.flatten) := by
  have more : chunks ≠ [] := by
    intro none
    rw [none, List.flatten_nil, List.append_nil] at whole
    exact incomplete.ne whole
  induction reads generalizing first bytes chunks trace with
  | zero => exact absurd (List.length_eq_zero_iff.mp (Nat.le_zero.mp enough)) more
  | succ reads ih =>
      obtain ⟨clock, later, running, delivered, returned⟩ := after_elapsed_bind delivered returned
      simp only [running, ↓reduceIte] at returned
      rcases after_wait_bind delivered returned with
        ⟨chunk, rest, rfl, last, delivered, returned⟩ | ⟨none, -⟩
      · rw [List.flatten_cons, ← List.append_assoc] at whole ⊢
        have length := whole
        rw [List.length_append, List.length_append] at length
        have machine : alreadyRetained + bytes.length + chunk.length ≤ usizeMax := by omega
        have summed := checkedAdd_bind machine
        simp only [summed] at returned
        split at returned
        · rename_i exceeds
          cases returned
          rw [statusOutcome, if_pos (by omega)]
        · rename_i fits
          simp only [isPhomemo, expectedLength, ↓reduceIte, reduceCtorEq, beq_iff_eq] at returned
          by_cases short : (bytes ++ chunk).length < 32
          · have unfinished : ¬(bytes ++ chunk).length ≥ 32 := Nat.not_le.mpr short
            simp only [unfinished, ↓reduceIte] at returned
            apply ih (Nat.le_of_succ_le_succ enough) short whole delivered returned
            rintro rfl
            rw [List.flatten_nil, List.append_nil] at whole
            exact short.ne whole
          · have finished : (bytes ++ chunk).length ≥ 32 := Nat.not_lt.mp short
            simp only [finished, ↓reduceIte] at returned
            cases returned
            rw [List.length_append] at short
            have ended : rest.flatten = [] := List.length_eq_zero_iff.mp (by omega)
            have fitting : alreadyRetained + (bytes ++ chunk).length ≤ maxRetainedResponseBytes := by
              rw [List.length_append, ← Nat.add_assoc]
              exact Nat.not_lt.mp fits
            rw [ended, List.append_nil, statusOutcome, if_neg (Nat.not_lt.mpr fitting)]
      · exact absurd none more

/-! ## The response actions -/

/-- A collection that has failed ends the action, and one that has not is continued. -/
theorem after_withProgress_bind {collection : Collect WaitOutcome} {progress : Progress}
    {next : WaitOutcome → Exec β} {result : Except ExecuteError β}
    (returned : Program.After (withProgress progress collection >>= next).run trace
      (.done result)) :
    ∃ earlier later outcome, trace = earlier ++ later ∧
      Program.After collection.run earlier (.done outcome) ∧
      match outcome with
      | .ok value => Program.After (next value).run later (.done result)
      | .error error => result = .error (responseEffectError progress error) := by
  rw [ExceptT.run_bind] at returned
  obtain ⟨collecting, later, attached, rfl, collects, continued⟩ := returned.of_bind
  rw [withProgress, ExceptT.run_mk] at collects
  obtain ⟨earlier, nothing, outcome, rfl, collected, attaches⟩ := collects.of_bind
  cases outcome with
  | ok value =>
      cases attaches
      exact ⟨earlier, later, .ok value, by simp, collected, continued⟩
  | error error =>
      cases attaches
      cases continued
      exact ⟨earlier, [], .error error, by simp, collected, rfl⟩

/-- A reply that was collected whole is validated and retained. -/
def kept (validation : ResponseValidation) (stream : Bytes) (progress : Progress) :
    Except ExecuteError Progress :=
  (validate validation stream progress).map fun _ =>
    { progress with responses := progress.responses ++ [stream] }

theorem after_retainResponse {validation : ResponseValidation} {stream : Bytes}
    {progress : Progress} {result : Except ExecuteError Progress}
    (returned : Program.After (retainResponse validation stream progress).run trace
      (.done result)) : result = kept validation stream progress := by
  unfold retainResponse at returned
  unfold kept
  cases validated : validate validation stream progress with
  | ok value =>
      rw [validated] at returned
      cases returned
      rfl
  | error error =>
      rw [validated] at returned
      cases returned
      rfl

/-- What a collection action makes of a whole stream. -/
def collected (maximumBytes : Nat) (validation : ResponseValidation) (stream : Bytes)
    (progress : Progress) : Except ExecuteError Progress :=
  match multipartOutcome maximumBytes stream with
  | .error error => .error (responseEffectError progress error)
  | .ok (.response bytes) => kept validation bytes progress
  | .ok _ => .error (.timeout progress)

variable {timing : ReferenceTiming} {index timeoutMs : Nat} {progress : Progress}
variable {stream : Bytes}

theorem collectResponse_arrives {idleTimeoutMs maximumBytes : Nat}
    {validation : ResponseValidation} {result : Except ExecuteError Progress}
    (bounded : maximumBytes ≤ maxRetainedResponseBytes) (splits : Splits stream chunks)
    (few : chunks.length < maxMultipartReads)
    (arrives : Arrives (fromMillis timeoutMs) chunks
      (executeAction timing index
        (.collectResponse timeoutMs idleTimeoutMs maximumBytes validation) progress) result) :
    result = collected maximumBytes validation stream progress := by
  obtain ⟨trace, delivered, returned⟩ := arrives
  obtain ⟨earlier, later, outcome, rfl, collects, continued⟩ := after_withProgress_bind returned
  have room : ∀ chunk ∈ chunks, maximumBytes + chunk.length ≤ usizeMax := by
    intro chunk member
    have memory : maxRetainedResponseBytes + isizeMax ≤ usizeMax := by decide
    exact (Nat.add_le_add bounded (splits.resident chunk member)).trans memory
  have read := collectMultipartReads_delivered few splits.nonempty room (Nat.zero_le _)
    delivered.initial collects
  rw [List.nil_append, splits.whole] at read
  rw [collected, ← read]
  cases outcome with
  | error error => exact continued
  | ok outcome =>
      cases outcome with
      | response bytes => exact after_retainResponse continued
      | timeout =>
          cases continued
          rfl
      | unavailable =>
          cases continued
          rfl

/-- What a status wait makes of a whole reply. -/
def statusCollected (stream : Bytes) (progress : Progress) : Except ExecuteError Progress :=
  match statusOutcome (retainedBytes progress) stream with
  | .error error => .error (responseEffectError progress error)
  | .ok _ => kept .brotherStatus32 stream progress

theorem waitForResponse_arrives {fallbackDelayMs : Nat} {result : Except ExecuteError Progress}
    (status : stream.length = 32) (resident : retainedBytes progress + 32 ≤ usizeMax)
    (splits : Splits stream chunks) (few : chunks.length ≤ maxFixedResponseReads)
    (arrives : Arrives (fromMillis timeoutMs) chunks
      (executeAction timing index (.waitForResponse timeoutMs fallbackDelayMs .brotherStatus32)
        progress) result) :
    result = statusCollected stream progress := by
  obtain ⟨trace, delivered, returned⟩ := arrives
  obtain ⟨earlier, later, outcome, rfl, collects, continued⟩ := after_withProgress_bind returned
  have whole : ([] ++ chunks.flatten).length = 32 := by
    rw [List.nil_append, splits.whole]
    exact status
  have read := collectResponseReads_delivered few (by decide) whole resident delivered.initial
    collects
  rw [List.nil_append, splits.whole] at read
  cases outcome with
  | error error =>
      rw [statusCollected, ← read]
      exact continued
  | ok outcome =>
      rw [statusCollected, ← read]
      unfold statusOutcome at read
      split at read
      · cases read
      · cases read
        exact after_retainResponse continued

/-- A collection reports the over-maximum error for the streams that are too long. -/
theorem collected_eq_exceeded_iff {maximumBytes : Nat} {validation : ResponseValidation} :
    collected maximumBytes validation stream progress =
        .error (.response progress "response exceeded declared maximum") ↔
      maximumBytes < stream.length := by
  constructor
  · intro exceeded
    by_contra fits
    rw [collected, multipartOutcome, if_neg fits] at exceeded
    by_cases empty : stream.isEmpty = true
    · rw [if_pos empty] at exceeded
      cases exceeded
    · rw [if_neg empty] at exceeded
      simp only [kept, validate] at exceeded
      split at exceeded
      · cases exceeded
      · change Except.error (ExecuteError.response progress _) = _ at exceeded
        rw [Except.error.injEq, ExecuteError.response.injEq] at exceeded
        exact absurd exceeded.2 (by decide)
  · intro long
    rw [collected, multipartOutcome, if_pos long]
    rfl

end Runs

/-- Segmentation independence.  However a stream is split into fewer than 4096
non-empty chunks, delivered in time and followed by an idle timeout, a collection that
passes preflight has one outcome, and it is the over-maximum error for the streams above
its maximum.  However a status reply of 32 bytes is split into at most 16 non-empty
chunks, a wait for it has one outcome. -/
theorem response_segmentation_independent (timing : ReferenceTiming) (index : Nat)
    (progress : Progress) (stream : Bytes) (timeoutMs : Nat) (positive : 0 < timeoutMs) :
    (∀ idleTimeoutMs maximumBytes validation, maximumBytes ≤ maxRetainedResponseBytes →
      ∃ outcome : Except ExecuteError Progress,
        (∀ chunks, Splits stream chunks → chunks.length < 4096 → ∀ result,
          Arrives (fromMillis timeoutMs) chunks
            (executeAction timing index
              (.collectResponse timeoutMs idleTimeoutMs maximumBytes validation) progress)
            result ↔ result = outcome) ∧
        (outcome = .error (.response progress "response exceeded declared maximum") ↔
          maximumBytes < stream.length)) ∧
    (∀ fallbackDelayMs, stream.length = 32 → retainedBytes progress + 32 ≤ usizeMax →
      ∃ outcome : Except ExecuteError Progress,
        ∀ chunks, Splits stream chunks → chunks.length ≤ 16 → ∀ result,
          Arrives (fromMillis timeoutMs) chunks
            (executeAction timing index
              (.waitForResponse timeoutMs fallbackDelayMs .brotherStatus32) progress)
            result ↔ result = outcome) := by
  have running : 0 < fromMillis timeoutMs := Nat.mul_pos positive (by decide)
  constructor
  · intro idleTimeoutMs maximumBytes validation bounded
    refine ⟨collected maximumBytes validation stream progress, ?_, collected_eq_exceeded_iff⟩
    intro chunks splits few result
    apply arrives_iff running
    intro other arrives
    exact collectResponse_arrives bounded splits few arrives
  · intro fallbackDelayMs status resident
    refine ⟨statusCollected stream progress, ?_⟩
    intro chunks splits few result
    apply arrives_iff running
    intro other arrives
    exact waitForResponse_arrives status resident splits few arrives

/-- A scan result that arrives at once or in two chunks, and a status reply that arrives
in halves or at once. -/
theorem response_segmentation_independent_replies :
    (∃ outcome, Arrives (fromMillis 1000) [asBytes "VAP,network"]
        (executeAction .preserve 0 (.collectResponse 1000 1 11 .brotherWifiScan) {}) outcome ∧
      Arrives (fromMillis 1000) [asBytes "VA", asBytes "P,network"]
        (executeAction .preserve 0 (.collectResponse 1000 1 11 .brotherWifiScan) {}) outcome) ∧
    (∃ outcome, Arrives (fromMillis 1000) [List.replicate 16 0x80, List.replicate 16 0x80]
        (executeAction .preserve 0 (.waitForResponse 1000 0 .brotherStatus32) {}) outcome ∧
      Arrives (fromMillis 1000) [List.replicate 32 0x80]
        (executeAction .preserve 0 (.waitForResponse 1000 0 .brotherStatus32) {}) outcome) := by
  constructor
  · obtain ⟨outcome, same, -⟩ := (response_segmentation_independent .preserve 0 {}
      (asBytes "VAP,network") 1000 (by decide)).1 1 11 .brotherWifiScan (by decide)
    have whole : Splits (asBytes "VAP,network") [asBytes "VAP,network"] :=
      ⟨by decide, by decide, by decide⟩
    have halves : Splits (asBytes "VAP,network") [asBytes "VA", asBytes "P,network"] :=
      ⟨by decide, by decide, by decide⟩
    exact ⟨outcome, (same _ whole (by decide) _).mpr rfl, (same _ halves (by decide) _).mpr rfl⟩
  · obtain ⟨outcome, same⟩ := (response_segmentation_independent .preserve 0 {}
      (List.replicate 32 0x80) 1000 (by decide)).2 0 (by decide) (by decide)
    have halves : Splits (List.replicate 32 0x80)
        [List.replicate 16 0x80, List.replicate 16 0x80] := ⟨by decide, by decide, by decide⟩
    have whole : Splits (List.replicate 32 0x80) [List.replicate 32 0x80] :=
      ⟨by decide, by decide, by decide⟩
    exact ⟨outcome, (same _ halves (by decide) _).mpr rfl, (same _ whole (by decide) _).mpr rfl⟩

end PrinterSdk.Executor
