import PrinterSdk.Brother.WirelessToken
import PrinterSdk.Executor.Segmentation
import PrinterSdk.Native.BrotherSettings

/-!
# Wireless settings and the chunks of a reply

The reader of a reply stops at the first chunk after which the requested OID has a
value.  Which beginning of the reply it decodes is therefore up to the transport.
-/

namespace PrinterSdk.Native

open PrinterSdk.Data PrinterSdk.Interaction PrinterSdk.Executor PrinterSdk.Discovery
open PrinterSdk.Brother

/-- The transport takes the inquiry and hands over the chunks, one for each wait, before
the timeout of the reader. -/
inductive Supplied (field : WirelessField) : List Bytes → List (Event sessionOperations) → Prop where
  | start (chunks : List Bytes) : Supplied field chunks []
  | limit {chunks : List Bytes} {trace : List (Event sessionOperations)} (limit : Nat) :
      field.command.length ≤ limit → Supplied field chunks trace →
      Supplied field chunks (⟨.commandLimit, limit⟩ :: trace)
  | write {chunks : List Bytes} {trace : List (Event sessionOperations)} (bytes : Bytes) :
      Supplied field chunks trace → Supplied field chunks (⟨.write bytes, .ok ()⟩ :: trace)
  | delay {chunks : List Bytes} {trace : List (Event sessionOperations)} (milliseconds : Nat) :
      Supplied field chunks trace → Supplied field chunks (⟨.delay milliseconds, ()⟩ :: trace)
  | clock {chunks : List Bytes} {trace : List (Event sessionOperations)} (clock : Duration) :
      clock < objbrnetTimeout → Supplied field chunks trace →
      Supplied field chunks (⟨.elapsed, clock⟩ :: trace)
  | chunk {chunks : List Bytes} {trace : List (Event sessionOperations)} (timeoutMs : Nat)
      (chunk : Bytes) : Supplied field chunks trace →
      Supplied field (chunk :: chunks) (⟨.waitResponse timeoutMs, .ok (.response chunk)⟩ :: trace)

/-- Before that, it hands over stale input of at most `room` bytes, and then nothing. -/
inductive Drained (field : WirelessField) (chunks : List Bytes) :
    Nat → List (Event sessionOperations) → Prop where
  | start (room : Nat) : Drained field chunks room []
  | stale {room : Nat} {trace : List (Event sessionOperations)} (timeoutMs : Nat)
      (bytes : Bytes) : bytes.length ≤ room →
      Drained field chunks (room - bytes.length) trace →
      Drained field chunks room (⟨.waitResponse timeoutMs, .ok (.response bytes)⟩ :: trace)
  | quiet {room : Nat} {trace : List (Event sessionOperations)} (timeoutMs : Nat)
      (outcome : WaitOutcome) : outcome = .timeout ∨ outcome = .unavailable →
      Supplied field chunks trace →
      Drained field chunks room (⟨.waitResponse timeoutMs, .ok outcome⟩ :: trace)

/-- A retrieval to which the chunks are delivered returns the observation. -/
def Observes (field : WirelessField) (chunks : List Bytes)
    (observation : BrotherSettingObservation) : Prop :=
  ∃ rounds trace, Drained field chunks maxDrainBytes trace ∧
    Program.After (retrieveWirelessSetting rounds field) trace (.done observation)

/-- A program to which the chunks are handed over returns the result. -/
def Returns {α : Type} (field : WirelessField) (chunks : List Bytes)
    (program : Program sessionOperations α) (result : α) : Prop :=
  ∃ trace, Supplied field chunks trace ∧ Program.After program trace (.done result)

/-! ## One operation -/

section Operations

variable {α β : Type} {field : WirelessField} {chunks : List Bytes} {result : β}
variable {continued : Except String α → Program sessionOperations β}

theorem returns_done {value : β} :
    Returns field chunks (.done value) result ↔ result = value := by
  constructor
  · rintro ⟨trace, _, returned⟩
    cases returned
    rfl
  · rintro rfl
    exact ⟨[], .start chunks, .refl _⟩

theorem returns_limit {next : Nat → Program sessionOperations β} :
    Returns field chunks (@Program.perform sessionOperations .commandLimit >>= next) result ↔
      ∃ limit, field.command.length ≤ limit ∧ Returns field chunks (next limit) result := by
  change Returns field chunks (.ask .commandLimit next) result ↔ _
  constructor
  · rintro ⟨trace, supplied, returned⟩
    cases returned with
    | step reply returned =>
        cases supplied with
        | limit _ fits supplied => exact ⟨reply, fits, _, supplied, returned⟩
  · rintro ⟨limit, fits, trace, supplied, returned⟩
    exact ⟨_, .limit limit fits supplied, .step _ returned⟩

theorem returns_write {bytes : Bytes} {next : Unit → Session α} :
    Returns field chunks ((writeBytes bytes >>= next).run >>= continued) result ↔
      Returns field chunks ((next ()).run >>= continued) result := by
  constructor
  · rintro ⟨trace, supplied, returned⟩
    change Program.After (@Program.ask sessionOperations _ (SessionOperation.write bytes) _) trace _ at returned
    cases returned with
    | step reply returned =>
        cases supplied with
        | write _ supplied => exact ⟨_, supplied, returned⟩
  · rintro ⟨trace, supplied, returned⟩
    refine ⟨_, .write bytes supplied, ?_⟩
    change Program.After (@Program.ask sessionOperations _ (SessionOperation.write bytes) _) _ _
    exact .step _ returned

theorem returns_delay {milliseconds : Nat} {next : Unit → Session α} :
    Returns field chunks ((operate (.delay milliseconds) >>= next).run >>= continued) result ↔
      Returns field chunks ((next ()).run >>= continued) result := by
  constructor
  · rintro ⟨trace, supplied, returned⟩
    change Program.After (@Program.ask sessionOperations _ (SessionOperation.delay milliseconds) _) trace _ at returned
    cases returned with
    | step reply returned =>
        cases supplied with
        | delay _ supplied => exact ⟨_, supplied, returned⟩
  · rintro ⟨trace, supplied, returned⟩
    refine ⟨_, .delay milliseconds supplied, ?_⟩
    change Program.After (@Program.ask sessionOperations _ (SessionOperation.delay milliseconds) _) _ _
    exact .step _ returned

theorem returns_elapsed {next : Duration → Session α} :
    Returns field chunks ((operate .elapsed >>= next).run >>= continued) result ↔
      ∃ clock, clock < objbrnetTimeout ∧
        Returns field chunks ((next clock).run >>= continued) result := by
  constructor
  · rintro ⟨trace, supplied, returned⟩
    change Program.After (@Program.ask sessionOperations _ SessionOperation.elapsed _) trace _ at returned
    cases returned with
    | step reply returned =>
        cases supplied with
        | clock _ early supplied => exact ⟨reply, early, _, supplied, returned⟩
  · rintro ⟨clock, early, trace, supplied, returned⟩
    refine ⟨_, .clock clock early supplied, ?_⟩
    change Program.After (@Program.ask sessionOperations _ SessionOperation.elapsed _) _ _
    exact .step _ returned

theorem returns_wait {timeoutMs : Nat} {next : WaitOutcome → Session α} :
    Returns field chunks ((waitFor timeoutMs >>= next).run >>= continued) result ↔
      ∃ chunk rest, chunks = chunk :: rest ∧
        Returns field rest ((next (.response chunk)).run >>= continued) result := by
  constructor
  · rintro ⟨trace, supplied, returned⟩
    change Program.After (@Program.ask sessionOperations _ (SessionOperation.waitResponse timeoutMs) _) trace _ at returned
    cases returned with
    | step reply returned =>
        cases supplied with
        | chunk _ chunk supplied => exact ⟨chunk, _, rfl, _, supplied, returned⟩
  · rintro ⟨chunk, rest, rfl, trace, supplied, returned⟩
    refine ⟨_, .chunk timeoutMs chunk supplied, ?_⟩
    change Program.After (@Program.ask sessionOperations _ (SessionOperation.waitResponse timeoutMs) _) _ _
    exact .step _ returned

end Operations

/-! ## The reader -/

section Reader

variable {β : Type} {field : WirelessField} {value lineBreak response : Bytes}
variable {chunks : List Bytes} {result : β}
variable {continued : Except String Bytes → Program sessionOperations β}

/-- One turn of the reader takes one chunk. -/
theorem returns_readMatching {rounds : Nat} {chunk : Bytes} :
    Returns field (chunk :: chunks)
        ((readMatching field (rounds + 1) response).run >>= continued) result ↔
      Returns field chunks
        ((if saturatingAdd response.length chunk.length > maxObjbrnetBytes then
            throw "response exceeded 4000-byte limit"
          else if (parseOidValue (response ++ chunk) field.oid.toList).isSome then
            return response ++ chunk
          else if answersOther field (response ++ chunk) then
            readMatching field rounds []
          else
            readMatching field rounds (response ++ chunk) : Session Bytes).run >>= continued)
        result := by
  rw [readMatching, returns_elapsed]
  constructor
  · rintro ⟨clock, early, returned⟩
    simp only [early, ↓reduceIte] at returned
    obtain ⟨clock, _, returned⟩ := returns_elapsed.mp returned
    obtain ⟨_, _, same, returned⟩ := returns_wait.mp returned
    cases same
    exact returned
  · intro returned
    have early : (0 : Nat) < objbrnetTimeout := by decide
    refine ⟨(0 : Nat), early, ?_⟩
    simp only [early, ↓reduceIte]
    apply returns_elapsed.mpr
    exact ⟨(0 : Nat), early, returns_wait.mpr ⟨chunk, chunks, rfl, returned⟩⟩

theorem not_returns_exhausted :
    ¬Returns field chunks ((exhausted : Session Bytes).run >>= continued) result := by
  rintro ⟨trace, supplied, returned⟩
  change Program.After (@Program.ask sessionOperations _ SessionOperation.exhausted _) trace _
    at returned
  cases returned with
  | step reply returned => cases reply

/-- The chunks up to the one in which the colon of the reply arrives. -/
def heard (field : WirelessField) : Bytes → List Bytes → Bytes
  | response, [] => response
  | response, chunk :: chunks =>
      if (replyHeader field).length ≤ (response ++ chunk).length then response ++ chunk
      else heard field (response ++ chunk) chunks

theorem parseOidValue_isSome (free : LineFree value) (ended : lineBreak ∈ lineBreaks)
    (begins : response <+: completeReply field value lineBreak)
    (long : (replyHeader field).length ≤ response.length) :
    (parseOidValue response field.oid.toList).isSome = true := by
  obtain ⟨beginning, tail, rfl, inside, ends⟩ := exists_line ended begins long
  rw [parseOidValue_header field (free.of_beginning inside) ends]
  rfl

/-- A turn on a beginning of a reply: it is returned once the colon has arrived. -/
theorem returns_turn {rounds : Nat} {chunk : Bytes} (free : LineFree value)
    (ended : lineBreak ∈ lineBreaks)
    (small : (completeReply field value lineBreak).length ≤ maxObjbrnetBytes)
    (begins : response ++ chunk <+: completeReply field value lineBreak) :
    Returns field (chunk :: chunks)
        ((readMatching field (rounds + 1) response).run >>= continued) result ↔
      Returns field chunks
        (if (replyHeader field).length ≤ (response ++ chunk).length then
          continued (.ok (response ++ chunk))
        else (readMatching field rounds (response ++ chunk)).run >>= continued) result := by
  have fits : ¬saturatingAdd response.length chunk.length > maxObjbrnetBytes := by
    have size := begins.length_le.trans small
    rw [List.length_append] at size
    exact Nat.not_lt.mpr ((Nat.min_le_left _ _).trans size)
  rw [returns_readMatching, if_neg fits]
  by_cases long : (replyHeader field).length ≤ (response ++ chunk).length
  · rw [if_pos (parseOidValue_isSome free ended begins long), if_pos long]
    exact Iff.rfl
  · have unread := parseOidValue_short begins (Nat.not_le.mp long)
    have quiet : answersOther field (response ++ chunk) = false := by
      unfold answersOther
      rw [List.any_eq_false]
      intro other _
      rw [unread]
      simp
    have silent : ¬(parseOidValue (response ++ chunk) field.oid.toList).isSome = true := by
      rw [unread]
      simp
    rw [if_neg silent, quiet, if_neg Bool.false_ne_true, if_neg long]

/-- While the colon is missing, more chunks of the reply follow. -/
theorem chunks_ne_nil (whole : response ++ chunks.flatten = completeReply field value lineBreak)
    (short : response.length < (replyHeader field).length) : chunks ≠ [] := by
  rintro rfl
  rw [List.flatten_nil, List.append_nil] at whole
  rw [whole, completeReply, List.length_append] at short
  exact absurd short (Nat.not_lt.mpr (Nat.le_add_right _ _))

/-- The reader returns what it has heard, and what follows the reader observes it. -/
theorem returns_heard {observe : Bytes → β} (free : LineFree value)
    (ended : lineBreak ∈ lineBreaks)
    (small : (completeReply field value lineBreak).length ≤ maxObjbrnetBytes)
    (answers : ∀ response, continued (.ok response) = .done (observe response)) {rounds : Nat}
    (whole : response ++ chunks.flatten = completeReply field value lineBreak)
    (short : response.length < (replyHeader field).length)
    (returned : Returns field chunks ((readMatching field rounds response).run >>= continued)
      result) : result = observe (heard field response chunks) := by
  induction rounds generalizing response chunks with
  | zero => exact absurd returned not_returns_exhausted
  | succ rounds ih =>
      obtain ⟨chunk, rest, rfl⟩ := List.exists_cons_of_ne_nil (chunks_ne_nil whole short)
      rw [List.flatten_cons, ← List.append_assoc] at whole
      have begins : response ++ chunk <+: completeReply field value lineBreak := ⟨_, whole⟩
      rw [returns_turn free ended small begins] at returned
      by_cases long : (replyHeader field).length ≤ (response ++ chunk).length
      · rw [if_pos long, answers] at returned
        rw [heard, if_pos long]
        exact returns_done.mp returned
      · rw [if_neg long] at returned
        rw [heard, if_neg long]
        exact ih whole (Nat.not_le.mp long) returned

/-- Whatever the chunks are, it does return. -/
theorem heard_returns {observe : Bytes → β} (free : LineFree value)
    (ended : lineBreak ∈ lineBreaks)
    (small : (completeReply field value lineBreak).length ≤ maxObjbrnetBytes)
    (answers : ∀ response, continued (.ok response) = .done (observe response))
    (whole : response ++ chunks.flatten = completeReply field value lineBreak)
    (short : response.length < (replyHeader field).length) :
    Returns field chunks ((readMatching field chunks.length response).run >>= continued)
      (observe (heard field response chunks)) := by
  induction chunks generalizing response with
  | nil => exact absurd rfl (chunks_ne_nil whole short)
  | cons chunk rest ih =>
      rw [List.flatten_cons, ← List.append_assoc] at whole
      have begins : response ++ chunk <+: completeReply field value lineBreak := ⟨_, whole⟩
      rw [List.length_cons, returns_turn free ended small begins]
      by_cases long : (replyHeader field).length ≤ (response ++ chunk).length
      · rw [heard, if_pos long, if_pos long, answers]
        exact returns_done.mpr rfl
      · rw [heard, if_neg long, if_neg long]
        exact ih whole (Nat.not_le.mp long)

/-- What has been heard decodes like a beginning of the value. -/
theorem decodeField_heard (free : LineFree value) (ended : lineBreak ∈ lineBreaks)
    (whole : response ++ chunks.flatten = completeReply field value lineBreak)
    (short : response.length < (replyHeader field).length) :
    ∃ beginning, beginning <+: value ++ [quoteMark] ∧
      decodeField field (heard field response chunks) =
        decodeField field (replyHeader field ++ beginning) := by
  induction chunks generalizing response with
  | nil => exact absurd rfl (chunks_ne_nil whole short)
  | cons chunk rest ih =>
      rw [List.flatten_cons, ← List.append_assoc] at whole
      by_cases long : (replyHeader field).length ≤ (response ++ chunk).length
      · rw [heard, if_pos long]
        obtain ⟨beginning, tail, split, inside, ends⟩ := exists_line ended ⟨_, whole⟩ long
        refine ⟨beginning, inside, ?_⟩
        rw [split, decodeField_line field (free.of_beginning inside) ends]
      · rw [heard, if_neg long]
        exact ih whole (Nat.not_le.mp long)

end Reader

/-! ## A whole retrieval -/

section Retrieval

variable {β : Type} {field : WirelessField} {value lineBreak : Bytes} {chunks : List Bytes}
variable {room drained : Nat} {trace : List (Event sessionOperations)} {result : β}
variable {next : Except String Unit → Program sessionOperations β}

theorem drained_wait {timeoutMs : Nat} {body : WaitOutcome → Session Unit}
    (discards : Drained field chunks room trace)
    (returned : Program.After ((waitFor timeoutMs >>= body).run >>= next) trace (.done result)) :
    (∃ bytes later, bytes.length ≤ room ∧ Drained field chunks (room - bytes.length) later ∧
      Program.After ((body (.response bytes)).run >>= next) later (.done result)) ∨
    ∃ outcome, (outcome = .timeout ∨ outcome = .unavailable) ∧
      Returns field chunks ((body outcome).run >>= next) result := by
  change Program.After (@Program.ask sessionOperations _
    (SessionOperation.waitResponse timeoutMs) _) trace _ at returned
  cases returned with
  | step reply returned =>
      cases discards with
      | stale _ bytes fits discards => exact .inl ⟨bytes, _, fits, discards, returned⟩
      | quiet _ outcome ended supplied => exact .inr ⟨outcome, ended, _, supplied, returned⟩

/-- Stale input within the limit is discarded, and the retrieval goes on. -/
theorem returns_of_drained {rounds : Nat} (count : drained + room = maxDrainBytes)
    (discards : Drained field chunks room trace)
    (returned : Program.After ((drainReads rounds drained).run >>= next) trace (.done result)) :
    Returns field chunks (next (.ok ())) result := by
  induction rounds generalizing drained room trace with
  | zero =>
      change Program.After (@Program.ask sessionOperations _ SessionOperation.exhausted _) trace _
        at returned
      cases returned with
      | step reply returned => cases reply
  | succ rounds ih =>
      rcases drained_wait discards returned with
        ⟨bytes, later, fits, discards, returned⟩ | ⟨outcome, ended, returned⟩
      · have total : drained + bytes.length ≤ maxDrainBytes := by omega
        have machine : maxDrainBytes ≤ usizeMax := by decide
        have summed : checkedAdd drained bytes.length = some (drained + bytes.length) :=
          checkedAdd_eq_some.mpr ⟨total.trans machine, rfl⟩
        simp only [summed, Nat.not_lt.mpr total, ↓reduceIte] at returned
        exact ih (by omega) discards returned
      · rcases ended with rfl | rfl
        · exact returned
        · exact returned

/-- The retrieval may go on at once. -/
theorem drained_of_returns (rounds : Nat) (returns : Returns field chunks (next (.ok ())) result) :
    ∃ trace, Drained field chunks room trace ∧
      Program.After ((drainReads (rounds + 1) drained).run >>= next) trace (.done result) := by
  obtain ⟨trace, supplied, returned⟩ := returns
  refine ⟨_, .quiet drainTimeoutMs .timeout (.inl rfl) supplied, ?_⟩
  change Program.After (@Program.ask sessionOperations _
    (SessionOperation.waitResponse drainTimeoutMs) _) _ _
  exact .step _ returned

/-- With the limit admitting the inquiry, a retrieval is one attempt of the reader. -/
theorem returns_retrieveField {rounds : Nat} {observation : BrotherSettingObservation} :
    Returns field chunks (retrieveField rounds field) observation ↔
      Returns field chunks ((readMatching field rounds []).run >>= fun
        | .ok response => return observedResponse field response
        | .error error => attemptsField rounds field 1 error) observation := by
  have attempt : Returns field chunks (attemptsField rounds field maxAttempts "response timed out")
        observation ↔
      Returns field chunks ((readMatching field rounds []).run >>= fun
        | .ok response => return observedResponse field response
        | .error error => attemptsField rounds field 1 error) observation := by
    rw [maxAttempts, attemptsField, attemptField]
    apply returns_write.trans
    apply returns_write.trans
    apply returns_write.trans
    apply returns_delay.trans
    exact returns_write
  rw [retrieveField, returns_limit, ← attempt]
  constructor
  · rintro ⟨limit, fits, returned⟩
    rwa [if_neg (Nat.not_lt.mpr fits)] at returned
  · intro returned
    refine ⟨field.command.length, le_rfl, ?_⟩
    rwa [if_neg (Nat.lt_irrefl _)]

/-- A reply in chunks is observed as what the reader hears of it. -/
theorem observes_iff (free : LineFree value) (ended : lineBreak ∈ lineBreaks)
    (small : (completeReply field value lineBreak).length ≤ maxObjbrnetBytes)
    (whole : chunks.flatten = completeReply field value lineBreak)
    (observation : BrotherSettingObservation) :
    Observes field chunks observation ↔
      observation = observedResponse field (heard field [] chunks) := by
  have short : ([] : Bytes).length < (replyHeader field).length := Nat.zero_lt_succ _
  have begun : [] ++ chunks.flatten = completeReply field value lineBreak := whole
  constructor
  · rintro ⟨rounds, trace, discards, returned⟩
    have returns := returns_of_drained (Nat.zero_add _) discards returned
    exact returns_heard free ended small (fun _ => rfl) begun short
      (returns_retrieveField.mp returns)
  · rintro rfl
    have returns : Returns field chunks (retrieveField chunks.length field)
        (observedResponse field (heard field [] chunks)) :=
      returns_retrieveField.mpr (heard_returns free ended small (fun _ => rfl) begun short)
    obtain ⟨chunk, rest, rfl⟩ := List.exists_cons_of_ne_nil (chunks_ne_nil begun short)
    refine ⟨rest.length + 1, ?_⟩
    exact drained_of_returns rest.length returns

end Retrieval

/-- The value that a retrieval decodes is the same for every split of the reply. -/
def SplitIndependent (field : WirelessField) (reply : Bytes) : Prop :=
  ∀ chunks others observation observed, Splits reply chunks → Splits reply others →
    Observes field chunks observation → Observes field others observed →
    observation.value = observed.value

/-- A chunk may end anywhere after the colon. -/
theorem splits_beginning {field : WirelessField} {value lineBreak beginning : Bytes}
    (ended : lineBreak ∈ lineBreaks)
    (small : (completeReply field value lineBreak).length ≤ maxObjbrnetBytes)
    (begins : beginning <+: value ++ [quoteMark]) :
    ∃ rest, Splits (completeReply field value lineBreak)
      [replyHeader field ++ beginning, rest] := by
  obtain ⟨more, split⟩ := begins
  have whole : completeReply field value lineBreak =
      (replyHeader field ++ beginning) ++ (more ++ lineBreak) := by
    rw [List.append_assoc, ← List.append_assoc beginning, split, completeReply]
    simp
  have resident : maxObjbrnetBytes ≤ isizeMax := by decide
  have some : lineBreak ≠ [] := by
    rintro rfl
    exact absurd ended (by decide)
  refine ⟨more ++ lineBreak, ?_, ?_, ?_⟩
  · rw [whole]
    simp
  · intro chunk member
    rcases List.mem_cons.mp member with rfl | last
    · simp [replyHeader]
    · rw [List.mem_singleton.mp last]
      simp [some]
  · intro chunk member
    have within : chunk.length ≤ (completeReply field value lineBreak).length := by
      rw [whole, List.length_append]
      rcases List.mem_cons.mp member with rfl | last
      · exact Nat.le_add_right _ _
      · rw [List.mem_singleton.mp last]
        exact Nat.le_add_left _ _
    exact within.trans (small.trans resident)

theorem heard_beginning (field : WirelessField) (beginning : Bytes) (rest : List Bytes) :
    heard field [] ((replyHeader field ++ beginning) :: rest) = replyHeader field ++ beginning := by
  rw [heard, List.nil_append, if_pos]
  rw [List.length_append]
  exact Nat.le_add_right _ _

/-- A retrieval is independent of the chunks just for the values without a token.  An
SSID may only consist of blanks and then quotes. -/
theorem wireless_setting_split_independent (field : WirelessField) (value lineBreak : Bytes)
    (free : LineFree value) (ended : lineBreak ∈ lineBreaks)
    (small : (completeReply field value lineBreak).length ≤ maxObjbrnetBytes) :
    SplitIndependent field (completeReply field value lineBreak) ↔ Stable field value := by
  rw [← stable_iff free]
  constructor
  · intro independent beginning begins
    obtain ⟨rest, cut⟩ := splits_beginning ended small begins
    obtain ⟨others, bare⟩ :=
      @splits_beginning field value lineBreak [] ended small List.nil_prefix
    have same := independent _ _ _ _ cut bare
      ((observes_iff free ended small cut.whole _).mpr rfl)
      ((observes_iff free ended small bare.whole _).mpr rfl)
    rw [heard_beginning, heard_beginning, List.append_nil] at same
    exact same
  · intro agree
    have alike : ∀ chunks observation, Splits (completeReply field value lineBreak) chunks →
        Observes field chunks observation →
        observation.value = decodeField field (replyHeader field) := by
      intro chunks observation cut observes
      have short : ([] : Bytes).length < (replyHeader field).length := Nat.zero_lt_succ _
      obtain ⟨beginning, begins, decoded⟩ := decodeField_heard free ended cut.whole short
      rw [(observes_iff free ended small cut.whole observation).mp observes]
      exact decoded.trans (agree beginning begins)
    intro chunks others observation observed cut other observes observesOther
    rw [alike chunks observation cut observes, alike others observed other observesOther]

/-- A state that is no digit gives the field no value, however the reply is cut. -/
theorem wireless_setting_split_independent_unknown :
    SplitIndependent .infrastructure
      (completeReply .infrastructure (asBytes "unknown") [0x0d, 0x0a]) := by
  have inLine : ∀ byte ∈ asBytes "unknown", ¬isLineEnd byte := by decide +kernel
  apply (wireless_setting_split_independent .infrastructure (asBytes "unknown") [0x0d, 0x0a]
    inLine (by decide) (by decide +kernel)).mpr
  have opened : openedText .infrastructure (lossy (asBytes "unknown")) = "unknown".toList := by
    decide +kernel
  rintro ⟨token, isToken, begins⟩
  rw [opened] at begins
  cases isToken with
  | infrastructure isDigit =>
      rcases isDigit with rfl | rfl
      · revert begins
        decide
      · revert begins
        decide

/-- `-54-65-73-74`, the SSID `Test` as the printer encodes it. -/
def testSsid : Bytes := asBytes "-54-65-73-74"

/-- The reply in one chunk gives the SSID `Test`; with a first chunk that ends after
`-54-65`, it gives `Te`. -/
theorem truncated_ssid_observed : ∃ chunks others observation observed,
    Splits (completeReply .ssid testSsid [0x0d, 0x0a]) chunks ∧
    Splits (completeReply .ssid testSsid [0x0d, 0x0a]) others ∧
    Observes .ssid chunks observation ∧ Observes .ssid others observed ∧
    observation.value = some (.text "Test") ∧ observed.value = some (.text "Te") := by
  have inLine : ∀ byte ∈ testSsid, ¬isLineEnd byte := by decide +kernel
  have free : LineFree testSsid := inLine
  have ended : [0x0d, 0x0a] ∈ lineBreaks := by decide
  have small : (completeReply .ssid testSsid [0x0d, 0x0a]).length ≤ maxObjbrnetBytes := by
    decide +kernel
  obtain ⟨rest, whole⟩ :=
    @splits_beginning .ssid testSsid [0x0d, 0x0a] _ ended small List.prefix_rfl
  obtain ⟨others, early⟩ :=
    @splits_beginning .ssid testSsid [0x0d, 0x0a] (asBytes "-54-65") ended small (by decide +kernel)
  refine ⟨_, _, _, _, whole, early, (observes_iff free ended small whole.whole _).mpr rfl,
    (observes_iff free ended small early.whole _).mpr rfl, ?_, ?_⟩
  · rw [heard_beginning]
    decide +kernel
  · rw [heard_beginning]
    decide +kernel

end PrinterSdk.Native
