import PrinterSdk.Executor.Run

/-!
# Retained response bytes

Replies are kept in the progress of an execution and bounded by two mechanisms:
a fixed-format wait compares what it would retain with the executor limit, while
preflight adds up the declared maxima of the response collections.  This module
says how much each action can add and derives when the two compose.
-/

namespace PrinterSdk.Executor

open PrinterSdk.Data PrinterSdk.Interaction PrinterSdk.Protocol

variable {history : List (Event effects)} {progress : Progress}

/-! ## Longest valid replies -/

/-- A shortest reply that a validator accepts. -/
def shortestReply : ResponseValidation → Bytes
  | .anyNotification => [0]
  | .phomemoNotification => [0x1a, 0, 0]
  | .brotherStatus32 => [0x80, 0x20, 0x42] ++ List.replicate 29 0
  | .brotherObjbrnet => asBytes "OBJBRNET"
  | .brotherWifiScan => asBytes "VAP,"
  | .brotherSystemReport => asBytes "<<PRINTER CONFIGURATION>>"

/-- Length of the longest reply of at most `maximumBytes` bytes that a validator
accepts, zero when it accepts none. -/
def longestReply (validation : ResponseValidation) (maximumBytes : Nat) : Nat :=
  if maximumBytes < (shortestReply validation).length then 0
  else if validation = .brotherStatus32 then 32
  else maximumBytes

theorem longestReply_le (validation : ResponseValidation) (maximumBytes : Nat) :
    longestReply validation maximumBytes ≤ maximumBytes := by
  unfold longestReply
  split
  · exact Nat.zero_le _
  · rename_i long
    split
    · rename_i status
      subst status
      simpa [shortestReply] using long
    · exact Nat.le_refl _

theorem shortestReply_length_le {validation : ResponseValidation} {bytes : Bytes}
    (valid : responseIsValid validation bytes = true) :
    (shortestReply validation).length ≤ bytes.length := by
  cases validation with
  | anyNotification =>
      simp only [responseIsValid, Bool.not_eq_true', List.isEmpty_eq_false_iff] at valid
      exact List.length_pos_iff.mpr valid
  | phomemoNotification =>
      simp only [responseIsValid, Bool.and_eq_true, decide_eq_true_eq] at valid
      exact valid.1
  | brotherStatus32 =>
      simp only [responseIsValid, Bool.and_eq_true, decide_eq_true_eq] at valid
      simp [shortestReply, valid.1]
  | brotherObjbrnet =>
      simp only [responseIsValid, contains, decide_eq_true_eq] at valid
      exact valid.length_le
  | brotherWifiScan =>
      simp only [responseIsValid, contains, Bool.or_eq_true, decide_eq_true_eq] at valid
      rcases valid with available | scanned
      · exact Nat.le_trans (by decide) available.length_le
      · exact scanned.length_le
  | brotherSystemReport =>
      simp only [responseIsValid, contains, decide_eq_true_eq] at valid
      exact valid.length_le

/-- No valid reply within the declared maximum is longer. -/
theorem length_le_longestReply {validation : ResponseValidation} {bytes : Bytes}
    {maximumBytes : Nat} (valid : responseIsValid validation bytes = true)
    (within : bytes.length ≤ maximumBytes) :
    bytes.length ≤ longestReply validation maximumBytes := by
  have long := shortestReply_length_le valid
  unfold longestReply
  rw [if_neg (by omega)]
  split
  · rename_i status
    subst status
    simp only [responseIsValid, Bool.and_eq_true, decide_eq_true_eq] at valid
    exact Nat.le_of_eq valid.1
  · exact within

/-- Filling a shortest reply up keeps every validator but the fixed one. -/
theorem responseIsValid_fill {validation : ResponseValidation}
    (unbounded : validation ≠ .brotherStatus32) (filler : Bytes) :
    responseIsValid validation (shortestReply validation ++ filler) = true := by
  have starts : shortestReply validation <:+: shortestReply validation ++ filler :=
    (List.prefix_append _ _).isInfix
  cases validation with
  | brotherStatus32 => exact absurd rfl unbounded
  | anyNotification => rfl
  | phomemoNotification => simp [responseIsValid, shortestReply]
  | brotherObjbrnet =>
      simp only [responseIsValid, contains, decide_eq_true_eq]
      exact starts
  | brotherWifiScan =>
      simp only [responseIsValid, contains, Bool.or_eq_true, decide_eq_true_eq]
      exact Or.inr starts
  | brotherSystemReport =>
      simp only [responseIsValid, contains, decide_eq_true_eq]
      exact starts

/-- The bound is attained. -/
theorem exists_longestReply {validation : ResponseValidation} {maximumBytes : Nat}
    (some : 0 < longestReply validation maximumBytes) :
    ∃ bytes, responseIsValid validation bytes = true ∧
      bytes.length = longestReply validation maximumBytes := by
  unfold longestReply at some ⊢
  split at some
  · cases some
  · rename_i long
    rw [if_neg long]
    by_cases status : validation = .brotherStatus32
    · subst status
      exact ⟨shortestReply .brotherStatus32, by decide, rfl⟩
    · rw [if_neg status]
      refine ⟨shortestReply validation ++
        List.replicate (maximumBytes - (shortestReply validation).length) 0,
        responseIsValid_fill status _, ?_⟩
      rw [List.length_append, List.length_replicate]
      omega

/-! ## What one action can add -/

/-- Retained bytes after an action, at most. -/
def mostRetained (action : Action) (retained : Nat) : Nat :=
  match action with
  | .waitForResponse _ _ _ => max retained maxRetainedResponseBytes
  | .collectResponse _ _ maximumBytes validation =>
      retained + longestReply validation maximumBytes
  | _ => retained

/-- Only the action loop reports progress. -/
def Silent : Effect → Prop
  | .report _ => False
  | _ => True

/-- An error carries the given responses, if it carries any. -/
def Carries (responses : List Bytes) (error : ExecuteError) : Prop :=
  ∀ carried, errorProgress error = some carried → carried.responses = responses

theorem carries_of_errorProgress {error : ExecuteError} {responses : List Bytes}
    (carries : errorProgress error = some progress)
    (same : progress.responses = responses) : Carries responses error := by
  intro carried found
  rw [carries] at found
  cases found
  exact same

/-- Contract of a computation inside one action: it reports nothing, its errors
carry the responses it began with, and it returns as `success` says. -/
abbrev Retains {α : Type} (responses : List Bytes) (success : α → Prop)
    (history : List (Event effects)) (computation : Exec α) : Prop :=
  Fallible.Meets (fun _ op => Silent op) (fun _ value => success value)
    (fun _ error => Carries responses error) history computation

/-- Contract of a response collection: the bytes it returns satisfy `fits`. -/
abbrev Collects (fits : Bytes → Prop) (history : List (Event effects))
    (computation : Collect WaitOutcome) : Prop :=
  Fallible.Meets (fun _ op => Silent op)
    (fun _ outcome => ∀ bytes, outcome = .response bytes → fits bytes)
    (fun _ _ => True) history computation

theorem checkCancelled_retains (progress : Progress) :
    Retains progress.responses (fun _ => True) history (checkCancelled progress) := by
  refine effect_bind trivial ?_
  intro reply
  cases reply with
  | true => exact carries_of_errorProgress rfl rfl
  | false => trivial

theorem raceDelay_retains (duration : Duration) (progress : Progress) :
    Retains progress.responses (fun _ => True) history (raceDelay duration progress) := by
  refine effect_bind trivial ?_
  intro reply
  cases reply with
  | cancelled => exact carries_of_errorProgress rfl rfl
  | completed value => trivial

theorem writePiece_retains (bytes : Bytes) (kind : WriteKind) (progress : Progress) :
    Retains progress.responses (fun after => after.responses = progress.responses) history
      (writePiece bytes kind progress) := by
  refine (checkCancelled_retains progress).bind ?_
  intro later _ _
  refine effect_bind trivial ?_
  intro reply
  cases reply with
  | cancelled => exact carries_of_errorProgress rfl rfl
  | completed outcome =>
      cases outcome with
      | error source => exact carries_of_errorProgress rfl rfl
      | ok value => rfl

theorem writePieces_retains (duration : Duration) (pieces : List Bytes)
    (progress : Progress) :
    Retains progress.responses (fun after => after.responses = progress.responses) history
      (writePieces duration pieces progress) := by
  induction pieces generalizing history progress with
  | nil => rfl
  | cons piece rest ih =>
      refine (checkCancelled_retains progress).bind ?_
      intro checked _ _
      refine (writePiece_retains piece .raster progress).bind ?_
      intro wrote after same
      rw [← same]
      refine (raceDelay_retains duration after).bind ?_
      intro paced _ _
      exact ih after

theorem writeLogicalChunks_retains (duration : Duration) (payloadLimit : Nat)
    (logicals : List Bytes) (progress : Progress) :
    Retains progress.responses (fun after => after.responses = progress.responses) history
      (writeLogicalChunks duration payloadLimit logicals progress) := by
  induction logicals generalizing history progress with
  | nil => rfl
  | cons logical rest ih =>
      refine (writePieces_retains duration _ progress).bind ?_
      intro wrote after same
      rw [← same]
      exact ih after

theorem wait_collects (timeout : Duration) :
    Collects (fun _ => True) history (wait timeout) := by
  refine effect_bind trivial ?_
  intro reply
  cases reply with
  | cancelled => trivial
  | completed outcome =>
      cases outcome with
      | ok outcome =>
          intro bytes _
          trivial
      | error error =>
          simp only
          split
          · trivial
          · trivial

/-- A settled collection returns what it has collected or nothing. -/
theorem settle_collects {validation : ResponseValidation} {collected bytes : Bytes}
    {outcome : WaitOutcome} (none : ∀ bytes, outcome ≠ .response bytes)
    (settled : settle validation collected outcome = .response bytes) :
    bytes = collected := by
  unfold settle at settled
  split at settled
  · exact absurd settled (none bytes)
  · exact (WaitOutcome.response.inj settled).symm

/-- The dynamic check of a fixed-format wait. -/
theorem collectResponseReads_collects (timeout : Duration)
    (validation : ResponseValidation) (alreadyRetained reads : Nat) (first : Bool)
    (collected : Bytes)
    (fits : alreadyRetained + collected.length ≤
      max alreadyRetained maxRetainedResponseBytes) :
    Collects (fun bytes => alreadyRetained + bytes.length ≤
        max alreadyRetained maxRetainedResponseBytes) history
      (collectResponseReads timeout validation alreadyRetained reads first collected) := by
  induction reads generalizing first collected history with
  | zero =>
      intro bytes returned
      split at returned
      · cases returned
      · cases returned
        exact fits
  | succ reads ih =>
      have settles : ∀ outcome bytes, (∀ bytes, outcome ≠ .response bytes) →
          settle validation collected outcome = .response bytes →
          alreadyRetained + bytes.length ≤
            max alreadyRetained maxRetainedResponseBytes := by
        intro outcome bytes none settled
        rw [settle_collects none settled]
        exact fits
      refine effect_bind trivial ?_
      intro clock
      by_cases expired : timeout - clock = 0
      · simp only [expired, ↓reduceIte]
        intro bytes settled
        exact settles .timeout bytes (by simp) settled
      · simp only [expired, ↓reduceIte]
        refine (wait_collects _).bind ?_
        intro later outcome _
        cases outcome with
        | timeout =>
            intro bytes settled
            exact settles .timeout bytes (by simp) settled
        | unavailable =>
            intro bytes settled
            exact settles .unavailable bytes (by simp) settled
        | response chunk =>
            simp only
            split
            · trivial
            · rename_i retained summed
              simp only [Option.bind_eq_some_iff, checkedAdd_eq_some] at summed
              obtain ⟨subtotal, ⟨_, rfl⟩, _, rfl⟩ := summed
              split
              · trivial
              · rename_i within
                have grown : alreadyRetained + (collected ++ chunk).length ≤
                    max alreadyRetained maxRetainedResponseBytes := by
                  rw [List.length_append]
                  omega
                split
                · split
                  · rename_i start _
                    split
                    · intro bytes returned
                      cases returned
                      have shorter := List.length_drop (i := start) (l := collected ++ chunk)
                      omega
                    · exact ih _ _ grown
                  · exact ih _ _ grown
                · split
                  · intro bytes returned
                    cases returned
                    exact grown
                  · exact ih _ _ grown

theorem finishMultipart_collects (timeout : Duration) (becameIdle : Bool)
    {maximumBytes : Nat} {collected : Bytes} (within : collected.length ≤ maximumBytes) :
    Collects (fun bytes => bytes.length ≤ maximumBytes) history
      (finishMultipart timeout becameIdle collected) := by
  have whole : ∀ bytes, WaitOutcome.response collected = .response bytes →
      bytes.length ≤ maximumBytes := by
    intro bytes same
    cases same
    exact within
  unfold Collects finishMultipart
  split
  · intro bytes returned
    cases returned
  · split
    · exact whole
    · refine effect_bind trivial ?_
      intro clock
      split
      · trivial
      · exact whole

/-- A multipart collection returns at most its declared maximum. -/
theorem collectMultipartReads_collects (timeout idleTimeout : Duration)
    (maximumBytes reads : Nat) (first : Bool) (collected : Bytes)
    (within : collected.length ≤ maximumBytes) :
    Collects (fun bytes => bytes.length ≤ maximumBytes) history
      (collectMultipartReads timeout idleTimeout maximumBytes reads first collected) := by
  have whole : ∀ outcome : WaitOutcome, (∀ bytes, outcome ≠ .response bytes) →
      ∀ collected : Bytes, collected.length ≤ maximumBytes →
      ∀ bytes, (if collected.isEmpty then outcome else WaitOutcome.response collected) =
        .response bytes → bytes.length ≤ maximumBytes := by
    intro outcome none collected within bytes returned
    split at returned
    · exact absurd returned (none bytes)
    · cases returned
      exact within
  induction reads generalizing first collected history with
  | zero => exact finishMultipart_collects _ _ within
  | succ reads ih =>
      refine effect_bind trivial ?_
      intro clock
      by_cases expired : timeout - clock = 0
      · simp only [expired, ↓reduceIte]
        exact finishMultipart_collects _ _ within
      · simp only [expired, ↓reduceIte]
        refine (wait_collects _).bind ?_
        intro later outcome _
        cases outcome with
        | timeout => exact whole .timeout (by simp) collected within
        | unavailable => exact whole .unavailable (by simp) collected within
        | response chunk =>
            simp only
            split
            · exact finishMultipart_collects _ _ within
            · split
              · trivial
              · rename_i newLength summed
                rw [checkedAdd_eq_some] at summed
                split
                · trivial
                · rename_i bounded
                  refine ih _ _ ?_
                  rw [List.length_append]
                  omega

theorem withProgress_retains {fits : Bytes → Prop} {collection : Collect WaitOutcome}
    (progress : Progress) (collects : Collects fits history collection) :
    Retains progress.responses
      (fun outcome => ∀ bytes, outcome = .response bytes → fits bytes) history
      (withProgress progress collection) := by
  unfold Retains withProgress Fallible.Meets
  rw [ExceptT.run_mk, Program.meets_bind]
  refine Program.Meets.mono collects ?_
  intro later result settled
  cases result with
  | ok outcome => exact settled
  | error error =>
      exact carries_of_errorProgress (errorProgress_responseEffectError progress error) rfl

theorem retainResponse_retains (validation : ResponseValidation) (bytes : Bytes)
    (progress : Progress) :
    Retains progress.responses
      (fun after => responseIsValid validation bytes = true ∧
        retainedBytes after = retainedBytes progress + bytes.length) history
      (retainResponse validation bytes progress) := by
  unfold Retains retainResponse validate
  split
  · rename_i valid
    have added : retainedBytes { progress with responses := progress.responses ++ [bytes] } =
        retainedBytes progress + bytes.length := by
      simp [retainedBytes]
    exact ⟨valid, added⟩
  · exact carries_of_errorProgress rfl rfl

theorem retainedBytes_congr {left right : Progress}
    (same : left.responses = right.responses) : retainedBytes left = retainedBytes right := by
  rw [retainedBytes, retainedBytes, same]

/-- Each action adds at most what its kind allows. -/
theorem executeAction_retains (timing : ReferenceTiming) (index : Nat) (action : Action)
    (progress : Progress) :
    Retains progress.responses
      (fun after => retainedBytes after ≤ mostRetained action (retainedBytes progress))
      history (executeAction timing index action progress) := by
  cases action with
  | jobBoundary kind => exact Nat.le_refl (retainedBytes progress)
  | subscribeNotifications =>
      refine effect_bind trivial ?_
      intro reply
      cases reply with
      | cancelled => exact carries_of_errorProgress rfl rfl
      | completed outcome =>
          cases outcome with
          | ok support => exact Nat.le_refl (retainedBytes progress)
          | error error =>
              exact carries_of_errorProgress (errorProgress_nonWriteError progress error) rfl
  | delay milliseconds =>
      refine (raceDelay_retains _ progress).bind ?_
      intro paced _ _
      exact Nat.le_refl (retainedBytes progress)
  | commandWrite name bytes atomic =>
      refine (writePiece_retains bytes .command progress).mono ?_ (fun _ _ => id)
      intro wrote after same
      exact Nat.le_of_eq (retainedBytes_congr same)
  | rasterWrite bytes logicalChunk delayMs =>
      refine effect_bind trivial ?_
      intro limit
      by_cases vanished : limit = 0
      · simp only [vanished, ↓reduceIte]
        intro carried found
        cases found
      · simp only [vanished, ↓reduceIte]
        refine (writeLogicalChunks_retains _ limit _ progress).mono ?_ (fun _ _ => id)
        intro wrote after same
        exact Nat.le_of_eq (retainedBytes_congr same)
  | waitForResponse timeoutMs fallbackDelayMs validation =>
      have keeps : retainedBytes progress ≤
          max (retainedBytes progress) maxRetainedResponseBytes := Nat.le_max_left _ _
      refine (withProgress_retains progress
        (collectResponseReads_collects _ _ _ _ _ [] (by simp [keeps]))).bind ?_
      intro listened outcome fits
      cases outcome with
      | response bytes =>
          refine (retainResponse_retains validation bytes progress).mono ?_ (fun _ _ => id)
          intro kept after added
          exact Nat.le_trans (Nat.le_of_eq added.2) (fits bytes rfl)
      | timeout | unavailable =>
          simp only
          split
          · refine (raceDelay_retains _ progress).bind ?_
            intro paced _ _
            exact keeps
          · split
            · exact keeps
            · exact carries_of_errorProgress rfl rfl
  | collectResponse timeoutMs idleTimeoutMs maximumBytes validation =>
      refine (withProgress_retains progress
        (collectMultipartReads_collects _ _ maximumBytes _ _ [] (Nat.zero_le _))).bind ?_
      intro listened outcome fits
      cases outcome with
      | response bytes =>
          refine (retainResponse_retains validation bytes progress).mono ?_ (fun _ _ => id)
          intro kept after added
          refine Nat.le_trans (Nat.le_of_eq added.2) ?_
          exact Nat.add_le_add_left (length_le_longestReply added.1 (fits bytes rfl)) _
      | timeout | unavailable => exact carries_of_errorProgress rfl rfl

/-! ## Room for the next action -/

/-- The action the loop turns to after a reported progress. -/
def nextAction (plan : Plan) (progress : Progress) : Option Action :=
  match progress.lastCompletedAction with
  | none => plan.actions.head?
  | some index => plan.actions[index + 1]?

/-- A response collection has room for the longest reply it may retain. -/
def Room (progress : Progress) : Option Action → Prop
  | some (.collectResponse _ _ maximumBytes validation) =>
      retainedBytes progress + longestReply validation maximumBytes ≤
        maxRetainedResponseBytes
  | _ => True

/-- Every response collection of a run was entered with room for its reply. -/
def Roomy (plan : Plan) (trace : List (Event effects)) : Prop :=
  ∀ progress : Progress, ⟨.report progress, ()⟩ ∈ trace →
    Room progress (nextAction plan progress)

/-- An error carries at most the retained bytes the executor allows. -/
def CarriesWithin (error : ExecuteError) : Prop :=
  ∀ carried, errorProgress error = some carried →
    retainedBytes carried ≤ maxRetainedResponseBytes

/-- What an effect shows of the responses retained so far stays within the limit. -/
def ShowsWithin : Effect → Prop
  | .report progress => retainedBytes progress ≤ maxRetainedResponseBytes
  | _ => True

/-- The retained bytes stay within the executor limit at every point of a run: in
each reported progress, in the returned one and in the one an error carries. -/
def RetainedWithin (trace : List (Event effects))
    (residual : Program effects (Except ExecuteError Progress)) : Prop :=
  (∀ before op, Program.Issued trace residual before op → ShowsWithin op) ∧
    (∀ progress, residual = .done (.ok progress) →
      retainedBytes progress ≤ maxRetainedResponseBytes) ∧
    (∀ error, residual = .done (.error error) → CarriesWithin error)

variable {plan : Plan}

theorem Roomy.restrict {earlier later : List (Event effects)} (roomy : Roomy plan later)
    (continues : earlier <+: later) : Roomy plan earlier :=
  fun progress member => roomy progress (continues.mem member)

theorem showsWithin_of_silent {op : Effect} (silent : Silent op) : ShowsWithin op := by
  cases op with
  | report progress => exact silent.elim
  | _ => trivial

/-- An action entered with room keeps the limit. -/
theorem mostRetained_le {action : Action} (fits : retainedBytes progress ≤ maxRetainedResponseBytes)
    (room : Room progress (some action)) :
    mostRetained action (retainedBytes progress) ≤ maxRetainedResponseBytes := by
  cases action with
  | waitForResponse timeoutMs fallbackDelayMs validation =>
      exact Nat.max_le.mpr ⟨fits, Nat.le_refl _⟩
  | collectResponse timeoutMs idleTimeoutMs maximumBytes validation => exact room
  | _ => exact fits

/-- The action that follows a completed one. -/
theorem nextAction_reported {earlier later : List Action} {action : Action}
    (actions : plan.actions = earlier ++ action :: later) (after : Progress) :
    nextAction plan { after with lastCompletedAction := some earlier.length } =
      later.head? := by
  have position : earlier.length + 1 = (earlier ++ [action]).length := by simp
  change plan.actions[earlier.length + 1]? = later.head?
  rw [actions, List.append_cons, position, List.getElem?_append_right (Nat.le_refl _),
    Nat.sub_self, ← List.head?_eq_getElem?]

/-- Contract of the action loop: as long as the run is roomy, all it shows stays
within the limit. -/
abbrev StaysWithin {α : Type} (plan : Plan) (success : List (Event effects) → α → Prop)
    (history : List (Event effects)) (computation : Exec α) : Prop :=
  Fallible.Meets (fun trace op => Roomy plan trace → ShowsWithin op) success
    (fun trace error => Roomy plan trace → CarriesWithin error) history computation

/-- A computation inside one action stays within the limit when the progress it
begins with does. -/
theorem Retains.staysWithin {α : Type} {success : α → Prop} {computation : Exec α}
    {begun : List (Event effects)}
    (retains : Retains progress.responses success history computation)
    (continues : begun <+: history)
    (fits : Roomy plan begun → retainedBytes progress ≤ maxRetainedResponseBytes) :
    StaysWithin plan (fun trace value => begun <+: trace ∧ success value) history
      computation := by
  refine Fallible.Meets.consequence retains ?_ ?_ ?_
  · intro trace op _ silent _
    exact showsWithin_of_silent silent
  · intro trace value follows returned
    exact ⟨continues.trans follows, returned⟩
  · intro trace error follows carries roomy carried found
    rw [retainedBytes_congr (carries carried found)]
    exact fits (roomy.restrict (continues.trans follows))

theorem executeActions_within (timing : ReferenceTiming) {earlier later : List Action}
    (actions : plan.actions = earlier ++ later)
    (fits : Roomy plan history → retainedBytes progress ≤ maxRetainedResponseBytes)
    (room : Roomy plan history → Room progress later.head?) :
    StaysWithin plan
      (fun trace progress => Roomy plan trace →
        retainedBytes progress ≤ maxRetainedResponseBytes) history
      (executeActions timing earlier.length later progress) := by
  induction later generalizing earlier history progress with
  | nil => exact fits
  | cons action later ih =>
      refine Fallible.Meets.bind ((checkCancelled_retains progress).staysWithin
        List.prefix_rfl fits) ?_
      intro checked _ begun
      refine Fallible.Meets.bind ((executeAction_retains timing earlier.length action
        progress).staysWithin begun.1 fits) ?_
      intro executed after begun
      have bounded : Roomy plan executed →
          retainedBytes after ≤ maxRetainedResponseBytes := by
        intro roomy
        have before := roomy.restrict begun.1
        exact Nat.le_trans begun.2 (mostRetained_le (fits before) (room before))
      refine effect_bind bounded ?_
      intro reply
      have nextActions : plan.actions = (earlier ++ [action]) ++ later := by
        rw [actions, List.append_assoc, List.singleton_append]
      have position : earlier.length + 1 = (earlier ++ [action]).length := by simp
      rw [position]
      refine ih nextActions ?_ ?_
      · intro roomy
        exact bounded (roomy.restrict (List.prefix_append _ _))
      · intro roomy
        rw [← nextAction_reported actions after]
        exact roomy { after with lastCompletedAction := some earlier.length } (by simp)

/-! ## Collections without room overflow -/

/-- The bounds preflight enforces on every response collection. -/
def CollectionsBounded (actions : List Action) : Prop :=
  ∀ timeoutMs idleTimeoutMs maximumBytes validation,
    Action.collectResponse timeoutMs idleTimeoutMs maximumBytes validation ∈ actions →
      0 < timeoutMs ∧ maximumBytes ≤ maxRetainedResponseBytes

theorem collectionsBounded_of_preflightActions {commandLimit index retained : Nat}
    {actions : List Action}
    (passes : preflightActions commandLimit index retained actions = .ok ()) :
    CollectionsBounded actions := by
  induction actions generalizing index retained with
  | nil => simp [CollectionsBounded]
  | cons action rest ih =>
      simp only [preflightActions] at passes
      cases checked : preflightAction commandLimit index retained action with
      | error error => simp [checked] at passes
      | ok total =>
          simp only [checked] at passes
          intro timeoutMs idleTimeoutMs maximumBytes validation member
          rcases List.mem_cons.mp member with here | inRest
          · rw [← here] at checked
            simp only [preflightAction] at checked
            split at checked
            · cases checked
            · rename_i positive
              simp only [Bool.or_eq_true, decide_eq_true_eq, not_or] at positive
              split at checked
              · cases checked
              · rename_i sum summed
                rw [checkedAdd_eq_some] at summed
                split at checked
                · cases checked
                · omega
          · exact ih passes timeoutMs idleTimeoutMs maximumBytes validation inRest

theorem preflightActions_of_preflight {payloadLimit commandLimit : Nat}
    (passes : preflight plan payloadLimit commandLimit = .ok ()) :
    preflightActions commandLimit 0 0 plan.actions = .ok () := by
  unfold preflight at passes
  split at passes
  · cases passes
  · split at passes
    · cases passes
    · split at passes
      · cases passes
      · exact passes

theorem reaches_wait_bind {α : Type} {timeout : Duration} {next : WaitOutcome → Collect α}
    {residual : Program effects (Except EffectError α)} (outcome : WaitOutcome)
    (reached : Program.Reaches (next outcome).run residual) :
    Program.Reaches (wait timeout >>= next).run residual := by
  have waited : Program.Reaches (wait timeout).run (.done (.ok outcome)) :=
    Fallible.reaches_perform_bind (.completed (.ok outcome)) (.refl _)
  exact Fallible.reaches_bind waited reached

/-- A transport may answer a collection with one whole reply and then nothing. -/
theorem collectMultipartReads_reaches {timeout : Duration} (idleTimeout : Duration)
    {maximumBytes : Nat} (reads : Nat) {bytes : Bytes} (running : timeout - (0 : Nat) ≠ 0)
    (some : bytes ≠ []) (within : bytes.length ≤ maximumBytes)
    (machine : bytes.length ≤ usizeMax) :
    Program.Reaches
      (collectMultipartReads timeout idleTimeout maximumBytes (reads + 2) true []).run
      (.done (.ok (.response bytes))) := by
  have nonempty : bytes.isEmpty = false := List.isEmpty_eq_false_iff.mpr some
  have summed : checkedAdd ([] : Bytes).length bytes.length = Option.some bytes.length := by
    rw [checkedAdd_eq_some]
    simp [machine]
  have bounded : ¬bytes.length > maximumBytes := by omega
  refine Fallible.reaches_perform_bind (0 : Nat) ?_
  simp only [running, ↓reduceIte]
  refine reaches_wait_bind (.response bytes) ?_
  simp only [nonempty, summed, bounded, ↓reduceIte, Bool.false_eq_true]
  refine Fallible.reaches_perform_bind (0 : Nat) ?_
  simp only [running, ↓reduceIte]
  refine reaches_wait_bind (.response []) ?_
  simp only [finishMultipart, List.nil_append, List.isEmpty_nil, nonempty, ↓reduceIte,
    Bool.false_eq_true]
  exact .refl _

theorem withProgress_reaches {collection : Collect WaitOutcome} {outcome : WaitOutcome}
    (progress : Progress)
    (returned : Program.Reaches collection.run (.done (.ok outcome))) :
    Program.Reaches (withProgress progress collection).run (.done (.ok outcome)) := by
  obtain ⟨trace, returned⟩ := returned
  refine ⟨trace ++ [], ?_⟩
  rw [withProgress, ExceptT.run_mk]
  exact returned.bind (.refl _)

theorem fromMillis_sub_zero {milliseconds : Nat} (positive : 0 < milliseconds) :
    fromMillis milliseconds - (0 : Nat) ≠ 0 := by
  unfold fromMillis
  exact Nat.ne_of_gt (Nat.mul_pos positive (by decide))

/-- A collection can retain the longest reply its validator accepts. -/
theorem executeAction_reaches (timing : ReferenceTiming) (index : Nat)
    {timeoutMs maximumBytes : Nat} (idleTimeoutMs : Nat) {validation : ResponseValidation}
    (progress : Progress) {bytes : Bytes} (positive : 0 < timeoutMs)
    (within : bytes.length ≤ maximumBytes) (machine : bytes.length ≤ usizeMax)
    (valid : responseIsValid validation bytes = true) :
    Program.Reaches
      (executeAction timing index
        (.collectResponse timeoutMs idleTimeoutMs maximumBytes validation) progress).run
      (.done (.ok { progress with responses := progress.responses ++ [bytes] })) := by
  have some : bytes ≠ [] := by
    have long := shortestReply_length_le valid
    rintro rfl
    cases validation <;> exact absurd long (by decide)
  refine Fallible.reaches_bind (withProgress_reaches progress
    (collectMultipartReads_reaches (fromMillis idleTimeoutMs) 4094
      (fromMillis_sub_zero positive) some within machine)) ?_
  simp only [retainResponse, validate, valid, ↓reduceIte]
  exact .refl _

/-- Once an action can complete, the loop can report it and go on. -/
theorem executeActions_reaches (timing : ReferenceTiming) (index : Nat) {action : Action}
    (rest : List Action) {progress after : Progress}
    {residual : Program effects (Except ExecuteError Progress)}
    (returned : Program.Reaches (executeAction timing index action progress).run
      (.done (.ok after)))
    (reached : Program.Reaches
      (do
        effect (.report { after with lastCompletedAction := some index })
        executeActions timing (index + 1) rest
          { after with lastCompletedAction := some index } : Exec Progress).run residual) :
    Program.Reaches (executeActions timing index (action :: rest) progress).run residual := by
  have checked : Program.Reaches (checkCancelled progress).run (.done (.ok ())) :=
    Fallible.reaches_perform_bind false (.refl _)
  exact Fallible.reaches_bind checked (Fallible.reaches_bind returned reached)

/-- Contract of a run that shows no more than the limit, whatever its transport
does. -/
abbrev AlwaysWithin (history : List (Event effects)) (computation : Exec Progress) : Prop :=
  Fallible.Meets (fun _ op => ShowsWithin op)
    (fun _ progress => retainedBytes progress ≤ maxRetainedResponseBytes)
    (fun _ error => CarriesWithin error) history computation

/-- A loop that always stays within the limit enters its first collection with room. -/
theorem room_of_alwaysWithin {timing : ReferenceTiming} {index : Nat} {actions : List Action}
    (bounded : CollectionsBounded actions)
    (always : AlwaysWithin history (executeActions timing index actions progress))
    (fits : retainedBytes progress ≤ maxRetainedResponseBytes) :
    Room progress actions.head? := by
  rcases actions with _ | ⟨action, rest⟩
  · trivial
  · cases action with
    | collectResponse timeoutMs idleTimeoutMs maximumBytes validation =>
        have bounds := bounded timeoutMs idleTimeoutMs maximumBytes validation
          (List.mem_cons_self ..)
        change retainedBytes progress + longestReply validation maximumBytes ≤ _
        by_contra exceeds
        have some : 0 < longestReply validation maximumBytes := by omega
        obtain ⟨bytes, valid, length⟩ := exists_longestReply some
        have within : bytes.length ≤ maximumBytes := by
          rw [length]
          exact longestReply_le validation maximumBytes
        have machine : bytes.length ≤ usizeMax :=
          within.trans (bounds.2.trans (by decide))
        obtain ⟨trace, reached⟩ := executeActions_reaches timing index rest
          (executeAction_reaches timing index idleTimeoutMs progress bounds.1 within machine valid)
          (.refl _)
        have shown : retainedBytes { progress with
            lastCompletedAction := Option.some index
            responses := progress.responses ++ [bytes] } ≤ maxRetainedResponseBytes :=
          always.after reached
        simp only [retainedBytes, List.map_append, List.map_singleton, List.sum_append,
          List.sum_singleton, length] at shown
        exact exceeds shown
    | _ => trivial

/-- A report precedes an action that has room. -/
def ReportsRoom (plan : Plan) : Effect → Prop
  | .report progress => Room progress (nextAction plan progress)
  | _ => True

theorem reportsRoom_of_silent {op : Effect} (silent : Silent op) : ReportsRoom plan op := by
  cases op with
  | report progress => exact silent.elim
  | _ => trivial

/-- Inside one action nothing is reported, and what follows it stays within the
limit when the whole does. -/
theorem Retains.reportsRoom {α : Type} {success : α → Prop} {responses : List Bytes}
    {computation : Exec α} {next : α → Exec Progress}
    (retains : Retains responses success history computation)
    (always : AlwaysWithin history (computation >>= next)) :
    Fallible.Meets (fun _ op => ReportsRoom plan op)
      (fun trace value => success value ∧ AlwaysWithin trace (next value))
      (fun _ _ => True) history computation := by
  rw [AlwaysWithin, Fallible.meets_bind] at always
  refine (Fallible.Meets.and retains always).consequence ?_ ?_ ?_
  · intro trace op _ issued
    exact reportsRoom_of_silent issued.1
  · intro trace value _ returned
    exact returned
  · intro _ _ _ _
    trivial

theorem executeActions_reportsRoom (timing : ReferenceTiming) {earlier later : List Action}
    (actions : plan.actions = earlier ++ later)
    (bounded : CollectionsBounded plan.actions)
    (always : AlwaysWithin history (executeActions timing earlier.length later progress)) :
    Fallible.Meets (fun _ op => ReportsRoom plan op) (fun _ _ => True) (fun _ _ => True)
      history (executeActions timing earlier.length later progress) := by
  induction later generalizing earlier history progress with
  | nil => trivial
  | cons action later ih =>
      refine Fallible.Meets.bind ((checkCancelled_retains progress).reportsRoom always) ?_
      intro checked _ entered
      refine Fallible.Meets.bind ((executeAction_retains timing earlier.length action
        progress).reportsRoom entered.2) ?_
      intro executed after entered
      have nextActions : plan.actions = (earlier ++ [action]) ++ later := by
        rw [actions, List.append_assoc, List.singleton_append]
      have position : earlier.length + 1 = (earlier ++ [action]).length := by simp
      have remaining : CollectionsBounded later := by
        intro timeoutMs idleTimeoutMs maximumBytes validation member
        exact bounded timeoutMs idleTimeoutMs maximumBytes validation
          (by simp [actions, member])
      obtain ⟨fits, continues⟩ := entered.2
      have room : ReportsRoom plan
          (.report { after with lastCompletedAction := some earlier.length }) := by
        rw [ReportsRoom, nextAction_reported actions after]
        exact room_of_alwaysWithin remaining (continues ()) fits
      refine effect_bind room ?_
      intro reply
      rw [position]
      refine ih nextActions ?_
      rw [← position]
      exact continues reply

/-! ## Whole executions -/

/-- Preflight itself leaves room for a collection that comes first. -/
theorem room_of_collectionsBounded {actions : List Action}
    (bounded : CollectionsBounded actions) : Room {} actions.head? := by
  rcases actions with _ | ⟨action, rest⟩
  · trivial
  · cases action with
    | collectResponse timeoutMs idleTimeoutMs maximumBytes validation =>
        have bounds := bounded timeoutMs idleTimeoutMs maximumBytes validation
          (List.mem_cons_self ..)
        have needed := longestReply_le validation maximumBytes
        change 0 + longestReply validation maximumBytes ≤ _
        omega
    | _ => trivial

theorem execute_within (timing : ReferenceTiming) :
    StaysWithin plan
      (fun trace progress => Roomy plan trace →
        retainedBytes progress ≤ maxRetainedResponseBytes) []
      (execute timing plan) := by
  refine effect_bind (fun _ => trivial) ?_
  intro payloadLimit
  refine effect_bind (fun _ => trivial) ?_
  intro commandLimit
  rw [Fallible.meets_bind]
  cases checked : preflight plan payloadLimit commandLimit with
  | error error =>
      intro _ carried found
      rw [errorProgress_of_preflight checked] at found
      cases found
  | ok value =>
      have bounded := collectionsBounded_of_preflightActions
        (preflightActions_of_preflight checked)
      have started : plan.actions = [] ++ plan.actions := rfl
      exact executeActions_within timing started (fun _ => Nat.zero_le _)
        (fun _ => room_of_collectionsBounded bounded)

theorem execute_reportsRoom {timing : ReferenceTiming}
    (always : AlwaysWithin [] (execute timing plan)) :
    Fallible.Meets (fun _ op => ReportsRoom plan op) (fun _ _ => True) (fun _ _ => True) []
      (execute timing plan) := by
  refine effect_bind trivial ?_
  intro payloadLimit
  refine effect_bind trivial ?_
  intro commandLimit
  have checkedAlways : AlwaysWithin [⟨.payloadLimit, payloadLimit⟩, ⟨.commandLimit, commandLimit⟩]
      (ExceptT.mk (pure (preflight plan payloadLimit commandLimit)) >>=
        fun _ => executeActions timing 0 plan.actions {}) :=
    (always.2 payloadLimit).2 commandLimit
  rw [Fallible.meets_bind]
  cases checked : preflight plan payloadLimit commandLimit with
  | error error => trivial
  | ok value =>
      have bounded := collectionsBounded_of_preflightActions
        (preflightActions_of_preflight checked)
      have started : plan.actions = [] ++ plan.actions := rfl
      rw [checked] at checkedAlways
      exact executeActions_reportsRoom timing started bounded checkedAlways

/-- Retained responses stay within the executor limit at every point of a run that
enters each response collection with room for its longest reply; and a plan stays
within the limit against every transport exactly when all its runs do so. -/
theorem retained_within_iff_roomy (timing : ReferenceTiming) (plan : Plan) :
    (∀ trace residual, Program.After (execute timing plan).run trace residual →
      Roomy plan trace → RetainedWithin trace residual) ∧
    ((∀ trace residual, Program.After (execute timing plan).run trace residual →
        RetainedWithin trace residual) ↔
      ∀ trace residual, Program.After (execute timing plan).run trace residual →
        Roomy plan trace) := by
  have sufficient : ∀ trace residual, Program.After (execute timing plan).run trace residual →
      Roomy plan trace → RetainedWithin trace residual := by
    intro trace residual reached roomy
    have meets : StaysWithin plan _ [] (execute timing plan) := execute_within timing
    refine ⟨?_, ?_, ?_⟩
    · intro before op issued
      refine meets.issued reached issued ?_
      intro progress member
      exact roomy progress (issued.mem_history member)
    · rintro progress rfl
      exact meets.after reached roomy
    · rintro error rfl
      exact meets.after reached roomy
  refine ⟨sufficient, ?_, ?_⟩
  · intro within trace residual reached progress member
    have always : AlwaysWithin [] (execute timing plan) := by
      refine Program.meets_of_after ?_
      intro trace residual reached
      obtain ⟨shows, returns, fails⟩ := within trace residual reached
      cases residual with
      | done result =>
          cases result with
          | ok progress => exact returns progress rfl
          | error error => exact fails error rfl
      | ask op resume => exact shows trace op (Or.inr ⟨rfl, rfl⟩)
    obtain ⟨before, after, rfl⟩ := List.append_of_mem member
    have issued : Program.Issued (before ++ ⟨.report progress, ()⟩ :: after) residual before
        (.report progress) := Or.inl ⟨(), after, rfl⟩
    exact (execute_reportsRoom always).issued reached issued
  · intro roomy trace residual reached
    exact sufficient trace residual reached (roomy trace residual reached)

/-- A plan that waits for any notification and then collects one byte. -/
def overfullPlan : Plan where
  protocol := .brother
  sourceCommit := ""
  actions := [.waitForResponse 1 0 .anyNotification, .collectResponse 1 1 1 .anyNotification]

/-- A transport may answer a wait for any notification with as many bytes as the
executor retains. -/
theorem waitForResponse_reaches (timing : ReferenceTiming) (index : Nat) {bytes : Bytes}
    (some : bytes ≠ []) (within : bytes.length ≤ maxRetainedResponseBytes) :
    Program.Reaches
      (executeAction timing index (.waitForResponse 1 0 .anyNotification) {}).run
      (.done (.ok { responses := [bytes] })) := by
  have summed : (checkedAdd 0 ([] : Bytes).length).bind (checkedAdd · bytes.length) =
      Option.some bytes.length := by
    have machine : bytes.length ≤ usizeMax := within.trans (by decide)
    simp [checkedAdd, machine]
  have bounded : ¬bytes.length > maxRetainedResponseBytes := by omega
  have whole : bytes.length ≥ expectedLength .anyNotification := List.length_pos_iff.mpr some
  have collected : Program.Reaches
      (collectResponse (fromMillis 1) .anyNotification 0).run
      (.done (.ok (.response bytes))) := by
    refine Fallible.reaches_perform_bind (0 : Nat) ?_
    simp only [fromMillis_sub_zero Nat.one_pos, ↓reduceIte]
    refine reaches_wait_bind (.response bytes) ?_
    simp only [summed, bounded, ↓reduceIte, List.nil_append, whole]
    exact .refl _
  have valid : responseIsValid .anyNotification bytes = true := by
    simpa [responseIsValid] using some
  refine Fallible.reaches_bind (withProgress_reaches {} collected) ?_
  simp only [retainResponse, validate, valid, ↓reduceIte]
  exact .refl _

/-- A wait that fills the limit, followed by a collection of one more byte. -/
theorem overfullPlan_exceeds : preflight overfullPlan 20 20 = .ok () ∧
    ∃ trace residual, Program.After (execute .preserve overfullPlan).run trace residual ∧
      ¬RetainedWithin trace residual := by
  have passes : preflight overfullPlan 20 20 = .ok () := by decide
  obtain ⟨bytes, filled⟩ : ∃ bytes : Bytes, bytes.length = maxRetainedResponseBytes :=
    ⟨List.replicate maxRetainedResponseBytes 0, List.length_replicate⟩
  have nonempty : bytes ≠ [] := by
    rintro rfl
    cases filled
  have collected : Program.Reaches
      (executeAction .preserve 1 (.collectResponse 1 1 1 .anyNotification)
        { lastCompletedAction := some 0, responses := [bytes] }).run
      (.done (.ok { lastCompletedAction := some 0, responses := [bytes, [0]] })) :=
    executeAction_reaches .preserve 1 1 _ Nat.one_pos (Nat.le_refl 1) (by decide) rfl
  obtain ⟨trace, reached⟩ : Program.Reaches (execute .preserve overfullPlan).run
      (do
        effect (.report { lastCompletedAction := some 1, responses := [bytes, [0]] })
        executeActions .preserve 2 [] { lastCompletedAction := some 1, responses := [bytes, [0]] }
        : Exec Progress).run := by
    refine Fallible.reaches_perform_bind (20 : Nat) ?_
    refine Fallible.reaches_perform_bind (20 : Nat) ?_
    rw [passes]
    refine executeActions_reaches .preserve 0 _
      (waitForResponse_reaches .preserve 0 nonempty (Nat.le_of_eq filled)) ?_
    refine Fallible.reaches_perform_bind () ?_
    exact executeActions_reaches .preserve 1 _ collected (.refl _)
  refine ⟨passes, trace, _, reached, ?_⟩
  intro within
  have shown : retainedBytes { lastCompletedAction := some 1, responses := [bytes, [0]] } ≤
      maxRetainedResponseBytes := within.1 trace (.report _) (Or.inr ⟨rfl, rfl⟩)
  simp only [retainedBytes, List.map_cons, List.map_nil, List.sum_cons, List.sum_nil, filled]
    at shown
  exact absurd shown (by decide)

end PrinterSdk.Executor
