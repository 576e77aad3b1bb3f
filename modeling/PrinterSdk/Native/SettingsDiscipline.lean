import PrinterSdk.Native.BrotherDeviceSettings

/-!
# The discipline of a device-settings session

A log groups what happens on the transport into turns: a write, whether the
transport confirmed it, and what arrived until the next write.  Which command may be
written next is a question about the log alone.  Every write of a session is shown to be
admitted by the log it finds, and the rules of the session are read off that.
-/

namespace PrinterSdk.Native

open PrinterSdk.Data PrinterSdk.Interaction PrinterSdk.Executor PrinterSdk.Discovery

/-! ## The log of turns -/

/-- A write and what followed it: whether it was confirmed, the bytes received until the
next write, and whether each wait until then returned a response. -/
structure Turn where
  command : Bytes
  sent : Bool
  reply : Bytes := []
  sound : Bool := true
  deriving DecidableEq, Repr

/-- The turn after one more wait. -/
def Turn.hear (turn : Turn) : Except TransportError WaitOutcome → Turn
  | .ok (.response bytes) => { turn with reply := turn.reply ++ bytes }
  | _ => { turn with sound := false }

/-- The log after one more event, the latest turn first.  Input before the first
write is stale. -/
def note (log : List Turn) : Event sessionOperations → List Turn
  | ⟨.write command, outcome⟩ => { command, sent := outcome.isOk } :: log
  | ⟨.waitResponse _, outcome⟩ =>
      match log with
      | [] => []
      | current :: earlier => current.hear outcome :: earlier
  | _ => log

/-- The turns of a run, the latest first. -/
def turns (history : List (Event sessionOperations)) : List Turn := history.foldl note []

@[simp] theorem turns_append_singleton (history : List (Event sessionOperations))
    (event : Event sessionOperations) :
    turns (history ++ [event]) = note (turns history) event := by
  simp [turns]

/-- The setting that a command queries. -/
def settingOf (command : Bytes) : Option DeviceSettingKind :=
  DeviceSettingKind.multicolor.find? fun setting => setting.command == command

/-- The settings queried so far, in order. -/
def queried (log : List Turn) : List DeviceSettingKind :=
  log.reverse.filterMap fun turn => settingOf turn.command

/-! ## Admitted commands -/

/-- The status turn shows the identity of the profile. -/
structure Identifies (profile : BrotherModelProfile) (turn : Turn) : Prop where
  request : turn.command = statusRequest
  length : turn.reply.length = 32
  series : turn.reply[3]? = some profile.seriesCode
  model : turn.reply[4]? = some profile.modelCode

/-- The turn is a query of a setting that was answered whole. -/
structure Answers (setting : DeviceSettingKind) (turn : Turn) : Prop where
  request : turn.command = setting.command
  sent : turn.sent = true
  sound : turn.sound = true
  length : turn.reply.length = setting.responseSize

/-- The printer is in settings mode and has answered these settings, in order. -/
inductive Inside (profile : BrotherModelProfile) :
    List DeviceSettingKind → List Turn → Prop where
  | entered {enter status : Turn} : enter.command = enterSettingsMode →
      enter.sent = true → Identifies profile status → Inside profile [] [enter, status]
  | answered {finished : List DeviceSettingKind} {log : List Turn}
      {setting : DeviceSettingKind} {turn : Turn} : Inside profile finished log →
      Answers setting turn → Inside profile (finished ++ [setting]) (turn :: log)

/-- The commands that may be written next. -/
inductive Admitted (profile : BrotherModelProfile) : List Turn → Bytes → Prop where
  | status : Admitted profile [] statusRequest
  | enter {status : Turn} : Identifies profile status →
      Admitted profile [status] enterSettingsMode
  | query {finished rest : List DeviceSettingKind} {setting : DeviceSettingKind}
      {log : List Turn} : profile.settings = finished ++ setting :: rest →
      Inside profile finished log → Admitted profile log setting.command
  | exit {finished : List DeviceSettingKind} {log : List Turn} :
      Inside profile finished log → Admitted profile log exitSettingsMode
  | abandon {finished : List DeviceSettingKind} {setting : DeviceSettingKind}
      {log : List Turn} {failed : Turn} : Inside profile finished log →
      failed.command = setting.command → Admitted profile (failed :: log) exitSettingsMode

section Facts

variable {profile : BrotherModelProfile} {log : List Turn}
variable {finished : List DeviceSettingKind}

theorem command_ne_enter (setting : DeviceSettingKind) : setting.command ≠ enterSettingsMode := by
  cases setting <;> decide

theorem command_ne_exit (setting : DeviceSettingKind) : setting.command ≠ exitSettingsMode := by
  cases setting <;> decide

theorem command_ne_status (setting : DeviceSettingKind) : setting.command ≠ statusRequest := by
  cases setting <;> decide

theorem settingOf_command (setting : DeviceSettingKind) :
    settingOf setting.command = some setting := by
  cases setting <;> decide

theorem command_injective {setting other : DeviceSettingKind}
    (same : setting.command = other.command) : setting = other := by
  have found := settingOf_command setting
  rw [same, settingOf_command other] at found
  exact (Option.some.inj found).symm

/-- The mode was entered. -/
theorem Inside.enters (inside : Inside profile finished log) :
    ∃ enter ∈ log, enter.command = enterSettingsMode ∧ enter.sent = true := by
  induction inside with
  | entered request sent _ => exact ⟨_, List.mem_cons_self, request, sent⟩
  | answered _ _ ih =>
      obtain ⟨enter, member, entered⟩ := ih
      exact ⟨enter, List.mem_cons_of_mem _ member, entered⟩

/-- The queries of the log are those that were answered. -/
theorem Inside.queried_eq (inside : Inside profile finished log) : queried log = finished := by
  induction inside with
  | @entered enter status request sent identifies =>
      have none : settingOf enterSettingsMode = .none := by decide
      have nothing : settingOf statusRequest = .none := by decide
      simp [queried, request, identifies.request, none, nothing]
  | @answered finished log setting turn _ answers ih =>
      unfold queried at ih ⊢
      rw [List.reverse_cons, List.filterMap_append, ih]
      simp [answers.request, settingOf_command]

/-- Each query of the log was answered whole. -/
theorem Inside.answers (inside : Inside profile finished log) :
    ∀ turn ∈ log, ∀ setting : DeviceSettingKind, turn.command = setting.command →
      Answers setting turn := by
  induction inside with
  | @entered enter status request sent identifies =>
      intro turn member setting same
      rcases List.mem_cons.mp member with rfl | last
      · exact absurd (same.symm.trans request) (command_ne_enter setting)
      · rw [List.mem_singleton.mp last] at same
        exact absurd (same.symm.trans identifies.request) (command_ne_status setting)
  | @answered finished log setting turn _ answers ih =>
      intro other member asked same
      rcases List.mem_cons.mp member with rfl | earlier
      · rw [← command_injective (answers.request.symm.trans same)]
        exact answers
      · exact ih other earlier asked same

/-- The mode was not left. -/
theorem Inside.notLeft (inside : Inside profile finished log) :
    ∀ turn ∈ log, turn.command ≠ exitSettingsMode := by
  induction inside with
  | @entered enter status request sent identifies =>
      intro turn member
      rcases List.mem_cons.mp member with rfl | last
      · rw [request]
        decide
      · rw [List.mem_singleton.mp last, identifies.request]
        decide
  | @answered finished log setting turn _ answers ih =>
      intro other member
      rcases List.mem_cons.mp member with rfl | earlier
      · rw [answers.request]
        exact command_ne_exit setting
      · exact ih other earlier

/-- Entering is admitted after the identity was shown. -/
theorem Admitted.identified (admitted : Admitted profile log enterSettingsMode) :
    ∃ status, log = [status] ∧ Identifies profile status := by
  generalize same : enterSettingsMode = command at admitted
  cases admitted with
  | status => exact absurd same (by decide)
  | enter identifies => exact ⟨_, rfl, identifies⟩
  | @query finished rest setting log split inside => exact absurd same.symm (command_ne_enter setting)
  | exit inside => exact absurd same (by decide)
  | abandon inside failed => exact absurd same (by decide)

/-- A query is admitted when it is the next one of the profile and all before it were
answered. -/
theorem Admitted.inside {setting : DeviceSettingKind}
    (admitted : Admitted profile log setting.command) :
    ∃ finished rest, profile.settings = finished ++ setting :: rest ∧
      Inside profile finished log := by
  generalize same : setting.command = command at admitted
  cases admitted with
  | status => exact absurd same (command_ne_status setting)
  | enter identifies => exact absurd same (command_ne_enter setting)
  | query split inside =>
      rw [command_injective same]
      exact ⟨_, _, split, inside⟩
  | exit inside => exact absurd same (command_ne_exit setting)
  | abandon inside failed => exact absurd same (command_ne_exit setting)

/-- Nothing is admitted once the mode was left. -/
theorem Admitted.notLeft {command : Bytes} (admitted : Admitted profile log command) :
    ∀ turn ∈ log, turn.command ≠ exitSettingsMode := by
  cases admitted with
  | status =>
      intro turn member
      cases member
  | enter identifies =>
      intro turn member
      rw [List.mem_singleton.mp member, identifies.request]
      decide
  | query split inside => exact inside.notLeft
  | exit inside => exact inside.notLeft
  | @abandon finished setting log failed inside asked =>
      intro turn member
      rcases List.mem_cons.mp member with rfl | earlier
      · rw [asked]
        exact command_ne_exit setting
      · exact inside.notLeft turn earlier

end Facts

/-! ## Every write of a session is admitted -/

section Session

variable {profile : BrotherModelProfile} {history : List (Event sessionOperations)}
variable {ε α : Type}

/-- A write is admitted by the log it finds. -/
def Permits (profile : BrotherModelProfile) (history : List (Event sessionOperations)) :
    SessionOperation → Prop
  | .write command => Admitted profile (turns history) command
  | _ => True

/-- Contract of a part of a session, about the log it leaves. -/
abbrev Disciplined (profile : BrotherModelProfile) (success : List Turn → α → Prop)
    (failure : List Turn → ε → Prop) (history : List (Event sessionOperations))
    (computation : Fallible sessionOperations ε α) : Prop :=
  Fallible.Meets (Permits profile) (fun later value => success (turns later) value)
    (fun later error => failure (turns later) error) history computation

/-- A loop without rounds waits forever. -/
theorem exhausted_disciplined {success : List (Event sessionOperations) → α → Prop}
    {failure : List (Event sessionOperations) → ε → Prop} :
    Fallible.Meets (Permits profile) success failure history
      (exhausted : Fallible sessionOperations ε α) :=
  ⟨trivial, fun never => never.elim⟩

/-- Operations that are neither writes nor waits leave the log alone. -/
def Quiet : SessionOperation → Prop
  | .commandLimit | .delay _ | .elapsed => True
  | _ => False

theorem turns_quiet {op : SessionOperation} (quiet : Quiet op) (reply : op.Reply) :
    turns (history ++ [⟨op, reply⟩]) = turns history := by
  rw [turns_append_singleton]
  cases op with
  | write command => exact quiet.elim
  | waitResponse timeoutMs => exact quiet.elim
  | exhausted => exact quiet.elim
  | _ => rfl

/-- A quiet operation before the rest of a session. -/
theorem operate_quiet {op : SessionOperation} {next : op.Reply → Fallible sessionOperations ε α}
    {success : List Turn → α → Prop} {failure : List Turn → ε → Prop} (quiet : Quiet op)
    (continues : ∀ later reply, turns later = turns history →
      Disciplined profile success failure later (next reply)) :
    Disciplined profile success failure history (operate op >>= next) := by
  apply Fallible.Meets.perform_bind
  · cases op with
    | write command => exact quiet.elim
    | _ => trivial
  · intro reply
    exact continues _ reply (turns_quiet quiet reply)

/-- A wait adds to the current turn. -/
theorem waitFor_disciplined (timeoutMs : Nat) {current : Turn} {earlier : List Turn}
    (log : turns history = current :: earlier) :
    Disciplined profile
      (fun later outcome => later = current.hear (.ok outcome) :: earlier)
      (fun later _ => ∃ error, later = current.hear (.error error) :: earlier) history
      (waitFor timeoutMs) := by
  apply Fallible.Meets.perform_bind trivial
  intro reply
  have heard : turns (history ++ [⟨.waitResponse timeoutMs, reply⟩]) =
      current.hear reply :: earlier := by
    rw [turns_append_singleton, log]
    rfl
  cases reply with
  | ok outcome => exact heard
  | error error => exact ⟨error, heard⟩

/-- Stale input is not part of any turn. -/
theorem drainReads_disciplined (rounds drained : Nat) (log : turns history = []) :
    Disciplined profile (fun later _ => later = []) (fun later _ => later = []) history
      (drainReads rounds drained) := by
  induction rounds generalizing drained history with
  | zero => exact exhausted_disciplined
  | succ rounds ih =>
      have waits : Disciplined profile (fun later _ => later = []) (fun later _ => later = [])
          history (waitFor drainTimeoutMs) := by
        apply Fallible.Meets.perform_bind trivial
        intro reply
        have nothing : turns (history ++ [⟨.waitResponse drainTimeoutMs, reply⟩]) = [] := by
          rw [turns_append_singleton, log]
          rfl
        cases reply with
        | ok outcome => exact nothing
        | error error => exact nothing
      apply waits.bind
      intro later outcome log
      cases outcome with
      | timeout => exact log
      | unavailable => exact log
      | response bytes =>
          simp only
          split
          · exact log
          · split
            · exact log
            · exact ih _ log

/-- A command is confirmed, or it failed, or the limit refused it before the write. -/
theorem writeCommand_disciplined {command : Bytes}
    (admitted : Admitted profile (turns history) command) :
    Fallible.Meets (Permits profile)
      (fun later _ => turns later = { command, sent := true } :: turns history)
      (fun later error =>
        turns later = { command, sent := false } :: turns history ∨
        turns later = turns history ∧ ∃ before low limit,
          later = before ++ [⟨.commandLimit, low⟩, ⟨.commandLimit, limit⟩] ∧
          low < command.length ∧
          error = "command is " ++ toString command.length ++
            " bytes but transport command limit is " ++ toString limit) history
      (writeCommand command) := by
  apply Fallible.Meets.perform_bind trivial
  intro low
  have quiet := @turns_quiet history .commandLimit trivial low
  by_cases refused : command.length > low
  · simp only [refused, ↓reduceIte]
    apply Fallible.Meets.perform_bind trivial
    intro limit
    have again := @turns_quiet (history ++ [⟨.commandLimit, low⟩]) .commandLimit trivial limit
    exact .inr ⟨again.trans quiet, history, low, limit, by simp, refused, rfl⟩
  · simp only [refused, ↓reduceIte]
    apply Fallible.Meets.perform_bind
    · change Admitted profile (turns _) command
      rw [quiet]
      exact admitted
    · intro reply
      have noted : turns ((history ++ [⟨.commandLimit, low⟩]) ++ [⟨.write command, reply⟩]) =
          { command, sent := reply.isOk } :: turns history := by
        rw [turns_append_singleton, quiet]
        rfl
      cases reply with
      | ok value => exact noted
      | error error => exact .inl noted

/-- A turn whose write was confirmed and whose waits all returned responses. -/
def heardTurn (command response : Bytes) : Turn := { command, sent := true, reply := response }

/-- What remains of a turn: its command. -/
def Continues (command : Bytes) (earlier later : List Turn) : Prop :=
  ∃ current, later = current :: earlier ∧ current.command = command

theorem exactly_disciplined {expected : Nat} {command response : Bytes} {earlier : List Turn}
    {current : Turn} (log : turns history = current :: earlier)
    (asked : current.command = command)
    (heard : response.length = expected → current = heardTurn command response) :
    Disciplined profile
      (fun later value => later = heardTurn command value :: earlier ∧ value.length = expected)
      (fun later _ => Continues command earlier later) history (exactly expected response) := by
  unfold exactly
  by_cases size : response.length = expected
  · simp only [size, ne_eq, not_true_eq_false, ↓reduceIte]
    exact ⟨by rw [log, heard size], size⟩
  · simp only [size, ne_eq, not_false_eq_true, ↓reduceIte]
    exact ⟨current, log, asked⟩

theorem readExactly_disciplined (expected rounds : Nat) {command response : Bytes}
    {earlier : List Turn} (log : turns history = heardTurn command response :: earlier) :
    Disciplined profile
      (fun later value => later = heardTurn command value :: earlier ∧ value.length = expected)
      (fun later _ => Continues command earlier later) history
      (readExactly expected rounds response) := by
  induction rounds generalizing response history with
  | zero => exact exhausted_disciplined
  | succ rounds ih =>
      have ends : ∀ later, turns later = heardTurn command response :: earlier →
          Disciplined profile
            (fun later value => later = heardTurn command value :: earlier ∧
              value.length = expected)
            (fun later _ => Continues command earlier later) later
            (exactly expected response) := by
        intro later same
        exact exactly_disciplined same rfl fun _ => rfl
      by_cases short : response.length < expected
      · simp only [readExactly, short, ↓reduceIte]
        apply operate_quiet
        · trivial
        intro ticked clock same
        by_cases running : clock < settingsResponseTimeout
        · simp only [running, ↓reduceIte]
          apply operate_quiet
          · trivial
          intro tocked now again
          have current := again.trans (same.trans log)
          have waits : Disciplined profile
              (fun later outcome =>
                later = (heardTurn command response).hear (.ok outcome) :: earlier)
              (fun later _ => Continues command earlier later) tocked
              (waitFor (waitMillis settingsResponseTimeout now)) := by
            apply (waitFor_disciplined _ current).mono
            · exact fun _ _ heard => heard
            · rintro later _ ⟨error, heard⟩
              exact ⟨_, heard, rfl⟩
          apply waits.bind
          intro later outcome heard
          cases outcome with
          | response bytes =>
              simp only
              split
              · exact ⟨_, heard, rfl⟩
              · exact ih heard
          | timeout =>
              exact exactly_disciplined heard rfl fun whole => absurd whole (Nat.ne_of_lt short)
          | unavailable =>
              exact exactly_disciplined heard rfl fun whole => absurd whole (Nat.ne_of_lt short)
        · simp only [running, ↓reduceIte]
          exact ends ticked (same.trans log)
      · simp only [readExactly, short, ↓reduceIte]
        exact ends history log

/-- An observed response is what arrived between its query and the next write. -/
def Recorded (log : List Turn) (observations : List DeviceSettingObservation) : Prop :=
  ∀ observation ∈ observations, ∀ raw, observation.rawResponse = some raw →
    ∃ turn ∈ log, Answers observation.setting turn ∧ turn.reply = raw

theorem Recorded.cons {log : List Turn} {observations : List DeviceSettingObservation}
    (recorded : Recorded log observations) (turn : Turn) :
    Recorded (turn :: log) observations := by
  intro observation member raw observed
  obtain ⟨earlier, inside, answers⟩ := recorded observation member raw observed
  exact ⟨earlier, List.mem_cons_of_mem _ inside, answers⟩

theorem Recorded.append {log : List Turn} {observations : List DeviceSettingObservation}
    {observation : DeviceSettingObservation} (recorded : Recorded log observations)
    (last : Recorded log [observation]) : Recorded log (observations ++ [observation]) := by
  intro other member
  rcases List.mem_append.mp member with earlier | new
  · exact recorded other earlier
  · exact last other new

/-- A query is answered whole, or it is the last turn of the log or none. -/
theorem querySetting_disciplined (rounds : Nat) {setting : DeviceSettingKind} {log : List Turn}
    (current : turns history = log) (admitted : Admitted profile log setting.command) :
    Disciplined profile
      (fun later response => ∃ turn, later = turn :: log ∧ Answers setting turn ∧
        turn.reply = response)
      (fun later _ => later = log ∨ Continues setting.command log later) history
      (querySetting rounds setting) := by
  have writes : Disciplined profile
      (fun later _ => later = heardTurn setting.command [] :: log)
      (fun later _ => later = log ∨ Continues setting.command log later) history
      (writeCommand setting.command) := by
    have permitted : Admitted profile (turns history) setting.command := by
      rw [current]
      exact admitted
    apply (writeCommand_disciplined permitted).mono
    · intro later _ wrote
      rw [wrote, current]
      rfl
    · rintro later error (wrote | ⟨same, -⟩)
      · exact .inr ⟨_, by rw [wrote, current], rfl⟩
      · exact .inl (same.trans current)
  apply writes.bind
  intro later _ wrote
  apply (readExactly_disciplined setting.responseSize rounds wrote).mono
  · rintro last response ⟨heard, length⟩
    exact ⟨_, heard, ⟨rfl, rfl, rfl, length⟩, rfl⟩
  · intro last _ continued
    exact .inr continued

/-- The queries of the settings that are left, from inside the mode. -/
theorem querySettings_disciplined (rounds : Nat) {finished rest : List DeviceSettingKind}
    {inspection : DeviceSettingsInspection} (split : profile.settings = finished ++ rest)
    (inside : Inside profile finished (turns history))
    (recorded : Recorded (turns history) inspection.observations) :
    Program.Meets (Permits profile)
      (fun later result => Admitted profile (turns later) exitSettingsMode ∧
        Recorded (turns later) result.observations) history
      (querySettings rounds rest inspection) := by
  induction rest generalizing finished history inspection with
  | nil => exact ⟨.exit inside, recorded⟩
  | cons setting rest ih =>
      apply (Program.meets_bind _ _ _).mpr
      apply Program.Meets.mono (querySetting_disciplined rounds rfl (.query split inside))
      intro later result settled
      cases result with
      | ok response =>
          obtain ⟨turn, log, answers, reply⟩ := settled
          have split' : profile.settings = (finished ++ [setting]) ++ rest := by
            rw [split, List.append_assoc, List.singleton_append]
          apply ih split'
          · rw [log]
            exact .answered inside answers
          · apply Recorded.append
            · rw [log]
              exact recorded.cons _
            · intro observation member raw observed
              rw [List.mem_singleton.mp member] at observed ⊢
              cases observed
              exact ⟨turn, by rw [log]; exact List.mem_cons_self, answers, reply⟩
      | error error =>
          have none : Recorded (turns later) [failedSetting setting error] := by
            intro observation member raw observed
            rw [List.mem_singleton.mp member] at observed
            cases observed
          rcases settled with same | ⟨turn, log, asked⟩
          · rw [same] at none
            constructor
            · rw [same]
              exact .exit inside
            · rw [same]
              exact recorded.append none
          · constructor
            · rw [log]
              exact .abandon inside asked
            · apply Recorded.append _ none
              rw [log]
              exact recorded.cons _

/-- How a session that was inside the mode ends: with the exit as its last write, or
with a command limit that refused it, which the inspection reports. -/
def Leaves (later : List (Event sessionOperations)) (inspection : DeviceSettingsInspection) :
    Prop :=
  (∃ exit earlier, turns later = exit :: earlier ∧ exit.command = exitSettingsMode) ∨
  ∃ before low limit previous,
    later = before ++ [⟨.commandLimit, low⟩, ⟨.commandLimit, limit⟩] ∧ low < 4 ∧
    inspection.error = some (exitFailure previous
      ("command is 4 bytes but transport command limit is " ++ toString limit))

theorem leaveSettings_disciplined {inspection : DeviceSettingsInspection}
    (admitted : Admitted profile (turns history) exitSettingsMode)
    (recorded : Recorded (turns history) inspection.observations) :
    Program.Meets (Permits profile)
      (fun later result => Leaves later result ∧ Recorded (turns later) result.observations)
      history (leaveSettings inspection) := by
  apply (Program.meets_bind _ _ _).mpr
  apply Program.Meets.mono (writeCommand_disciplined admitted)
  intro later result settled
  cases result with
  | ok value =>
      have wrote : turns later = { command := exitSettingsMode, sent := true } :: turns history :=
        settled
      refine ⟨.inl ⟨_, _, wrote, rfl⟩, ?_⟩
      rw [wrote]
      exact recorded.cons _
  | error error =>
      rcases settled with wrote | ⟨same, before, low, limit, ended, refused, rfl⟩
      · refine ⟨.inl ⟨_, _, wrote, rfl⟩, ?_⟩
        rw [wrote]
        exact recorded.cons _
      · refine ⟨.inr ⟨before, low, limit, inspection.error, ended, refused, rfl⟩, ?_⟩
        change Recorded (turns later) inspection.observations
        rw [same]
        exact recorded

/-- No turn of the log entered the mode. -/
def NotEntered (log : List Turn) : Prop :=
  ∀ turn ∈ log, turn.command = enterSettingsMode → turn.sent = false

theorem notEntered_nil : NotEntered [] := by
  intro turn member
  cases member

theorem NotEntered.cons {turn : Turn} {log : List Turn} (outside : NotEntered log)
    (other : turn.command ≠ enterSettingsMode ∨ turn.sent = false) : NotEntered (turn :: log) := by
  intro earlier member asked
  rcases List.mem_cons.mp member with rfl | member
  · exact other.elim (fun different => absurd asked different) id
  · exact outside earlier member asked

/-- A step before the mode reports its error without observations. -/
theorem mapError_disciplined {computation : Session α} {success : List Turn → α → Prop}
    {failure : List Turn → String → Prop} {report : String → DeviceSettingsInspection}
    (disciplined : Disciplined profile success failure history computation)
    (outside : ∀ later error, failure later error → NotEntered later)
    (bare : ∀ error, (report error).observations = []) :
    Disciplined profile success
      (fun later inspection => NotEntered later ∧ inspection.observations = []) history
      (Fallible.mapError report computation) := by
  apply (Fallible.meets_mapError _ _).mpr
  apply disciplined.mono
  · exact fun _ _ succeeded => succeeded
  · exact fun later error failed => ⟨outside _ error failed, bare error⟩

/-- A command before the mode: unless it is confirmed, the mode is not entered by it. -/
theorem writeCommand_outside {command : Bytes} {log : List Turn} (current : turns history = log)
    (admitted : Admitted profile log command) (outside : NotEntered log) :
    Disciplined profile (fun later _ => later = heardTurn command [] :: log)
      (fun later _ => NotEntered later) history (writeCommand command) := by
  subst current
  apply (writeCommand_disciplined admitted).mono
  · intro later _ wrote
    rw [wrote]
    rfl
  · rintro later error (wrote | ⟨same, -⟩)
    · rw [wrote]
      exact outside.cons (.inr rfl)
    · rw [same]
      exact outside

/-- A status with the codes of the profile identifies it. -/
theorem identifies_of_codes {status : Bytes} (length : status.length = 32)
    (series : status.getD 3 0 = profile.seriesCode)
    (model : status.getD 4 0 = profile.modelCode) :
    Identifies profile (heardTurn statusRequest status) := by
  have third : status[3]? = some (status.getD 3 0) := by
    rw [List.getD_eq_getElem?_getD, List.getElem?_eq_getElem (by rw [length]; decide)]
    rfl
  have fourth : status[4]? = some (status.getD 4 0) := by
    rw [List.getD_eq_getElem?_getD, List.getElem?_eq_getElem (by rw [length]; decide)]
    rfl
  exact ⟨rfl, length, third.trans (congrArg some series), fourth.trans (congrArg some model)⟩

/-- The steps before the mode: a session that fails has not entered it and has observed
nothing. -/
theorem enterSettings_disciplined (rounds : Nat) (none : turns history = []) :
    Disciplined profile
      (fun later inspection => Inside profile [] later ∧ inspection.observations = [])
      (fun later inspection => NotEntered later ∧ inspection.observations = []) history
      (enterSettings rounds profile) := by
  have other : statusRequest ≠ enterSettingsMode := by decide
  have drains := @drainReads_disciplined profile history rounds 0 none
  apply (mapError_disciplined drains _ fun _ => rfl).bind
  · intro drained _ empty
    have asks := writeCommand_outside empty (.status : Admitted profile [] statusRequest)
      notEntered_nil
    apply (mapError_disciplined asks (fun _ _ outside => outside) fun _ => rfl).bind
    intro asked _ log
    have reads := @readExactly_disciplined profile asked 32 rounds _ _ _ log
    apply (mapError_disciplined reads _ fun _ => rfl).bind
    · rintro identified status ⟨heard, length⟩
      have outside : NotEntered [heardTurn statusRequest status] :=
        notEntered_nil.cons (.inl other)
      by_cases different : status.getD 3 0 ≠ profile.seriesCode ∨
          status.getD 4 0 ≠ profile.modelCode
      · simp only [different, ↓reduceIte]
        refine ⟨?_, rfl⟩
        rw [heard]
        exact outside
      · simp only [different, ↓reduceIte]
        obtain ⟨series, model⟩ := not_or.mp different
        have identifies := identifies_of_codes length (not_not.mp series) (not_not.mp model)
        have enters := writeCommand_outside heard (.enter identifies) outside
        apply (mapError_disciplined enters (fun _ _ outside => outside) fun _ => rfl).bind
        intro later _ wrote
        refine ⟨?_, rfl⟩
        rw [wrote]
        exact .entered rfl rfl identifies
    · rintro later _ ⟨turn, rfl, sent⟩
      apply notEntered_nil.cons
      rw [sent]
      exact .inl other
  · intro later _ same
    rw [same]
    exact notEntered_nil

/-- The contract of a whole session. -/
theorem retrieveDeviceSettings_disciplined (rounds : Nat) (profile : BrotherModelProfile) :
    Program.Meets (Permits profile)
      (fun later inspection => Recorded (turns later) inspection.observations ∧
        (NotEntered (turns later) ∨ Leaves later inspection)) []
      (retrieveDeviceSettings rounds profile) := by
  have enters := @enterSettings_disciplined profile [] rounds rfl
  apply (Program.meets_bind _ _ _).mpr
  apply Program.Meets.mono enters
  intro entered result settled
  have nothing : Recorded (turns entered) [] := by
    intro observation member
    cases member
  cases result with
  | error inspection =>
      obtain ⟨outside, none⟩ := settled
      refine ⟨?_, .inl outside⟩
      rw [none]
      exact nothing
  | ok inspection =>
      obtain ⟨inside, none⟩ := settled
      apply (Program.meets_bind _ _ _).mpr
      have recorded : Recorded (turns entered) inspection.observations := by
        rw [none]
        exact nothing
      apply Program.Meets.mono (querySettings_disciplined rounds rfl inside recorded)
      rintro queried inspection ⟨admitted, recorded⟩
      apply Program.Meets.mono (leaveSettings_disciplined admitted recorded)
      rintro later inspection ⟨leaves, recorded⟩
      exact ⟨recorded, .inr leaves⟩

end Session

/-- No bundled profile lists a setting twice. -/
theorem modelProfiles_nodup : ∀ profile ∈ modelProfiles, profile.settings.Nodup := by decide

/-- Device-settings session discipline.  Whatever the transport does, at every point of
every run: the mode is entered only right after a 32-byte identity that matches the
profile; a query is written only after a confirmed entry, as the next one of the profile,
with every query before it answered whole; nothing is written after an exit.  A session
that returns after a confirmed entry ends with one exit as its last write, unless the
command limit has fallen below the four bytes of the exit, which is then reported; and an
observed response has the size of its setting. -/
theorem settings_session_discipline (rounds : Nat) (profile : BrotherModelProfile)
    (trace : List (Event sessionOperations))
    (residual : Program sessionOperations DeviceSettingsInspection)
    (reached : Program.After (retrieveDeviceSettings rounds profile) trace residual) :
    (∀ before, Program.Issued trace residual before (.write enterSettingsMode) →
      ∃ status, turns before = [status] ∧ Identifies profile status) ∧
    (∀ before, ∀ setting : DeviceSettingKind,
      Program.Issued trace residual before (.write setting.command) →
        (∃ enter ∈ turns before, enter.command = enterSettingsMode ∧ enter.sent = true) ∧
        queried (turns before) ++ [setting] <+: profile.settings ∧
        (profile ∈ modelProfiles → setting ∉ queried (turns before)) ∧
        ∀ turn ∈ turns before, ∀ earlier : DeviceSettingKind, turn.command = earlier.command →
          Answers earlier turn) ∧
    (∀ before command, Program.Issued trace residual before (.write command) →
      ∀ turn ∈ turns before, turn.command ≠ exitSettingsMode) ∧
    (∀ inspection, residual = .done inspection →
      ((∃ enter ∈ turns trace, enter.command = enterSettingsMode ∧ enter.sent = true) →
        Leaves trace inspection) ∧
      ∀ observation ∈ inspection.observations, ∀ raw, observation.rawResponse = some raw →
        raw.length = observation.setting.responseSize) := by
  have disciplined := retrieveDeviceSettings_disciplined rounds profile
  have admitted : ∀ before command,
      Program.Issued trace residual before (.write command) →
        Admitted profile (turns before) command := by
    intro before command issued
    have permitted := disciplined.issued reached issued
    rw [List.nil_append] at permitted
    exact permitted
  refine ⟨?_, ?_, ?_, ?_⟩
  · intro before issued
    exact (admitted before _ issued).identified
  · intro before setting issued
    obtain ⟨finished, rest, split, inside⟩ := (admitted before _ issued).inside
    refine ⟨inside.enters, ?_, ?_, inside.answers⟩
    · rw [inside.queried_eq, split]
      exact ⟨rest, by simp⟩
    · intro bundled again
      have distinct := modelProfiles_nodup profile bundled
      rw [inside.queried_eq] at again
      rw [split, List.nodup_append] at distinct
      exact distinct.2.2 setting again setting List.mem_cons_self rfl
  · intro before command issued
    exact (admitted before _ issued).notLeft
  · intro inspection returned
    subst returned
    have settled := disciplined.after reached
    rw [List.nil_append] at settled
    obtain ⟨recorded, ends⟩ := settled
    constructor
    · rintro ⟨enter, member, asked, sent⟩
      rcases ends with outside | leaves
      · have unsent := outside enter member asked
        rw [sent] at unsent
        cases unsent
      · exact leaves
    · intro observation member raw observed
      obtain ⟨turn, _, answers, reply⟩ := recorded observation member raw observed
      rw [← reply]
      exact answers.length

/-- A transport that confirms every write and reads its command limits and the outcomes
of its waits from lists. -/
def scriptedSession : List Nat × List WaitOutcome → (op : SessionOperation) →
    Option (op.Reply × (List Nat × List WaitOutcome))
  | (limits, waits), .commandLimit => some (limits.headD 512, limits.tail, waits)
  | script, .write _ => some (.ok (), script)
  | (limits, waits), .waitResponse _ =>
      some (.ok (waits.headD .timeout), limits, waits.tail)
  | script, .delay _ => some ((), script)
  | script, .elapsed => some ((0 : Nat), script)
  | _, .exhausted => none

/-- `ql-1100`. -/
def ql1100 : BrotherModelProfile := ⟨"ql-1100", "Brother QL-1100", 0x34, 0x43, DeviceSettingKind.common⟩

/-- Nothing stale, the identity of a QL-1100 in two chunks, and the command mode. -/
def ql1100Waits : List WaitOutcome := [
  .timeout,
  .response [0x80, 0x20, 0x42, 0x34, 0x43],
  .response (List.replicate 27 0),
  .response (List.replicate 32 0)]

/-- A session with a QL-1100 over a scripted transport. -/
def ql1100Session (limits : List Nat) (waits : List WaitOutcome) :=
  Program.advance scriptedSession (limits, waits) (retrieveDeviceSettings 8 ql1100)

theorem ql1100Session_after (limits : List Nat) (waits : List WaitOutcome) :
    Program.After (retrieveDeviceSettings 8 ql1100) (ql1100Session limits waits).1
      (ql1100Session limits waits).2.1 :=
  Program.after_advance _ _ _

theorem settings_session_discipline_ql1100 :
    (turns (ql1100Session [] ql1100Waits).1).reverse.map Turn.command =
      [statusRequest, enterSettingsMode, DeviceSettingKind.commandMode.command,
        DeviceSettingKind.autoCut.command, exitSettingsMode] ∧
    ∀ before command, Program.Issued (ql1100Session [] ql1100Waits).1
      (ql1100Session [] ql1100Waits).2.1 before (.write command) →
        ∀ turn ∈ turns before, turn.command ≠ exitSettingsMode :=
  ⟨by decide +kernel, (settings_session_discipline 8 ql1100 _ _
    (ql1100Session_after [] ql1100Waits)).2.2.1⟩

/-- When the command limit falls to three bytes inside the mode, the session returns
without a written exit. -/
theorem narrowed_session_stays : ∃ trace inspection,
    Program.After (retrieveDeviceSettings 8 ql1100) trace (.done inspection) ∧
    (∃ enter ∈ turns trace, enter.command = enterSettingsMode ∧ enter.sent = true) ∧
    ∀ turn ∈ turns trace, turn.command ≠ exitSettingsMode := by
  have reached := ql1100Session_after [20, 20, 20, 3, 3] (ql1100Waits.take 3)
  obtain ⟨inspection, returned⟩ : ∃ inspection,
      (ql1100Session [20, 20, 20, 3, 3] (ql1100Waits.take 3)).2.1 = .done inspection := ⟨_, rfl⟩
  rw [returned] at reached
  exact ⟨_, inspection, reached, by decide +kernel, by decide +kernel⟩

end PrinterSdk.Native
