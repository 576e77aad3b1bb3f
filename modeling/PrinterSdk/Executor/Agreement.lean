import PrinterSdk.Executor.Execute
import PrinterSdk.Protocol.Planner

/-!
# Planner and executor

What the planner puts into a plan passes every check the executor's preflight makes
on single actions.  The two crates disagree on one number only: the planner allows
`ProcessingLimits::max_plan_actions` actions, the executor `MAX_PLAN_ACTIONS`.
-/

namespace PrinterSdk.Executor

open PrinterSdk.Data PrinterSdk.Protocol

/-! ## Actions that preflight accepts -/

/-- An action the preflight checks accept whatever the command limit is, but for the
length of a command. -/
def Acceptable : Action → Prop
  | .rasterWrite _ logicalChunk _ => logicalChunk ≠ 0
  | .waitForResponse timeoutMs _ validation => timeoutMs ≠ 0 ∧ isVariableLength validation = false
  | .collectResponse _ _ _ _ => False
  | _ => True

/-- The length of a command write. -/
def commandLength : Action → Nat
  | .commandWrite _ bytes _ => bytes.length
  | _ => 0

/-- The length of the longest command write. -/
def longestCommand (actions : List Action) : Nat :=
  (actions.map commandLength).foldr max 0

theorem commandLength_le_longestCommand {actions : List Action} {action : Action}
    (member : action ∈ actions) : commandLength action ≤ longestCommand actions := by
  induction actions with
  | nil => cases member
  | cons first rest ih =>
      change _ ≤ max (commandLength first) (longestCommand rest)
      cases List.mem_cons.mp member with
      | inl here =>
          rw [here]
          exact Nat.le_max_left _ _
      | inr later => exact Nat.le_trans (ih later) (Nat.le_max_right _ _)

theorem longestCommand_le {actions : List Action} {limit : Nat}
    (bounded : ∀ action ∈ actions, commandLength action ≤ limit) :
    longestCommand actions ≤ limit := by
  induction actions with
  | nil => exact Nat.zero_le _
  | cons first rest ih =>
      change max (commandLength first) (longestCommand rest) ≤ _
      apply Nat.max_le.mpr
      refine ⟨bounded first List.mem_cons_self, ih ?_⟩
      intro action member
      exact bounded action (List.mem_cons_of_mem first member)

/-- Repeating a body between the job boundaries adds no longer command. -/
theorem longestCommand_copies_le (printer : PrinterDefinition) (copies : Nat)
    (body : List Action) :
    longestCommand (jobPlan printer (List.replicate copies body).flatten).actions ≤
      longestCommand body := by
  apply longestCommand_le
  intro action member
  simp only [jobPlan, List.mem_append, List.mem_singleton, List.mem_flatten] at member
  rcases member with (rfl | ⟨block, repeated, inside⟩) | rfl
  · exact Nat.zero_le _
  · rw [List.eq_of_mem_replicate repeated] at inside
    exact commandLength_le_longestCommand inside
  · exact Nat.zero_le _

theorem preflightAction_acceptable {action : Action} {commandLimit : Nat}
    (acceptable : Acceptable action) (fits : commandLength action ≤ commandLimit)
    (index retained : Nat) :
    preflightAction commandLimit index retained action = .ok retained := by
  cases action with
  | commandWrite name bytes atomic =>
      have notLonger : ¬bytes.length > commandLimit := Nat.not_lt.mpr fits
      simp [preflightAction, notLonger]
  | rasterWrite bytes logicalChunk delay =>
      have positive : logicalChunk ≠ 0 := acceptable
      simp [preflightAction, positive]
  | waitForResponse timeoutMs fallback validation =>
      have bounded : timeoutMs ≠ 0 ∧ isVariableLength validation = false := acceptable
      simp [preflightAction, bounded.1, bounded.2]
  | collectResponse => exact acceptable.elim
  | jobBoundary => rfl
  | subscribeNotifications => rfl
  | delay => rfl

theorem preflightActions_acceptable {actions : List Action} {commandLimit : Nat}
    (acceptable : ∀ action ∈ actions, Acceptable action)
    (fits : ∀ action ∈ actions, commandLength action ≤ commandLimit) (index retained : Nat) :
    preflightActions commandLimit index retained actions = .ok () := by
  induction actions generalizing index with
  | nil => rfl
  | cons action rest ih =>
      have accepted := preflightAction_acceptable (acceptable action (by simp))
        (fits action (by simp)) index retained
      unfold preflightActions
      rw [accepted]
      apply ih
      · intro later member
        exact acceptable later (List.mem_cons_of_mem action member)
      · intro later member
        exact fits later (List.mem_cons_of_mem action member)

/-! ## What the planner emits -/

/-- Actions as the planner emits them: acceptable, and with something to command. -/
structure Emitted (actions : List Action) : Prop where
  acceptable : ∀ action ∈ actions, Acceptable action
  commands : ∃ action ∈ actions, 0 < commandLength action

@[simp] theorem acceptable_cmd (name : String) (bytes : Bytes) : Acceptable (cmd name bytes) :=
  trivial

@[simp] theorem acceptable_delay (milliseconds : Nat) : Acceptable (delay milliseconds) :=
  trivial

@[simp] theorem acceptable_rasterPaced (printer : PrinterDefinition) (bytes : Bytes)
    (streaming : Bool) : Acceptable (rasterPaced printer bytes streaming) :=
  printer.chunkSize_ne_zero

@[simp] theorem acceptable_subscribe : Acceptable .subscribeNotifications := trivial

@[simp] theorem acceptable_boundary (kind : Boundary) : Acceptable (.jobBoundary kind) := trivial

@[simp] theorem commandLength_cmd (name : String) (bytes : Bytes) :
    commandLength (cmd name bytes) = bytes.length := rfl

section

variable {printer : PrinterDefinition} {raster : Raster} {options : Options}
variable {actions : List Action}

/-- Repeating acceptable actions keeps them acceptable. -/
theorem acceptable_replicate {body : List Action} (copies : Nat)
    (acceptable : ∀ action ∈ body, Acceptable action) :
    ∀ action ∈ (List.replicate copies body).flatten, Acceptable action := by
  intro action member
  obtain ⟨block, repeated, inside⟩ := List.mem_flatten.mp member
  rw [List.eq_of_mem_replicate repeated] at inside
  exact acceptable action inside

theorem Emitted.append {left right : List Action} (emitted : Emitted left)
    (acceptable : ∀ action ∈ right, Acceptable action) : Emitted (left ++ right) where
  acceptable := by
    intro action member
    cases List.mem_append.mp member with
    | inl here => exact emitted.acceptable action here
    | inr there => exact acceptable action there
  commands := by
    obtain ⟨action, member, positive⟩ := emitted.commands
    exact ⟨action, List.mem_append_left right member, positive⟩

theorem emitted_mSeries (planned : mSeriesActions printer raster options = .ok actions) :
    Emitted actions := by
  simp only [mSeriesActions, except_bind_eq_ok, except_pure_eq_ok] at planned
  obtain ⟨heat, -, rfl⟩ := planned
  exact ⟨by simp, _, List.mem_cons_self, by simp⟩

theorem emitted_m02 (planned : m02Actions printer raster options = .ok actions) :
    Emitted actions := by
  simp only [m02Actions, except_bind_eq_ok, except_pure_eq_ok] at planned
  obtain ⟨heat, -, rfl⟩ := planned
  exact ⟨by simp, _, List.mem_cons_self, by simp⟩

theorem emitted_m04 (planned : m04Actions printer raster options = .ok actions) :
    Emitted actions := by
  simp only [m04Actions, Except.ok.injEq] at planned
  subst planned
  refine Emitted.append (Emitted.append ⟨by simp, _, List.mem_cons_self, by simp⟩ ?_) (by simp)
  exact acceptable_replicate _ (by simp)

theorem emitted_m110 (planned : m110Actions printer raster options = .ok actions) :
    Emitted actions := by
  simp only [m110Actions, except_bind_eq_ok, except_pure_eq_ok] at planned
  obtain ⟨density, -, rfl⟩ := planned
  exact ⟨by simp, _, List.mem_cons_self, by simp⟩

theorem emitted_dSeries (planned : dSeriesActions printer raster options = .ok actions) :
    Emitted actions := by
  simp only [dSeriesActions, except_bind_eq_ok, except_pure_eq_ok] at planned
  obtain ⟨heat, -, rfl⟩ := planned
  exact ⟨by simp, cmd "ESC d 0 print + gap detect" [0x1b, 0x64, 0], by simp, by simp⟩

theorem emitted_p12 (planned : p12Actions printer raster options = .ok actions) :
    Emitted actions := by
  simp only [p12Actions, Except.ok.injEq] at planned
  subst planned
  refine ⟨?_, cmd "P12 feed" [0x1b, 0x64, 0x0d], by simp, by simp⟩
  intro action member
  simp only [List.mem_append, List.mem_flatMap] at member
  rcases member with (first | ⟨packet, -, init⟩) | last
  · simp_all
  · simp only [List.mem_cons, List.not_mem_nil, or_false] at init
    rcases init with rfl | rfl
    · exact acceptable_cmd _ _
    · exact ⟨by decide, rfl⟩
  · revert action
    simp

theorem emitted_tspl (planned : tsplActions printer raster options = .ok actions) :
    Emitted actions := by
  simp only [tsplActions, except_bind_eq_ok, except_pure_eq_ok] at planned
  obtain ⟨width, -, height, -, rfl⟩ := planned
  refine ⟨?_, cmd "bitmap terminator" (asBytes "\r\n"), by simp, by decide⟩
  intro action member
  simp only [List.mem_append, List.mem_flatMap] at member
  rcases member with ⟨line, -, setup⟩ | last
  · simp only [List.mem_cons, List.not_mem_nil, or_false] at setup
    rcases setup with rfl | rfl
    · exact acceptable_cmd _ _
    · exact acceptable_delay _
  · revert action
    simp

theorem emitted_brother (planned : brotherActions printer raster options = .ok actions) :
    Emitted actions := by
  simp only [brotherActions, except_bind_eq_ok, except_pure_eq_ok] at planned
  obtain ⟨media, -, _, -, _, -, lines, -, rfl⟩ := planned
  have wait : Acceptable (.waitForResponse 3000 0 .brotherStatus32) := ⟨by decide, rfl⟩
  have setup : Emitted [cmd "switch to raster mode" [0x1b, 0x69, 0x61, 1],
      cmd "invalidate" (List.replicate printer.invalidateBytes.toNat 0),
      cmd "ESC @ init" [0x1b, 0x40],
      cmd "switch to raster mode" [0x1b, 0x69, 0x61, 1],
      cmd "ESC i S status request" [0x1b, 0x69, 0x53],
      .waitForResponse 3000 0 .brotherStatus32,
      cmd "ESC i z print information" (brotherInformation raster options media)] :=
    ⟨by simp [wait], _, List.mem_cons_self, by simp⟩
  refine (((setup.append ?_).append ?_).append ?_).append ?_
  · split <;> simp
  · simp
  · split <;> simp
  · simp

theorem emitted_family (planned : familyActions printer raster options = .ok actions) :
    Emitted actions := by
  unfold familyActions at planned
  split at planned
  · exact emitted_mSeries planned
  · exact emitted_m02 planned
  · exact emitted_m04 planned
  · exact emitted_m110 planned
  · exact emitted_dSeries planned
  · exact emitted_p12 planned
  · exact emitted_tspl planned
  · exact emitted_brother planned

theorem emitted_pageBody (planned : pageBody printer raster options = .ok actions) :
    Emitted actions := by
  simp only [pageBody, except_bind_eq_ok, except_pure_eq_ok] at planned
  obtain ⟨family, planned, rfl⟩ := planned
  have emitted := emitted_family planned
  obtain ⟨action, member, positive⟩ := emitted.commands
  refine ⟨?_, action, List.mem_append_right _ member, positive⟩
  intro action member
  cases List.mem_append.mp member with
  | inl subscribe =>
      split at subscribe <;> simp_all
  | inr own => exact emitted.acceptable action own

theorem emitted_jobPlan (emitted : Emitted actions) :
    Emitted (jobPlan printer actions).actions := by
  obtain ⟨action, member, positive⟩ := emitted.commands
  refine ⟨?_, action, by simp [jobPlan, member], positive⟩
  intro action member
  simp only [jobPlan, List.mem_append, List.mem_singleton] at member
  rcases member with (rfl | own) | rfl
  · exact acceptable_boundary _
  · exact emitted.acceptable action own
  · exact acceptable_boundary _

/-- Copies repeat the body, and there is at least one. -/
theorem Emitted.replicate {copies : Nat} (emitted : Emitted actions) (some : 0 < copies) :
    Emitted (List.replicate copies actions).flatten where
  acceptable := acceptable_replicate copies emitted.acceptable
  commands := by
    obtain ⟨action, member, positive⟩ := emitted.commands
    have block : actions ∈ List.replicate copies actions :=
      List.mem_replicate.mpr ⟨Nat.pos_iff_ne_zero.mp some, rfl⟩
    exact ⟨action, List.mem_flatten.mpr ⟨actions, block, member⟩, positive⟩

theorem emitted_planInner {limits : ProcessingLimits} {plan : Plan}
    (planned : planInner printer raster options limits = .ok plan) : Emitted plan.actions := by
  simp only [planInner, except_bind_eq_ok] at planned
  obtain ⟨_, -, planned⟩ := planned
  split at planned
  · rename_i several
    simp only [except_bind_eq_ok, except_pure_eq_ok] at planned
    obtain ⟨_, -, body, page, _, -, _, -, _, -, _, -, _, -, rfl⟩ := planned
    have positive : 0 < options.copies.toNat :=
      Nat.lt_of_le_of_lt (Nat.zero_le _) (UInt16.lt_iff_toNat_lt.mp several.2)
    exact emitted_jobPlan ((emitted_pageBody page).replicate positive)
  · simp only [except_bind_eq_ok, except_pure_eq_ok] at planned
    obtain ⟨body, page, rfl⟩ := planned
    exact emitted_jobPlan (emitted_pageBody page)

end

/-- A plan of the planner passes preflight, on a transport that can carry its longest
command, exactly when it keeps to the executor's own action count. -/
theorem preflight_planned (printer : PrinterDefinition) (raster : Raster) (options : Options)
    (planned : Plan) (payloadLimit commandLimit : Nat)
    (returned : plan printer raster options = .ok planned) (payload : 0 < payloadLimit)
    (command : longestCommand planned.actions ≤ commandLimit) :
    preflight planned payloadLimit commandLimit =
      if planned.actions.length ≤ maxPlanActions then .ok ()
      else .error (invalid 0 "plan action count exceeds executor limit") := by
  simp only [plan, planWithLimits, except_bind_eq_ok, except_pure_eq_ok] at returned
  obtain ⟨found, inner, _, -, same⟩ := returned
  rw [same] at inner
  have emitted := emitted_planInner inner
  have fits : ∀ action ∈ planned.actions, commandLength action ≤ commandLimit := by
    intro action member
    exact Nat.le_trans (commandLength_le_longestCommand member) command
  have positive : commandLimit ≠ 0 := by
    obtain ⟨action, member, some⟩ := emitted.commands
    exact Nat.pos_iff_ne_zero.mp (Nat.lt_of_lt_of_le some (fits action member))
  unfold preflight
  rw [if_neg (Nat.pos_iff_ne_zero.mp payload), if_neg positive]
  by_cases within : planned.actions.length ≤ maxPlanActions
  · rw [if_neg (Nat.not_lt.mpr within), if_pos within]
    exact preflightActions_acceptable emitted.acceptable fits 0 0
  · rw [if_pos (Nat.lt_of_not_le within), if_neg within]

/-- The `p12` printer of the catalogue. -/
def p12Printer : PrinterDefinition := gattPrinter "p12" .p12 203

/-- One row of one byte. -/
def smallRaster : Raster := ⟨1, 1, [0x80]⟩

theorem preflight_planned_p12 :
    ∃ planned, plan p12Printer smallRaster {} = .ok planned ∧
      preflight planned 20 12 =
        if planned.actions.length ≤ maxPlanActions then .ok ()
        else .error (invalid 0 "plan action count exceeds executor limit") := by
  have longest : (plan p12Printer smallRaster {}).toOption.map
      (fun planned => longestCommand planned.actions) = some 12 := by decide +kernel
  cases returned : plan p12Printer smallRaster {} with
  | error fault =>
      rw [returned] at longest
      cases longest
  | ok planned =>
      rw [returned] at longest
      have command : longestCommand planned.actions ≤ 12 :=
        Nat.le_of_eq (Option.some.inj longest)
      exact ⟨planned, rfl, preflight_planned _ _ _ _ _ _ returned (by decide) command⟩

/-- A thousand copies on a P12: the planner accepts nineteen thousand actions, and the
executor refuses them on a transport that carries every command. -/
theorem p12_copies_refused :
    p12Printer ∈ bundled ∧
      ∃ planned, plan p12Printer smallRaster { copies := 1000 } = .ok planned ∧
        longestCommand planned.actions ≤ 12 ∧
        preflight planned 20 12 =
          .error (invalid 0 "plan action count exceeds executor limit") := by
  refine ⟨by decide, ?_⟩
  have page : (pageBody p12Printer smallRaster {}).toOption.map (fun body =>
      (body.length, ownedTotal body, longestCommand body)) = some (19, 186, 12) := by
    decide +kernel
  cases returned : pageBody p12Printer smallRaster {} with
  | error fault =>
      rw [returned] at page
      cases page
  | ok body =>
      rw [returned] at page
      simp only [Except.toOption, Option.map_some, Option.some.injEq, Prod.mk.injEq] at page
      obtain ⟨length, owned, longest⟩ := page
      have planned : plan p12Printer smallRaster { copies := 1000 } =
          .ok (jobPlan p12Printer (List.replicate 1000 body).flatten) :=
        planWithLimits_copies ⟨by decide, by decide⟩ (by decide +kernel) (by decide +kernel)
          returned (by rw [length]; decide) (by rw [owned]; decide) ⟨by decide, by decide⟩
      have bounded := longestCommand_copies_le p12Printer 1000 body
      rw [longest] at bounded
      have many : (jobPlan p12Printer (List.replicate 1000 body).flatten).actions.length =
          19002 := by
        rw [length_copies, length]
      refine ⟨_, planned, bounded, ?_⟩
      rw [preflight, if_neg (by decide), if_neg (by decide), many]
      rfl

end PrinterSdk.Executor
