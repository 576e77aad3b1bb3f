import PrinterSdk.Protocol.BrotherRaster

/-!
# Brother batches

A batch prints rasters of different lengths in one job.  The setup of the job and the
cutter configuration are written with the first page; every later page keeps only its own
print information, modes, raster and print command.
-/

namespace PrinterSdk.Protocol

open PrinterSdk.Data

/-! ## The planner of a batch -/

/-- The action is the print-information command. -/
def isPrintInformation : Action → Bool
  | .commandWrite name _ _ => name = "ESC i z print information"
  | _ => false

/-- The action configures the cutter. -/
def isCutterCommand : Action → Bool
  | .commandWrite name _ _ => name = "ESC i M autocut" ∨ name = "ESC i A cut every"
  | _ => false

section

variable (printer : PrinterDefinition) (options : Options) (limits : ProcessingLimits)

/-- The loop of `plan_batch_with_limits`, at the page of the given index. -/
def batchLoop (actions : List Action) (index : Nat) : List Raster → Outcome PlanError (List Action)
  | [] => .ok actions
  | raster :: rest => do
      let page ← planInner printer raster options limits
      let body := (page.actions.drop 1).dropLast
      if index = 0 then
        batchLoop (actions ++ [.jobBoundary .start] ++ body) (index + 1) rest
      else
        let pageStart ← okOr (body.findIdx? isPrintInformation)
          (.error (.unsupported "Brother batch page boundary"))
        batchLoop (actions ++ (body.drop pageStart).filter fun action => !isCutterCommand action)
          (index + 1) rest

/-- `plan_batch_with_limits`. -/
def planBatchWithLimits (rasters : List Raster) : Outcome PlanError Plan := do
  refuseIf (rasters.isEmpty = true) (.error (.range "batch documents"))
  refuseIf (printer.protocol ≠ .brother) (.error (.unsupported "native variable-raster batch"))
  refuseIf (options.copies ≠ 1) (.error (.range "batch copies must be expanded"))
  let actions ← batchLoop printer options limits [] 0 rasters
  let actions := actions ++ [.jobBoundary .end]
  enforcePlanLimits actions limits
  return { protocol := printer.protocol, sourceCommit := sourceCommit, actions }

end

/-! ## Pages of a batch -/

section

variable (printer : PrinterDefinition) (options : Options) (media : BrotherMedia)

/-- What a later page keeps of its body. -/
def brotherLater (raster : Raster) (lines : Bytes) : List Action :=
  brotherInfo raster options media ::
    (brotherModes printer options media ++ brotherPrint printer options lines)

end

section

variable {printer : PrinterDefinition} {options : Options} {limits : ProcessingLimits}
  {media : BrotherMedia} {raster : Raster} {lines : Bytes}

theorem isPrintInformation_iff (action : Action) :
    isPrintInformation action = true ↔ action.brotherPart = .information := by
  cases action with
  | commandWrite name bytes atomic =>
      simp only [isPrintInformation, Action.brotherPart, decide_eq_true_eq]
      split
      · next same => simp [same]
      · next other =>
          simp only [other, false_iff]
          split
          · simp
          · split
            · simp
            · split <;> simp
  | _ => simp [isPrintInformation, Action.brotherPart]

theorem isCutterCommand_iff (action : Action) :
    isCutterCommand action = true ↔ action.brotherPart = .cutter := by
  cases action with
  | commandWrite name bytes atomic =>
      simp only [isCutterCommand, Action.brotherPart, decide_eq_true_eq]
      split
      · next same => simp [same]
      · split
        · next own => simp [own]
        · next other =>
            simp only [other, false_iff]
            split
            · simp
            · split <;> simp
  | _ => simp [isCutterCommand, Action.brotherPart]

/-- The part of a body from the print information on, without the cutter configuration. -/
def laterPart (body : List Action) : List Action :=
  (body.dropWhile fun action => !isPrintInformation action).filter fun action =>
    !isCutterCommand action

theorem not_information_brotherSetup :
    ∀ action ∈ brotherSetup printer, isPrintInformation action = false := by
  intro action member
  apply Bool.eq_false_iff.mpr
  intro found
  have part := (isPrintInformation_iff action).mp found
  rw [part_brotherSetup action member] at part
  cases part

theorem findIdx?_brotherBody :
    (brotherBody printer raster options media lines).findIdx? isPrintInformation =
      some (brotherSetup printer).length := by
  rw [brotherBody, List.findIdx?_append,
    List.findIdx?_eq_none_iff.mpr not_information_brotherSetup, List.findIdx?_cons]
  have found : isPrintInformation (brotherInfo raster options media) = true :=
    (isPrintInformation_iff _).mpr part_brotherInfo
  simp [found]

theorem filter_not_cutter {own : BrotherPart} {actions : List Action}
    (uniform : ∀ action ∈ actions, action.brotherPart = own) (other : own ≠ .cutter) :
    actions.filter (fun action => !isCutterCommand action) = actions := by
  apply List.filter_eq_self.mpr
  intro action member
  rw [Bool.not_eq_true', Bool.eq_false_iff]
  intro found
  exact other ((uniform action member).symm.trans ((isCutterCommand_iff action).mp found))

theorem filter_brotherRest :
    (brotherInfo raster options media :: (brotherCutter options ++
      (brotherModes printer options media ++ brotherPrint printer options lines))).filter
        (fun action => !isCutterCommand action) =
      brotherLater printer options media raster lines := by
  have cut : (brotherCutter options).filter (fun action => !isCutterCommand action) = [] := by
    apply List.filter_eq_nil_iff.mpr
    intro action member
    rw [(isCutterCommand_iff action).mpr (part_brotherCutter action member)]
    simp
  have modes := filter_not_cutter
    (@part_brotherModes printer options media) (by decide)
  rw [List.filter_cons, List.filter_append, List.filter_append, cut, modes]
  rfl

theorem laterPart_brotherBody :
    laterPart (brotherBody printer raster options media lines) =
      brotherLater printer options media raster lines := by
  rw [laterPart, brotherBody, List.dropWhile_append_of_pos]
  · exact filter_brotherRest
  · intro action member
    rw [not_information_brotherSetup action member]
    rfl

theorem drop_brotherBody :
    (((brotherBody printer raster options media lines).drop (brotherSetup printer).length).filter
        fun action => !isCutterCommand action) =
      brotherLater printer options media raster lines := by
  rw [brotherBody, List.drop_left]
  exact filter_brotherRest

theorem body_jobPlan (body : List Action) :
    ((jobPlan printer body).actions.drop 1).dropLast = body :=
  List.dropLast_concat

/-- A page of a Brother job with its lines. -/
structure PagePlan (printer : PrinterDefinition) (options : Options) (limits : ProcessingLimits)
    (media : BrotherMedia) (page : Raster × Bytes) : Prop where
  planned : planInner printer page.1 options limits =
    .ok (jobPlan printer (brotherBody printer page.1 options media page.2))
  lines : page.2 = page.1.rows.flatMap (brotherRasterLine (brotherCompress printer options))

/-- A planned page has its medium and its lines. -/
theorem pagePlan_of_planInner {page : Plan} (brother : printer.protocol = .brother)
    (one : options.copies = 1) (planned : planInner printer raster options limits = .ok page) :
    ∃ media lines, options.brotherMedia = some media ∧
      PagePlan printer options limits media (raster, lines) ∧
      page = jobPlan printer (brotherBody printer raster options media lines) := by
  obtain ⟨media, lines, given, written, repeated⟩ := planInner_brother brother planned
  have single : page = jobPlan printer (brotherBody printer raster options media lines) := by
    rw [repeated, one]
    change jobPlan printer (List.replicate 1 _).flatten = _
    rw [List.replicate_one, List.flatten_singleton]
  refine ⟨media, lines, given, ⟨?_, written⟩, single⟩
  rw [← single]
  exact planned

/-- The loop adds what the later pages keep, in their order. -/
theorem batchLoop_later (brother : printer.protocol = .brother) (one : options.copies = 1)
    (given : options.brotherMedia = some media) {index : Nat} (behind : index ≠ 0)
    {rasters : List Raster} {actions found : List Action}
    (returned : batchLoop printer options limits actions index rasters = .ok found) :
    ∃ pages : List (Raster × Bytes), pages.map Prod.fst = rasters ∧
      (∀ page ∈ pages, PagePlan printer options limits media page) ∧
      found = actions ++ pages.flatMap fun page =>
        brotherLater printer options media page.1 page.2 := by
  induction rasters generalizing actions index with
  | nil =>
      cases returned
      exact ⟨[], rfl, fun _ => nofun, (List.append_nil _).symm⟩
  | cons raster rest ih =>
      simp only [batchLoop, except_bind_eq_ok] at returned
      obtain ⟨page, planned, returned⟩ := returned
      obtain ⟨own, lines, same, pagePlan, whole⟩ := pagePlan_of_planInner brother one planned
      cases given.symm.trans same
      rw [if_neg behind, whole, body_jobPlan] at returned
      simp only [except_bind_eq_ok, okOr_eq_ok] at returned
      obtain ⟨start, located, returned⟩ := returned
      rw [findIdx?_brotherBody] at located
      cases located
      rw [drop_brotherBody] at returned
      obtain ⟨pages, rasters, plans, joined⟩ := ih (Nat.succ_ne_zero index) returned
      refine ⟨(raster, lines) :: pages, ?_, ?_, ?_⟩
      · rw [List.map_cons, rasters]
      · exact List.forall_mem_cons.mpr ⟨pagePlan, plans⟩
      · rw [joined, List.append_assoc]
        rfl

/-- The actions of a batch with the given pages. -/
def batchActions (printer : PrinterDefinition) (options : Options) (media : BrotherMedia)
    (first : Raster × Bytes) (later : List (Raster × Bytes)) : List Action :=
  [.jobBoundary .start] ++ (brotherBody printer first.1 options media first.2 ++
    later.flatMap fun page => brotherLater printer options media page.1 page.2) ++
    [.jobBoundary .end]

/-- The pages of an accepted batch. -/
theorem planBatchWithLimits_eq_ok {rasters : List Raster} {batch : Plan}
    (brother : printer.protocol = .brother)
    (returned : planBatchWithLimits printer options limits rasters = .ok batch) :
    ∃ media first later, options.copies = 1 ∧ options.brotherMedia = some media ∧
      rasters = first.1 :: later.map Prod.fst ∧
      (∀ page ∈ first :: later, PagePlan printer options limits media page) ∧
      batch.actions = batchActions printer options media first later ∧
      batch.protocol = printer.protocol ∧ batch.sourceCommit = sourceCommit ∧
      enforcePlanLimits batch.actions limits = .ok () := by
  simp only [planBatchWithLimits, except_bind_eq_ok, except_pure_eq_ok, refuseIf_eq_ok] at returned
  obtain ⟨_, present, _, -, _, copies, found, looped, _, enforced, rfl⟩ := returned
  have one : options.copies = 1 := Decidable.not_not.mp copies
  cases rasters with
  | nil => exact absurd rfl present
  | cons raster rest =>
      simp only [batchLoop, except_bind_eq_ok] at looped
      obtain ⟨page, planned, looped⟩ := looped
      obtain ⟨media, lines, given, pagePlan, whole⟩ := pagePlan_of_planInner brother one planned
      rw [if_pos trivial, whole, body_jobPlan] at looped
      obtain ⟨pages, rasters, plans, joined⟩ :=
        batchLoop_later brother one given (Nat.succ_ne_zero 0) looped
      refine ⟨media, (raster, lines), pages, one, given, by rw [rasters],
        List.forall_mem_cons.mpr ⟨pagePlan, plans⟩, ?_, rfl, rfl, enforced⟩
      rw [joined]
      simp [batchActions]

/-! ## Sizes -/

/-- The weight of a list of actions. -/
def weight (weigh : Action → Nat) (actions : List Action) : Nat := (actions.map weigh).sum

theorem weight_append (weigh : Action → Nat) (left right : List Action) :
    weight weigh (left ++ right) = weight weigh left + weight weigh right := by
  simp [weight]

theorem weight_cons (weigh : Action → Nat) (action : Action) (rest : List Action) :
    weight weigh (action :: rest) = weigh action + weight weigh rest := by
  simp [weight]

theorem weight_le_flatMap {α : Type} (weigh : Action → Nat) (part : α → List Action)
    {items : List α} {item : α} (member : item ∈ items) :
    weight weigh (part item) ≤ weight weigh (items.flatMap part) := by
  obtain ⟨before, after, rfl⟩ := List.append_of_mem member
  rw [List.flatMap_append, List.flatMap_cons, weight_append, weight_append]
  omega

theorem weight_brotherBody (weigh : Action → Nat) :
    weight weigh (brotherBody printer raster options media lines) =
      weight weigh (brotherSetup printer) + weight weigh (brotherCutter options) +
        weight weigh (brotherLater printer options media raster lines) := by
  simp only [brotherBody, brotherLater, weight_append, weight_cons]
  omega

/-- No page of a batch weighs more than the batch. -/
theorem weight_page_le (weigh : Action → Nat) {first page : Raster × Bytes}
    {later : List (Raster × Bytes)} (member : page ∈ first :: later) :
    weight weigh (jobPlan printer (brotherBody printer page.1 options media page.2)).actions ≤
      weight weigh (batchActions printer options media first later) := by
  have whole : weight weigh (brotherLater printer options media page.1 page.2) ≤
      weight weigh (brotherLater printer options media first.1 first.2) +
        weight weigh (later.flatMap fun page =>
          brotherLater printer options media page.1 page.2) := by
    have less := weight_le_flatMap weigh
      (fun page : Raster × Bytes => brotherLater printer options media page.1 page.2) member
    rw [List.flatMap_cons, weight_append] at less
    exact less
  simp only [jobPlan, batchActions, weight_append, weight_brotherBody]
  omega

theorem enforcePlanLimits_page (machine : limits.Machine) {first page : Raster × Bytes}
    {later : List (Raster × Bytes)} (member : page ∈ first :: later)
    (enforced : enforcePlanLimits (batchActions printer options media first later) limits = .ok ()) :
    enforcePlanLimits (jobPlan printer (brotherBody printer page.1 options media page.2)).actions
      limits = .ok () := by
  obtain ⟨few, small⟩ := within_of_enforcePlanLimits enforced
  have count : ∀ actions : List Action, weight (fun _ => 1) actions = actions.length := by
    intro actions
    simp [weight]
  apply enforcePlanLimits_eq_ok machine
  · have less := @weight_page_le printer options media (fun _ => 1) _ _ _ member
    rw [count, count] at less
    exact Nat.le_trans less few
  · exact Nat.le_trans (weight_page_le Action.ownedBytes member) small

/-- A page of a batch is planned on its own. -/
theorem PagePlan.single (machine : limits.Machine) {first page : Raster × Bytes}
    {later : List (Raster × Bytes)} (member : page ∈ first :: later)
    (enforced : enforcePlanLimits (batchActions printer options media first later) limits = .ok ())
    (plan : PagePlan printer options limits media page) :
    planWithLimits printer page.1 options limits =
      .ok (jobPlan printer (brotherBody printer page.1 options media page.2)) := by
  simp only [planWithLimits, except_bind_eq_ok, except_pure_eq_ok]
  exact ⟨_, plan.planned, (), enforcePlanLimits_page machine member enforced, rfl⟩

/-! ## What occurs in a batch -/

/-- The chosen parts of a later page. -/
theorem actionsOf_brotherLater (keep : BrotherPart → Bool) :
    actionsOf keep (brotherLater printer options media raster lines) =
      (if keep .information then [brotherInfo raster options media] else []) ++
        ((if keep .modes then brotherModes printer options media else []) ++
        actionsOf keep (brotherPrint printer options lines)) := by
  rw [brotherLater, actionsOf_cons, actionsOf_append, actionsOf_singleton, part_brotherInfo,
    actionsOf_uniform keep part_brotherModes]

/-- The chosen parts of a batch: the setup and the cutter configuration of the first page,
and what every page keeps. -/
theorem actionsOf_batchActions (keep : BrotherPart → Bool) (outside : keep .boundary = false)
    (apart : keep .information = true → keep .cutter = false)
    (first : Raster × Bytes) (later : List (Raster × Bytes)) :
    actionsOf keep (batchActions printer options media first later) =
      (if keep .setup then brotherSetup printer else []) ++
        ((if keep .cutter then brotherCutter options else []) ++
        (first :: later).flatMap fun page =>
          actionsOf keep (brotherLater printer options media page.1 page.2)) := by
  have boundary : ∀ kind, actionsOf keep [.jobBoundary kind] = [] := by
    intro kind
    rw [actionsOf_singleton]
    exact if_neg (Bool.eq_false_iff.mp outside)
  rw [batchActions, actionsOf_append, actionsOf_append, actionsOf_append, boundary, boundary,
    actionsOf_brotherBody, actionsOf_flatMap, List.flatMap_cons, actionsOf_brotherLater]
  cases informed : keep .information with
  | true => simp [apart informed]
  | false => simp

end

/-! ## Accepted batches -/

/-- The print information, the raster and the print command of a page. -/
def isPagePart : BrotherPart → Bool
  | .information | .raster | .print => true
  | _ => false

/-- The action initializes the printer. -/
def isInitialization : Action → Bool
  | .commandWrite name _ _ => name = "ESC @ init"
  | _ => false

/-- The action waits for a response. -/
def isWait : Action → Bool
  | .waitForResponse .. => true
  | _ => false

/-- The commands of one page of a batch, the way they must be sent. -/
def pageCommands (printer : PrinterDefinition) (options : Options) (media : BrotherMedia)
    (raster : Raster) : List Action := [
  cmd "ESC i z print information" (brotherInformation raster options media),
  rasterPaced printer (raster.rows.flatMap (brotherRasterLine (brotherCompress printer options)))
    options.streaming,
  cmd "print" [0x1a]]

/-- A batch of the rasters: how it is assembled from the plans of its pages, and what occurs
in it. -/
structure BrotherBatch (printer : PrinterDefinition) (options : Options)
    (limits : ProcessingLimits) (rasters : List Raster) (actions : List Action) : Prop where
  assembled : ∃ (first : Raster × List Action) (later : List (Raster × List Action)),
    rasters = first.1 :: later.map Prod.fst ∧
      (∀ page ∈ first :: later,
        planWithLimits printer page.1 options limits = .ok (jobPlan printer page.2)) ∧
      actions = [.jobBoundary .start] ++ first.2 ++
        later.flatMap (fun page => laterPart page.2) ++ [.jobBoundary .end]
  setup : actionsOf (· = .setup) actions = brotherSetup printer
  initialized : actions.filter isInitialization = [cmd "ESC @ init" [0x1b, 0x40]]
  waited : actions.filter isWait = [.waitForResponse 3000 0 .brotherStatus32]
  cutter : actionsOf (· = .cutter) actions = brotherCutter options
  pages : ∃ media, options.brotherMedia = some media ∧
    actionsOf isPagePart actions = rasters.flatMap (pageCommands printer options media)
  heights : (actionsOf (· = .information) actions).map
    (fun action => announcedHeight action.stream) = rasters.map (·.height)

section

variable {printer : PrinterDefinition} {options : Options} {limits : ProcessingLimits}
  {media : BrotherMedia}

/-- A kind of action that only the setup contains is found there. -/
theorem filter_of_setup {kind : Action → Bool} {actions : List Action}
    (only : ∀ action, kind action = true → action.brotherPart = .setup)
    (setup : actionsOf (· = .setup) actions = brotherSetup printer) :
    actions.filter kind = (brotherSetup printer).filter kind := by
  rw [← setup, actionsOf, List.filter_filter]
  apply List.filter_congr
  intro action _
  cases found : kind action with
  | true => rw [only action found]; rfl
  | false => rfl

theorem setup_of_isInitialization (action : Action) (kind : isInitialization action = true) :
    action.brotherPart = .setup := by
  cases action with
  | commandWrite name bytes atomic =>
      have same : name = "ESC @ init" := of_decide_eq_true kind
      rw [same]
      rfl
  | _ => cases kind

theorem setup_of_isWait (action : Action) (kind : isWait action = true) :
    action.brotherPart = .setup := by
  cases action with
  | waitForResponse timeout fallback validation => rfl
  | _ => cases kind

theorem filter_isInitialization_brotherSetup :
    (brotherSetup printer).filter isInitialization = [cmd "ESC @ init" [0x1b, 0x40]] := by
  unfold brotherSetup
  split <;> rfl

theorem filter_isWait_brotherSetup :
    (brotherSetup printer).filter isWait = [.waitForResponse 3000 0 .brotherStatus32] := by
  unfold brotherSetup
  split <;> rfl

/-- What the pages of a batch contribute. -/
theorem brotherBatch_of_pages (machine : limits.Machine) {first : Raster × Bytes}
    {later : List (Raster × Bytes)} (given : options.brotherMedia = some media)
    (plans : ∀ page ∈ first :: later, PagePlan printer options limits media page)
    (enforced : enforcePlanLimits (batchActions printer options media first later) limits = .ok ()) :
    BrotherBatch printer options limits (first.1 :: later.map Prod.fst)
      (batchActions printer options media first later) := by
  have setup : actionsOf (· = .setup) (batchActions printer options media first later) =
      brotherSetup printer := by
    rw [actionsOf_batchActions _ rfl (fun _ => rfl)]
    simp [actionsOf_brotherLater, actionsOf_brotherPrint]
  refine ⟨?_, setup, ?_, ?_, ?_, ⟨media, given, ?_⟩, ?_⟩
  · refine ⟨(first.1, brotherBody printer first.1 options media first.2),
      later.map fun page => (page.1, brotherBody printer page.1 options media page.2), ?_, ?_, ?_⟩
    · rw [List.map_map]
      rfl
    · rw [← List.map_cons (f := fun page : Raster × Bytes =>
        (page.1, brotherBody printer page.1 options media page.2))]
      intro page member
      obtain ⟨own, inside, rfl⟩ := List.mem_map.mp member
      exact (plans own inside).single machine inside enforced
    · rw [List.flatMap_map]
      simp only [laterPart_brotherBody]
      simp only [batchActions, List.append_assoc]
  · rw [filter_of_setup setup_of_isInitialization setup, filter_isInitialization_brotherSetup]
  · rw [filter_of_setup setup_of_isWait setup, filter_isWait_brotherSetup]
  · rw [actionsOf_batchActions _ rfl (fun information => by cases information)]
    simp [actionsOf_brotherLater, actionsOf_brotherPrint]
  · rw [actionsOf_batchActions _ rfl (fun _ => rfl), ← List.map_cons, List.flatMap_map]
    apply List.flatMap_congr
    intro page member
    rw [actionsOf_brotherLater, actionsOf_brotherPrint, (plans page member).lines]
    rfl
  · have height : ∀ page : Raster × Bytes,
        (actionsOf (· = .information) (brotherLater printer options media page.1 page.2)).map
          (fun action => announcedHeight action.stream) = [page.1.height] := by
      intro page
      rw [actionsOf_brotherLater, actionsOf_brotherPrint]
      exact congrArg (fun found => [found]) announcedHeight_brotherInformation
    rw [actionsOf_batchActions _ rfl (fun _ => rfl), if_neg (by decide), if_neg (by decide),
      List.nil_append, List.nil_append, ← List.map_cons, List.map_map, List.map_flatMap,
      List.map_eq_flatMap]
    exact List.flatMap_congr fun page _ => height page

end

theorem plan_ext {left right : Plan} (protocol : left.protocol = right.protocol)
    (commit : left.sourceCommit = right.sourceCommit) (actions : left.actions = right.actions) :
    left = right := by
  cases left
  cases right
  cases protocol
  cases commit
  cases actions
  rfl

/-- A batch of one raster is its plan, and every batch is assembled from the plans of its
rasters.  The cutter is configured once by a job that cuts, and not at all by another. -/
theorem brother_batch (printer : PrinterDefinition) (rasters : List Raster) (options : Options)
    (limits : ProcessingLimits) (batch : Plan) (machine : limits.Machine)
    (brother : printer.protocol = .brother)
    (accepted : planBatchWithLimits printer options limits rasters = .ok batch) :
    (∀ raster, rasters = [raster] → planWithLimits printer raster options limits = .ok batch) ∧
      BrotherBatch printer options limits rasters batch.actions ∧
      actionsOf (· = .cutter) batch.actions =
        if options.cut then [
          cmd "ESC i M autocut" [0x1b, 0x69, 0x4d, 0x40],
          cmd "ESC i A cut every" [0x1b, 0x69, 0x41, options.cutEvery]]
        else [] := by
  obtain ⟨media, first, later, -, given, same, plans, actions, protocol, commit, enforced⟩ :=
    planBatchWithLimits_eq_ok brother accepted
  rw [actions] at enforced
  have shape := brotherBatch_of_pages machine given plans enforced
  rw [← same, ← actions] at shape
  refine ⟨?_, shape, shape.cutter⟩
  intro raster alone
  rw [alone] at same
  obtain ⟨own, none⟩ := List.cons.inj same
  have last : later = [] := List.map_eq_nil_iff.mp none.symm
  have whole : batch = jobPlan printer (brotherBody printer raster options media first.2) := by
    apply plan_ext protocol commit
    rw [actions, last, own, batchActions, List.flatMap_nil, List.append_nil]
    rfl
  rw [whole, own]
  exact (plans first List.mem_cons_self).single machine List.mem_cons_self enforced

/-- A batch of two labels. -/
theorem brother_batch_labels :
    ∃ batch, planBatchWithLimits (brotherPrinter "ql-1100") plainBrother .default
        [whiteRow 90, whiteRow 91] = .ok batch ∧
      BrotherBatch (brotherPrinter "ql-1100") plainBrother .default [whiteRow 90, whiteRow 91]
        batch.actions := by
  have result : (planBatchWithLimits (brotherPrinter "ql-1100") plainBrother .default
      [whiteRow 90, whiteRow 91]).isOk = true := by
    unfold planBatchWithLimits batchLoop batchLoop
    rw [planInner_whiteRow rfl rfl rfl (by decide) (by decide +kernel),
      planInner_whiteRow rfl rfl rfl (by decide) (by decide +kernel),
      brotherRasterLine_replicate_zero, brotherRasterLine_replicate_zero]
    decide +kernel
  obtain ⟨batch, returned⟩ := exists_of_isOk result
  exact ⟨batch, returned, (brother_batch _ _ _ _ batch (by decide) rfl returned).2.1⟩

/-- A batch that does not cut is accepted and never configures the cutter. -/
theorem uncut_batch :
    ∃ batch, planBatchWithLimits (brotherPrinter "ql-1100") { plainBrother with cut := false }
        .default [whiteRow 90] = .ok batch ∧
      actionsOf (· = .cutter) batch.actions = [] := by
  have result : (planBatchWithLimits (brotherPrinter "ql-1100") { plainBrother with cut := false }
      .default [whiteRow 90]).toOption.map (fun batch =>
        actionsOf (· = .cutter) batch.actions) = some [] := by
    unfold planBatchWithLimits batchLoop
    rw [planInner_whiteRow rfl rfl rfl (by decide) (by decide +kernel),
      brotherRasterLine_replicate_zero]
    decide +kernel
  cases returned : planBatchWithLimits (brotherPrinter "ql-1100")
      { plainBrother with cut := false } .default [whiteRow 90] with
  | error fault =>
      rw [returned] at result
      cases result
  | ok batch =>
      rw [returned] at result
      exact ⟨batch, rfl, Option.some.inj result⟩

end PrinterSdk.Protocol
