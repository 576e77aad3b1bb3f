import PrinterSdk.Protocol.Copies

/-!
# The page of a Brother printer

The actions of a Brother page fall into the setup of the job, the print information, the
cutter configuration, the modes of the page, its raster and the print command.
-/

namespace PrinterSdk.Protocol

open PrinterSdk.Data

section

variable (printer : PrinterDefinition) (raster : Raster) (options : Options)
  (media : BrotherMedia)

/-- Raster lines are packed when the job asks for it and the printer can unpack them. -/
def brotherCompress : Bool := options.compress && printer.compression

/-- What comes before the print information. -/
def brotherSetup : List Action :=
  (if (printer.bleGatt.bind (·.flowControl)).isSome then [.subscribeNotifications] else []) ++ [
    cmd "switch to raster mode" [0x1b, 0x69, 0x61, 1],
    cmd "invalidate" (List.replicate printer.invalidateBytes.toNat 0),
    cmd "ESC @ init" [0x1b, 0x40],
    cmd "switch to raster mode" [0x1b, 0x69, 0x61, 1],
    cmd "ESC i S status request" [0x1b, 0x69, 0x53],
    .waitForResponse 3000 0 .brotherStatus32]

/-- The print-information command. -/
def brotherInfo : Action :=
  cmd "ESC i z print information" (brotherInformation raster options media)

/-- The autocut and cut-every commands. -/
def brotherCutter : List Action :=
  if options.cut then [
    cmd "ESC i M autocut" [0x1b, 0x69, 0x4d, 0x40],
    cmd "ESC i A cut every" [0x1b, 0x69, 0x41, options.cutEvery]]
  else []

/-- The modes between the cutter configuration and the raster. -/
def brotherModes : List Action := [
    cmd "ESC i K expanded mode" [0x1b, 0x69, 0x4b, if options.cut then 8 else 0],
    cmd "ESC i d margins" ([0x1b, 0x69, 0x64] ++ u16LeBytes media.feedMargin)] ++
  if brotherCompress printer options then [cmd "M compression" [0x4d, 2]] else []

/-- The raster and the print command. -/
def brotherPrint (lines : Bytes) : List Action :=
  [rasterPaced printer lines options.streaming, cmd "print" [0x1a]]

/-- The body of a page. -/
def brotherBody (lines : Bytes) : List Action :=
  brotherSetup printer ++ brotherInfo raster options media :: (brotherCutter options ++
    (brotherModes printer options media ++ brotherPrint printer options lines))

end

variable {printer : PrinterDefinition} {raster : Raster} {options : Options}

/-- A Brother page has its medium, its raster lines and the body made of them. -/
theorem pageBody_brother {body : List Action} (brother : printer.protocol = .brother)
    (page : pageBody printer raster options = .ok body) :
    ∃ media lines, options.brotherMedia = some media ∧
      (brotherRasterLines raster (brotherCompress printer options) : Outcome PlanError Bytes) =
        .ok lines ∧
      body = brotherBody printer raster options media lines := by
  simp only [pageBody, familyActions, brother, brotherActions, except_bind_eq_ok,
    except_pure_eq_ok, okOr_eq_ok] at page
  obtain ⟨actions, ⟨media, given, _, -, _, -, lines, encoded, same⟩, rfl⟩ := page
  refine ⟨media, lines, given, encoded, ?_⟩
  rw [← same]
  simp [brotherBody, brotherSetup, brotherInfo, brotherCutter, brotherModes, brotherPrint,
    brotherCompress]

/-! ## The part of an action -/

/-- What an action of a Brother job is for. -/
inductive BrotherPart where
  | boundary | setup | information | cutter | modes | raster | print
  deriving DecidableEq, Repr

/-- The part of a job that an action belongs to. -/
def Action.brotherPart : Action → BrotherPart
  | .jobBoundary _ => .boundary
  | .rasterWrite .. => .raster
  | .commandWrite name _ _ =>
      if name = "ESC i z print information" then .information
      else if name = "ESC i M autocut" ∨ name = "ESC i A cut every" then .cutter
      else if name = "ESC i K expanded mode" ∨ name = "ESC i d margins" ∨
        name = "M compression" then .modes
      else if name = "print" then .print
      else .setup
  | _ => .setup

/-- The actions of the chosen parts, in order. -/
def actionsOf (keep : BrotherPart → Bool) (actions : List Action) : List Action :=
  actions.filter fun action => keep action.brotherPart

section

variable (keep : BrotherPart → Bool)

theorem actionsOf_append (left right : List Action) :
    actionsOf keep (left ++ right) = actionsOf keep left ++ actionsOf keep right :=
  List.filter_append ..

theorem actionsOf_cons (action : Action) (rest : List Action) :
    actionsOf keep (action :: rest) = actionsOf keep [action] ++ actionsOf keep rest :=
  actionsOf_append keep [action] rest

theorem actionsOf_flatMap {α : Type} (items : List α) (part : α → List Action) :
    actionsOf keep (items.flatMap part) = items.flatMap fun item => actionsOf keep (part item) :=
  List.filter_flatMap ..

/-- The actions of one part are kept together. -/
theorem actionsOf_uniform {own : BrotherPart} {actions : List Action}
    (uniform : ∀ action ∈ actions, action.brotherPart = own) :
    actionsOf keep actions = if keep own then actions else [] := by
  split
  · next kept =>
      apply List.filter_eq_self.mpr
      intro action member
      rw [uniform action member]
      exact kept
  · next dropped =>
      apply List.filter_eq_nil_iff.mpr
      intro action member
      rw [uniform action member]
      exact dropped

theorem actionsOf_singleton (action : Action) :
    actionsOf keep [action] = if keep action.brotherPart then [action] else [] :=
  actionsOf_uniform keep fun _ member => List.mem_singleton.mp member ▸ rfl

end

section

variable {media : BrotherMedia} {lines : Bytes}

theorem part_brotherSetup : ∀ action ∈ brotherSetup printer, action.brotherPart = .setup := by
  intro action member
  unfold brotherSetup at member
  cases List.mem_append.mp member with
  | inl subscribed =>
      split at subscribed
      · rw [List.mem_singleton.mp subscribed]
        rfl
      · cases subscribed
  | inr own =>
      simp only [List.mem_cons, List.not_mem_nil, or_false] at own
      rcases own with rfl | rfl | rfl | rfl | rfl | rfl <;> rfl

theorem part_brotherInfo : (brotherInfo raster options media).brotherPart = .information := rfl

theorem part_brotherCutter : ∀ action ∈ brotherCutter options, action.brotherPart = .cutter := by
  intro action member
  unfold brotherCutter at member
  split at member
  · simp only [List.mem_cons, List.not_mem_nil, or_false] at member
    rcases member with rfl | rfl <;> rfl
  · cases member

theorem part_brotherModes :
    ∀ action ∈ brotherModes printer options media, action.brotherPart = .modes := by
  intro action member
  unfold brotherModes at member
  cases List.mem_append.mp member with
  | inl fixed =>
      simp only [List.mem_cons, List.not_mem_nil, or_false] at fixed
      rcases fixed with rfl | rfl <;> rfl
  | inr packed =>
      split at packed
      · rw [List.mem_singleton.mp packed]
        rfl
      · cases packed

/-- The chosen parts of what follows the print information of a page. -/
theorem actionsOf_brotherPrint (keep : BrotherPart → Bool) :
    actionsOf keep (brotherPrint printer options lines) =
      (if keep .raster then [rasterPaced printer lines options.streaming] else []) ++
        if keep .print then [cmd "print" [0x1a]] else [] := by
  rw [brotherPrint, actionsOf_cons, actionsOf_singleton, actionsOf_singleton]
  rfl

/-- The chosen parts of a page. -/
theorem actionsOf_brotherBody (keep : BrotherPart → Bool) :
    actionsOf keep (brotherBody printer raster options media lines) =
      (if keep .setup then brotherSetup printer else []) ++
        ((if keep .information then [brotherInfo raster options media] else []) ++
        ((if keep .cutter then brotherCutter options else []) ++
        ((if keep .modes then brotherModes printer options media else []) ++
        actionsOf keep (brotherPrint printer options lines)))) := by
  rw [brotherBody, actionsOf_append, actionsOf_cons, actionsOf_append, actionsOf_append,
    actionsOf_singleton, part_brotherInfo, actionsOf_uniform keep part_brotherSetup,
    actionsOf_uniform keep part_brotherCutter, actionsOf_uniform keep part_brotherModes]

end

end PrinterSdk.Protocol
