import PrinterSdk.Sheet.Layout

/-!
# Plans of sheets

A plan places the labels of a job in the slots of as many sheets as are needed.  The
first sheet may begin at a later slot.
-/

namespace PrinterSdk.Sheet

open PrinterSdk.Data PrinterSdk.Label PrinterSdk.Render

/-- `NonZeroU16`. -/
abbrev NonZeroU16 := { value : UInt16 // value ≠ 0 }

/-- `SheetOptions`. -/
structure SheetOptions where
  firstSlot : Nat
  dpi : NonZeroU16
  deriving DecidableEq, Repr

/-- `SheetPlanInput`. -/
structure SheetPlanInput where
  itemCount : UInt32
  labelWidthUm : Int64
  labelHeightUm : Int64
  deriving DecidableEq, Repr

/-- `SheetPlacement`. -/
structure SheetPlacement where
  item : Nat
  page : Nat
  slot : Nat
  deriving DecidableEq, Repr

/-- `SheetPlan`. -/
structure SheetPlan where
  pageCount : Nat
  layout : SheetLayout
  placements : List SheetPlacement
  deriving DecidableEq, Repr

/-- Indexing, which panics out of bounds. -/
def entryOf {α : Type} (list : List α) (index : Nat) : Outcome SheetError α :=
  okOr list[index]? .panic

@[simp] theorem entryOf_eq_ok {α : Type} (list : List α) (index : Nat) (result : α) :
    entryOf list index = .ok result ↔ list[index]? = some result :=
  okOr_eq_ok _ _ result

/-! ## Dots -/

/-- `dots_u32`. -/
def dotsU32 (valueUm : Int64) (dpi : NonZeroU16) : Outcome SheetError UInt32 :=
  orRefuse (dotsTryU32 (micrometresToDots valueUm dpi.1)) .geometryOverflow

/-- `paper_dots`. -/
def paperDots (layout : SheetLayout) (dpi : NonZeroU16) (limits : ProcessingLimits) :
    Outcome SheetError (UInt32 × UInt32) := do
  let width ← dotsU32 layout.paperWidthUm dpi
  let height ← dotsU32 layout.paperHeightUm dpi
  let pixels ← orRefuse (checkedMul width.toNat height.toNat) .geometryOverflow
  refuse (pixels > limits.maxCanvasPixels) .rasterTooLarge
  return (width, height)

/-! ## Plans -/

/-- The pages behind the first one. -/
def additionalPages (remaining slots : Nat) : Nat :=
  if remaining = 0 then 0 else (remaining + (slots - 1)) / slots

/-- The page and the slot of an item. -/
def placeOf (firstSlot slots item : Nat) : Nat × Nat :=
  let firstCapacity := slots - firstSlot
  if item < firstCapacity then (0, firstSlot + item)
  else
    let offset := item - firstCapacity
    (1 + offset / slots, offset % slots)

/-- One turn of the loop over the items. -/
def placeItem (input : SheetPlanInput) (layout : SheetLayout) (firstSlot item : Nat) :
    Outcome SheetError SheetPlacement := do
  let place := placeOf firstSlot layout.slots.length item
  let target ← entryOf layout.slots place.2
  refuse (input.labelWidthUm ≠ target.widthUm ∨ input.labelHeightUm ≠ target.heightUm)
    (.labelSizeMismatch item input.labelWidthUm input.labelHeightUm target.widthUm
      target.heightUm)
  return ⟨item, place.1, place.2⟩

/-- `plan`. -/
def plan (input : SheetPlanInput) (definition : SheetDefinition) (options : SheetOptions)
    (limits : ProcessingLimits) : Outcome SheetError SheetPlan := do
  refuse (input.itemCount = 0) .emptyJob
  refuse (input.itemCount.toNat > limits.maxSheetItems) .limitExceeded
  let layout ← normalizeLayoutWithLimits definition limits
  refuse (options.firstSlot ≥ layout.slots.length) (.invalidFirstSlot options.firstSlot)
  let paper ← paperDots layout options.dpi limits
  let pixelsPerPage ← orRefuse (checkedMul paper.1.toNat paper.2.toNat) .geometryOverflow
  let firstCapacity := layout.slots.length - options.firstSlot
  let itemCount := input.itemCount.toNat
  let pageCount ← orRefuse
    (checkedAdd 1 (additionalPages (itemCount - firstCapacity) layout.slots.length))
    .geometryOverflow
  refuse (pageCount > limits.maxPages) .limitExceeded
  let totalPixels ← orRefuse (checkedMul pixelsPerPage pageCount) .geometryOverflow
  refuse (totalPixels > limits.maxTotalPixels) .rasterTooLarge
  let placements ← (List.range itemCount).mapM (placeItem input layout options.firstSlot)
  return ⟨pageCount, layout, placements⟩

/-! ## What a plan is made of -/

theorem dotsU32_eq_ok {valueUm : Int64} {dpi : NonZeroU16} {dots : UInt32} :
    dotsU32 valueUm dpi = .ok dots ↔ (micrometresToDots valueUm dpi.1).toInt = dots.toNat := by
  rw [dotsU32, orRefuse_eq_ok, dotsTryU32_eq_some]

theorem paperDots_eq_ok {layout : SheetLayout} {dpi : NonZeroU16} {limits : ProcessingLimits}
    {width height : UInt32} (measured : paperDots layout dpi limits = .ok (width, height)) :
    (micrometresToDots layout.paperWidthUm dpi.1).toInt = width.toNat ∧
      (micrometresToDots layout.paperHeightUm dpi.1).toInt = height.toNat := by
  obtain ⟨wide, across, measured⟩ := (except_bind_eq_ok _ _ _).mp measured
  obtain ⟨high, down, measured⟩ := (except_bind_eq_ok _ _ _).mp measured
  obtain ⟨pixels, -, measured⟩ := (except_bind_eq_ok _ _ _).mp measured
  obtain ⟨_, -, measured⟩ := (except_bind_eq_ok _ _ _).mp measured
  obtain ⟨rfl, rfl⟩ := Prod.ext_iff.mp ((except_pure_eq_ok _ _).mp measured)
  exact ⟨dotsU32_eq_ok.mp across, dotsU32_eq_ok.mp down⟩

theorem placeItem_eq_ok {input : SheetPlanInput} {layout : SheetLayout} {firstSlot item : Nat}
    {placement : SheetPlacement} (placed : placeItem input layout firstSlot item = .ok placement) :
    placement.item = item ∧ ∃ slot, layout.slots[placement.slot]? = some slot ∧
      slot.widthUm = input.labelWidthUm ∧ slot.heightUm = input.labelHeightUm := by
  obtain ⟨target, found, placed⟩ := (except_bind_eq_ok _ _ _).mp placed
  obtain ⟨_, fits, placed⟩ := (except_bind_eq_ok _ _ _).mp placed
  rw [entryOf_eq_ok] at found
  rw [refuse_eq_ok, not_or, not_not, not_not] at fits
  rw [← (except_pure_eq_ok _ _).mp placed]
  exact ⟨rfl, target, found, fits.1.symm, fits.2.symm⟩

/-- A plan has a layout that is accepted and a page that can be counted in dots, and it
places the items in their order, every label in a slot of its size. -/
structure Placed (input : SheetPlanInput) (dpi : NonZeroU16) (limits : ProcessingLimits)
    (plan : SheetPlan) : Prop where
  layout : validateLayoutWithLimits plan.layout limits = .ok ()
  paper : ∃ paper, paperDots plan.layout dpi limits = .ok paper
  items : ∀ (index : Nat) (placement : SheetPlacement),
    plan.placements[index]? = some placement → placement.item = index
  slots : ∀ placement ∈ plan.placements, ∃ slot,
    plan.layout.slots[placement.slot]? = some slot ∧
      slot.widthUm = input.labelWidthUm ∧ slot.heightUm = input.labelHeightUm

theorem plan_eq_ok {input : SheetPlanInput} {definition : SheetDefinition}
    {options : SheetOptions} {limits : ProcessingLimits} {result : SheetPlan}
    (planned : plan input definition options limits = .ok result) :
    Placed input options.dpi limits result := by
  obtain ⟨_, -, planned⟩ := (except_bind_eq_ok _ _ _).mp planned
  obtain ⟨_, -, planned⟩ := (except_bind_eq_ok _ _ _).mp planned
  obtain ⟨layout, normalized, planned⟩ := (except_bind_eq_ok _ _ _).mp planned
  obtain ⟨_, -, planned⟩ := (except_bind_eq_ok _ _ _).mp planned
  obtain ⟨paper, measured, planned⟩ := (except_bind_eq_ok _ _ _).mp planned
  obtain ⟨pixels, -, planned⟩ := (except_bind_eq_ok _ _ _).mp planned
  obtain ⟨pageCount, -, planned⟩ := (except_bind_eq_ok _ _ _).mp planned
  obtain ⟨_, -, planned⟩ := (except_bind_eq_ok _ _ _).mp planned
  obtain ⟨total, -, planned⟩ := (except_bind_eq_ok _ _ _).mp planned
  obtain ⟨_, -, planned⟩ := (except_bind_eq_ok _ _ _).mp planned
  obtain ⟨placements, placed, planned⟩ := (except_bind_eq_ok _ _ _).mp planned
  rw [← (except_pure_eq_ok _ _).mp planned]
  have related := (except_mapM_eq_ok _ _ _).mp placed
  constructor
  case layout => exact validateLayout_of_normalize normalized
  case paper => exact ⟨paper, measured⟩
  case items =>
    intro index placement located
    obtain ⟨item, inside, places⟩ := exists_left_of_getElem? related located
    rw [(placeItem_eq_ok places).1]
    obtain ⟨bound, same⟩ := List.getElem?_eq_some_iff.mp inside
    rw [← same, List.getElem_range]
  case slots =>
    intro placement member
    obtain ⟨item, -, places⟩ := exists_left_of_mem related member
    exact (placeItem_eq_ok places).2

end PrinterSdk.Sheet
