import PrinterSdk.Sheet.Plan

/-!
# Pages of sheets

A page is a raster of the paper on which the labels of its placements are blitted at the
dots of their slots.  Packing the pages and writing them to a PDF file are left out.
-/

namespace PrinterSdk.Sheet

open PrinterSdk.Data PrinterSdk.Label PrinterSdk.Render

/-! ## Cut marks -/

/-- `CUT_MARK_LENGTH_UM`. -/
def cutMarkLengthUm : Int64 := 2000

/-- `checked_sub` on `u32`. -/
def checkedSubU32 (left right : UInt32) : Option UInt32 :=
  if right ≤ left then some (left - right) else none

/-- The points of the cut marks at a distance from the corner of the label. -/
def cutMarkPoints (left top : UInt32) (label : MonoRaster) (delta : UInt32) :
    List (Option UInt32 × Option UInt32) :=
  [(checkedSubU32 left delta, some top),
    (some left, checkedSubU32 top delta),
    ((checkedAddU32 left label.width).bind fun x => checkedAddU32 x delta, some top),
    (some left, (checkedAddU32 top label.height).bind fun y => checkedAddU32 y delta)]

/-- Mark a point, when it is on the page. -/
def markPoint (page : MonoRaster) : Option UInt32 × Option UInt32 → Outcome SheetError MonoRaster
  | (some x, some y) =>
      if x < page.width ∧ y < page.height then do
        let index ← orRefuse ((checkedMul y.toNat page.width.toNat).bind fun value =>
          checkedAdd value x.toNat) .geometryOverflow
        if index < page.pixels.length then
          return { page with pixels := page.pixels.set index 1 }
        else panics
      else return page
  | _ => return page

/-- `draw_cut_marks`. -/
def drawCutMarks (page : MonoRaster) (left top : UInt32) (label : MonoRaster) (dpi : NonZeroU16) :
    Outcome SheetError MonoRaster := do
  let length ← dotsU32 cutMarkLengthUm dpi
  (List.range (max length.toNat 1)).foldlM
    (fun page delta =>
      (cutMarkPoints left top label (UInt32.ofNat delta)).foldlM markPoint page) page

/-! ## Pages -/

/-- Where the label of a placement comes from: it is rendered, or rendered before. -/
abbrev LabelSource := SheetPlacement → Outcome SheetError MonoRaster

/-- One turn of the loop over the placements of a page. -/
def placeLabel (labelOf : LabelSource) (cutMarks : Bool) (layout : SheetLayout)
    (dpi : NonZeroU16) (page : MonoRaster) (placement : SheetPlacement) :
    Outcome SheetError MonoRaster := do
  let label ← labelOf placement
  let slot ← entryOf layout.slots placement.slot
  let x ← dotsU32 slot.xUm dpi
  let y ← dotsU32 slot.yUm dpi
  let page ← (page.blit label x y).mapError fun
    | .error error => .error (.raster error)
    | .panic => .panic
  if cutMarks then drawCutMarks page x y label dpi else return page

/-- The page with an index, as `pdf_documents_planned` and `pdf_rasters_planned` make it. -/
def sheetPage (labelOf : LabelSource) (cutMarks : Bool) (plan : SheetPlan) (dpi : NonZeroU16)
    (limits : ProcessingLimits) (paper : UInt32 × UInt32) (index : Nat) :
    Outcome SheetError MonoRaster := do
  let page ← (MonoRaster.tryNew paper.1 paper.2 limits.maxCanvasPixels).mapError
    fun _ => .error .rasterTooLarge
  (plan.placements.filter fun placement => placement.page = index).foldlM
    (placeLabel labelOf cutMarks plan.layout dpi) page

/-- The pages of a plan. -/
def sheetPages (labelOf : LabelSource) (cutMarks : Bool) (plan : SheetPlan) (dpi : NonZeroU16)
    (limits : ProcessingLimits) : Outcome SheetError (List MonoRaster) := do
  let paper ← paperDots plan.layout dpi limits
  (List.range plan.pageCount).mapM (sheetPage labelOf cutMarks plan dpi limits paper)

/-! ## Jobs of rasters -/

/-- `SheetRasterItem`. -/
structure SheetRasterItem where
  raster : MonoRaster
  widthUm : Int64
  heightUm : Int64
  deriving DecidableEq, Repr

/-- `ensure_size`. -/
def ensureSize (item : Nat) (actualWidthUm actualHeightUm : Int64) (target : SheetSlot) :
    Outcome SheetError Unit :=
  refuse (¬(actualWidthUm = target.widthUm ∧ actualHeightUm = target.heightUm))
    (.labelSizeMismatch item actualWidthUm actualHeightUm target.widthUm target.heightUm)

/-- The checks of one item of `pdf_rasters`. -/
def checkItem (plan : SheetPlan) (dpi : NonZeroU16) (entry : SheetRasterItem × Nat) :
    Outcome SheetError Unit := do
  entry.1.raster.validate.mapError fun error => .error (.raster error)
  let placement ← entryOf plan.placements entry.2
  let target ← entryOf plan.layout.slots placement.slot
  ensureSize entry.2 entry.1.widthUm entry.1.heightUm target
  let expectedWidth ← dotsU32 entry.1.widthUm dpi
  let expectedHeight ← dotsU32 entry.1.heightUm dpi
  refuse (entry.1.raster.width ≠ expectedWidth ∨ entry.1.raster.height ≠ expectedHeight)
    .rasterTooLarge

/-- The raster of the item of a placement. -/
def itemRaster (items : List SheetRasterItem) : LabelSource := fun placement => do
  let item ← entryOf items placement.item
  return item.raster

/-- The pages of `pdf_rasters`. -/
def rasterPages (items : List SheetRasterItem) (definition : SheetDefinition)
    (options : SheetOptions) (cutMarks : Bool) (limits : ProcessingLimits) :
    Outcome SheetError (List MonoRaster) := do
  let first ← orRefuse items.head? .emptyJob
  refuse (items.length ≥ 2 ^ 32) .limitExceeded
  let plan ← plan ⟨UInt32.ofNat items.length, first.widthUm, first.heightUm⟩ definition options
    limits
  items.zipIdx.forM (checkItem plan options.dpi)
  sheetPages (itemRaster items) cutMarks plan options.dpi limits

/-! ## Labels on pages -/

/-- The source gives labels of the size of their slots in dots. -/
structure LabelsFit (labelOf : LabelSource) (plan : SheetPlan) (dpi : NonZeroU16) : Prop where
  sized : ∀ placement ∈ plan.placements, ∀ slot label,
    plan.layout.slots[placement.slot]? = some slot → labelOf placement = .ok label →
    dotsU32 slot.widthUm dpi = .ok label.width ∧ dotsU32 slot.heightUm dpi = .ok label.height
  quiet : ∀ placement, labelOf placement ≠ .error (.error (.raster .placement))

/-- The page has as many dots as the paper. -/
def OfSize (paper : UInt32 × UInt32) (page : MonoRaster) : Prop :=
  page.width = paper.1 ∧ page.height = paper.2

theorem markPoint_eq_ok {page result : MonoRaster} {point : Option UInt32 × Option UInt32}
    (marked : markPoint page point = .ok result) :
    result.width = page.width ∧ result.height = page.height := by
  unfold markPoint at marked
  split at marked
  · split at marked
    · obtain ⟨index, -, marked⟩ := (except_bind_eq_ok _ _ _).mp marked
      split at marked
      · rw [← (except_pure_eq_ok _ _).mp marked]
        exact ⟨rfl, rfl⟩
      · cases marked
    · rw [← (except_pure_eq_ok _ _).mp marked]
      exact ⟨rfl, rfl⟩
  · rw [← (except_pure_eq_ok _ _).mp marked]
    exact ⟨rfl, rfl⟩

theorem markPoint_ne_placement {page : MonoRaster} {point : Option UInt32 × Option UInt32} :
    markPoint page point ≠ .error (.error (.raster .placement)) := by
  unfold markPoint
  split
  · split
    · apply except_bind_ne_error (okOr_ne_error (by nofun))
      intro index _
      split <;> nofun
    · nofun
  · nofun

theorem dotsU32_ne_placement {valueUm : Int64} {dpi : NonZeroU16} :
    dotsU32 valueUm dpi ≠ .error (.error (.raster .placement)) :=
  okOr_ne_error (by nofun)

theorem entryOf_ne_placement {α : Type} {list : List α} {index : Nat} :
    entryOf list index ≠ .error (.error (.raster .placement)) :=
  okOr_ne_error (by nofun)

section

variable {page result label : MonoRaster} {left top : UInt32} {dpi : NonZeroU16}
variable {paper : UInt32 × UInt32}

theorem drawCutMarks_keeps (sized : OfSize paper page)
    (drawn : drawCutMarks page left top label dpi = .ok result) : OfSize paper result := by
  obtain ⟨length, -, drawn⟩ := (except_bind_eq_ok _ _ _).mp drawn
  apply foldlM_invariant (OfSize paper) sized _ drawn
  intro state delta next _ holds marked
  apply foldlM_invariant (OfSize paper) holds _ marked
  intro inner point after _ keeps step
  obtain ⟨wide, high⟩ := markPoint_eq_ok step
  exact ⟨wide.trans keeps.1, high.trans keeps.2⟩

theorem drawCutMarks_ne_placement :
    drawCutMarks page left top label dpi ≠ .error (.error (.raster .placement)) := by
  apply except_bind_ne_error dotsU32_ne_placement
  intro length _
  apply foldlM_ne_error (fun _ => True) trivial (fun _ _ _ _ _ _ => trivial)
  intro page delta _ _
  apply foldlM_ne_error (fun _ => True) trivial (fun _ _ _ _ _ _ => trivial)
  intro page point _ _
  exact markPoint_ne_placement

variable {labelOf : LabelSource} {cutMarks : Bool} {layout : SheetLayout}
variable {placement : SheetPlacement}

/-- Placing a label keeps the size of the page. -/
theorem placeLabel_keeps (sized : OfSize paper page)
    (placed : placeLabel labelOf cutMarks layout dpi page placement = .ok result) :
    OfSize paper result := by
  obtain ⟨label, -, placed⟩ := (except_bind_eq_ok _ _ _).mp placed
  obtain ⟨slot, -, placed⟩ := (except_bind_eq_ok _ _ _).mp placed
  obtain ⟨x, -, placed⟩ := (except_bind_eq_ok _ _ _).mp placed
  obtain ⟨y, -, placed⟩ := (except_bind_eq_ok _ _ _).mp placed
  obtain ⟨blitted, blits, placed⟩ := (except_bind_eq_ok _ _ _).mp placed
  obtain ⟨wide, high⟩ := MonoRaster.blit_eq_ok (except_mapError_eq_ok.mp blits)
  have kept : OfSize paper blitted := ⟨wide.trans sized.1, high.trans sized.2⟩
  cases cutMarks with
  | false =>
      rw [← (except_pure_eq_ok _ _).mp placed]
      exact kept
  | true => exact drawCutMarks_keeps kept placed

/-- A valid label that sticks out of the page on the right is refused for its placement. -/
theorem placeLabel_eq_placement (valid : page.validate = .ok ()) (sound : label.validate = .ok ())
    (labelled : labelOf placement = .ok label) {slot : SheetSlot}
    (found : layout.slots[placement.slot]? = some slot) {x y : UInt32}
    (across : dotsU32 slot.xUm dpi = .ok x) (down : dotsU32 slot.yUm dpi = .ok y)
    (beyond : page.width.toNat < x.toNat + label.width.toNat) :
    placeLabel labelOf cutMarks layout dpi page placement =
      .error (.error (.raster .placement)) := by
  have refused := MonoRaster.blit_eq_placement (y := y) valid sound beyond
  rw [placeLabel, except_bind_eq_error]
  refine .inr ⟨label, labelled, (except_bind_eq_error _ _ _).mpr (.inr ⟨slot, ?_, ?_⟩)⟩
  · rw [entryOf_eq_ok]
    exact found
  rw [except_bind_eq_error]
  refine .inr ⟨x, across, (except_bind_eq_error _ _ _).mpr (.inr ⟨y, down, ?_⟩)⟩
  rw [except_bind_eq_error, refused]
  exact .inl rfl

/-- A label that is inside the page in dots is not refused for its placement. -/
theorem placeLabel_ne_placement (quiet : labelOf placement ≠ .error (.error (.raster .placement)))
    (inside : ∀ label slot x y, labelOf placement = .ok label →
      layout.slots[placement.slot]? = some slot → dotsU32 slot.xUm dpi = .ok x →
      dotsU32 slot.yUm dpi = .ok y →
        x.toNat + label.width.toNat ≤ page.width.toNat ∧
          y.toNat + label.height.toNat ≤ page.height.toNat) :
    placeLabel labelOf cutMarks layout dpi page placement ≠
      .error (.error (.raster .placement)) := by
  apply except_bind_ne_error quiet
  intro label labelled
  apply except_bind_ne_error entryOf_ne_placement
  intro slot found
  apply except_bind_ne_error dotsU32_ne_placement
  intro x across
  apply except_bind_ne_error dotsU32_ne_placement
  intro y down
  rw [entryOf_eq_ok] at found
  obtain ⟨right, bottom⟩ := inside label slot x y labelled found across down
  apply except_bind_ne_error
  · apply except_mapError_ne_error
    intro fault blitted same
    cases fault with
    | panic => cases same
    | error error =>
        cases same
        exact MonoRaster.blit_ne_placement right bottom blitted
  intro blitted _
  cases cutMarks with
  | false => nofun
  | true => exact drawCutMarks_ne_placement

end

/-- A page on which all labels are inside in dots is not refused for a placement. -/
theorem sheetPage_ne_placement {labelOf : LabelSource} {cutMarks : Bool} {plan : SheetPlan}
    {dpi : NonZeroU16} {limits : ProcessingLimits} {paper : UInt32 × UInt32} {index : Nat}
    (fit : LabelsFit labelOf plan dpi)
    (inside : ∀ placement ∈ plan.placements, ∀ slot, plan.layout.slots[placement.slot]? = some slot →
      ∀ x y width height, dotsU32 slot.xUm dpi = .ok x → dotsU32 slot.yUm dpi = .ok y →
        dotsU32 slot.widthUm dpi = .ok width → dotsU32 slot.heightUm dpi = .ok height →
        x.toNat + width.toNat ≤ paper.1.toNat ∧ y.toNat + height.toNat ≤ paper.2.toNat) :
    sheetPage labelOf cutMarks plan dpi limits paper index ≠
      .error (.error (.raster .placement)) := by
  apply except_bind_ne_error
  · exact except_mapError_ne_error fun _ _ => by nofun
  intro blank made
  obtain ⟨-, -, -, rfl⟩ := MonoRaster.tryNew_eq_ok.mp (except_mapError_eq_ok.mp made)
  apply foldlM_ne_error (OfSize paper) ⟨rfl, rfl⟩
  · intro page placement next _ sized placed
    exact placeLabel_keeps sized placed
  intro page placement listed sized
  have member := (List.mem_filter.mp listed).1
  apply placeLabel_ne_placement (fit.quiet placement)
  intro label slot x y labelled found across down
  obtain ⟨wide, high⟩ := fit.sized placement member slot label found labelled
  rw [sized.1, sized.2]
  exact inside placement member slot found x y label.width label.height across down wide high

theorem checkItem_ne_placement {plan : SheetPlan} {dpi : NonZeroU16}
    {entry : SheetRasterItem × Nat} :
    checkItem plan dpi entry ≠ .error (.error (.raster .placement)) := by
  apply except_bind_ne_error
  · apply except_mapError_ne_error
    intro error invalid same
    cases same
    exact MonoRaster.validate_ne_placement _ invalid
  intro _ _
  apply except_bind_ne_error entryOf_ne_placement
  intro placement _
  apply except_bind_ne_error entryOf_ne_placement
  intro target _
  apply except_bind_ne_error (refuseIf_ne_error (by nofun))
  intro _ _
  apply except_bind_ne_error dotsU32_ne_placement
  intro width _
  apply except_bind_ne_error dotsU32_ne_placement
  intro height _
  exact refuseIf_ne_error (by nofun)

/-- The items that are checked give labels of the size of their slots. -/
theorem labelsFit_of_checked {input : SheetPlanInput} {dpi : NonZeroU16}
    {limits : ProcessingLimits} {plan : SheetPlan} {items : List SheetRasterItem}
    (placed : Placed input dpi limits plan)
    (checked : items.zipIdx.forM (checkItem plan dpi) = .ok ()) :
    LabelsFit (itemRaster items) plan dpi := by
  rw [except_forM_eq_ok] at checked
  constructor
  case sized =>
    intro placement member slot label found labelled
    obtain ⟨item, listed, same⟩ := (except_bind_eq_ok _ _ _).mp labelled
    rw [entryOf_eq_ok] at listed
    have own := checked (item, placement.item) (List.mk_mem_zipIdx_iff_getElem?.mpr listed)
    obtain ⟨_, -, own⟩ := (except_bind_eq_ok _ _ _).mp own
    obtain ⟨other, located, own⟩ := (except_bind_eq_ok _ _ _).mp own
    obtain ⟨target, finds, own⟩ := (except_bind_eq_ok _ _ _).mp own
    obtain ⟨_, ensured, own⟩ := (except_bind_eq_ok _ _ _).mp own
    obtain ⟨width, wide, own⟩ := (except_bind_eq_ok _ _ _).mp own
    obtain ⟨height, high, own⟩ := (except_bind_eq_ok _ _ _).mp own
    rw [entryOf_eq_ok] at located finds
    rw [ensureSize, refuse_eq_ok, not_not] at ensured
    rw [refuse_eq_ok, not_or, not_not, not_not] at own
    obtain ⟨index, position⟩ := List.mem_iff_getElem?.mp member
    rw [placed.items index placement position, position] at located
    rw [← Option.some.inj located, found] at finds
    have target_eq : slot = target := Option.some.inj finds
    rw [← (except_pure_eq_ok _ _).mp same, target_eq, ← ensured.1, ← ensured.2, own.1, own.2]
    exact ⟨wide, high⟩
  case quiet =>
    intro placement
    apply except_bind_ne_error entryOf_ne_placement
    intro item _
    nofun

end PrinterSdk.Sheet
