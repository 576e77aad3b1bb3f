import PrinterSdk.Data.Boxes
import PrinterSdk.Data.Rounding
import PrinterSdk.Sheet.Pages

/-!
# The geometry of sheets in dots

Slots are validated in micrometres, but the paper, the position and the size of a slot are
rounded to dots one by one.  A slot stays on the paper, and clear of another slot, exactly
when its position and its size are not rounded up by more than there is room.
-/

namespace PrinterSdk.Sheet

open PrinterSdk.Data PrinterSdk.Label PrinterSdk.Render

/-! ## Slots in dots -/

/-- The dots that a label covers on the page, when they can be counted. -/
def dotBox (slot : SheetSlot) (dpi : NonZeroU16) : Outcome SheetError Box := do
  let left ← dotsU32 slot.xUm dpi
  let top ← dotsU32 slot.yUm dpi
  let width ← dotsU32 slot.widthUm dpi
  let height ← dotsU32 slot.heightUm dpi
  return ⟨left.toNat, top.toNat, width.toNat, height.toNat⟩

/-- The pages of a plan hold its labels: every label is inside the page in dots, no page is
refused for a placement, and different slots cover different dots. -/
structure Imposed (plan : SheetPlan) (dpi : NonZeroU16) (limits : ProcessingLimits) : Prop where
  inside : ∀ paper, paperDots plan.layout dpi limits = .ok paper →
    ∀ placement ∈ plan.placements, ∀ slot, plan.layout.slots[placement.slot]? = some slot →
      ∀ box, dotBox slot dpi = .ok box →
        box.left + box.width ≤ paper.1.toNat ∧ box.top + box.height ≤ paper.2.toNat
  pages : ∀ paper, paperDots plan.layout dpi limits = .ok paper →
    ∀ labelOf cutMarks index, LabelsFit labelOf plan dpi →
      sheetPage labelOf cutMarks plan dpi limits paper index ≠
        .error (.error (.raster .placement))
  disjoint : ∀ (left right : Nat) (first second : SheetSlot), left ≠ right →
    plan.layout.slots[left]? = some first → plan.layout.slots[right]? = some second →
    ∀ box other, dotBox first dpi = .ok box → dotBox second dpi = .ok other → box.Disjoint other

/-! ## Rounding -/

/-- A length in units of 1/25400 dot. -/
def scaled (valueUm : Int64) (dpi : NonZeroU16) : Int := valueUm.toInt * dpi.1.toNat

/-- How often the dots of a length wrap around in the cast to `i64`. -/
def laps (valueUm : Int64) (dpi : NonZeroU16) : Int :=
  (rounded 25400 (scaled valueUm dpi) + 2 ^ 63) / 2 ^ 64

/-- Position and size are rounded up by no more than there is room before the edge, and half
a dot; dots that wrap around are counted. -/
def Clears (dpi : NonZeroU16) (position size edge : Int64) : Prop :=
  roundedUp 25400 (scaled position dpi) + roundedUp 25400 (scaled size dpi) +
      25400 * (2 ^ 64 * (laps edge dpi - laps position dpi - laps size dpi)) ≤
    scaled edge dpi - scaled position dpi - scaled size dpi + 12700

/-- A size is rounded to no dot at all: it is less than half a dot. -/
def Vanishes (dpi : NonZeroU16) (size : Int64) : Prop :=
  scaled size dpi + 12700 < 25400 * (2 ^ 64 * laps size dpi + 1)

/-- The slot is clear of the other one in some direction, or one of them vanishes. -/
def Separate (dpi : NonZeroU16) (first second : SheetSlot) : Prop :=
  (Vanishes dpi first.widthUm ∨ Vanishes dpi first.heightUm) ∨
    (Vanishes dpi second.widthUm ∨ Vanishes dpi second.heightUm) ∨
    Clears dpi first.xUm first.widthUm second.xUm ∨
    Clears dpi second.xUm second.widthUm first.xUm ∨
    Clears dpi first.yUm first.heightUm second.yUm ∨
    Clears dpi second.yUm second.heightUm first.yUm

/-- The slots of a plan round well: those that are used are clear of the edges of the paper,
and all are clear of each other, as far as their dots can be counted. -/
structure RoundsWell (plan : SheetPlan) (dpi : NonZeroU16) : Prop where
  inside : ∀ placement ∈ plan.placements, ∀ slot, plan.layout.slots[placement.slot]? = some slot →
    (dotBox slot dpi).isOk = true →
      Clears dpi slot.xUm slot.widthUm plan.layout.paperWidthUm ∧
        Clears dpi slot.yUm slot.heightUm plan.layout.paperHeightUm
  apart : ∀ (left right : Nat) (first second : SheetSlot), left ≠ right →
    plan.layout.slots[left]? = some first → plan.layout.slots[right]? = some second →
    (dotBox first dpi).isOk = true → (dotBox second dpi).isOk = true → Separate dpi first second

/-- The dots of a length that is not negative. -/
theorem toInt_micrometresToDots {valueUm : Int64} (positive : 0 ≤ valueUm.toInt)
    (dpi : NonZeroU16) :
    (micrometresToDots valueUm dpi.1).toInt =
      rounded 25400 (scaled valueUm dpi) - 2 ^ 64 * laps valueUm dpi := by
  have product : 0 ≤ scaled valueUm dpi := Int.mul_nonneg positive (Int.natCast_nonneg _)
  have quotient : roundedRatio (scaled valueUm dpi) 25400 = rounded 25400 (scaled valueUm dpi) := by
    rw [roundedRatio, rounded, if_neg (by omega)]
    omega
  have size : ((Int64.size : Nat) : Int) = 2 ^ 64 := rfl
  rw [micrometresToDots, roundRatio, Int64.toInt_ofInt]
  change (roundedRatio (scaled valueUm dpi) 25400).bmod Int64.size = _
  rw [quotient, laps, Int.bmod_def, size]
  generalize rounded 25400 (scaled valueUm dpi) = dots
  split <;> omega

section

variable {dpi : NonZeroU16} {position size edge : Int64}

/-- The dots of a position and a size fit before those of an edge when they are clear. -/
theorem clears_iff (start : 0 ≤ position.toInt) (positive : 0 ≤ size.toInt)
    (ends : 0 ≤ edge.toInt) :
    Clears dpi position size edge ↔
      (micrometresToDots position dpi.1).toInt + (micrometresToDots size dpi.1).toInt ≤
        (micrometresToDots edge dpi.1).toInt := by
  rw [Clears, toInt_micrometresToDots start, toInt_micrometresToDots positive,
    toInt_micrometresToDots ends]
  have sum := rounded_add_le_iff (by decide : (0 : Int) < 25400) (scaled position dpi)
    (scaled size dpi) (scaled edge dpi)
    (2 ^ 64 * (laps edge dpi - laps position dpi - laps size dpi))
  have half : (25400 : Int) / 2 = 12700 := rfl
  rw [half] at sum
  rw [← sum]
  constructor <;> intro bound <;> omega

theorem vanishes_iff (positive : 0 ≤ size.toInt) {dots : UInt32}
    (counted : dotsU32 size dpi = .ok dots) : Vanishes dpi size ↔ dots.toNat = 0 := by
  have same := dotsU32_eq_ok.mp counted
  have less := rounded_lt_iff (by decide : (0 : Int) < 25400) (scaled size dpi)
    (2 ^ 64 * laps size dpi + 1)
  have half : (25400 : Int) / 2 = 12700 := rfl
  rw [half] at less
  rw [toInt_micrometresToDots positive] at same
  rw [Vanishes, ← less]
  constructor <;> intro bound <;> omega

end

/-! ## Boxes of slots -/

section

variable {dpi : NonZeroU16} {slot other : SheetSlot} {box second : Box}

theorem dotBox_eq_ok (counted : dotBox slot dpi = .ok box) :
    ∃ left top width height : UInt32, dotsU32 slot.xUm dpi = .ok left ∧
      dotsU32 slot.yUm dpi = .ok top ∧ dotsU32 slot.widthUm dpi = .ok width ∧
      dotsU32 slot.heightUm dpi = .ok height ∧
      box = ⟨left.toNat, top.toNat, width.toNat, height.toNat⟩ := by
  obtain ⟨left, across, counted⟩ := (except_bind_eq_ok _ _ _).mp counted
  obtain ⟨top, down, counted⟩ := (except_bind_eq_ok _ _ _).mp counted
  obtain ⟨width, wide, counted⟩ := (except_bind_eq_ok _ _ _).mp counted
  obtain ⟨height, high, counted⟩ := (except_bind_eq_ok _ _ _).mp counted
  exact ⟨left, top, width, height, across, down, wide, high,
    ((except_pure_eq_ok _ _).mp counted).symm⟩

/-- A slot in dots has the dots of its fields. -/
theorem dotBox_fields (counted : dotBox slot dpi = .ok box) :
    (micrometresToDots slot.xUm dpi.1).toInt = box.left ∧
      (micrometresToDots slot.yUm dpi.1).toInt = box.top ∧
      (micrometresToDots slot.widthUm dpi.1).toInt = box.width ∧
      (micrometresToDots slot.heightUm dpi.1).toInt = box.height := by
  obtain ⟨left, top, width, height, across, down, wide, high, rfl⟩ := dotBox_eq_ok counted
  exact ⟨dotsU32_eq_ok.mp across, dotsU32_eq_ok.mp down, dotsU32_eq_ok.mp wide,
    dotsU32_eq_ok.mp high⟩

variable {layout : SheetLayout}

/-- A slot is inside the page in dots when it is clear of the edges of the paper. -/
theorem inside_iff (placed : OnPaper layout slot) (counted : dotBox slot dpi = .ok box)
    {limits : ProcessingLimits} {paper : UInt32 × UInt32}
    (measured : paperDots layout dpi limits = .ok paper) :
    (box.left + box.width ≤ paper.1.toNat ∧ box.top + box.height ≤ paper.2.toNat) ↔
      Clears dpi slot.xUm slot.widthUm layout.paperWidthUm ∧
        Clears dpi slot.yUm slot.heightUm layout.paperHeightUm := by
  have left := placed.left
  have top := placed.top
  have wide := placed.wide
  have high := placed.high
  have right := placed.right
  have bottom := placed.bottom
  obtain ⟨across, down, width, height⟩ := dotBox_fields counted
  obtain ⟨sheet, tall⟩ := paperDots_eq_ok measured
  rw [clears_iff left (by omega) (by omega), clears_iff top (by omega) (by omega), across, down,
    width, height, sheet, tall]
  omega

/-- Two slots cover different dots when they are clear of each other. -/
theorem disjoint_iff_separate (placed : OnPaper layout slot) (also : OnPaper layout other)
    (counted : dotBox slot dpi = .ok box) (counts : dotBox other dpi = .ok second) :
    box.Disjoint second ↔ Separate dpi slot other := by
  have left := placed.left
  have top := placed.top
  have wide := placed.wide
  have high := placed.high
  have before := also.left
  have above := also.top
  have broad := also.wide
  have tall := also.high
  obtain ⟨across, down, width, height⟩ := dotBox_fields counted
  obtain ⟨acrosses, downs, widths, heights⟩ := dotBox_fields counts
  obtain ⟨_, _, firstWidth, firstHeight, -, -, wides, highs, rfl⟩ := dotBox_eq_ok counted
  obtain ⟨_, _, secondWidth, secondHeight, -, -, broads, talls, rfl⟩ := dotBox_eq_ok counts
  rw [Box.disjoint_iff, Separate, vanishes_iff (by omega) wides, vanishes_iff (by omega) highs,
    vanishes_iff (by omega) broads, vanishes_iff (by omega) talls,
    clears_iff left (by omega) before, clears_iff before (by omega) left,
    clears_iff top (by omega) above, clears_iff above (by omega) top, across, down, width, height,
    acrosses, downs, widths, heights]
  dsimp only
  omega

end

/-! ## Plans -/

/-- The pages of a plan hold its labels exactly when its slots round well. -/
theorem sheet_geometry_iff (input : SheetPlanInput) (definition : SheetDefinition)
    (options : SheetOptions) (limits : ProcessingLimits) (result : SheetPlan)
    (planned : plan input definition options limits = .ok result) :
    Imposed result options.dpi limits ↔ RoundsWell result options.dpi := by
  have placed := plan_eq_ok planned
  obtain ⟨-, -, slots⟩ := onPaper_of_validateLayout placed.layout
  have onPaper {index : Nat} {slot : SheetSlot}
      (found : result.layout.slots[index]? = some slot) : OnPaper result.layout slot :=
    slots slot (List.mem_of_getElem? found)
  constructor
  · intro imposed
    constructor
    case inside =>
      intro placement member slot found counts
      obtain ⟨box, counted⟩ := exists_of_isOk counts
      obtain ⟨paper, measured⟩ := placed.paper
      exact (inside_iff (onPaper found) counted measured).mp
        (imposed.inside paper measured placement member slot found box counted)
    case apart =>
      intro left right first second different found finds counts also
      obtain ⟨box, counted⟩ := exists_of_isOk counts
      obtain ⟨other, countsOther⟩ := exists_of_isOk also
      exact (disjoint_iff_separate (onPaper found) (onPaper finds) counted countsOther).mp
        (imposed.disjoint left right first second different found finds box other counted
          countsOther)
  · intro rounds
    have inside : ∀ paper, paperDots result.layout options.dpi limits = .ok paper →
        ∀ placement ∈ result.placements, ∀ slot,
          result.layout.slots[placement.slot]? = some slot →
          ∀ box, dotBox slot options.dpi = .ok box →
            box.left + box.width ≤ paper.1.toNat ∧ box.top + box.height ≤ paper.2.toNat := by
      intro paper measured placement member slot found box counted
      apply (inside_iff (onPaper found) counted measured).mpr
      exact rounds.inside placement member slot found (by rw [counted]; rfl)
    constructor
    case inside => exact inside
    case pages =>
      intro paper measured labelOf cutMarks index fit
      apply sheetPage_ne_placement fit
      intro placement member slot found x y width height across down wide high
      have counted : dotBox slot options.dpi =
          .ok ⟨x.toNat, y.toNat, width.toNat, height.toNat⟩ := by
        rw [dotBox, across, down, wide, high]
        rfl
      exact inside paper measured placement member slot found _ counted
    case disjoint =>
      intro left right first second different found finds box other counted counts
      apply (disjoint_iff_separate (onPaper found) (onPaper finds) counted counts).mpr
      exact rounds.apart left right first second different found finds (by rw [counted]; rfl)
        (by rw [counts]; rfl)

/-- A job of rasters is not refused for a placement when the pages of its plan hold its labels. -/
theorem rasterPages_ne_placement {items : List SheetRasterItem} {definition : SheetDefinition}
    {options : SheetOptions} {cutMarks : Bool} {limits : ProcessingLimits}
    {first : SheetRasterItem} {result : SheetPlan} (headed : items.head? = some first)
    (planned : plan ⟨UInt32.ofNat items.length, first.widthUm, first.heightUm⟩ definition options
      limits = .ok result)
    (imposed : Imposed result options.dpi limits) :
    rasterPages items definition options cutMarks limits ≠
      .error (.error (.raster .placement)) := by
  apply except_bind_ne_error (okOr_ne_error (by nofun))
  intro head found
  rw [okOr_eq_ok, headed, Option.some.injEq] at found
  apply except_bind_ne_error (refuseIf_ne_error (by nofun))
  intro _ _
  rw [← found, planned]
  change ((items.zipIdx.forM (checkItem result options.dpi)) >>= fun _ =>
    sheetPages (itemRaster items) cutMarks result options.dpi limits) ≠ _
  apply except_bind_ne_error (forM_ne_error fun _ _ => checkItem_ne_placement)
  intro _ checked
  obtain ⟨paper, measured⟩ := (plan_eq_ok planned).paper
  rw [sheetPages, measured]
  apply mapM_ne_error
  intro index _
  exact imposed.pages paper measured (itemRaster items) cutMarks index
    (labelsFit_of_checked (plan_eq_ok planned) checked)

/-- A grid of 2 × 2 labels. -/
def squareGrid : SheetGrid :=
  ⟨"2x2", 100000, 100000, 2, 2, 20000, 10000, 5000, 7000, 2000, 3000, .rowMajor⟩

theorem sheet_geometry_iff_square :
    ∃ result, plan ⟨5, 20000, 10000⟩ (.grid squareGrid) ⟨2, 100, by decide⟩ .default = .ok result ∧
      (Imposed result ⟨100, by decide⟩ .default ↔ RoundsWell result ⟨100, by decide⟩) := by
  have succeeded : (plan ⟨5, 20000, 10000⟩ (.grid squareGrid) ⟨2, 100, by decide⟩
      .default).isOk = true := by decide +kernel
  obtain ⟨result, planned⟩ := exists_of_isOk succeeded
  exact ⟨result, planned, sheet_geometry_iff _ _ _ _ result planned⟩

/-- A sheet of A4 with three labels of 38 mm in a row, the last one flush with the right edge. -/
def threeLabels : SheetLayout :=
  ⟨"three", 210000, 297000,
    [⟨38000, 0, 38000, 21000⟩, ⟨76000, 0, 38000, 21000⟩, ⟨172000, 0, 38000, 21000⟩]⟩

/-- The plan of one label in the last slot. -/
def flushPlan : SheetPlan := ⟨1, threeLabels, [⟨0, 0, 2⟩]⟩

/-- 203 dots to the inch. -/
def dpi203 : NonZeroU16 := ⟨203, by decide⟩

/-- A white label of 38 mm by 21 mm. -/
def flushItem : SheetRasterItem := ⟨.white 304 168, 38000, 21000⟩

theorem sheetPage_flush :
    sheetPage (itemRaster [flushItem]) false flushPlan dpi203 .default (1678, 2374) 0 =
      .error (.error (.raster .placement)) := by
  have made : MonoRaster.tryNew 1678 2374 ProcessingLimits.default.maxCanvasPixels =
      .ok (.white 1678 2374) :=
    MonoRaster.tryNew_eq_ok.mpr ⟨by decide, by decide, by decide, rfl⟩
  have across : dotsU32 172000 dpi203 = .ok 1375 := by decide +kernel
  have down : dotsU32 0 dpi203 = .ok 0 := by decide +kernel
  have refused : placeLabel (itemRaster [flushItem]) false threeLabels dpi203
      (.white 1678 2374) ⟨0, 0, 2⟩ = .error (.error (.raster .placement)) :=
    placeLabel_eq_placement (MonoRaster.validate_white (by decide) (by decide))
      (MonoRaster.validate_white (by decide) (by decide)) rfl rfl across down (by decide)
  have listed : (flushPlan.placements.filter fun placement => placement.page = 0) =
      [⟨0, 0, 2⟩] := by decide
  rw [sheetPage, made, except_bind_eq_error]
  refine .inr ⟨.white 1678 2374, rfl, ?_⟩
  rw [listed, List.foldlM_cons, except_bind_eq_error]
  exact .inl refused

/-- The label in the last slot sticks out of the page by a dot and is refused, and the labels
in the other slots overlap. -/
theorem flush_label_refused :
    plan ⟨1, 38000, 21000⟩ (.explicit threeLabels) ⟨2, dpi203⟩ .default = .ok flushPlan ∧
      paperDots threeLabels dpi203 .default = .ok (1678, 2374) ∧
      threeLabels.slots.map (fun slot => dotBox slot dpi203) =
        [.ok ⟨304, 0, 304, 168⟩, .ok ⟨607, 0, 304, 168⟩, .ok ⟨1375, 0, 304, 168⟩] ∧
      rasterPages [flushItem] (.explicit threeLabels) ⟨2, dpi203⟩ false .default =
        .error (.error (.raster .placement)) ∧
      ¬Imposed flushPlan dpi203 .default := by
  have planned : plan ⟨1, 38000, 21000⟩ (.explicit threeLabels) ⟨2, dpi203⟩ .default =
      .ok flushPlan := by decide +kernel
  have measured : paperDots threeLabels dpi203 .default = .ok (1678, 2374) := by decide +kernel
  have boxes : threeLabels.slots.map (fun slot => dotBox slot dpi203) =
      [.ok ⟨304, 0, 304, 168⟩, .ok ⟨607, 0, 304, 168⟩, .ok ⟨1375, 0, 304, 168⟩] := by
    decide +kernel
  refine ⟨planned, measured, boxes, ?_, ?_⟩
  · have sound : flushItem.raster.validate = .ok () :=
      MonoRaster.validate_white (by decide) (by decide)
    have checked : [flushItem].zipIdx.forM (checkItem flushPlan dpi203) = .ok () := by
      rw [except_forM_eq_ok]
      intro entry member
      rw [List.mem_singleton.mp member, checkItem, sound]
      decide +kernel
    have pages : sheetPages (itemRaster [flushItem]) false flushPlan dpi203 .default =
        .error (.error (.raster .placement)) := by
      rw [sheetPages, except_bind_eq_error]
      refine .inr ⟨_, measured, ?_⟩
      change (List.mapM _ [0]) = _
      rw [List.mapM_cons, sheetPage_flush]
      rfl
    rw [rasterPages, except_bind_eq_error]
    refine .inr ⟨flushItem, rfl, (except_bind_eq_error _ _ _).mpr (.inr ⟨(), rfl, ?_⟩)⟩
    rw [except_bind_eq_error]
    refine .inr ⟨flushPlan, planned, (except_bind_eq_error _ _ _).mpr (.inr ⟨(), checked, ?_⟩)⟩
    exact pages
  · intro imposed
    have counted : dotBox ⟨172000, 0, 38000, 21000⟩ dpi203 = .ok ⟨1375, 0, 304, 168⟩ := by
      decide +kernel
    have inside := imposed.inside _ measured ⟨0, 0, 2⟩ (List.mem_singleton_self _) _ rfl _ counted
    exact absurd inside.1 (by decide)

end PrinterSdk.Sheet
