import PrinterSdk.Label.Validate
import PrinterSdk.Data.Outcome
import PrinterSdk.Render.Dots
import PrinterSdk.Render.Raster

/-!
# Layouts of sheets

A sheet of paper has slots for labels.  The slots are listed explicitly or stem from a
grid, and they are validated in micrometres: every slot is on the paper, and no two slots
overlap.
-/

namespace PrinterSdk.Sheet

open PrinterSdk.Data PrinterSdk.Label PrinterSdk.Render

/-- `FillOrder`. -/
inductive FillOrder where
  | rowMajor | columnMajor
  deriving DecidableEq, Repr

/-- `SheetSlot`. -/
structure SheetSlot where
  xUm : Int64
  yUm : Int64
  widthUm : Int64
  heightUm : Int64
  deriving DecidableEq, Repr

/-- `SheetGrid`. -/
structure SheetGrid where
  id : String
  paperWidthUm : Int64
  paperHeightUm : Int64
  rows : UInt16
  columns : UInt16
  labelWidthUm : Int64
  labelHeightUm : Int64
  marginLeftUm : Int64
  marginTopUm : Int64
  gapXUm : Int64
  gapYUm : Int64
  fillOrder : FillOrder
  deriving DecidableEq, Repr

/-- `SheetLayout`. -/
structure SheetLayout where
  id : String
  paperWidthUm : Int64
  paperHeightUm : Int64
  slots : List SheetSlot
  deriving DecidableEq, Repr

/-- `SheetDefinition`. -/
inductive SheetDefinition where
  | grid (grid : SheetGrid)
  | explicit (layout : SheetLayout)
  deriving DecidableEq, Repr

/-- `SheetError`, as far as layouts, plans and pages return it. -/
inductive SheetError where
  | emptyJob
  | emptyLayout
  | invalidLayoutId
  | invalidPaper (widthUm heightUm : Int64)
  | invalidGrid
  | slotOutsidePaper (index : Nat)
  | overlappingSlots (left right : Nat)
  | invalidFirstSlot (firstSlot : Nat)
  | labelSizeMismatch (item : Nat)
      (actualWidthUm actualHeightUm expectedWidthUm expectedHeightUm : Int64)
  | rasterTooLarge
  | limitExceeded
  | geometryOverflow
  | raster (error : RasterError)
  deriving DecidableEq, Repr

/-- Return an error of sheets when `refused`. -/
def refuse (refused : Prop) [Decidable refused] (error : SheetError) : Outcome SheetError Unit :=
  refuseIf refused (.error error)

/-- `ok_or` with an error of sheets. -/
def orRefuse {α : Type} (value : Option α) (error : SheetError) : Outcome SheetError α :=
  okOr value (.error error)

@[simp] theorem refuse_eq_ok (refused : Prop) [Decidable refused] (error : SheetError)
    (result : Unit) : refuse refused error = .ok result ↔ ¬refused :=
  refuseIf_eq_ok refused _ result

@[simp] theorem orRefuse_eq_ok {α : Type} (value : Option α) (error : SheetError) (result : α) :
    orRefuse value error = .ok result ↔ value = some result :=
  okOr_eq_ok value _ result

/-- `checked_mul` on `i64`. -/
def checkedMul64 (left right : Int64) : Option Int64 :=
  if -2 ^ 63 ≤ left.toInt * right.toInt ∧ left.toInt * right.toInt < 2 ^ 63 then
    some (left * right)
  else none

/-! ## Validation -/

/-- `MAX_LAYOUT_ID_BYTES`. -/
def maxLayoutIdBytes : Nat := 128

/-- The checks of one slot. -/
def checkSlot (layout : SheetLayout) (index : Nat) (slot : SheetSlot) :
    Outcome SheetError Unit := do
  let right ← orRefuse (checkedAdd64 slot.xUm slot.widthUm) .geometryOverflow
  let bottom ← orRefuse (checkedAdd64 slot.yUm slot.heightUm) .geometryOverflow
  refuse (slot.xUm < 0 ∨ slot.yUm < 0 ∨ slot.widthUm ≤ 0 ∨ slot.heightUm ≤ 0 ∨
    right > layout.paperWidthUm ∨ bottom > layout.paperHeightUm) (.slotOutsidePaper index)

/-- The loop over the slots, from an index. -/
def checkSlots (layout : SheetLayout) : Nat → List SheetSlot → Outcome SheetError Unit
  | _, [] => return ()
  | index, slot :: rest => do
      checkSlot layout index slot
      checkSlots layout (index + 1) rest

/-- `overlaps`. -/
def overlaps (left right : SheetSlot) : Outcome SheetError Bool := do
  let leftRight ← orRefuse (checkedAdd64 left.xUm left.widthUm) .geometryOverflow
  let rightRight ← orRefuse (checkedAdd64 right.xUm right.widthUm) .geometryOverflow
  let leftBottom ← orRefuse (checkedAdd64 left.yUm left.heightUm) .geometryOverflow
  let rightBottom ← orRefuse (checkedAdd64 right.yUm right.heightUm) .geometryOverflow
  return left.xUm < rightRight ∧ right.xUm < leftRight ∧ left.yUm < rightBottom ∧
    right.yUm < leftBottom

/-- The inner loop over the slots behind one slot. -/
def checkLater (left : Nat) (slot : SheetSlot) : Nat → List SheetSlot → Outcome SheetError Unit
  | _, [] => return ()
  | right, other :: rest => do
      let overlapping ← overlaps slot other
      refuse (overlapping = true) (.overlappingSlots left right)
      checkLater left slot (right + 1) rest

/-- The loop over all pairs of slots, from the index of the first. -/
def checkOverlaps : Nat → List SheetSlot → Outcome SheetError Unit
  | _, [] => return ()
  | left, slot :: rest => do
      checkLater left slot (left + 1) rest
      checkOverlaps (left + 1) rest

/-- `validate_layout_with_limits`. -/
def validateLayoutWithLimits (layout : SheetLayout) (limits : ProcessingLimits) :
    Outcome SheetError Unit := do
  refuse ((asBytes layout.id).length = 0 ∨ (asBytes layout.id).length > maxLayoutIdBytes)
    .invalidLayoutId
  refuse (layout.paperWidthUm ≤ 0 ∨ layout.paperHeightUm ≤ 0)
    (.invalidPaper layout.paperWidthUm layout.paperHeightUm)
  refuse (layout.slots = []) .emptyLayout
  refuse (layout.slots.length > limits.maxSheetSlots) .limitExceeded
  checkSlots layout 0 layout.slots
  checkOverlaps 0 layout.slots

/-- `validate_layout`. -/
def validateLayout (layout : SheetLayout) : Outcome SheetError Unit :=
  validateLayoutWithLimits layout .default

/-! ## Grids -/

/-- The rows and columns of a grid, in the order in which it is filled. -/
def gridCells (grid : SheetGrid) : List (Nat × Nat) :=
  match grid.fillOrder with
  | .rowMajor =>
      (List.range grid.rows.toNat).flatMap fun row =>
        (List.range grid.columns.toNat).map fun column => (row, column)
  | .columnMajor =>
      (List.range grid.columns.toNat).flatMap fun column =>
        (List.range grid.rows.toNat).map fun row => (row, column)

/-- The slot that is pushed for a row and a column. -/
def gridSlot (grid : SheetGrid) (cell : Nat × Nat) : Outcome SheetError SheetSlot := do
  let pitchX ← orRefuse (checkedAdd64 grid.labelWidthUm grid.gapXUm) .geometryOverflow
  let pitchY ← orRefuse (checkedAdd64 grid.labelHeightUm grid.gapYUm) .geometryOverflow
  let xUm ← orRefuse ((checkedMul64 (Int64.ofNat cell.2) pitchX).bind fun value =>
    checkedAdd64 grid.marginLeftUm value) .geometryOverflow
  let yUm ← orRefuse ((checkedMul64 (Int64.ofNat cell.1) pitchY).bind fun value =>
    checkedAdd64 grid.marginTopUm value) .geometryOverflow
  return ⟨xUm, yUm, grid.labelWidthUm, grid.labelHeightUm⟩

/-- `normalize_layout_with_limits`. -/
def normalizeLayoutWithLimits (definition : SheetDefinition) (limits : ProcessingLimits) :
    Outcome SheetError SheetLayout :=
  match definition with
  | .explicit layout => do
      validateLayoutWithLimits layout limits
      return layout
  | .grid grid => do
      refuse (grid.rows = 0 ∨ grid.columns = 0 ∨ grid.labelWidthUm ≤ 0 ∨
        grid.labelHeightUm ≤ 0 ∨ grid.marginLeftUm < 0 ∨ grid.marginTopUm < 0 ∨
        grid.gapXUm < 0 ∨ grid.gapYUm < 0) .invalidGrid
      let count ← orRefuse (checkedMul grid.rows.toNat grid.columns.toNat) .geometryOverflow
      refuse (count > limits.maxSheetSlots) .limitExceeded
      let slots ← (gridCells grid).mapM (gridSlot grid)
      let layout : SheetLayout := ⟨grid.id, grid.paperWidthUm, grid.paperHeightUm, slots⟩
      validateLayoutWithLimits layout limits
      return layout

/-! ## What validation accepts -/

/-- A slot has a positive size and is on the paper, in exact integers. -/
structure OnPaper (layout : SheetLayout) (slot : SheetSlot) : Prop where
  left : 0 ≤ slot.xUm.toInt
  top : 0 ≤ slot.yUm.toInt
  wide : 0 < slot.widthUm.toInt
  high : 0 < slot.heightUm.toInt
  right : slot.xUm.toInt + slot.widthUm.toInt ≤ layout.paperWidthUm.toInt
  bottom : slot.yUm.toInt + slot.heightUm.toInt ≤ layout.paperHeightUm.toInt

theorem checkedAdd64_eq_some {left right total : Int64} :
    checkedAdd64 left right = some total ↔ left.toInt + right.toInt = total.toInt := by
  unfold checkedAdd64
  have above := total.toInt_lt
  have below := total.le_toInt
  split
  · next fits =>
      have exact_sum : (left + right).toInt = left.toInt + right.toInt := by
        rw [Int64.toInt_add]
        exact Int.bmod_eq_of_le fits.1 fits.2
      rw [Option.some.injEq, ← Int64.toInt_inj, exact_sum]
  · next overflows =>
      constructor
      · intro added
        cases added
      · intro same
        exact absurd ⟨by omega, by omega⟩ overflows

theorem onPaper_of_checkSlot {layout : SheetLayout} {index : Nat} {slot : SheetSlot}
    (checked : checkSlot layout index slot = .ok ()) : OnPaper layout slot := by
  obtain ⟨right, across, checked⟩ := (except_bind_eq_ok _ _ _).mp checked
  obtain ⟨bottom, down, checked⟩ := (except_bind_eq_ok _ _ _).mp checked
  rw [orRefuse_eq_ok, checkedAdd64_eq_some] at across down
  rw [refuse_eq_ok] at checked
  have zero : (0 : Int64).toInt = 0 := rfl
  simp only [not_or, GT.gt, Int64.lt_iff_toInt_lt, Int64.le_iff_toInt_le, zero] at checked
  constructor <;> omega

theorem onPaper_of_checkSlots {layout : SheetLayout} {index : Nat} {slots : List SheetSlot}
    (checked : checkSlots layout index slots = .ok ()) : ∀ slot ∈ slots, OnPaper layout slot := by
  induction slots generalizing index with
  | nil =>
      intro slot member
      cases member
  | cons slot rest ih =>
      obtain ⟨_, first, later⟩ := (except_bind_eq_ok _ _ _).mp checked
      exact List.forall_mem_cons.mpr ⟨onPaper_of_checkSlot first, ih later⟩

/-- A layout that is accepted has its slots on the paper. -/
theorem onPaper_of_validateLayout {layout : SheetLayout} {limits : ProcessingLimits}
    (accepted : validateLayoutWithLimits layout limits = .ok ()) :
    0 < layout.paperWidthUm.toInt ∧ 0 < layout.paperHeightUm.toInt ∧
      ∀ slot ∈ layout.slots, OnPaper layout slot := by
  obtain ⟨_, -, accepted⟩ := (except_bind_eq_ok _ _ _).mp accepted
  obtain ⟨_, paper, accepted⟩ := (except_bind_eq_ok _ _ _).mp accepted
  obtain ⟨_, -, accepted⟩ := (except_bind_eq_ok _ _ _).mp accepted
  obtain ⟨_, -, accepted⟩ := (except_bind_eq_ok _ _ _).mp accepted
  obtain ⟨_, checked, -⟩ := (except_bind_eq_ok _ _ _).mp accepted
  rw [refuse_eq_ok, not_or] at paper
  have zero : (0 : Int64).toInt = 0 := rfl
  simp only [Int64.le_iff_toInt_le, zero] at paper
  exact ⟨by omega, by omega, onPaper_of_checkSlots checked⟩

/-- A definition is normalized to a layout that is accepted. -/
theorem validateLayout_of_normalize {definition : SheetDefinition} {limits : ProcessingLimits}
    {layout : SheetLayout}
    (normalized : normalizeLayoutWithLimits definition limits = .ok layout) :
    validateLayoutWithLimits layout limits = .ok () := by
  cases definition with
  | explicit given =>
      obtain ⟨_, accepted, same⟩ := (except_bind_eq_ok _ _ _).mp normalized
      rw [← (except_pure_eq_ok _ _).mp same]
      exact accepted
  | grid grid =>
      obtain ⟨_, -, normalized⟩ := (except_bind_eq_ok _ _ _).mp normalized
      obtain ⟨count, -, normalized⟩ := (except_bind_eq_ok _ _ _).mp normalized
      obtain ⟨_, -, normalized⟩ := (except_bind_eq_ok _ _ _).mp normalized
      obtain ⟨slots, -, normalized⟩ := (except_bind_eq_ok _ _ _).mp normalized
      obtain ⟨_, accepted, same⟩ := (except_bind_eq_ok _ _ _).mp normalized
      rw [← (except_pure_eq_ok _ _).mp same]
      exact accepted

end PrinterSdk.Sheet
