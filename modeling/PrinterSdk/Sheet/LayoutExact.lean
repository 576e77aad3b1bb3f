import PrinterSdk.Sheet.Geometry
import Mathlib.Algebra.Order.Field.Basic
import Mathlib.Algebra.Order.Ring.Cast
import Mathlib.Algebra.Order.Ring.Int
import Mathlib.Algebra.Order.Ring.Rat
import Mathlib.Data.List.NodupEquivFin
import Mathlib.Data.List.ProdSigma
import Mathlib.Order.CompletePartialOrder
import Mathlib.Order.Interval.Set.Disjoint

/-!
# What validation of layouts accepts

The sums of the checks are sums of `i64`, and one that overflows is refused.  No slot that
is on the paper has such a sum, so that validation is exact: it accepts the layouts whose
slots are on the paper and share no point but of their edges.  The slots of a grid are as far
apart as its pitches, whichever way the grid is filled.
-/

namespace PrinterSdk.Sheet

open PrinterSdk.Data PrinterSdk.Label PrinterSdk.Render

/-! ## Valid layouts -/

/-- The points of a slot that are not on its edges. -/
def interior (slot : SheetSlot) : Set (ℚ × ℚ) :=
  Set.Ioo (slot.xUm.toInt : ℚ) ((slot.xUm.toInt + slot.widthUm.toInt : Int) : ℚ) ×ˢ
    Set.Ioo (slot.yUm.toInt : ℚ) ((slot.yUm.toInt + slot.heightUm.toInt : Int) : ℚ)

/-- What a layout has to be, in exact integers. -/
structure ValidLayout (layout : SheetLayout) (limits : ProcessingLimits) : Prop where
  named : 1 ≤ (asBytes layout.id).length ∧ (asBytes layout.id).length ≤ 128
  paper : 0 < layout.paperWidthUm.toInt ∧ 0 < layout.paperHeightUm.toInt
  counted : 1 ≤ layout.slots.length ∧ layout.slots.length ≤ limits.maxSheetSlots
  onPaper : ∀ slot ∈ layout.slots, OnPaper layout slot
  apart : layout.slots.Pairwise fun left right => Disjoint (interior left) (interior right)

/-- One slot is behind the other in some direction. -/
def Clear (left right : SheetSlot) : Prop :=
  (right.xUm.toInt + right.widthUm.toInt ≤ left.xUm.toInt ∨
      left.xUm.toInt + left.widthUm.toInt ≤ right.xUm.toInt) ∨
    right.yUm.toInt + right.heightUm.toInt ≤ left.yUm.toInt ∨
      left.yUm.toInt + left.heightUm.toInt ≤ right.yUm.toInt

theorem disjoint_intervals {start length begin extent : Int} (long : 0 < length)
    (wide : 0 < extent) :
    Disjoint (Set.Ioo (start : ℚ) ((start + length : Int) : ℚ))
        (Set.Ioo (begin : ℚ) ((begin + extent : Int) : ℚ)) ↔
      begin + extent ≤ start ∨ start + length ≤ begin := by
  rw [Set.Ioo_disjoint_Ioo, ← Int.cast_min, ← Int.cast_max, Int.cast_le]
  omega

/-- Slots that have a size share no point inside when one is behind the other. -/
theorem disjoint_interior {layout : SheetLayout} {left right : SheetSlot}
    (first : OnPaper layout left) (second : OnPaper layout right) :
    Disjoint (interior left) (interior right) ↔ Clear left right := by
  unfold interior Clear
  rw [Set.disjoint_prod, disjoint_intervals first.wide second.wide,
    disjoint_intervals first.high second.high]

/-! ## The checks -/

theorem checkSlot_eq_ok {layout : SheetLayout} {index : Nat} {slot : SheetSlot} :
    checkSlot layout index slot = .ok () ↔ OnPaper layout slot := by
  constructor
  · exact onPaper_of_checkSlot
  · intro inside
    have widest := layout.paperWidthUm.toInt_lt
    have highest := layout.paperHeightUm.toInt_lt
    have start := inside.left
    have top := inside.top
    have wide := inside.wide
    have high := inside.high
    have right := inside.right
    have bottom := inside.bottom
    have across : (Int64.ofInt (slot.xUm.toInt + slot.widthUm.toInt)).toInt =
        slot.xUm.toInt + slot.widthUm.toInt :=
      Int64.toInt_ofInt_of_le (by omega) (by omega)
    have down : (Int64.ofInt (slot.yUm.toInt + slot.heightUm.toInt)).toInt =
        slot.yUm.toInt + slot.heightUm.toInt :=
      Int64.toInt_ofInt_of_le (by omega) (by omega)
    apply (except_bind_eq_ok _ _ _).mpr
    refine ⟨_, (orRefuse_eq_ok _ _ _).mpr (checkedAdd64_eq_some.mpr across.symm), ?_⟩
    apply (except_bind_eq_ok _ _ _).mpr
    refine ⟨_, (orRefuse_eq_ok _ _ _).mpr (checkedAdd64_eq_some.mpr down.symm), ?_⟩
    have zero : (0 : Int64).toInt = 0 := rfl
    rw [refuse_eq_ok]
    simp only [GT.gt, Int64.lt_iff_toInt_lt, Int64.le_iff_toInt_le, zero, across, down]
    omega

theorem checkSlots_eq_ok {layout : SheetLayout} {index : Nat} {slots : List SheetSlot} :
    checkSlots layout index slots = .ok () ↔ ∀ slot ∈ slots, OnPaper layout slot := by
  induction slots generalizing index with
  | nil => exact ⟨fun _ => List.forall_mem_nil _, fun _ => rfl⟩
  | cons slot rest ih =>
      rw [List.forall_mem_cons, ← @ih (index + 1), ← @checkSlot_eq_ok layout index]
      exact (except_bind_eq_ok _ _ _).trans ⟨fun ⟨_, both⟩ => both, fun both => ⟨(), both⟩⟩

/-- The sums of two slots on the paper do not overflow. -/
theorem overlaps_eq_ok {layout : SheetLayout} {left right : SheetSlot}
    (first : OnPaper layout left) (second : OnPaper layout right) :
    ∃ overlapping, overlaps left right = .ok overlapping ∧
      (overlapping = true ↔ ¬Clear left right) := by
  have sums (slot : SheetSlot) (inside : OnPaper layout slot) :
      (∃ total, checkedAdd64 slot.xUm slot.widthUm = some total ∧
        total.toInt = slot.xUm.toInt + slot.widthUm.toInt) ∧
      ∃ total, checkedAdd64 slot.yUm slot.heightUm = some total ∧
        total.toInt = slot.yUm.toInt + slot.heightUm.toInt := by
    have checked := (@checkSlot_eq_ok layout 0 slot).mpr inside
    obtain ⟨right, across, checked⟩ := (except_bind_eq_ok _ _ _).mp checked
    obtain ⟨bottom, down, -⟩ := (except_bind_eq_ok _ _ _).mp checked
    rw [orRefuse_eq_ok] at across down
    exact ⟨⟨right, across, (checkedAdd64_eq_some.mp across).symm⟩,
      bottom, down, (checkedAdd64_eq_some.mp down).symm⟩
  obtain ⟨⟨leftRight, across, leftAcross⟩, leftBottom, down, leftDown⟩ := sums left first
  obtain ⟨⟨rightRight, around, rightAcross⟩, rightBottom, under, rightDown⟩ := sums right second
  refine ⟨decide (left.xUm < rightRight ∧ right.xUm < leftRight ∧ left.yUm < rightBottom ∧
    right.yUm < leftBottom), ?_, ?_⟩
  · rw [overlaps, across, around, down, under]
    rfl
  · rw [decide_eq_true_eq, Clear]
    simp only [Int64.lt_iff_toInt_lt]
    omega

theorem checkLater_eq_ok {layout : SheetLayout} {left index : Nat} {slot : SheetSlot}
    {slots : List SheetSlot} (first : OnPaper layout slot)
    (others : ∀ other ∈ slots, OnPaper layout other) :
    checkLater left slot index slots = .ok () ↔
      ∀ other ∈ slots, Disjoint (interior slot) (interior other) := by
  induction slots generalizing index with
  | nil => exact ⟨fun _ => List.forall_mem_nil _, fun _ => rfl⟩
  | cons other rest ih =>
      obtain ⟨here, later⟩ := List.forall_mem_cons.mp others
      obtain ⟨overlapping, compared, means⟩ := overlaps_eq_ok first here
      have apart : ¬overlapping = true ↔ Clear slot other := by rw [means, not_not]
      rw [List.forall_mem_cons, ← @ih (index + 1) later, disjoint_interior first here,
        ← apart]
      have step : checkLater left slot index (other :: rest) =
          (refuse (overlapping = true) (.overlappingSlots left index) >>= fun _ =>
            checkLater left slot (index + 1) rest) := by
        rw [checkLater, compared]
        rfl
      rw [step]
      exact (except_bind_eq_ok _ _ _).trans
        ⟨fun ⟨_, now, rest⟩ => ⟨(refuse_eq_ok _ _ _).mp now, rest⟩,
          fun ⟨now, rest⟩ => ⟨(), (refuse_eq_ok _ _ _).mpr now, rest⟩⟩

theorem checkOverlaps_eq_ok {layout : SheetLayout} {index : Nat} {slots : List SheetSlot}
    (inside : ∀ slot ∈ slots, OnPaper layout slot) :
    checkOverlaps index slots = .ok () ↔
      slots.Pairwise fun left right => Disjoint (interior left) (interior right) := by
  induction slots generalizing index with
  | nil => exact ⟨fun _ => .nil, fun _ => rfl⟩
  | cons slot rest ih =>
      obtain ⟨here, later⟩ := List.forall_mem_cons.mp inside
      rw [List.pairwise_cons, ← @ih (index + 1) later,
        ← @checkLater_eq_ok layout index (index + 1) slot rest here later]
      exact (except_bind_eq_ok _ _ _).trans ⟨fun ⟨_, both⟩ => both, fun both => ⟨(), both⟩⟩

/-- Validation accepts exactly the valid layouts. -/
theorem validateLayoutWithLimits_eq_ok {layout : SheetLayout} {limits : ProcessingLimits} :
    validateLayoutWithLimits layout limits = .ok () ↔ ValidLayout layout limits := by
  have zero : (0 : Int64).toInt = 0 := rfl
  have longest : maxLayoutIdBytes = 128 := rfl
  have filled : layout.slots = [] ↔ layout.slots.length = 0 := List.length_eq_zero_iff.symm
  constructor
  · intro accepted
    obtain ⟨_, named, accepted⟩ := (except_bind_eq_ok _ _ _).mp accepted
    obtain ⟨_, paper, accepted⟩ := (except_bind_eq_ok _ _ _).mp accepted
    obtain ⟨_, some, accepted⟩ := (except_bind_eq_ok _ _ _).mp accepted
    obtain ⟨_, few, accepted⟩ := (except_bind_eq_ok _ _ _).mp accepted
    obtain ⟨_, inside, apart⟩ := (except_bind_eq_ok _ _ _).mp accepted
    have onPaper := checkSlots_eq_ok.mp inside
    rw [refuse_eq_ok] at named paper some few
    rw [filled] at some
    simp only [Int64.le_iff_toInt_le, zero] at paper
    exact ⟨by omega, by omega, by omega, onPaper, (checkOverlaps_eq_ok onPaper).mp apart⟩
  · intro valid
    have named := valid.named
    have paper := valid.paper
    have counted := valid.counted
    apply (except_bind_eq_ok _ _ _).mpr
    refine ⟨(), (refuse_eq_ok _ _ _).mpr (by omega), (except_bind_eq_ok _ _ _).mpr ?_⟩
    refine ⟨(), (refuse_eq_ok _ _ _).mpr ?_, (except_bind_eq_ok _ _ _).mpr ?_⟩
    · simp only [Int64.le_iff_toInt_le, zero]
      omega
    refine ⟨(), (refuse_eq_ok _ _ _).mpr ?_, (except_bind_eq_ok _ _ _).mpr ?_⟩
    · rw [filled]
      omega
    refine ⟨(), (refuse_eq_ok _ _ _).mpr (by omega), (except_bind_eq_ok _ _ _).mpr ?_⟩
    exact ⟨(), checkSlots_eq_ok.mpr valid.onPaper,
      (checkOverlaps_eq_ok valid.onPaper).mpr valid.apart⟩

/-- Whether a layout is valid does not depend on the order of its slots. -/
theorem ValidLayout.perm {id : String} {paperWidthUm paperHeightUm : Int64}
    {slots others : List SheetSlot} {limits : ProcessingLimits}
    (valid : ValidLayout ⟨id, paperWidthUm, paperHeightUm, slots⟩ limits)
    (same : slots.Perm others) :
    ValidLayout ⟨id, paperWidthUm, paperHeightUm, others⟩ limits where
  named := valid.named
  paper := valid.paper
  counted := by
    change 1 ≤ others.length ∧ others.length ≤ limits.maxSheetSlots
    rw [← same.length_eq]
    exact valid.counted
  onPaper := by
    intro slot member
    have inside := valid.onPaper slot (same.mem_iff.mpr member)
    exact ⟨inside.left, inside.top, inside.wide, inside.high, inside.right, inside.bottom⟩
  apart := (same.pairwise_iff fun apart => apart.symm).mp valid.apart

/-! ## The slots of a grid -/

theorem checkedMul64_eq_some {left right product : Int64} :
    checkedMul64 left right = some product ↔ left.toInt * right.toInt = product.toInt := by
  unfold checkedMul64
  have above := product.toInt_lt
  have below := product.le_toInt
  split
  · next fits =>
      have exact_product : (left * right).toInt = left.toInt * right.toInt := by
        rw [Int64.toInt_mul]
        exact Int.bmod_eq_of_le fits.1 fits.2
      rw [Option.some.injEq, ← Int64.toInt_inj, exact_product]
  · next overflows =>
      constructor
      · intro multiplied
        cases multiplied
      · intro same
        exact absurd ⟨same ▸ below, same ▸ above⟩ overflows

/-- The slot of a cell lies at multiples of the pitches, in exact integers. -/
structure AtCell (grid : SheetGrid) (cell : Nat × Nat) (slot : SheetSlot) : Prop where
  x : slot.xUm.toInt =
    grid.marginLeftUm.toInt + cell.2 * (grid.labelWidthUm.toInt + grid.gapXUm.toInt)
  y : slot.yUm.toInt =
    grid.marginTopUm.toInt + cell.1 * (grid.labelHeightUm.toInt + grid.gapYUm.toInt)
  width : slot.widthUm = grid.labelWidthUm
  height : slot.heightUm = grid.labelHeightUm

theorem position_exact {number : Nat} (small : number < 2 ^ 16) {pitch margin position : Int64}
    (placed : ((checkedMul64 (Int64.ofNat number) pitch).bind fun value =>
      checkedAdd64 margin value) = some position) :
    position.toInt = margin.toInt + number * pitch.toInt := by
  obtain ⟨product, multiplied, added⟩ := Option.bind_eq_some_iff.mp placed
  have exact_number : (Int64.ofNat number).toInt = number :=
    Int64.toInt_ofNat_of_lt (by omega)
  rw [checkedMul64_eq_some, exact_number] at multiplied
  rw [checkedAdd64_eq_some] at added
  rw [← added, multiplied]

theorem atCell_of_gridSlot {grid : SheetGrid} {cell : Nat × Nat} {slot : SheetSlot}
    (row : cell.1 < 2 ^ 16) (column : cell.2 < 2 ^ 16) (pushed : gridSlot grid cell = .ok slot) :
    AtCell grid cell slot := by
  obtain ⟨pitchX, across, pushed⟩ := (except_bind_eq_ok _ _ _).mp pushed
  obtain ⟨pitchY, down, pushed⟩ := (except_bind_eq_ok _ _ _).mp pushed
  obtain ⟨xUm, left, pushed⟩ := (except_bind_eq_ok _ _ _).mp pushed
  obtain ⟨yUm, top, pushed⟩ := (except_bind_eq_ok _ _ _).mp pushed
  rw [orRefuse_eq_ok] at across down left top
  rw [← (except_pure_eq_ok _ _).mp pushed]
  rw [checkedAdd64_eq_some] at across down
  refine ⟨?_, ?_, rfl, rfl⟩
  · rw [across]
    exact position_exact column left
  · rw [down]
    exact position_exact row top

/-- The cells of a grid, row after row. -/
theorem gridCells_perm (grid : SheetGrid) :
    (gridCells grid).Perm (List.range grid.rows.toNat ×ˢ List.range grid.columns.toNat) := by
  have numbered (count other : Nat) :
      (List.range count ×ˢ List.range other : List (Nat × Nat)).Nodup :=
    List.nodup_range.product List.nodup_range
  cases order : grid.fillOrder with
  | rowMajor =>
      rw [gridCells, order]
      exact List.Perm.refl _
  | columnMajor =>
      have swapped : gridCells grid =
          (List.range grid.columns.toNat ×ˢ List.range grid.rows.toNat).map Prod.swap := by
        rw [gridCells, order]
        change _ = (List.flatMap _ _).map _
        rw [List.map_flatMap]
        simp only [List.map_map]
        rfl
      rw [swapped]
      apply (List.perm_ext_iff_of_nodup ((numbered _ _).map Prod.swap_injective)
        (numbered _ _)).mpr
      intro cell
      rw [List.mem_map]
      constructor
      · intro ⟨other, member, same⟩
        subst same
        exact List.mem_product.mpr (List.mem_product.mp member).symm
      · intro member
        exact ⟨cell.swap, List.mem_product.mpr (List.mem_product.mp member).symm,
          Prod.swap_swap cell⟩

theorem gridCells_small {grid : SheetGrid} {cell : Nat × Nat} (member : cell ∈ gridCells grid) :
    cell.1 < 2 ^ 16 ∧ cell.2 < 2 ^ 16 := by
  have bounds := List.mem_product.mp ((gridCells_perm grid).mem_iff.mp member)
  rw [List.mem_range, List.mem_range] at bounds
  exact ⟨Nat.lt_trans bounds.1 grid.rows.toNat_lt, Nat.lt_trans bounds.2 grid.columns.toNat_lt⟩

/-- Multiples of a pitch that is no shorter than a label are a label apart. -/
theorem labels_apart {start label gap : Int} (spaced : 0 ≤ gap) (positive : 0 < label)
    {first second : Nat} (before : first < second) :
    start + first * (label + gap) + label ≤ start + second * (label + gap) := by
  have next : (first + 1 : Int) * (label + gap) ≤ second * (label + gap) :=
    Int.mul_le_mul_of_nonneg_right (by omega) (by omega)
  rw [Int.add_mul] at next
  omega

/-- The checks of a grid, as far as its slots depend on them. -/
structure Spaced (grid : SheetGrid) : Prop where
  wide : 0 < grid.labelWidthUm.toInt
  high : 0 < grid.labelHeightUm.toInt
  across : 0 ≤ grid.gapXUm.toInt
  down : 0 ≤ grid.gapYUm.toInt

theorem clear_of_cells {grid : SheetGrid} (spaced : Spaced grid) {cell other : Nat × Nat}
    {left right : SheetSlot} (first : AtCell grid cell left) (second : AtCell grid other right)
    (differ : cell ≠ other) : Clear left right := by
  have apart : cell.1 ≠ other.1 ∨ cell.2 ≠ other.2 := by
    rw [Ne, Prod.ext_iff] at differ
    omega
  rw [Clear, first.x, first.y, second.x, second.y, first.width, first.height, second.width,
    second.height]
  rcases apart with rows | columns
  · right
    rcases Nat.lt_or_gt_of_ne rows with before | behind
    · exact .inr (labels_apart spaced.down spaced.high before)
    · exact .inl (labels_apart spaced.down spaced.high behind)
  · left
    rcases Nat.lt_or_gt_of_ne columns with before | behind
    · exact .inr (labels_apart spaced.across spaced.wide before)
    · exact .inl (labels_apart spaced.across spaced.wide behind)

/-- What is pairwise different on the left is pairwise related on the right. -/
theorem pairwise_of_forall₂ {α β : Type} {Rel : α → β → Prop} {Apart : β → β → Prop}
    {left : List α} {right : List β}
    (separates : ∀ item other value next, Rel item value → Rel other next → item ≠ other →
      Apart value next)
    (related : List.Forall₂ Rel left right) (differ : left.Nodup) : right.Pairwise Apart := by
  induction related with
  | nil => exact .nil
  | cons here _ ih =>
      obtain ⟨fresh, later⟩ := List.nodup_cons.mp differ
      apply List.Pairwise.cons _ (ih later)
      intro next member
      obtain ⟨other, inside, relates⟩ := exists_left_of_mem ‹_› member
      apply separates _ other _ next here relates
      intro same
      exact fresh (same ▸ inside)

/-- The slots that are pushed are those of the cells, and lie behind each other. -/
theorem clear_of_pushed {grid : SheetGrid} (spaced : Spaced grid) {slots : List SheetSlot}
    (pushed : (gridCells grid).mapM (gridSlot grid) = .ok slots) : slots.Pairwise Clear := by
  have nodup : (gridCells grid).Nodup :=
    (gridCells_perm grid).nodup_iff.mpr (List.nodup_range.product List.nodup_range)
  have located : List.Forall₂ (fun cell slot => (cell.1 < 2 ^ 16 ∧ cell.2 < 2 ^ 16) ∧
      gridSlot grid cell = .ok slot) (gridCells grid) slots :=
    (List.forall₂_and_left _ _).mpr
      ⟨fun _ => gridCells_small, (except_mapM_eq_ok _ _ _).mp pushed⟩
  have placed : List.Forall₂ (AtCell grid) (gridCells grid) slots :=
    located.imp fun _ _ found => atCell_of_gridSlot found.1.1 found.1.2 found.2
  apply pairwise_of_forall₂ _ placed nodup
  intro cell other left right first second differ
  exact clear_of_cells spaced first second differ

/-! ## Normalized grids -/

theorem refuse_ne_overlapping {refused : Prop} [Decidable refused] {error : SheetError}
    {left right : Nat} (differs : error ≠ .overlappingSlots left right) :
    refuse refused error ≠ .error (.error (.overlappingSlots left right)) :=
  refuseIf_ne_error fun same => differs (Fault.error.inj same)

theorem overflow_ne_overlapping {α : Type} (value : Option α) (left right : Nat) :
    orRefuse value .geometryOverflow ≠ .error (.error (.overlappingSlots left right)) :=
  okOr_ne_error fun same => nomatch Fault.error.inj same

/-- The loops over slots that lie behind each other find no overlap. -/
theorem validate_ne_overlapping {layout : SheetLayout} {limits : ProcessingLimits}
    (clear : layout.slots.Pairwise Clear) (left right : Nat) :
    validateLayoutWithLimits layout limits ≠ .error (.error (.overlappingSlots left right)) := by
  have slotChecked (index : Nat) (slot : SheetSlot) :
      checkSlot layout index slot ≠ .error (.error (.overlappingSlots left right)) := by
    apply except_bind_ne_error (overflow_ne_overlapping _ _ _)
    intro across _
    apply except_bind_ne_error (overflow_ne_overlapping _ _ _)
    intro down _
    exact refuse_ne_overlapping nofun
  have slotsChecked (slots : List SheetSlot) (index : Nat) :
      checkSlots layout index slots ≠ .error (.error (.overlappingSlots left right)) := by
    induction slots generalizing index with
    | nil => exact nofun
    | cons slot rest ih => exact except_bind_ne_error (slotChecked index slot) fun _ _ => ih _
  apply except_bind_ne_error
  · exact refuse_ne_overlapping nofun
  intro _ _
  apply except_bind_ne_error
  · exact refuse_ne_overlapping nofun
  intro _ _
  apply except_bind_ne_error
  · exact refuse_ne_overlapping nofun
  intro _ _
  apply except_bind_ne_error
  · exact refuse_ne_overlapping nofun
  intro _ _
  apply except_bind_ne_error (slotsChecked _ _)
  intro _ checked
  have inside := checkSlots_eq_ok.mp checked
  have apart : layout.slots.Pairwise fun first second =>
      Disjoint (interior first) (interior second) :=
    clear.imp_of_mem fun first second behind =>
      (disjoint_interior (inside _ first) (inside _ second)).mpr behind
  rw [(checkOverlaps_eq_ok inside).mpr apart]
  nofun

/-- The checks of a grid, before its slots are pushed. -/
theorem spaced_of_passes {grid : SheetGrid}
    (passes : ¬(grid.rows = 0 ∨ grid.columns = 0 ∨ grid.labelWidthUm ≤ 0 ∨
      grid.labelHeightUm ≤ 0 ∨ grid.marginLeftUm < 0 ∨ grid.marginTopUm < 0 ∨
      grid.gapXUm < 0 ∨ grid.gapYUm < 0)) : Spaced grid := by
  have zero : (0 : Int64).toInt = 0 := rfl
  simp only [not_or, Int64.lt_iff_toInt_lt, Int64.le_iff_toInt_le, zero] at passes
  constructor <;> omega

theorem normalize_grid_ne_overlapping (grid : SheetGrid) (limits : ProcessingLimits)
    (left right : Nat) :
    normalizeLayoutWithLimits (.grid grid) limits ≠
      .error (.error (.overlappingSlots left right)) := by
  have pushes (cell : Nat × Nat) :
      gridSlot grid cell ≠ .error (.error (.overlappingSlots left right)) := by
    apply except_bind_ne_error (overflow_ne_overlapping _ _ _)
    intro pitchX _
    apply except_bind_ne_error (overflow_ne_overlapping _ _ _)
    intro pitchY _
    apply except_bind_ne_error (overflow_ne_overlapping _ _ _)
    intro xUm _
    apply except_bind_ne_error (overflow_ne_overlapping _ _ _)
    intro yUm _
    nofun
  apply except_bind_ne_error
  · exact refuse_ne_overlapping nofun
  intro _ passes
  have spaced := spaced_of_passes ((refuse_eq_ok _ _ _).mp passes)
  apply except_bind_ne_error (overflow_ne_overlapping _ _ _)
  intro count _
  apply except_bind_ne_error
  · exact refuse_ne_overlapping nofun
  intro _ _
  apply except_bind_ne_error (mapM_ne_error fun cell _ => pushes cell)
  intro slots pushed
  apply except_bind_ne_error (validate_ne_overlapping (clear_of_pushed spaced pushed) left right)
  intro _ _
  nofun

/-- A grid that is filled in another order has the same slots in another order. -/
theorem normalize_grid_perm {grid : SheetGrid} (order other : FillOrder)
    {limits : ProcessingLimits} {layout : SheetLayout}
    (normalized : normalizeLayoutWithLimits (.grid { grid with fillOrder := order }) limits =
      .ok layout) :
    ∃ slots, normalizeLayoutWithLimits (.grid { grid with fillOrder := other }) limits =
        .ok { layout with slots := slots } ∧ layout.slots.Perm slots := by
  obtain ⟨_, passes, normalized⟩ := (except_bind_eq_ok _ _ _).mp normalized
  obtain ⟨count, counted, normalized⟩ := (except_bind_eq_ok _ _ _).mp normalized
  obtain ⟨_, few, normalized⟩ := (except_bind_eq_ok _ _ _).mp normalized
  obtain ⟨slots, pushed, normalized⟩ := (except_bind_eq_ok _ _ _).mp normalized
  obtain ⟨_, accepted, same⟩ := (except_bind_eq_ok _ _ _).mp normalized
  have cells : (gridCells { grid with fillOrder := other }).Perm
      (gridCells { grid with fillOrder := order }) :=
    (gridCells_perm { grid with fillOrder := other }).trans
      (gridCells_perm { grid with fillOrder := order }).symm
  obtain ⟨others, reordered, rearranged⟩ :=
    List.perm_comp_forall₂ cells ((except_mapM_eq_ok _ _ _).mp pushed)
  have valid := (validateLayoutWithLimits_eq_ok.mp accepted).perm rearranged.symm
  rw [← (except_pure_eq_ok _ _).mp same]
  refine ⟨others, (except_bind_eq_ok _ _ _).mpr ⟨(), passes, ?_⟩, rearranged.symm⟩
  apply (except_bind_eq_ok _ _ _).mpr ⟨count, counted, ?_⟩
  apply (except_bind_eq_ok _ _ _).mpr ⟨(), few, ?_⟩
  apply (except_bind_eq_ok _ _ _).mpr ⟨others, (except_mapM_eq_ok _ _ _).mpr reordered, ?_⟩
  exact (except_bind_eq_ok _ _ _).mpr ⟨(), validateLayoutWithLimits_eq_ok.mpr valid, rfl⟩

/-- Validation accepts exactly the valid layouts, finds no overlap in a grid, and a grid has
the same slots whichever way it is filled. -/
theorem validateLayout_exact (limits : ProcessingLimits) :
    (∀ layout, validateLayoutWithLimits layout limits = .ok () ↔ ValidLayout layout limits) ∧
    (∀ layout, validateLayout layout = .ok () ↔ ValidLayout layout .default) ∧
    (∀ grid left right, normalizeLayoutWithLimits (.grid grid) limits ≠
      .error (.error (.overlappingSlots left right))) ∧
    ∀ (grid : SheetGrid) (order other : FillOrder) (layout : SheetLayout),
      normalizeLayoutWithLimits (.grid { grid with fillOrder := order }) limits = .ok layout →
      ∃ slots, normalizeLayoutWithLimits (.grid { grid with fillOrder := other }) limits =
          .ok { layout with slots := slots } ∧ layout.slots.Perm slots := by
  refine ⟨fun layout => validateLayoutWithLimits_eq_ok, ?_, ?_, ?_⟩
  · intro layout
    exact validateLayoutWithLimits_eq_ok
  · intro grid left right
    exact normalize_grid_ne_overlapping grid limits left right
  · intro grid order other layout normalized
    exact normalize_grid_perm order other normalized

theorem validateLayout_exact_square :
    ∃ layout slots, normalizeLayoutWithLimits (.grid squareGrid) .default = .ok layout ∧
      normalizeLayoutWithLimits (.grid { squareGrid with fillOrder := .columnMajor }) .default =
        .ok { layout with slots := slots } ∧ layout.slots.Perm slots := by
  have succeeded : (normalizeLayoutWithLimits (.grid squareGrid) .default).isOk = true := by
    decide +kernel
  obtain ⟨layout, normalized⟩ := exists_of_isOk succeeded
  obtain ⟨slots, rearranged⟩ := (validateLayout_exact .default).2.2.2 squareGrid .rowMajor
    .columnMajor layout normalized
  exact ⟨layout, slots, normalized, rearranged⟩

end PrinterSdk.Sheet
