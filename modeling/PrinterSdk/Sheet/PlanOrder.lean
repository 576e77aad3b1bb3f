import Mathlib.Order.Interval.Finset.Nat
import PrinterSdk.Data.Loops
import PrinterSdk.Sheet.Geometry

/-!
# The order of a plan

The cells of the sheets, slot after slot and page after page, are counted from the first slot
of the first page on.  A plan puts the items into them one after the other, so that page and
slot of an item are the quotient and the remainder of one number.
-/

namespace PrinterSdk.Sheet

open PrinterSdk.Data PrinterSdk.Label PrinterSdk.Render

/-! ## Cells -/

/-- The placement of an item in the cell that is its number behind the first slot. -/
def placementAt (firstSlot slots item : Nat) : SheetPlacement :=
  ⟨item, (firstSlot + item) / slots, (firstSlot + item) % slots⟩

theorem placeOf_eq {firstSlot slots : Nat} (inside : firstSlot < slots) (item : Nat) :
    placeOf firstSlot slots item = ((firstSlot + item) / slots, (firstSlot + item) % slots) := by
  unfold placeOf
  by_cases early : item < slots - firstSlot
  · have small : firstSlot + item < slots := by omega
    simp only [early, ↓reduceIte, Nat.div_eq_of_lt small, Nat.mod_eq_of_lt small]
  · have filled : 0 < slots := Nat.zero_lt_of_lt inside
    have behind : firstSlot + item = slots + (item - (slots - firstSlot)) := by omega
    simp only [early, ↓reduceIte]
    rw [behind, Nat.add_div_left _ filled, Nat.add_mod_left, Nat.add_comm 1]

/-- The pages are counted up to the cell of the last item. -/
theorem additionalPages_eq {firstSlot slots count : Nat} (inside : firstSlot < slots)
    (some : 0 < count) :
    additionalPages (count - (slots - firstSlot)) slots = (firstSlot + count - 1) / slots := by
  have filled : 0 < slots := Nat.zero_lt_of_lt inside
  unfold additionalPages
  split
  · next fits => exact (Nat.div_eq_of_lt (by omega)).symm
  · next more =>
      congr 1
      omega

theorem cell_of_position {slots page slot : Nat} (inside : slot < slots) :
    (page * slots + slot) / slots = page ∧ (page * slots + slot) % slots = slot := by
  have filled : 0 < slots := Nat.zero_lt_of_lt inside
  apply cell_inj (Nat.mod_lt _ filled) inside
  rw [Nat.mul_comm]
  exact Nat.div_add_mod _ slots

/-- A later position is on a later page, or in a later slot of the same one. -/
theorem cell_lt_of_lt {slots position later : Nat} (before : position < later) :
    position / slots < later / slots ∨
      position / slots = later / slots ∧ position % slots < later % slots := by
  rcases Nat.lt_or_eq_of_le (Nat.div_le_div_right (Nat.le_of_lt before) : position / slots ≤ _)
    with earlier | same
  · exact .inl earlier
  · have split := Nat.div_add_mod position slots
    have further := Nat.div_add_mod later slots
    rw [same] at split
    exact .inr ⟨same, by omega⟩

/-! ## Plans -/

/-- The page and the slot of one placement come before those of another one. -/
def Before (left right : SheetPlacement) : Prop :=
  left.page < right.page ∨ left.page = right.page ∧ left.slot < right.slot

/-- Items can be put on a number of pages: each one into a cell of its own, and none before
the first slot of the first page. -/
structure FitsOn (count firstSlot slots pages : Nat) (pageOf slotOf : Nat → Nat) : Prop where
  inside : ∀ item < count, pageOf item < pages ∧ slotOf item < slots
  reserved : ∀ item < count, pageOf item = 0 → firstSlot ≤ slotOf item
  apart : ∀ item < count, ∀ other < count,
    pageOf item = pageOf other → slotOf item = slotOf other → item = other

/-- The plan places every item once, in order and without gaps from the first slot on, in
slots of the size of the labels, on as few pages as possible. -/
structure InOrder (input : SheetPlanInput) (options : SheetOptions) (limits : ProcessingLimits)
    (plan : SheetPlan) : Prop where
  items : plan.placements.map SheetPlacement.item = List.range input.itemCount.toNat
  increasing : plan.placements.Pairwise Before
  distinct : (plan.placements.map fun placement => (placement.page, placement.slot)).Nodup
  reserved : ∀ placement ∈ plan.placements, placement.page = 0 → options.firstSlot ≤ placement.slot
  filled : ∀ placement ∈ plan.placements, ∀ page slot, slot < plan.layout.slots.length →
    (page = 0 → options.firstSlot ≤ slot) →
    page < placement.page ∨ page = placement.page ∧ slot ≤ placement.slot →
      ∃ other ∈ plan.placements, other.page = page ∧ other.slot = slot
  slots : ∀ placement ∈ plan.placements, ∃ slot,
    plan.layout.slots[placement.slot]? = some slot ∧
      slot.widthUm = input.labelWidthUm ∧ slot.heightUm = input.labelHeightUm
  pages : ∀ placement ∈ plan.placements, placement.page < plan.pageCount
  last : ∃ placement ∈ plan.placements, placement.page + 1 = plan.pageCount
  fewest : ∀ pages pageOf slotOf,
    FitsOn input.itemCount.toNat options.firstSlot plan.layout.slots.length pages pageOf slotOf →
      plan.pageCount ≤ pages
  within : plan.pageCount ≤ limits.maxPages

/-- Items that fit on pages leave the reserved slots free. -/
theorem FitsOn.count_le {count firstSlot slots pages : Nat} {pageOf slotOf : Nat → Nat}
    (fits : FitsOn count firstSlot slots pages pageOf slotOf) (inside : firstSlot < slots) :
    count ≤ pages * slots - firstSlot := by
  have placed := Finset.card_le_card_of_injOn (s := Finset.range count)
    (t := Finset.Ico firstSlot (pages * slots)) (fun item => pageOf item * slots + slotOf item)
    ?_ ?_
  · rwa [Finset.card_range, Nat.card_Ico] at placed
  · intro item member
    obtain ⟨before, small⟩ := fits.inside item (Finset.mem_range.mp member)
    have reserved := fits.reserved item (Finset.mem_range.mp member)
    refine Finset.mem_Ico.mpr ⟨?_, cell_lt small before⟩
    rcases Nat.eq_zero_or_pos (pageOf item) with first | later
    · exact Nat.le_trans (reserved first) (Nat.le_add_left _ _)
    · calc firstSlot ≤ 1 * slots := by omega
        _ ≤ pageOf item * slots := Nat.mul_le_mul_right slots later
        _ ≤ pageOf item * slots + slotOf item := Nat.le_add_right _ _
  · intro item member other further same
    have here := Finset.mem_range.mp member
    have there := Finset.mem_range.mp further
    obtain ⟨pages, slots⟩ := cell_inj (fits.inside item here).2 (fits.inside other there).2 same
    exact fits.apart item here other there pages slots

theorem placeItem_eq_placementAt {input : SheetPlanInput} {layout : SheetLayout}
    {firstSlot item : Nat} {placement : SheetPlacement} (inside : firstSlot < layout.slots.length)
    (placed : placeItem input layout firstSlot item = .ok placement) :
    placementAt firstSlot layout.slots.length item = placement := by
  obtain ⟨target, -, placed⟩ := (except_bind_eq_ok _ _ _).mp placed
  obtain ⟨_, -, placed⟩ := (except_bind_eq_ok _ _ _).mp placed
  rw [← (except_pure_eq_ok _ _).mp placed, placeOf_eq inside]
  rfl

/-- What a plan has computed. -/
theorem plan_placements {input : SheetPlanInput} {definition : SheetDefinition}
    {options : SheetOptions} {limits : ProcessingLimits} {result : SheetPlan}
    (planned : plan input definition options limits = .ok result) :
    0 < input.itemCount.toNat ∧ options.firstSlot < result.layout.slots.length ∧
      result.pageCount =
        (options.firstSlot + input.itemCount.toNat - 1) / result.layout.slots.length + 1 ∧
      result.pageCount ≤ limits.maxPages ∧
      result.placements = (List.range input.itemCount.toNat).map
        (placementAt options.firstSlot result.layout.slots.length) := by
  obtain ⟨_, some, planned⟩ := (except_bind_eq_ok _ _ _).mp planned
  obtain ⟨_, -, planned⟩ := (except_bind_eq_ok _ _ _).mp planned
  obtain ⟨layout, -, planned⟩ := (except_bind_eq_ok _ _ _).mp planned
  obtain ⟨_, inside, planned⟩ := (except_bind_eq_ok _ _ _).mp planned
  obtain ⟨paper, -, planned⟩ := (except_bind_eq_ok _ _ _).mp planned
  obtain ⟨pixels, -, planned⟩ := (except_bind_eq_ok _ _ _).mp planned
  obtain ⟨pageCount, counted, planned⟩ := (except_bind_eq_ok _ _ _).mp planned
  obtain ⟨_, within, planned⟩ := (except_bind_eq_ok _ _ _).mp planned
  obtain ⟨total, -, planned⟩ := (except_bind_eq_ok _ _ _).mp planned
  obtain ⟨_, -, planned⟩ := (except_bind_eq_ok _ _ _).mp planned
  obtain ⟨placements, placed, planned⟩ := (except_bind_eq_ok _ _ _).mp planned
  rw [← (except_pure_eq_ok _ _).mp planned]
  have positive : 0 < input.itemCount.toNat := by
    rw [refuse_eq_ok] at some
    apply Nat.pos_of_ne_zero
    intro none
    exact some (UInt32.toNat_inj.mp none)
  rw [refuse_eq_ok, ge_iff_le, Nat.not_le] at inside
  rw [orRefuse_eq_ok, checkedAdd_eq_some] at counted
  rw [refuse_eq_ok, gt_iff_lt, Nat.not_lt] at within
  have related : List.Forall₂ (fun item placement =>
      placementAt options.firstSlot layout.slots.length item = placement)
      (List.range input.itemCount.toNat) placements :=
    ((except_mapM_eq_ok _ _ _).mp placed).imp fun _ _ => placeItem_eq_placementAt inside
  refine ⟨positive, inside, ?_, within, ?_⟩
  · rw [← counted.2, additionalPages_eq inside positive, Nat.add_comm]
  · rw [← List.forall₂_map_left_iff, List.forall₂_eq_eq_eq] at related
    exact related.symm

/-! ## Order -/

theorem placementAt_before {firstSlot slots item other : Nat} (less : item < other) :
    Before (placementAt firstSlot slots item) (placementAt firstSlot slots other) :=
  cell_lt_of_lt (Nat.add_lt_add_left less firstSlot)

theorem ne_of_before {left right : SheetPlacement} (before : Before left right) :
    (left.page, left.slot) ≠ (right.page, right.slot) := by
  intro same
  obtain ⟨pages, slots⟩ := Prod.ext_iff.mp same
  rcases before with earlier | later
  · exact Nat.ne_of_lt earlier pages
  · exact Nat.ne_of_lt later.2 slots

/-- A cell that is not reserved and not behind that of an item belongs to an item. -/
theorem exists_item {firstSlot slots item page slot : Nat} (inside : firstSlot < slots)
    (small : slot < slots) (free : page = 0 → firstSlot ≤ slot)
    (before : page < (firstSlot + item) / slots ∨
      page = (firstSlot + item) / slots ∧ slot ≤ (firstSlot + item) % slots) :
    ∃ other ≤ item, (firstSlot + other) / slots = page ∧ (firstSlot + other) % slots = slot := by
  have least : firstSlot ≤ page * slots + slot := by
    rcases Nat.eq_zero_or_pos page with first | later
    · exact Nat.le_trans (free first) (Nat.le_add_left _ _)
    · calc firstSlot ≤ 1 * slots := by omega
        _ ≤ page * slots := Nat.mul_le_mul_right slots later
        _ ≤ page * slots + slot := Nat.le_add_right _ _
  have most : page * slots + slot ≤ firstSlot + item := by
    have split := Nat.div_add_mod (firstSlot + item) slots
    rw [Nat.mul_comm] at split
    rcases before with earlier | later
    · have next := Nat.mul_le_mul_right slots earlier
      rw [Nat.succ_mul] at next
      omega
    · rw [later.1]
      omega
  have same : firstSlot + (page * slots + slot - firstSlot) = page * slots + slot :=
    Nat.add_sub_cancel' least
  refine ⟨page * slots + slot - firstSlot, by omega, ?_⟩
  rw [same]
  exact cell_of_position small

/-- A plan is in order. -/
theorem plan_inOrder (input : SheetPlanInput) (definition : SheetDefinition)
    (options : SheetOptions) (limits : ProcessingLimits) (result : SheetPlan)
    (planned : plan input definition options limits = .ok result) :
    InOrder input options limits result := by
  obtain ⟨some, inside, counted, within, placed⟩ := plan_placements planned
  have before : result.placements.Pairwise Before := by
    rw [placed, List.pairwise_map]
    exact List.pairwise_lt_range.imp placementAt_before
  have member {placement : SheetPlacement} (there : placement ∈ result.placements) :
      ∃ item < input.itemCount.toNat,
        placementAt options.firstSlot result.layout.slots.length item = placement := by
    rw [placed, List.mem_map] at there
    obtain ⟨item, below, same⟩ := there
    exact ⟨item, List.mem_range.mp below, same⟩
  have placing {item : Nat} (below : item < input.itemCount.toNat) :
      placementAt options.firstSlot result.layout.slots.length item ∈ result.placements := by
    rw [placed]
    exact List.mem_map_of_mem (List.mem_range.mpr below)
  constructor
  case items =>
    rw [placed, List.map_map]
    exact List.map_id _
  case increasing => exact before
  case distinct =>
    rw [List.Nodup, List.pairwise_map]
    exact before.imp ne_of_before
  case reserved =>
    intro placement there first
    obtain ⟨item, -, rfl⟩ := member there
    have small := (Nat.div_eq_zero_iff_lt (Nat.zero_lt_of_lt inside)).mp first
    change options.firstSlot ≤ (options.firstSlot + item) % _
    rw [Nat.mod_eq_of_lt small]
    exact Nat.le_add_right _ _
  case filled =>
    intro placement there page slot small free earlier
    obtain ⟨item, below, rfl⟩ := member there
    obtain ⟨other, less, cell⟩ := exists_item inside small free earlier
    exact ⟨_, placing (Nat.lt_of_le_of_lt less below), cell⟩
  case slots => exact (plan_eq_ok planned).slots
  case pages =>
    intro placement there
    obtain ⟨item, below, rfl⟩ := member there
    rw [counted]
    apply Nat.lt_succ_of_le
    apply Nat.div_le_div_right
    omega
  case last =>
    refine ⟨_, placing (Nat.sub_one_lt (Nat.ne_of_gt some)), ?_⟩
    rw [counted, Nat.add_sub_assoc some]
    rfl
  case fewest =>
    intro pages pageOf slotOf fits
    have room := fits.count_le inside
    rw [counted]
    apply Nat.div_lt_of_lt_mul
    rw [Nat.mul_comm]
    omega
  case within => exact within

theorem plan_inOrder_square :
    ∃ result, plan ⟨5, 20000, 10000⟩ (.grid squareGrid) ⟨2, 100, by decide⟩ .default = .ok result ∧
      InOrder ⟨5, 20000, 10000⟩ ⟨2, 100, by decide⟩ .default result := by
  have succeeded : (plan ⟨5, 20000, 10000⟩ (.grid squareGrid) ⟨2, 100, by decide⟩
      .default).isOk = true := by decide +kernel
  obtain ⟨result, planned⟩ := exists_of_isOk succeeded
  exact ⟨result, planned, plan_inOrder _ _ _ _ result planned⟩

end PrinterSdk.Sheet
