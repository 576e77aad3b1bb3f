import Mathlib.Order.Basic

/-!
# Boxes of cells

A box covers the cells of some columns and rows of a grid.
-/

namespace PrinterSdk.Data

/-- A box of cells, from its upper left corner. -/
structure Box where
  left : Nat
  top : Nat
  width : Nat
  height : Nat
  deriving DecidableEq, Repr

namespace Box

/-- The box covers the cell. -/
def Covers (box : Box) (column row : Nat) : Prop :=
  (box.left ≤ column ∧ column < box.left + box.width) ∧
    box.top ≤ row ∧ row < box.top + box.height

/-- No cell is covered by both boxes. -/
def Disjoint (first second : Box) : Prop :=
  ∀ column row, first.Covers column row → ¬second.Covers column row

/-- Two intervals share a number when neither is empty or behind the other. -/
theorem intervals_meet {start length begin extent : Nat} :
    (∃ number, (start ≤ number ∧ number < start + length) ∧
      begin ≤ number ∧ number < begin + extent) ↔
      0 < length ∧ 0 < extent ∧ start < begin + extent ∧ begin < start + length := by
  constructor
  · rintro ⟨number, first, second⟩
    omega
  · intro meets
    exact ⟨max start begin, by omega, by omega⟩

/-- Boxes are disjoint when one is empty or they are behind each other in some direction. -/
theorem disjoint_iff {first second : Box} :
    first.Disjoint second ↔
      (first.width = 0 ∨ first.height = 0) ∨ (second.width = 0 ∨ second.height = 0) ∨
        first.left + first.width ≤ second.left ∨ second.left + second.width ≤ first.left ∨
        first.top + first.height ≤ second.top ∨ second.top + second.height ≤ first.top := by
  have meets : ¬first.Disjoint second ↔
      (∃ column, (first.left ≤ column ∧ column < first.left + first.width) ∧
        second.left ≤ column ∧ column < second.left + second.width) ∧
      ∃ row, (first.top ≤ row ∧ row < first.top + first.height) ∧
        second.top ≤ row ∧ row < second.top + second.height := by
    unfold Disjoint Covers
    constructor
    · intro shared
      simp only [not_forall, not_not] at shared
      obtain ⟨column, row, ⟨across, down⟩, around, under⟩ := shared
      exact ⟨⟨column, across, around⟩, row, down, under⟩
    · rintro ⟨⟨column, across, around⟩, row, down, under⟩ apart
      exact apart column row ⟨across, down⟩ ⟨around, under⟩
  rw [intervals_meet, intervals_meet] at meets
  rw [← not_iff_not, meets]
  omega

end Box

end PrinterSdk.Data
