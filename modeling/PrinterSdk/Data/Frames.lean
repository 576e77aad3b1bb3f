import Mathlib.Order.Bounds.Basic
import Mathlib.Order.Lattice

/-!
# Frames

A frame has four edges, and is below every frame that encloses it.  The least frame around two
frames is their join, so that folding a list of frames yields the least frame around all of
them, in whatever order they come.
-/

namespace PrinterSdk.Data

/-- A rectangle, by its edges. -/
structure Frame (α : Type) where
  left : α
  top : α
  right : α
  bottom : α
  deriving DecidableEq, Repr

namespace Frame

variable {α : Type} [LinearOrder α]

/-- The frame of the left and top minima and of the right and bottom maxima. -/
def around (first second : Frame α) : Frame α where
  left := min first.left second.left
  top := min first.top second.top
  right := max first.right second.right
  bottom := max first.bottom second.bottom

/-- A frame encloses the ones that do not reach beyond its edges. -/
instance : LE (Frame α) where
  le inner outer := outer.left ≤ inner.left ∧ outer.top ≤ inner.top ∧
    inner.right ≤ outer.right ∧ inner.bottom ≤ outer.bottom

theorem le_iff {inner outer : Frame α} :
    inner ≤ outer ↔ outer.left ≤ inner.left ∧ outer.top ≤ inner.top ∧
      inner.right ≤ outer.right ∧ inner.bottom ≤ outer.bottom := Iff.rfl

instance : PartialOrder (Frame α) where
  le_refl frame := ⟨le_refl _, le_refl _, le_refl _, le_refl _⟩
  le_trans first second third inner outer :=
    ⟨outer.1.trans inner.1, outer.2.1.trans inner.2.1, inner.2.2.1.trans outer.2.2.1,
      inner.2.2.2.trans outer.2.2.2⟩
  le_antisymm first second inner outer := by
    cases first
    cases second
    rw [Frame.mk.injEq]
    exact ⟨le_antisymm outer.1 inner.1, le_antisymm outer.2.1 inner.2.1,
      le_antisymm inner.2.2.1 outer.2.2.1, le_antisymm inner.2.2.2 outer.2.2.2⟩

/-- The frame around two frames is the least one that encloses both. -/
instance : SemilatticeSup (Frame α) where
  sup := around
  le_sup_left _ _ := ⟨min_le_left .., min_le_left .., le_max_left .., le_max_left ..⟩
  le_sup_right _ _ := ⟨min_le_right .., min_le_right .., le_max_right .., le_max_right ..⟩
  sup_le _ _ _ first second :=
    ⟨le_min first.1 second.1, le_min first.2.1 second.2.1, max_le first.2.2.1 second.2.2.1,
      max_le first.2.2.2 second.2.2.2⟩

theorem sup_eq (first second : Frame α) : first ⊔ second = around first second := rfl

end Frame

/-! ## Folds -/

section

variable {β : Type} [SemilatticeSup β]

/-- Folding joins over a list reaches the least upper bound of its start and its items. -/
theorem isLUB_foldl_sup (start : β) (items : List β) :
    IsLUB {item | item = start ∨ item ∈ items} (items.foldl (· ⊔ ·) start) := by
  induction items generalizing start with
  | nil =>
      have only : {item | item = start ∨ item ∈ ([] : List β)} = {start} := by
        ext item
        simp
      rw [only]
      exact isLUB_singleton
  | cons next items ih =>
      obtain ⟨upper, least⟩ := ih (start ⊔ next)
      have joined : start ⊔ next ≤ items.foldl (· ⊔ ·) (start ⊔ next) := upper (.inl rfl)
      constructor
      · intro item among
        rcases among with rfl | member
        · exact le_sup_left.trans joined
        · rcases List.mem_cons.mp member with rfl | later
          · exact le_sup_right.trans joined
          · exact upper (.inr later)
      · intro bound bounds
        apply least
        intro item among
        rcases among with rfl | later
        · exact sup_le (bounds (.inl rfl)) (bounds (.inr List.mem_cons_self))
        · exact bounds (.inr (List.mem_cons_of_mem next later))

/-- A start that is below an item does not change the least upper bound of the items. -/
theorem isLUB_of_start_le {start bound : β} {items : Set β}
    (isLUB : IsLUB {item | item = start ∨ item ∈ items} bound) {inner : β} (member : inner ∈ items)
    (below : start ≤ inner) : IsLUB items bound := by
  constructor
  · intro item inside
    exact isLUB.1 (.inr inside)
  · intro other bounds
    apply isLUB.2
    intro item among
    rcases among with rfl | inside
    · exact below.trans (bounds member)
    · exact bounds inside

end

end PrinterSdk.Data
