import Mathlib.Data.List.Basic
import Mathlib.Data.List.Nodup

/-!
# Postorder

A place in a forest is the path to it, as the positions among siblings from the root on.  In
postorder, whatever is below a place comes before it, and siblings come in their order.
-/

namespace PrinterSdk.Data

/-- A path comes before another one in postorder. -/
def Before : List Nat → List Nat → Prop
  | [], _ => False
  | _ :: _, [] => True
  | index :: path, other :: rest => index < other ∨ index = other ∧ Before path rest

theorem before_irrefl (path : List Nat) : ¬Before path path := by
  induction path with
  | nil => exact id
  | cons index path ih =>
      intro before
      rcases before with less | ⟨-, inner⟩
      · exact Nat.lt_irrefl index less
      · exact ih inner

theorem before_asymm {path other : List Nat} (before : Before path other) : ¬Before other path := by
  induction path generalizing other with
  | nil => exact before.elim
  | cons index path ih =>
      cases other with
      | nil => exact id
      | cons position rest =>
          intro after
          rcases before with less | ⟨rfl, inner⟩
          · rcases after with greater | ⟨rfl, -⟩
            · exact Nat.lt_asymm less greater
            · exact Nat.lt_irrefl _ less
          · rcases after with greater | ⟨-, outer⟩
            · exact Nat.lt_irrefl _ greater
            · exact ih inner outer

/-- Everything below a place comes before it. -/
theorem before_of_append (path : List Nat) (index : Nat) (below : List Nat) :
    Before (path ++ index :: below) path := by
  induction path with
  | nil => trivial
  | cons first path ih => exact .inr ⟨rfl, ih⟩

/-- What is below a sibling comes before what is below a later one. -/
theorem before_of_sibling (path : List Nat) {index other : Nat} (less : index < other)
    (below rest : List Nat) : Before (path ++ index :: below) (path ++ other :: rest) := by
  induction path with
  | nil => exact .inl less
  | cons first path ih => exact .inr ⟨rfl, ih⟩

variable {α : Type} {pathOf : α → List Nat}

/-- A list has the items with a property, each once and in postorder. -/
structure Enumerates (pathOf : α → List Nat) (has : α → Prop) (items : List α) : Prop where
  exact : ∀ item, item ∈ items ↔ has item
  ordered : items.Pairwise fun first second => Before (pathOf first) (pathOf second)

namespace Enumerates

variable {has also : α → Prop} {items more : List α}

theorem nodup (enumerates : Enumerates pathOf has items) : (items.map pathOf).Nodup := by
  rw [List.nodup_iff_pairwise_ne, List.pairwise_map]
  apply enumerates.ordered.imp
  intro first second before same
  rw [same] at before
  exact before_irrefl _ before

/-- There is one list with the items. -/
theorem unique {others : List α} (enumerates : Enumerates pathOf has items)
    (also : Enumerates pathOf has others) : items = others := by
  have same : items.Perm others := by
    rw [List.perm_ext_iff_of_nodup (List.Nodup.of_map _ enumerates.nodup)
      (List.Nodup.of_map _ also.nodup)]
    intro item
    rw [enumerates.exact, also.exact]
  apply List.Perm.eq_of_pairwise _ enumerates.ordered also.ordered same
  intro first second _ _ before after
  exact absurd after (before_asymm before)

/-- What is in front of an item comes before it. -/
theorem mem_before {before after : List α} {item other : α}
    (enumerates : Enumerates pathOf has (before ++ item :: after)) :
    other ∈ before ↔ has other ∧ Before (pathOf other) (pathOf item) := by
  obtain ⟨-, rest, across⟩ := List.pairwise_append.mp enumerates.ordered
  constructor
  · intro member
    exact ⟨(enumerates.exact other).mp (List.mem_append_left _ member),
      across other member item List.mem_cons_self⟩
  · rintro ⟨holds, earlier⟩
    rcases List.mem_append.mp ((enumerates.exact other).mpr holds) with inside | behind
    · exact inside
    · rcases List.mem_cons.mp behind with rfl | later
      · exact absurd earlier (before_irrefl _)
      · exact absurd earlier (before_asymm (List.rel_of_pairwise_cons rest later))

theorem congr (enumerates : Enumerates pathOf has items) (same : ∀ item, has item ↔ also item) :
    Enumerates pathOf also items :=
  ⟨fun item => (enumerates.exact item).trans (same item), enumerates.ordered⟩

theorem nil (none : ∀ item, ¬has item) : Enumerates pathOf has [] :=
  ⟨fun item => ⟨fun member => absurd member List.not_mem_nil, fun holds => absurd holds (none item)⟩,
    .nil⟩

/-- What is below one sibling, and then what is below later ones. -/
theorem append {under : α → α} {index : Nat} (first : Enumerates pathOf has items)
    (second : Enumerates pathOf also more) (paths : ∀ item, pathOf (under item) = index :: pathOf item)
    (later : ∀ item, also item → ∃ other path, pathOf item = other :: path ∧ index < other) :
    Enumerates pathOf (fun item => (∃ inner, has inner ∧ item = under inner) ∨ also item)
      (items.map under ++ more) := by
  constructor
  · intro item
    rw [List.mem_append, List.mem_map, second.exact]
    simp only [first.exact, eq_comm]
  · rw [List.pairwise_append]
    refine ⟨?_, second.ordered, ?_⟩
    · rw [List.pairwise_map]
      apply first.ordered.imp
      intro item other before
      rw [paths, paths]
      exact .inr ⟨rfl, before⟩
    · intro item below other member
      obtain ⟨inner, -, rfl⟩ := List.mem_map.mp below
      obtain ⟨position, path, isPath, less⟩ := later other ((second.exact other).mp member)
      rw [paths, isPath]
      exact before_of_sibling [] less _ _

/-- What is below a place, and then the place itself. -/
theorem concat {here : α} (enumerates : Enumerates pathOf has items) (root : pathOf here = [])
    (below : ∀ item, has item → pathOf item ≠ []) :
    Enumerates pathOf (fun item => has item ∨ item = here) (items ++ [here]) := by
  constructor
  · intro item
    rw [List.mem_append, List.mem_singleton, enumerates.exact]
  · rw [List.pairwise_append]
    refine ⟨enumerates.ordered, List.pairwise_singleton _ _, ?_⟩
    intro item member other last
    rw [List.mem_singleton.mp last, root]
    cases path : pathOf item with
    | nil => exact below item ((enumerates.exact item).mp member) path
    | cons index rest => exact before_of_append [] index rest

end Enumerates

end PrinterSdk.Data
