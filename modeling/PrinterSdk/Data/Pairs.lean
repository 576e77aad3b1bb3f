import Mathlib.Data.List.Flatten
import Mathlib.Data.List.Forall2
import Mathlib.Data.List.Sort

/-!
# Pairs in order

Two items are in order in a list when the pair of them is a sublist.  Stable sorting,
expansion and pointwise relations are described by what they do to pairs.
-/

namespace PrinterSdk.Data

variable {α β : Type}

/-- A list without duplicates has a pair in one order only. -/
theorem not_pair_of_nodup {list : List α} (distinct : list.Nodup) {first second : α}
    (ordered : [first, second].Sublist list) : ¬[second, first].Sublist list := by
  induction list with
  | nil => cases ordered
  | cons head rest ih =>
      rw [List.nodup_cons] at distinct
      intro reversed
      have absent {item : α} (inside : [head, item].Sublist rest ∨ [item, head].Sublist rest) :
          False := by
        rcases inside with inside | inside
        · exact distinct.1 (inside.subset (by simp))
        · exact distinct.1 (inside.subset (by simp))
      cases ordered with
      | cons _ later =>
          cases reversed with
          | cons _ other => exact ih distinct.2 later other
          | cons_cons _ other => exact absent (.inr later)
      | cons_cons _ later =>
          cases reversed with
          | cons _ other => exact absent (.inr other)
          | cons_cons _ other => exact distinct.1 (later.subset (by simp))

/-- Two different members of a list are in order in one way. -/
theorem pair_or_pair {list : List α} {first second : α} (member : first ∈ list)
    (also : second ∈ list) (different : first ≠ second) :
    [first, second].Sublist list ∨ [second, first].Sublist list := by
  induction list with
  | nil => cases member
  | cons head rest ih =>
      rcases List.mem_cons.mp member with rfl | inside
      · rcases List.mem_cons.mp also with rfl | later
        · exact absurd rfl different
        · exact .inl ((List.singleton_sublist.mpr later).cons_cons _)
      · rcases List.mem_cons.mp also with rfl | later
        · exact .inr ((List.singleton_sublist.mpr inside).cons_cons _)
        · exact (ih inside later).imp (.cons _) (.cons _)

/-- Items of an expansion that stem from different items are in the order of these. -/
theorem pair_of_flatMap {expand : α → List β} {origin : β → α}
    (stems : ∀ item, ∀ made ∈ expand item, origin made = item) {list : List α}
    {first second : β} (ordered : [first, second].Sublist (list.flatMap expand))
    (different : origin first ≠ origin second) :
    [origin first, origin second].Sublist list := by
  induction list with
  | nil => cases ordered
  | cons head rest ih =>
      rw [List.flatMap_cons, List.sublist_append_iff] at ordered
      obtain ⟨left, right, joined, before, behind⟩ := ordered
      cases left with
      | nil =>
          rw [List.nil_append] at joined
          rw [← joined] at behind
          exact (ih behind).cons _
      | cons item others =>
          obtain ⟨same, tail⟩ := List.cons.inj joined
          rw [← same] at before
          have own := stems head first (before.subset (by simp))
          cases others with
          | nil =>
              have last : [second] = right := tail
              rw [← last] at behind
              obtain ⟨later, inside, made⟩ :=
                List.mem_flatMap.mp (behind.subset (List.mem_singleton_self _))
              rw [own, stems later second made]
              exact (List.singleton_sublist.mpr inside).cons_cons _
          | cons next more =>
              obtain ⟨also, -⟩ := List.cons.inj tail
              rw [← also] at before
              have other := stems head second (before.subset (by simp))
              exact absurd (own.trans other.symm) different

/-- Items in order have their expansions in order. -/
theorem flatMap_pair {expand : α → List β} {list : List α} {first second : α}
    (ordered : [first, second].Sublist list) {made other : β} (early : made ∈ expand first)
    (late : other ∈ expand second) : [made, other].Sublist (list.flatMap expand) := by
  have both : [made, other].Sublist ([first, second].flatMap expand) := by
    rw [List.flatMap_cons, List.flatMap_singleton]
    exact (List.singleton_sublist.mpr early).append (List.singleton_sublist.mpr late)
  exact both.trans (ordered.flatMap expand)

/-- A sublist has a counterpart in a related list. -/
theorem exists_sublist_of_forall₂ {Rel : α → β → Prop} {left part : List α} {right : List β}
    (related : List.Forall₂ Rel left right) (sublist : part.Sublist left) :
    ∃ other, other.Sublist right ∧ List.Forall₂ Rel part other := by
  induction sublist generalizing right with
  | slnil =>
      cases related
      exact ⟨[], .slnil, .nil⟩
  | cons item _ ih =>
      cases related with
      | cons _ later =>
          obtain ⟨other, inside, relates⟩ := ih later
          exact ⟨other, inside.cons _, relates⟩
  | cons_cons item _ ih =>
      cases related with
      | cons first later =>
          obtain ⟨other, inside, relates⟩ := ih later
          exact ⟨_, inside.cons_cons _, .cons first relates⟩

/-- A pair that stable sorting puts in order was in order before, or is strictly in order
now. -/
theorem pair_of_insertionSort {r : α → α → Prop} [DecidableRel r] [Std.Total r] [IsTrans α r]
    {list : List α} (distinct : list.Nodup) {first second : α}
    (sorted : [first, second].Sublist (list.insertionSort r)) :
    [first, second].Sublist list ∨ ([second, first].Sublist list ∧ ¬r second first) := by
  have unique : (list.insertionSort r).Nodup :=
    (List.perm_insertionSort r list).nodup_iff.mpr distinct
  have member {item : α} (listed : item ∈ [first, second]) : item ∈ list :=
    (List.mem_insertionSort r).mp (sorted.subset listed)
  have different : first ≠ second := by
    rintro rfl
    exact not_pair_of_nodup unique sorted sorted
  rcases pair_or_pair (member (by simp)) (member (by simp)) different with kept | reversed
  · exact .inl kept
  · refine .inr ⟨reversed, ?_⟩
    intro ordered
    exact not_pair_of_nodup unique sorted (List.pair_sublist_insertionSort ordered reversed)

/-- Sorting puts a pair in the only order that is allowed. -/
theorem insertionSort_pair {r : α → α → Prop} [DecidableRel r] [Std.Total r] [IsTrans α r]
    {list : List α} {first second : α} (member : first ∈ list) (also : second ∈ list)
    (below : ¬r second first) : [first, second].Sublist (list.insertionSort r) := by
  have different : first ≠ second := by
    rintro rfl
    exact below (Std.Refl.refl first)
  have pair := pair_or_pair ((List.mem_insertionSort r).mpr member)
    ((List.mem_insertionSort r).mpr also) different
  apply pair.resolve_right
  intro reversed
  exact below (List.rel_of_pairwise_cons ((List.pairwise_insertionSort r list).sublist reversed)
    (by simp))

end PrinterSdk.Data
