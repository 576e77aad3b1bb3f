import PrinterSdk.Importer.Descent

/-!
# Ids from places

An element without an id gets one that is made of its place.  Such ids are different from each
other, and so all ids of a document are when no element gives itself the id that another one
gets from its place.
-/

namespace PrinterSdk.Importer

open PrinterSdk.Data PrinterSdk.Label

/-! ## Names -/

/-- What is in front of the last mark, and what is behind it. -/
theorem append_cons_inj_of_free {α : Type} {mark : α} {before other after rest : List α}
    (free : mark ∉ after) (freeRest : mark ∉ rest)
    (same : before ++ mark :: after = other ++ mark :: rest) : before = other ∧ after = rest := by
  rcases List.append_eq_append_iff.mp same with ⟨between, rfl, split⟩ | ⟨between, rfl, split⟩
  · cases between with
    | nil => exact ⟨(List.append_nil before).symm, (List.cons.inj split).2⟩
    | cons first between =>
        have inside : after = between ++ mark :: rest := (List.cons.inj split).2
        exact absurd (inside ▸ List.mem_append_right _ List.mem_cons_self) free
  · cases between with
    | nil => exact ⟨List.append_nil other, (List.cons.inj split).2.symm⟩
    | cons first between =>
        have inside : rest = between ++ mark :: after := (List.cons.inj split).2
        exact absurd (inside ▸ List.mem_append_right _ List.mem_cons_self) freeRest

theorem dash_notMem_toDigits (number : Nat) : '-' ∉ Nat.toDigits 10 number := by
  intro member
  have digit := Nat.isDigit_of_mem_toDigits (by decide) (by decide) member
  exact absurd digit (by decide)

theorem toDigits_inj {first second : Nat}
    (same : Nat.toDigits 10 first = Nat.toDigits 10 second) : first = second := by
  have read := congrArg (fun digits => Nat.ofDigitChars 10 digits 0) same
  simpa only [Nat.ofDigitChars_ten_toDigits] using read

/-- A text with a number behind a dash determines both. -/
theorem dashed_inj {before other : List Char} {first second : Nat}
    (same : before ++ '-' :: Nat.toDigits 10 first = other ++ '-' :: Nat.toDigits 10 second) :
    before = other ∧ first = second := by
  obtain ⟨front, digits⟩ := append_cons_inj_of_free (dash_notMem_toDigits first)
    (dash_notMem_toDigits second) same
  exact ⟨front, toDigits_inj digits⟩

theorem topFallback_toList (index : Nat) :
    (topFallback index).toList = "legacy".toList ++ '-' :: Nat.toDigits 10 index := by
  simp [topFallback, toString]

theorem memberFallback_toList (group : String) (index : Nat) :
    (memberFallback group index).toList =
      (group.toList ++ "-child".toList) ++ '-' :: Nat.toDigits 10 index := by
  simp [memberFallback, toString]

theorem topFallback_inj {first second : Nat} (same : topFallback first = topFallback second) :
    first = second := by
  have texts := congrArg String.toList same
  rw [topFallback_toList, topFallback_toList] at texts
  exact (dashed_inj texts).2

theorem memberFallback_inj {group other : String} {first second : Nat}
    (same : memberFallback group first = memberFallback other second) :
    group = other ∧ first = second := by
  have texts := congrArg String.toList same
  rw [memberFallback_toList, memberFallback_toList] at texts
  obtain ⟨groups, indices⟩ := dashed_inj texts
  exact ⟨String.toList_inj.mp (List.append_cancel_right groups), indices⟩

/-- The name of a top element has one dash, and that of a member has two. -/
theorem topFallback_ne_memberFallback (first second : Nat) (group : String) :
    topFallback first ≠ memberFallback group second := by
  intro same
  have texts := congrArg String.toList same
  rw [topFallback_toList, memberFallback_toList] at texts
  have dash : '-' ∈ "legacy".toList := by
    rw [(dashed_inj texts).1]
    exact List.mem_append_right _ (by decide)
  exact absurd dash (by decide)

/-! ## Ids -/

/-- The ids that the elements of a document give themselves are pairwise distinct. -/
def ExplicitDistinct (v : Json) : Prop :=
  ∀ first second, NodeOf listedMembers v first → NodeOf listedMembers v second →
    ∀ id, explicitId first.entries = some id → explicitId second.entries = some id →
      first.path = second.path

/-- No element gives itself the id that an element without one has from its place. -/
def PlaceIdsFree (v : Json) : Prop :=
  ∀ first second, NodeOf listedMembers v first → NodeOf listedMembers v second →
    explicitId second.entries = none → explicitId first.entries ≠ some second.fallback

section

variable {v : Json} {first second : Node}

/-- Two elements with the same id are in the same place, or have it from their places. -/
theorem path_or_fallback (distinct : ExplicitDistinct v) (free : PlaceIdsFree v)
    (isFirst : Descended listedMembers v first) (isSecond : Descended listedMembers v second)
    (same : first.id = second.id) :
    first.path = second.path ∨ first.fallback = second.fallback := by
  have one := nodeOf_iff_descended.mpr isFirst
  have two := nodeOf_iff_descended.mpr isSecond
  rw [Node.id, Node.id] at same
  cases own : explicitId first.entries with
  | some id =>
      cases also : explicitId second.entries with
      | some other =>
          rw [own, also] at same
          cases same
          exact .inl (distinct first second one two id own also)
      | none =>
          rw [own, also] at same
          cases same
          exact absurd own (free first second one two also)
  | none =>
      cases also : explicitId second.entries with
      | some other =>
          rw [own, also] at same
          cases same
          exact absurd also (free second first two one own)
      | none =>
          rw [own, also] at same
          exact .inr same

/-- An id belongs to one element. -/
theorem Descended.eq_of_id (distinct : ExplicitDistinct v) (free : PlaceIdsFree v)
    (isFirst : Descended listedMembers v first) (isSecond : Descended listedMembers v second)
    (same : first.id = second.id) : first = second := by
  have split := path_or_fallback distinct free isFirst isSecond same
  refine isFirst.eq_of_path isSecond (split.elim id ?_)
  -- Names from places go by the ids of the groups, so those come first.
  induction isFirst generalizing second with
  | top found =>
      intro fallback
      cases isSecond with
      | top found' => rw [topFallback_inj fallback]
      | member => exact absurd fallback (topFallback_ne_memberFallback _ _ _)
  | member outer isGroup listed found ih =>
      intro fallback
      cases isSecond with
      | top found' => exact absurd fallback.symm (topFallback_ne_memberFallback _ _ _)
      | member outer' isGroup' listed' found' =>
          obtain ⟨groups, indices⟩ := memberFallback_inj fallback
          have above := path_or_fallback distinct free outer outer' groups
          rw [Node.child, Node.child, above.elim id (ih outer' groups above), indices]

end

end PrinterSdk.Importer
