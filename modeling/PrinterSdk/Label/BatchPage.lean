import PrinterSdk.Label.BatchValid

/-!
# Walks on the pages of a batch

Rendering walks from the elements of a page to their groups.  The copies for a record
refer to each other as the elements of the document do, so that they are as visible,
and every copy is in the zone of its record.
-/

namespace PrinterSdk.Label

open PrinterSdk.Data

/-- The zone of a copy is that of its placement, whatever its groups are. -/
theorem CopyOf.effectiveZone {placement : BatchPlacement} {template copy : Element}
    (copied : CopyOf placement template copy) (page : Document) :
    effectiveZone copy page = some placement.zone := by
  rw [Label.effectiveZone, zoneAbove, copied.zone]

section

variable {base64 : Base64} {sha256 : Sha256}
variable {document page : Document} {placements : List BatchPlacement} {index : Nat}

/-- A page is as long as the document at least, once a record is placed on it. -/
theorem PageOf.length_le (made : PageOf document placements index page)
    {placement : BatchPlacement} (placed : placement ∈ placements) :
    document.elements.length ≤ page.elements.length := by
  rw [made.copied.length]
  exact Nat.le_mul_of_pos_left _ (List.length_pos_of_mem placed)

/-- The element that was copied for a placement can be told from the identifier. -/
theorem PageOf.copy_eq (made : PageOf document placements index page)
    {placement : BatchPlacement} {template copy other : Element}
    (inside : copy ∈ page.elements) (copied : CopyOf placement template copy)
    (also : other ∈ page.elements) (same : other.id = rewriteId placement template.id) :
    other = copy := by
  have found := made.ids.find inside
  rw [copied.id, ← same, made.ids.find also] at found
  exact Option.some.inj found

variable (valid : Valid base64 sha256 .default document)

include valid

/-- The walk over the groups of a copy sees the copies of the groups. -/
theorem PageOf.visibleAbove_eq (made : PageOf document placements index page)
    {placement : BatchPlacement} (placed : placement ∈ placements) (rounds : Nat)
    {template : Element} (member : template ∈ document.elements) :
    visibleAbove page.elements rounds (template.common.groupId.map (rewriteId placement)) =
      visibleAbove document.elements rounds template.common.groupId := by
  induction rounds generalizing template with
  | zero => simp [visibleAbove]
  | succ rounds ih =>
      cases named : template.common.groupId with
      | none => simp [visibleAbove]
      | some id =>
          obtain ⟨parent, inside, rfl, -⟩ :=
            mem_groupIds.mp ((valid.refers template member).group id named)
          obtain ⟨copy, -, copied, found⟩ := made.find placed inside
          have above := ih inside
          rw [← copied.group] at above
          rw [visibleAbove, visibleAbove, Option.map_some, Option.bind_some, Option.bind_some,
            found, valid.ids.find inside]
          dsimp only
          rw [copied.visible, above]

/-- A copy is visible when the element is. -/
theorem PageOf.effectivelyVisible_eq (made : PageOf document placements index page)
    {placement : BatchPlacement} (placed : placement ∈ placements) {template copy : Element}
    (member : template ∈ document.elements) (copied : CopyOf placement template copy) :
    effectivelyVisible copy page = effectivelyVisible template document := by
  have enough : Chain.follow (parentOf document.elements) page.elements.length
      (parentOf document.elements template) = none := by
    obtain ⟨more, length⟩ := Nat.exists_eq_add_of_le (made.length_le placed)
    rw [length, Chain.follow_add, valid.follow_parentOf, Chain.follow_none]
  have rounds : visibleAbove document.elements page.elements.length template.common.groupId =
      visibleAbove document.elements document.elements.length template.common.groupId := by
    apply Bool.eq_iff_iff.mpr
    rw [valid.visibleAbove_iff member enough,
      valid.visibleAbove_iff member (valid.follow_parentOf template)]
  rw [effectivelyVisible, effectivelyVisible, copied.visible, copied.group,
    made.visibleAbove_eq valid placed _ member, rounds]

end

/-! ## Zones of a page -/

/-- Records on the same page are in different zones. -/
theorem plannedPlacement_zone_ne {zoneIds : List String} (distinct : zoneIds.Nodup)
    (filled : 0 < zoneIds.length) {left right : Nat}
    (page : left / zoneIds.length = right / zoneIds.length) (different : left ≠ right) :
    (plannedPlacement zoneIds left).zone ≠ (plannedPlacement zoneIds right).zone := by
  have first := Nat.mod_lt left filled
  have second := Nat.mod_lt right filled
  dsimp only [plannedPlacement]
  rw [List.getD_eq_getElem?_getD, List.getD_eq_getElem?_getD, List.getElem?_eq_getElem first,
    List.getElem?_eq_getElem second, Option.getD_some, Option.getD_some]
  intro same
  have slot := (distinct.getElem_inj_iff).mp same
  have splitLeft := Nat.div_add_mod left zoneIds.length
  have splitRight := Nat.div_add_mod right zoneIds.length
  rw [page, slot] at splitLeft
  exact different (splitLeft.symm.trans splitRight)

end PrinterSdk.Label
