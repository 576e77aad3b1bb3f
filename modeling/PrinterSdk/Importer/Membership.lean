import PrinterSdk.Importer.LegacyIds

/-!
# Legacy groups

A group is imported with the ids of its members, which in turn have its id as their group,
exactly when the importer reads the members of every group.
-/

namespace PrinterSdk.Importer

open PrinterSdk.Data PrinterSdk.Label PrinterSdk.Label.Entries

/-- The ids of the members that a group lists. -/
def Node.memberIds (group : Node) : List String :=
  Importer.memberIds group.id 0 ((listedMembers group.entries).getD [])

/-- The ids of the members that are read. -/
def Node.readIds (group : Node) : List String :=
  Importer.memberIds group.id 0 ((readMembers group.entries).getD [])

/-- The members that a group lists are the ones that are read. -/
def ListsRead (v : Json) : Prop :=
  ∀ group, NodeOf listedMembers v group → rawType group.entries = "group" →
    (readMembers group.entries).getD [] = (listedMembers group.entries).getD []

/-! ## Joining -/

theorem isText_iff {value : Json} {text : String} :
    isText value text = true ↔ value = .string text := by
  rw [isText, decide_eq_true_iff, Json.asStr_eq_some]

/-- An element with the id joins the group. -/
def joinedTo (pair : String × String) (e : Json) : Json :=
  if isText (e.index "id") pair.1 then setIndex "groupId" (.string pair.2) e else e

theorem regrouped_joinedTo (pair : String × String) (e : Json) : Regrouped e (joinedTo pair e) := by
  rw [joinedTo]
  split
  · exact regrouped_setIndex _ e
  · exact fun _ _ => rfl

theorem regrouped_foldl_joinedTo (pairs : List (String × String)) (e : Json) :
    Regrouped e (pairs.foldl (fun e pair => joinedTo pair e) e) := by
  induction pairs generalizing e with
  | nil => exact fun _ _ => rfl
  | cons pair rest ih =>
      intro key different
      exact (ih _ key different).trans (regrouped_joinedTo pair e key different)

/-- When ids are distinct, it does not matter that only the first element joins. -/
theorem joinGroup_eq_map (pair : String × String) {elements : List Json}
    (distinct : (elements.map (·.index "id")).Nodup) :
    joinGroup pair.1 pair.2 elements = elements.map (joinedTo pair) := by
  induction elements with
  | nil => rfl
  | cons e rest ih =>
      rw [List.map_cons, List.nodup_cons] at distinct
      rw [joinGroup, List.map_cons]
      split
      · next same =>
          have others : rest.map (joinedTo pair) = rest := by
            refine (List.map_congr_left fun other member => if_neg ?_).trans (List.map_id rest)
            intro also
            apply distinct.1
            rw [isText_iff.mp same, ← isText_iff.mp also]
            exact List.mem_map_of_mem member
          rw [others, joinedTo, if_pos same]
      · next differs => rw [ih distinct.2, joinedTo, if_neg differs]

theorem joinGroups_eq_map (pairs : List (String × String)) {elements : List Json}
    (distinct : (elements.map (·.index "id")).Nodup) :
    joinGroups elements pairs =
      elements.map fun e => pairs.foldl (fun e pair => joinedTo pair e) e := by
  induction pairs generalizing elements with
  | nil => exact (List.map_id' elements).symm
  | cons pair rest ih =>
      have kept : ((elements.map (joinedTo pair)).map (·.index "id")).Nodup := by
        rw [List.map_map]
        have same (e : Json) : (joinedTo pair e).index "id" = e.index "id" := by
          rw [Json.index, regrouped_joinedTo pair e "id" (by decide), Json.index]
        simpa only [Function.comp_def, same] using distinct
      have step : joinGroups elements (pair :: rest) =
          joinGroups (joinGroup pair.1 pair.2 elements) rest := rfl
      rw [step, joinGroup_eq_map pair distinct, ih kept, List.map_map]
      rfl

theorem setIndex_get {e value : Json} {key other : String} {found : Json}
    (isObject : e.get other = some found) : (setIndex key value e).get key = some value := by
  cases e with
  | object entries => exact field_setField_same
  | _ => cases isObject

/-- An element that has joined a group, or that will, and joins no other one is in the group
afterwards. -/
theorem foldl_joinedTo_groupId {pairs : List (String × String)} {member group : String} {e : Json}
    (isMember : e.get "id" = some (.string member))
    (single : ∀ pair ∈ pairs, pair.1 = member → pair.2 = group)
    (joins : e.get "groupId" = some (.string group) ∨ (member, group) ∈ pairs) :
    (pairs.foldl (fun e pair => joinedTo pair e) e).get "groupId" = some (.string group) := by
  induction pairs generalizing e with
  | nil => exact joins.resolve_right List.not_mem_nil
  | cons pair rest ih =>
      have isIndex : e.index "id" = .string member := by
        rw [Json.index, isMember]
        rfl
      obtain ⟨here, later⟩ := List.forall_mem_cons.mp single
      rw [List.foldl_cons]
      by_cases same : pair.1 = member
      · have joined : joinedTo pair e = setIndex "groupId" (.string group) e := by
          rw [joinedTo, if_pos (isText_iff.mpr (isIndex.trans (congrArg Json.string same.symm))),
            here same]
        rw [joined]
        apply ih _ later (.inl (setIndex_get isMember))
        rw [regrouped_setIndex _ e "id" (by decide), isMember]
      · have apart : joinedTo pair e = e := by
          apply if_neg
          intro text
          exact same (Json.string.inj ((isText_iff.mp text).symm.trans isIndex))
        rw [apart]
        apply ih isMember later (joins.imp_right _)
        intro listed
        rcases List.mem_cons.mp listed with isPair | inRest
        · exact absurd (congrArg Prod.fst isPair).symm same
        · exact inRest

/-! ## Conversion of groups -/

/-- A group is imported with the ids of the members that are read. -/
theorem Represents.children {x : Externals} {node : Node} {e : Json}
    (represents : Represents x node e) (group : rawType node.entries = "group") :
    e.get "children" = some (.array (node.readIds.map .string)) := by
  obtain ⟨converted, ⟨z, d, before, after, made⟩, regrouped⟩ := represents.content
  rw [regrouped _ (by decide)]
  rw [element, except_bind_eq_ok] at made
  obtain ⟨⟨fields, resources⟩, typed, isConverted⟩ := made
  cases isConverted
  have isGroup : elementType node.flattened = "group" := by
    rw [node.elementType_flattened, group]
    rfl
  have pushed : node.flattened.get "children" = some (.array (node.readIds.map .string)) := by
    rw [Node.flattened, if_pos group]
    change field "children" (dropField _ (setField _ _ _)) = _
    rw [field_dropField_other (by decide), field_setField_same, Node.readIds]
  rw [(typeFields_typed typed).group isGroup, pushed]
  exact field_setFields_last rfl

theorem Represents.groupMembers {x : Externals} {node : Node} {e : Json}
    (represents : Represents x node e) (group : rawType node.entries = "group") :
    groupMembers e = node.readIds.map fun member => (member, node.id) := by
  rw [Importer.groupMembers, Json.index, represents.id, Json.index, represents.children group]
  change (node.readIds.map Json.string).filterMap _ = _
  rw [List.filterMap_map]
  change node.readIds.filterMap (some ∘ fun member => (member, node.id)) = _
  rw [List.filterMap_eq_map]

section

variable {x : Externals} {v out : Json}

/-- An element that is in one group only has joined it. -/
theorem ImportSteps.joined (steps : ImportSteps x v out) (distinct : IdsDistinct out)
    {node : Node} (read : NodeOf readMembers v node) {group : String}
    (listed : (node.id, group) ∈ memberships steps.converted)
    (single : ∀ pair ∈ memberships steps.converted, pair.1 = node.id → pair.2 = group) :
    ∃ e ∈ importedElements out, e.get "id" = some (.string node.id) ∧
      e.get "groupId" = some (.string group) := by
  have apart : (steps.converted.map (·.index "id")).Nodup := by
    rw [ids_of_represents steps.represents_converted, ← ids_of_represents steps.represents]
    exact distinct
  have member := (steps.enumerates.exact node).mpr read
  obtain ⟨e, inside, represents⟩ := exists_left_of_mem steps.represents_converted.flip member
  have joins := foldl_joinedTo_groupId represents.id single (.inr listed)
  have joined := joinGroups_eq_map (memberships steps.converted) apart
  rw [steps.elements, joined]
  refine ⟨_, List.mem_map_of_mem inside, ?_, joins⟩
  rw [regrouped_foldl_joinedTo _ e "id" (by decide), represents.id]

/-- Members that are there are read from a list. -/
theorem readMembers_of_getD {entries : Entries} {list : List Json} {child : Json}
    (same : (readMembers entries).getD [] = list) (member : child ∈ list) :
    readMembers entries = some list := by
  cases read : readMembers entries with
  | some other =>
      rw [read] at same
      exact congrArg some same
  | none =>
      rw [read] at same
      rw [← same] at member
      cases member

theorem ListsRead.objects (lists : ListsRead v) : ObjectsRead v := by
  intro group isNode isGroup list listed ⟨entries, embedded⟩
  have same := lists group isNode isGroup
  rw [listed, Option.getD_some] at same
  exact readMembers_of_getD same embedded

theorem ListsRead.readIds (lists : ListsRead v) {group : Node}
    (isNode : NodeOf listedMembers v group) (isGroup : rawType group.entries = "group") :
    group.readIds = group.memberIds := by
  rw [Node.readIds, lists group isNode isGroup, Node.memberIds]

end

/-- A group that lists its members by `elementIds`. -/
def selection : Entries :=
  [("id", .string "selection"), ("type", .string "group"),
    ("elementIds", .array [.string "note"])]

def selected : List Json := [.object selection, .object note]

end PrinterSdk.Importer
