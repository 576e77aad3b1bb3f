import PrinterSdk.Importer.Nodes

/-!
# Flattening lists the nodes

A document that is flattened yields its nodes in postorder, each with its id, and groups with
the ids of their members.
-/

namespace PrinterSdk.Importer

open PrinterSdk.Data PrinterSdk.Label PrinterSdk.Label.Entries

/-- What `flatten_element` pushes for a node. -/
def Node.flattened (node : Node) : Json :=
  let current := setField "id" (.string node.id) node.entries
  if rawType node.entries = "group" then
    let ids := memberIds node.id 0 ((readMembers node.entries).getD [])
    .object (dropField "elements" (setField "children" (.array (ids.map .string)) current))
  else .object current

theorem rawType_setField_id (entries : Entries) (id : Json) :
    rawType (setField "id" id entries) = rawType entries := by
  rw [rawType, field_setField_other (by decide), rawType]

/-- An element that is no group is pushed with its id. -/
theorem flattenElement_leaf {entries : Entries} (leaf : rawType entries ≠ "group")
    (fallback : String) (output : List Json) :
    flattenElement (.object entries) fallback output =
      .ok (output ++ [(Node.root entries fallback).flattened]) := by
  rw [flattenElement, Node.flattened, Node.root, if_neg leaf]
  simp only [rawType_setField_id, if_neg leaf]
  rfl

/-- A group is pushed behind its members. -/
theorem flattenElement_group {entries : Entries} (group : rawType entries = "group")
    (fallback : String) (output : List Json) :
    flattenElement (.object entries) fallback output =
      flattenMembers (Node.root entries fallback).id ((readMembers entries).getD []) 0 [] output >>=
        fun flat => .ok (flat.2 ++ [.object (dropField "elements"
          (setField "children" (.array (flat.1.map .string))
            (setField "id" (.string (Node.root entries fallback).id) entries)))]) := by
  rw [flattenElement]
  simp only [rawType_setField_id, readMembers_setField_id, if_pos group]
  rfl

/-- The id that is passed on for a member is the one that it has. -/
theorem flattenElement_passed (value : Json) (fallback : String) (output : List Json) :
    flattenElement value (((value.get "id").bind Json.asStr).getD fallback) output =
      flattenElement value fallback output := by
  cases value with
  | object entries =>
      have same : (explicitId entries).getD ((explicitId entries).getD fallback) =
          (explicitId entries).getD fallback := by
        cases explicitId entries with
        | none => rfl
        | some id => rfl
      change flattenElement (.object entries) ((explicitId entries).getD fallback) output = _
      rw [flattenElement, flattenElement, same]
  | _ => simp only [flattenElement]

/-- A value that is flattened is an object. -/
theorem object_of_flattenElement {value : Json} {fallback : String} {output result : List Json}
    (flat : flattenElement value fallback output = .ok result) :
    ∃ entries, value = .object entries := by
  cases value with
  | object entries => exact ⟨entries, rfl⟩
  | _ =>
      rw [flattenElement] at flat
      · cases flat
      · intro entries isObject
        cases isObject

/-- A member that is a text is no node. -/
theorem not_nodeIn_of_asStr {members : Entries → Option (List Json)} {value : Json}
    {text fallback : String} (isText : value.asStr = some text) {node : Node} :
    ¬NodeIn members value fallback node := by
  intro inside
  cases inside with
  | here => cases isText
  | member => cases isText

mutual

/-- Flattening a value pushes its nodes. -/
theorem flattenElement_nodes (value : Json) (fallback : String) (output result : List Json)
    (flat : flattenElement value fallback output = .ok result) :
    ∃ nodes, Enumerates Node.path (NodeIn readMembers value fallback) nodes ∧
      result = output ++ nodes.map Node.flattened := by
  obtain ⟨entries, isObject⟩ := object_of_flattenElement flat
  rw [isObject] at flat
  by_cases group : rawType entries = "group"
  · rw [flattenElement_group group, except_bind_eq_ok] at flat
    obtain ⟨⟨ids, inner⟩, members, pushed⟩ := flat
    have smaller := sizeOf_readMembers entries
    obtain ⟨isIds, nodes, enumerates, isInner⟩ := flattenMembers_nodes _ _ _ _ _ _ _ members
    have below : ∀ node, NodeAmong readMembers
        (memberFallback (Node.root entries fallback).id) 0 ((readMembers entries).getD []) node →
          node.path ≠ [] := by
      intro node among isRoot
      obtain ⟨_, _, path, -⟩ := among.path
      rw [isRoot] at path
      cases path
    refine ⟨nodes ++ [.root entries fallback], ?_, ?_⟩
    · rw [isObject]
      apply (enumerates.concat rfl below).congr
      intro node
      rw [nodeIn_object, and_iff_right group]
    · rw [List.nil_append] at isIds
      have own : (Node.root entries fallback).flattened = .object (dropField "elements"
          (setField "children" (.array (ids.map .string))
            (setField "id" (.string (Node.root entries fallback).id) entries))) := by
        rw [isIds]
        exact if_pos group
      rw [List.map_append, List.map_singleton, own, ← List.append_assoc, ← isInner]
      exact (Except.ok.inj pushed).symm
  · rw [flattenElement_leaf group] at flat
    refine ⟨[.root entries fallback], ?_, (Except.ok.inj flat).symm⟩
    have none : Enumerates Node.path (fun _ => False) [] := .nil fun _ => id
    rw [isObject]
    apply (none.concat rfl fun _ => False.elim).congr
    intro node
    rw [nodeIn_object]
    simp only [group, false_and]
termination_by sizeOf value
decreasing_by
  rw [isObject]
  exact smaller

/-- Flattening members pushes their nodes, and collects their ids. -/
theorem flattenMembers_nodes (id : String) (children : List Json) (index : Nat)
    (childIds ids : List String) (output result : List Json)
    (flat : flattenMembers id children index childIds output = .ok (ids, result)) :
    ids = childIds ++ memberIds id index children ∧
      ∃ nodes, Enumerates Node.path
          (NodeAmong readMembers (memberFallback id) index children) nodes ∧
        result = output ++ nodes.map Node.flattened := by
  cases children with
  | nil =>
      rw [flattenMembers] at flat
      cases flat
      exact ⟨(List.append_nil _).symm, [], .nil fun _ => nodeAmong_nil, (List.append_nil _).symm⟩
  | cons child rest =>
      cases isText : child.asStr with
      | some text =>
          rw [flattenMembers, isText] at flat
          obtain ⟨isIds, nodes, enumerates, isResult⟩ := flattenMembers_nodes _ _ _ _ _ _ _ flat
          refine ⟨?_, nodes, ?_, isResult⟩
          · rw [isIds, List.append_assoc, memberIds, memberId, isText]
            rfl
          · apply enumerates.congr
            intro node
            rw [nodeAmong_cons]
            constructor
            · exact .inr
            · intro among
              rcases among with ⟨inner, inside, -⟩ | later
              · exact absurd inside (not_nodeIn_of_asStr isText)
              · exact later
      | none =>
          rw [flattenMembers, isText] at flat
          simp only [except_bind_eq_ok, flattenElement_passed] at flat
          obtain ⟨output', here, later⟩ := flat
          obtain ⟨nodes, enumerates, isOutput⟩ := flattenElement_nodes _ _ _ _ here
          obtain ⟨isIds, others, also, isResult⟩ := flattenMembers_nodes _ _ _ _ _ _ _ later
          refine ⟨?_, nodes.map (Node.under index) ++ others, ?_, ?_⟩
          · rw [isIds, List.append_assoc, memberIds, memberId, isText]
            rfl
          · have apart : ∀ node, NodeAmong readMembers (memberFallback id) (index + 1) rest node →
                ∃ other path, node.path = other :: path ∧ index < other := fun _ among => among.path
            apply (enumerates.append also (fun _ => rfl) apart).congr
            intro node
            rw [nodeAmong_cons]
          · rw [isResult, isOutput, List.map_append, List.map_map, List.append_assoc]
            rfl
termination_by sizeOf children

end

/-- Flattening the elements of a document pushes its nodes. -/
theorem flattenFrom_nodes {index : Nat} {elements output result : List Json}
    (flat : flattenFrom index elements output = .ok result) :
    ∃ nodes, Enumerates Node.path (NodeAmong readMembers topFallback index elements) nodes ∧
      result = output ++ nodes.map Node.flattened := by
  induction elements generalizing index output with
  | nil =>
      cases flat
      exact ⟨[], .nil fun _ => nodeAmong_nil, (List.append_nil _).symm⟩
  | cons value rest ih =>
      rw [flattenFrom, except_bind_eq_ok] at flat
      obtain ⟨output', here, later⟩ := flat
      obtain ⟨nodes, enumerates, isOutput⟩ := flattenElement_nodes _ _ _ _ here
      obtain ⟨others, also, isResult⟩ := ih later
      have apart : ∀ node, NodeAmong readMembers topFallback (index + 1) rest node →
          ∃ other path, node.path = other :: path ∧ index < other := fun _ among => among.path
      refine ⟨nodes.map (Node.under index) ++ others, ?_, ?_⟩
      · apply (enumerates.append also (fun _ => rfl) apart).congr
        intro node
        rw [nodeAmong_cons]
      · rw [isResult, isOutput, List.map_append, List.map_map, List.append_assoc]
        rfl

end PrinterSdk.Importer
