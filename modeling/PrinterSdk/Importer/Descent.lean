import PrinterSdk.Importer.Nodes

/-!
# Nodes from the root on

A node is an element of the document or stands among the members of a node that is a group.
Facts about nodes go by induction from the elements of the document down, and a place
determines what is there.
-/

namespace PrinterSdk.Importer

open PrinterSdk.Data PrinterSdk.Label PrinterSdk.Label.Entries

/-- A node among the members of a group. -/
def Node.child (group : Node) (index : Nat) (entries : Entries) : Node :=
  ⟨group.path ++ [index], entries, memberFallback group.id index⟩

/-- A node, from the groups that it is in. -/
inductive Descended (members : Entries → Option (List Json)) (v : Json) : Node → Prop where
  | top {index : Nat} {entries : Entries} :
      (legacyElements v)[index]? = some (.object entries) →
      Descended members v ⟨[index], entries, topFallback index⟩
  | member {group : Node} {list : List Json} {index : Nat} {entries : Entries} :
      Descended members v group → rawType group.entries = "group" →
      members group.entries = some list → list[index]? = some (.object entries) →
      Descended members v (group.child index entries)

section

variable {members others : Entries → Option (List Json)} {v : Json}

/-- What is in a value is below the place of the value. -/
theorem descended_of_nodeIn {value : Json} {fallback : String} {node : Node}
    (inside : NodeIn members value fallback node) {path : List Nat}
    (start : ∀ entries, value = .object entries → Descended members v ⟨path, entries, fallback⟩) :
    Descended members v ⟨path ++ node.path, node.entries, node.fallback⟩ := by
  induction inside generalizing path with
  | here entries fallback =>
      rw [Node.root, List.append_nil]
      exact start entries rfl
  | @member entries fallback list index child node group listed found below ih =>
      have inner := ih fun entries isObject =>
        (start _ rfl).member group listed (isObject ▸ found)
      rw [List.append_assoc] at inner
      exact inner

/-- A member of a group is in every value that the group is in. -/
theorem NodeIn.child {value : Json} {fallback : String} {node : Node}
    (inside : NodeIn members value fallback node) (group : rawType node.entries = "group")
    {list : List Json} (listed : members node.entries = some list) {index : Nat}
    {entries : Entries} (found : list[index]? = some (.object entries)) :
    NodeIn members value fallback (node.child index entries) := by
  induction inside with
  | here => exact .member group listed found (.here _ _)
  | member outer members above below ih => exact .member outer members above (ih group listed)

theorem nodeOf_iff_descended {node : Node} : NodeOf members v node ↔ Descended members v node := by
  constructor
  · rintro ⟨index, value, inner, found, inside, rfl⟩
    rw [Nat.zero_add] at inside ⊢
    exact descended_of_nodeIn inside fun entries isObject => .top (isObject ▸ found)
  · intro descended
    induction descended with
    | @top index entries found =>
        refine ⟨index, _, .root entries (topFallback index), found, ?_, ?_⟩
        · rw [Nat.zero_add]
          exact .here entries (topFallback index)
        · rw [Nat.zero_add]
          rfl
    | @member group list index entries _ isGroup listed found ih =>
        obtain ⟨position, value, inner, above, inside, rfl⟩ := ih
        exact ⟨position, value, inner.child index entries, above,
          inside.child isGroup listed found, rfl⟩

theorem Descended.path_ne_nil {node : Node} (descended : Descended members v node) :
    node.path ≠ [] := by
  cases descended with
  | top => exact List.cons_ne_nil _ _
  | member => exact List.append_ne_nil_of_right_ne_nil _ (List.cons_ne_nil _ _)

/-- There is one node in a place. -/
theorem Descended.eq_of_path {first second : Node} (descended : Descended members v first)
    (also : Descended members v second) (same : first.path = second.path) : first = second := by
  induction descended generalizing second with
  | top found =>
      cases also with
      | top found' =>
          obtain ⟨rfl, -⟩ := List.cons.inj same
          cases found.symm.trans found'
          rfl
      | member outer =>
          have root := (List.append_eq_singleton_iff.mp same.symm).resolve_right
            fun split => List.cons_ne_nil _ _ split.2
          exact absurd root.1 outer.path_ne_nil
  | member outer isGroup listed found ih =>
      cases also with
      | top found' =>
          have root := (List.append_eq_singleton_iff.mp same).resolve_right
            fun split => List.cons_ne_nil _ _ split.2
          exact absurd root.1 outer.path_ne_nil
      | member outer' isGroup' listed' found' =>
          obtain ⟨above, last⟩ := List.append_inj' same rfl
          obtain ⟨rfl, -⟩ := List.cons.inj last
          cases ih outer' above
          cases listed.symm.trans listed'
          cases found.symm.trans found'
          rfl

/-- Nodes are the same when the objects among the members of groups are. -/
theorem Descended.mono {node : Node} (descended : Descended members v node)
    (same : ∀ group, Descended members v group → rawType group.entries = "group" →
      ∀ list, members group.entries = some list → (∃ entries, .object entries ∈ list) →
        others group.entries = some list) :
    Descended others v node := by
  induction descended with
  | top found => exact .top found
  | member outer isGroup listed found ih =>
      have object := List.mem_of_getElem? found
      exact .member ih isGroup (same _ outer isGroup _ listed ⟨_, object⟩) found

end

/-- The members that are read are among those that are listed. -/
theorem listedMembers_of_readMembers {entries : Entries} {list : List Json}
    (read : readMembers entries = some list) : listedMembers entries = some list := by
  rw [readMembers] at read
  rw [listedMembers, arrayAt, arrayAt]
  cases children : field "children" entries with
  | some value =>
      rw [children, Option.some_or, Option.bind_some] at read
      rw [Option.bind_some, read]
      rfl
  | none =>
      rw [children, Option.none_or] at read
      rw [Option.bind_none, Option.none_or, read]
      rfl

theorem Descended.listed {v : Json} {node : Node} (descended : Descended readMembers v node) :
    Descended listedMembers v node :=
  descended.mono fun _ _ _ _ read _ => listedMembers_of_readMembers read

end PrinterSdk.Importer
