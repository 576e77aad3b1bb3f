import PrinterSdk.Data.Postorder
import PrinterSdk.Importer.Flatten

/-!
# Legacy nodes

What the elements of a v3 document are, apart from how the importer collects them: a node is an
element of the document or an object among the members of a group, at any depth.  Flattening
lists the nodes that are reached through the members it reads.
-/

namespace PrinterSdk.Importer

open PrinterSdk.Data PrinterSdk.Label PrinterSdk.Label.Entries

/-- An element of a v3 document: its place in the forest of elements, its fields and the id
that it has from its place. -/
structure Node where
  path : List Nat
  entries : Entries
  fallback : String

namespace Node

/-- The id of a node. -/
def id (node : Node) : String := (explicitId node.entries).getD node.fallback

/-- The place of a node below a sibling. -/
def under (index : Nat) (node : Node) : Node := { node with path := index :: node.path }

/-- A node without a place. -/
def root (entries : Entries) (fallback : String) : Node := ⟨[], entries, fallback⟩

end Node

/-! ## Members -/

/-- The id by which a group refers to a member. -/
def memberId (group : String) (index : Nat) (child : Json) : String :=
  child.asStr.getD (((child.get "id").bind Json.asStr).getD (memberFallback group index))

/-- The ids of members, from an index on. -/
def memberIds (group : String) : Nat → List Json → List String
  | _, [] => []
  | index, child :: rest => memberId group index child :: memberIds group (index + 1) rest

/-- The array under a key. -/
def arrayAt (key : String) (entries : Entries) : Option (List Json) :=
  (field key entries).bind Json.asArray

/-- The members that a group lists: the array under one of the three spellings. -/
def listedMembers (entries : Entries) : Option (List Json) :=
  ((arrayAt "children" entries).or (arrayAt "elements" entries)).or (arrayAt "elementIds" entries)

/-! ## Nodes -/

section

variable (members : Entries → Option (List Json))

/-- A value is a node, and so are the objects among the members of a group, when the members
are read in some way. -/
inductive NodeIn : Json → String → Node → Prop where
  | here (entries : Entries) (fallback : String) :
      NodeIn (.object entries) fallback (.root entries fallback)
  | member {entries : Entries} {fallback : String} {list : List Json} {index : Nat}
      {child : Json} {node : Node} :
      rawType entries = "group" → members entries = some list → list[index]? = some child →
      NodeIn child (memberFallback (Node.root entries fallback).id index) node →
      NodeIn (.object entries) fallback (node.under index)

/-- A node is one of a list of values, or below one of them. -/
def NodeAmong (name : Nat → String) (start : Nat) (values : List Json) (node : Node) : Prop :=
  ∃ offset value inner, values[offset]? = some value ∧
    NodeIn members value (name (start + offset)) inner ∧ node = inner.under (start + offset)

/-- A node of a document. -/
def NodeOf (v : Json) : Node → Prop := NodeAmong members topFallback 0 (legacyElements v)

variable {members}

theorem nodeAmong_nil {name : Nat → String} {start : Nat} {node : Node} :
    ¬NodeAmong members name start [] node := by
  rintro ⟨offset, value, inner, listed, -⟩
  cases listed

/-- The nodes of a list are those of its first value and those of the others. -/
theorem nodeAmong_cons {name : Nat → String} {start : Nat} {value : Json} {rest : List Json}
    {node : Node} :
    NodeAmong members name start (value :: rest) node ↔
      (∃ inner, NodeIn members value (name start) inner ∧ node = inner.under start) ∨
        NodeAmong members name (start + 1) rest node := by
  constructor
  · rintro ⟨offset, child, inner, listed, inside, rfl⟩
    cases offset with
    | zero =>
        cases listed
        exact .inl ⟨inner, inside, rfl⟩
    | succ offset =>
        have shifted : start + (offset + 1) = start + 1 + offset := by omega
        rw [shifted] at inside ⊢
        exact .inr ⟨offset, child, inner, listed, inside, rfl⟩
  · rintro (⟨inner, inside, rfl⟩ | ⟨offset, child, inner, listed, inside, rfl⟩)
    · exact ⟨0, value, inner, rfl, inside, rfl⟩
    · have shifted : start + 1 + offset = start + (offset + 1) := by omega
      rw [shifted] at inside ⊢
      exact ⟨offset + 1, child, inner, listed, inside, rfl⟩

/-- The nodes of a list begin with its positions. -/
theorem NodeAmong.path {name : Nat → String} {start : Nat} {values : List Json} {node : Node}
    (among : NodeAmong members name start values node) :
    ∃ index path, node.path = index :: path ∧ start ≤ index := by
  obtain ⟨offset, value, inner, -, -, rfl⟩ := among
  exact ⟨start + offset, inner.path, rfl, Nat.le_add_right start offset⟩

/-- The nodes of an object are those of its members, and then itself. -/
theorem nodeIn_object {entries : Entries} {fallback : String} {node : Node} :
    NodeIn members (.object entries) fallback node ↔
      (rawType entries = "group" ∧
        NodeAmong members (memberFallback (Node.root entries fallback).id) 0
          ((members entries).getD []) node) ∨ node = .root entries fallback := by
  constructor
  · intro inside
    cases inside with
    | here => exact .inr rfl
    | @member _ _ list index child inner group listed found below =>
        refine .inl ⟨group, index, child, inner, ?_, ?_, ?_⟩
        · rw [listed]
          exact found
        · rw [Nat.zero_add]
          exact below
        · rw [Nat.zero_add]
  · rintro (⟨group, offset, child, inner, found, below, rfl⟩ | rfl)
    · rw [Nat.zero_add] at below ⊢
      cases listed : members entries with
      | none =>
          rw [listed] at found
          cases found
      | some list =>
          rw [listed] at found
          exact .member group listed found below
    · exact .here entries fallback

end

end PrinterSdk.Importer
