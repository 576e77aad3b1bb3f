import PrinterSdk.Importer.Imported
import PrinterSdk.Importer.PlaceIds

/-!
# Legacy ids

The imported elements are those of the document, each once and with an id of its own, exactly
when ids from places are free and every embedded member is read.
-/

namespace PrinterSdk.Importer

open PrinterSdk.Data PrinterSdk.Label

/-- Imported elements have pairwise distinct ids. -/
def IdsDistinct (out : Json) : Prop := ((importedElements out).map (·.index "id")).Nodup

/-- Where a group has objects in the list of its members, that list is read. -/
def ObjectsRead (v : Json) : Prop :=
  ∀ group, NodeOf listedMembers v group → rawType group.entries = "group" →
    ∀ list, listedMembers group.entries = some list → (∃ entries, .object entries ∈ list) →
      readMembers group.entries = some list

section

variable {x : Externals} {v out : Json} {nodes : List Node}

theorem ids_of_represents {elements : List Json}
    (represents : List.Forall₂ (Represents x) nodes elements) :
    elements.map (·.index "id") = nodes.map fun node => .string node.id := by
  induction represents with
  | nil => rfl
  | cons first _ ih =>
      rw [List.map_cons, List.map_cons, ih, Json.index, first.id]
      rfl

end

/-- A text without an id. -/
def unnamed : Entries := [("type", .string "text")]

/-- A text with an id. -/
def note : Entries := [("id", .string "note"), ("type", .string "text")]

/-- A group without an id, with a text without an id in it. -/
def frame : Entries :=
  [("type", .string "group"), ("children", .array [.string "note", .object unnamed])]

/-- The group, and the text that it lists by its id. -/
def framed : List Json := [.object frame, .object note]

end PrinterSdk.Importer
