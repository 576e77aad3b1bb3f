import PrinterSdk.Data.Characters
import PrinterSdk.Data.Outcome
import PrinterSdk.Importer.JsonObject

/-!
# Flattening legacy groups

The elements of a v3 document are a forest: a group lists its members, each by its id or as an
object.  `flatten_element` makes a list of them, in which every group refers to its members by
their ids and stands behind them.
-/

namespace PrinterSdk.Importer

open PrinterSdk.Data PrinterSdk.Label PrinterSdk.Label.Entries

/-- `ImportError`. -/
inductive ImportError where
  | json (message : String)
  | version
  | dimensions
  | element (name : String)
  | resource
  deriving DecidableEq, Repr

/-- `str::to_ascii_lowercase`. -/
def toAsciiLowercase (text : String) : String := .ofList (text.toList.map lowerAscii)

/-- The id that an element gives itself. -/
def explicitId (entries : Entries) : Option String := (field "id" entries).bind Json.asStr

/-- The type of an element, in lower case. -/
def rawType (entries : Entries) : String :=
  toAsciiLowercase (((field "type" entries).bind Json.asStr).getD "")

/-- The members that `flatten_element` reads: the list under `children`, or under `elements`
when there are no `children`. -/
def readMembers (entries : Entries) : Option (List Json) :=
  ((field "children" entries).or (field "elements" entries)).bind Json.asArray

/-- The id of a member without one, from its position in its group. -/
def memberFallback (group : String) (index : Nat) : String :=
  group ++ "-child-" ++ toString index

/-- The items of an array are smaller than the object with the array. -/
theorem sizeOf_asArray (found : Option Json) {entries : Entries}
    (smaller : ∀ value, found = some value → sizeOf value < sizeOf entries) :
    sizeOf ((found.bind Json.asArray).getD []) < sizeOf (Json.object entries) := by
  have none : sizeOf ([] : List Json) < sizeOf (Json.object entries) := by
    cases entries with
    | nil => simp
    | cons entry rest => simp
  cases found with
  | none => exact none
  | some value =>
      have bound := smaller value rfl
      cases value with
      | array values =>
          simp only [Json.array.sizeOf_spec] at bound
          simp only [Option.bind_some, Json.asArray, Option.getD_some, Json.object.sizeOf_spec]
          omega
      | _ => exact none

/-- The id of a group is not where its members are. -/
theorem readMembers_setField_id (entries : Entries) (id : Json) :
    readMembers (setField "id" id entries) = readMembers entries := by
  rw [readMembers, field_setField_other (by decide), field_setField_other (by decide), readMembers]

/-- The members of a group are smaller than the group. -/
theorem sizeOf_readMembers (entries : Entries) :
    sizeOf ((readMembers entries).getD []) < sizeOf (Json.object entries) := by
  apply sizeOf_asArray
  intro value found
  cases children : field "children" entries with
  | some value =>
      rw [children] at found
      cases found
      exact sizeOf_field_lt children
  | none =>
      rw [children] at found
      exact sizeOf_field_lt found

mutual

/-- `flatten_element`. -/
def flattenElement (value : Json) (fallbackId : String) (output : List Json) :
    Except ImportError (List Json) :=
  match value with
  | .object entries => do
      let id := (explicitId entries).getD fallbackId
      let current := setField "id" (.string id) entries
      if rawType current = "group" then
        let (childIds, output) ←
          flattenMembers id ((readMembers current).getD []) 0 [] output
        let current := setField "children" (.array (childIds.map .string)) current
        return output ++ [.object (dropField "elements" current)]
      else return output ++ [.object current]
  | _ => .error (.element "non-object")
termination_by sizeOf value
decreasing_by
  rw [readMembers_setField_id]
  exact sizeOf_readMembers _

/-- The loop of `flatten_element` over the members of a group. -/
def flattenMembers (id : String) (children : List Json) (index : Nat) (childIds : List String)
    (output : List Json) : Except ImportError (List String × List Json) :=
  match children with
  | [] => .ok (childIds, output)
  | child :: rest =>
      match child.asStr with
      | some childId => flattenMembers id rest (index + 1) (childIds ++ [childId]) output
      | none => do
          let childId := ((child.get "id").bind Json.asStr).getD (memberFallback id index)
          let output ← flattenElement child childId output
          flattenMembers id rest (index + 1) (childIds ++ [childId]) output
termination_by sizeOf children

end

/-- The id of an element without one, from its position in the document. -/
def topFallback (index : Nat) : String := "legacy-" ++ toString index

/-- The first loop of `import_v3`, from an index on. -/
def flattenFrom : Nat → List Json → List Json → Except ImportError (List Json)
  | _, [], output => .ok output
  | index, element :: rest, output => do
      let output ← flattenElement element (topFallback index) output
      flattenFrom (index + 1) rest output

/-- The elements of a v3 document. -/
def legacyElements (v : Json) : List Json := ((v.get "elements").bind Json.asArray).getD []

end PrinterSdk.Importer
