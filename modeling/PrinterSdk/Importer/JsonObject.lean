import PrinterSdk.Label.Document

/-!
# JSON objects

The operations of `serde_json::Value` that the importer uses.  An object is the list of its
entries, of which the first one with a key counts; their order is never looked at.
-/

namespace PrinterSdk.Label

/-- `serde_json::Map`. -/
abbrev Entries := List (String × Json)

namespace Entries

/-- `Map::get`. -/
def field (key : String) (entries : Entries) : Option Json :=
  (entries.find? fun entry => entry.1 = key).map Prod.snd

/-- `Map::insert`. -/
def setField (key : String) (value : Json) : Entries → Entries
  | [] => [(key, value)]
  | entry :: rest =>
      if entry.1 = key then (key, value) :: rest else entry :: setField key value rest

/-- `Map::remove`. -/
def dropField (key : String) (entries : Entries) : Entries :=
  entries.filter fun entry => entry.1 ≠ key

/-- `Map::insert` of several entries. -/
def setFields (fields entries : Entries) : Entries :=
  fields.foldl (fun entries field => setField field.1 field.2 entries) entries

variable {key other : String} {value : Json} {entries : Entries}

theorem field_cons (entry : String × Json) :
    field key (entry :: entries) =
      if entry.1 = key then some entry.2 else field key entries := by
  rw [field, List.find?_cons]
  split
  · next same => rw [if_pos (of_decide_eq_true same), Option.map_some]
  · next differs => rw [if_neg (of_decide_eq_false differs), field]

@[simp] theorem field_setField_same : field key (setField key value entries) = some value := by
  induction entries with
  | nil => rw [setField, field_cons, if_pos rfl]
  | cons entry rest ih =>
      rw [setField]
      split
      · rw [field_cons, if_pos rfl]
      · next differs => rw [field_cons, if_neg differs, ih]

theorem field_setField_other (different : other ≠ key) :
    field other (setField key value entries) = field other entries := by
  induction entries with
  | nil => rw [setField, field_cons, if_neg different.symm]
  | cons entry rest ih =>
      rw [setField]
      split
      · next same =>
          have differs : entry.1 ≠ other := fun equal => different (equal.symm.trans same)
          rw [field_cons, field_cons, if_neg different.symm, if_neg differs]
      · rw [field_cons, field_cons, ih]

theorem field_dropField_other (different : other ≠ key) :
    field other (dropField key entries) = field other entries := by
  induction entries with
  | nil => rfl
  | cons entry rest ih =>
      rw [dropField, List.filter_cons]
      split
      · rw [field_cons, field_cons, ← ih, dropField]
      · next removed =>
          have same : entry.1 = key := by simpa using removed
          rw [field_cons, if_neg fun equal => different (equal.symm.trans same), ← ih, dropField]

theorem field_setFields_other {fields : Entries} (different : ∀ field ∈ fields, field.1 ≠ key) :
    field key (setFields fields entries) = field key entries := by
  induction fields generalizing entries with
  | nil => rfl
  | cons first rest ih =>
      obtain ⟨here, later⟩ := List.forall_mem_cons.mp different
      exact (ih later).trans (field_setField_other here.symm)

/-- The last one of several entries is found under its key. -/
theorem field_setFields_last {fields : Entries} (last : fields.getLast? = some (key, value)) :
    field key (setFields fields entries) = some value := by
  obtain ⟨others, rfl⟩ := List.getLast?_eq_some_iff.mp last
  rw [setFields, List.foldl_append]
  exact field_setField_same

/-- What is looked up is smaller than the object. -/
theorem sizeOf_field_lt (found : field key entries = some value) :
    sizeOf value < sizeOf entries := by
  induction entries with
  | nil => cases found
  | cons entry rest ih =>
      rw [field_cons] at found
      split at found
      · cases found
        cases entry
        simp
        omega
      · have smaller := ih found
        simp
        omega

end Entries

namespace Json

/-- `Value::get`. -/
def get (value : Json) (key : String) : Option Json :=
  match value with
  | .object entries => Entries.field key entries
  | _ => none

/-- `value[key]`. -/
def index (value : Json) (key : String) : Json := (value.get key).getD .null

/-- `Value::as_str`. -/
def asStr : Json → Option String
  | .string value => some value
  | _ => none

/-- `Value::as_array`. -/
def asArray : Json → Option (List Json)
  | .array values => some values
  | _ => none

/-- `Value::as_bool`. -/
def asBool : Json → Option Bool
  | .boolean value => some value
  | _ => none

/-- The text of a number, for `Value::as_f64`, `Value::as_i64` and `Value::as_u64`. -/
def asNumber : Json → Option String
  | .number text => some text
  | _ => none

theorem asStr_eq_some {value : Json} {text : String} :
    value.asStr = some text ↔ value = .string text := by
  cases value <;> simp [asStr]

end Json

end PrinterSdk.Label
