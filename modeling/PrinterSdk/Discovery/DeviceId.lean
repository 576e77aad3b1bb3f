import Mathlib.Data.Char
import Mathlib.Data.List.Lex
import PrinterSdk.Brother.Wifi
import PrinterSdk.Data.OrderedMap
import PrinterSdk.Data.Outcome
import PrinterSdk.Data.WordLayout

/-!
# IEEE 1284 device IDs

A device ID is a text of fields behind its length.  It comes from the printer, so any
bytes may be offered; what is accepted has keys in upper case and values without white
space at their ends, and such fields come back from the text that is made of them.
-/

namespace PrinterSdk.Discovery

open PrinterSdk.Data PrinterSdk.Brother

/-- `MAX_DEVICE_ID_BYTES`. -/
def maxDeviceIdBytes : Nat := 2048

/-- `DeviceId`. -/
structure DeviceId where
  raw : Characters
  manufacturer : Option Characters
  model : Option Characters
  commandSets : List Characters
  fields : OrderedMap Characters Characters
  deriving DecidableEq

/-- `DeviceIdError`. -/
inductive DeviceIdError where
  | tooShort
  | tooLarge
  | invalidLength
  | invalidUtf8
  | malformed

/-- The key and the value of one field, unless one of them is missing or empty. -/
def deviceField (field : Characters) : Option (Characters × Characters) :=
  match splitOnce ':' field with
  | none => none
  | some (key, value) =>
      let key := (trim key).map upperAscii
      let value := trim value
      if key ≠ [] ∧ value ≠ [] then some (key, value) else none

/-- The device ID that has the given fields. -/
def DeviceId.ofFields (raw : Characters) (fields : OrderedMap Characters Characters) :
    DeviceId :=
  let field (short long : String) := (fields.get short.toList).or (fields.get long.toList)
  { raw
    manufacturer := field "MFG" "MANUFACTURER"
    model := field "MDL" "MODEL"
    commandSets := match field "CMD" "COMMAND SET" with
      | some value => ((value.splitOn ',').map trim).filter (· ≠ [])
      | none => []
    fields }

/-- `parse_device_id`. -/
def parseDeviceId (data : Bytes) : Except DeviceIdError DeviceId := do
  refuseIf (data.length < 2) .tooShort
  refuseIf (maxDeviceIdBytes < data.length) .tooLarge
  let declared := beNat (data.take 2)
  refuseIf (¬(2 ≤ declared ∧ declared ≤ data.length) ∨ maxDeviceIdBytes < declared)
    .invalidLength
  let text ← okOr (fromUtf8 ((data.take declared).drop 2)) .invalidUtf8
  let raw := trim (trimMatches '\x00' text.toList)
  refuseIf (raw = [] ∨ ';' ∉ raw) .malformed
  let fields := OrderedMap.collect ((raw.splitOn ';').filterMap deviceField)
  refuseIf (fields.entries = []) .malformed
  return .ofFields raw fields

/-- A field as a device ID has it: an upper-case key and a value, trimmed and not empty. -/
structure IsField (field : Characters × Characters) : Prop where
  keyFilled : field.1 ≠ []
  keyTrimmed : trim field.1 = field.1
  keyUpper : field.1.map upperAscii = field.1
  keyOpen : ':' ∉ field.1 ∧ ';' ∉ field.1
  valueFilled : field.2 ≠ []
  valueTrimmed : trim field.2 = field.2
  valueOpen : ';' ∉ field.2

instance (field : Characters × Characters) : Decidable (IsField field) :=
  decidable_of_iff (field.1 ≠ [] ∧ trim field.1 = field.1 ∧ field.1.map upperAscii = field.1 ∧
      (':' ∉ field.1 ∧ ';' ∉ field.1) ∧ field.2 ≠ [] ∧ trim field.2 = field.2 ∧ ';' ∉ field.2)
    ⟨fun ⟨filled, trimmed, upper, opened, value, cut, closed⟩ =>
      ⟨filled, trimmed, upper, opened, value, cut, closed⟩,
    fun ⟨filled, trimmed, upper, opened, value, cut, closed⟩ =>
      ⟨filled, trimmed, upper, opened, value, cut, closed⟩⟩

/-- The text of fields. -/
def renderFields (fields : List (Characters × Characters)) : Characters :=
  fields.flatMap fun field => field.1 ++ ':' :: (field.2 ++ [';'])

/-- The device ID of a text, behind its length. -/
def encodeDeviceId (text : Characters) : Bytes :=
  beBytes 2 ((asBytes (String.ofList text)).length + 2) ++ asBytes (String.ofList text)

/-! ## Fields -/

/-- The pieces between separators are without them, and parts of the text. -/
theorem of_mem_splitOn {separator : Char} {text piece : Characters}
    (member : piece ∈ text.splitOn separator) :
    separator ∉ piece ∧ ∀ character ∈ piece, character ∈ text := by
  rw [List.splitOn_eq_splitOnP] at member
  constructor
  · intro inside
    have other := not_of_mem_splitOnP member separator inside
    simp at other
  · intro character inside
    have among : character ∈ (text.splitOnP (· == separator)).flatten :=
      List.mem_flatten.mpr ⟨piece, member, inside⟩
    rw [flatten_splitOnP] at among
    exact (List.mem_filter.mp among).1

theorem deviceField_eq_some {piece : Characters} {field : Characters × Characters}
    (free : ';' ∉ piece) (read : deviceField piece = some field) : IsField field := by
  unfold deviceField at read
  split at read
  · cases read
  · next key value split =>
      obtain ⟨noColon, rfl⟩ := splitOnce_eq_some.mp split
      simp only at read
      split at read
      · next filled =>
          cases read
          rw [List.mem_append, List.mem_cons, not_or, not_or] at free
          have lower {target character : Char} (isUpper : upperAscii character = target)
              (noCapital : target.toNat < 0x41 ∨ 0x5a < target.toNat)
              (member : character ∈ trim key) : target ∈ key := by
            rw [← eq_of_upperAscii isUpper noCapital]
            exact mem_of_mem_trim member
          refine ⟨filled.1, ?_, ?_, ⟨?_, ?_⟩, filled.2, trim_trim _, ?_⟩
          · rw [trim_map_upperAscii, trim_trim]
          · rw [List.map_map]
            exact List.map_congr_left fun character _ => upperAscii_upperAscii character
          · intro member
            obtain ⟨character, inside, isColon⟩ := List.mem_map.mp member
            exact noColon (lower isColon (.inl (by decide)) inside)
          · intro member
            obtain ⟨character, inside, isSemicolon⟩ := List.mem_map.mp member
            exact free.1 (lower isSemicolon (.inl (by decide)) inside)
          · exact fun member => free.2.2 (mem_of_mem_trim member)
      · cases read

/-- A rendered field is read as it is. -/
theorem deviceField_render {field : Characters × Characters} (isField : IsField field) :
    deviceField (field.1 ++ ':' :: field.2) = some field := by
  simp only [deviceField, splitOnce_append isField.keyOpen.1, isField.keyTrimmed,
    isField.keyUpper, isField.valueTrimmed]
  exact if_pos ⟨isField.keyFilled, isField.valueFilled⟩

/-- Rendered fields are split where they were joined. -/
theorem splitOn_renderFields {fields : List (Characters × Characters)}
    (areFields : ∀ field ∈ fields, IsField field) :
    (renderFields fields).splitOn ';' =
      fields.map (fun field => field.1 ++ ':' :: field.2) ++ [[]] := by
  induction fields with
  | nil => rfl
  | cons field fields ih =>
      obtain ⟨isField, later⟩ := List.forall_mem_cons.mp areFields
      have free : ';' ∉ field.1 ++ ':' :: field.2 := by
        simp [isField.keyOpen.2, isField.valueOpen]
      have joined : renderFields (field :: fields) =
          (field.1 ++ ':' :: field.2) ++ ';' :: renderFields fields := by
        simp [renderFields]
      rw [joined, List.splitOn_append_cons_self_of_not_mem free, ih later]
      rfl

theorem filterMap_renderFields {fields : List (Characters × Characters)}
    (areFields : ∀ field ∈ fields, IsField field) :
    ((renderFields fields).splitOn ';').filterMap deviceField = fields := by
  rw [splitOn_renderFields areFields, List.filterMap_append, List.filterMap_map]
  have each : ∀ field ∈ fields,
      (deviceField ∘ fun field => field.1 ++ ':' :: field.2) field = some field :=
    fun field member => deviceField_render (areFields field member)
  rw [List.filterMap_congr each, List.filterMap_some]
  exact List.append_nil _

/-- What is dropped at the end of a text stops at what is kept. -/
theorem rdropWhile_append_cons {p : Char → Bool} {character : Char} (solid : p character = false)
    (text rest : Characters) :
    (text ++ character :: rest).rdropWhile p = text ++ character :: rest.rdropWhile p := by
  rw [List.rdropWhile, List.reverse_append, List.reverse_cons, List.append_assoc,
    List.dropWhile_append]
  split
  · next gone =>
      rw [List.rdropWhile, List.isEmpty_iff.mp gone]
      simp [solid]
  · simp [List.rdropWhile]

/-- Rendered fields end with a semicolon. -/
theorem rdropWhile_renderFields {p : Char → Bool} (solid : p ';' = false)
    (fields : List (Characters × Characters)) :
    (renderFields fields).rdropWhile p = renderFields fields := by
  induction fields with
  | nil => rfl
  | cons field fields ih =>
      have joined : renderFields (field :: fields) =
          (field.1 ++ ':' :: field.2) ++ ';' :: renderFields fields := by simp [renderFields]
      rw [joined, rdropWhile_append_cons solid, ih]

theorem collect_ne_nil {fields : List (Characters × Characters)} (filled : fields ≠ []) :
    (OrderedMap.collect fields).entries ≠ [] := by
  obtain ⟨before, last, rfl⟩ := List.eq_nil_or_concat fields |>.resolve_left filled
  rw [List.concat_eq_append, OrderedMap.collect_snoc]
  exact List.ne_nil_of_mem (OrderedMap.mem_insert.mpr (.inl rfl))

/-! ## Device IDs -/

/-- What is read as a device ID. -/
theorem parseDeviceId_eq_ok {data : Bytes} {id : DeviceId} :
    parseDeviceId data = .ok id ↔
      2 ≤ beNat (data.take 2) ∧ beNat (data.take 2) ≤ data.length ∧
      data.length ≤ maxDeviceIdBytes ∧
      ∃ text, fromUtf8 ((data.take (beNat (data.take 2))).drop 2) = some text ∧
        ';' ∈ trim (trimMatches '\x00' text.toList) ∧
        (OrderedMap.collect (((trim (trimMatches '\x00' text.toList)).splitOn ';').filterMap
          deviceField)).entries ≠ [] ∧
        id = .ofFields (trim (trimMatches '\x00' text.toList))
          (OrderedMap.collect (((trim (trimMatches '\x00' text.toList)).splitOn ';').filterMap
            deviceField)) := by
  simp only [parseDeviceId, except_bind_eq_ok, refuseIf_eq_ok, okOr_eq_ok, except_pure_eq_ok]
  constructor
  · rintro ⟨-, -, -, large, -, declared, text, decoded, -, filled, -, fields, rfl⟩
    rw [not_or, not_not] at declared filled
    exact ⟨declared.1.1, declared.1.2, by omega, text, decoded, filled.2, fields, rfl⟩
  · rintro ⟨atLeast, atMost, small, text, decoded, semicolon, fields, rfl⟩
    refine ⟨(), by omega, (), by omega, (), ?_, text, decoded, (), ?_, (), fields, rfl⟩
    · rw [not_or, not_not]
      exact ⟨⟨atLeast, atMost⟩, by omega⟩
    · rw [not_or, not_not]
      exact ⟨List.ne_nil_of_mem semicolon, semicolon⟩

/-- What is read from a text is what lies between its ends of NUL and white space. -/
theorem parseDeviceId_encode {text : Characters} (trailing : Bytes)
    (fits : (encodeDeviceId text ++ trailing).length ≤ maxDeviceIdBytes) {raw : Characters}
    (trimmed : trim (trimMatches '\x00' text) = raw) (semicolon : ';' ∈ raw) :
    parseDeviceId (encodeDeviceId text ++ trailing) =
      if (OrderedMap.collect ((raw.splitOn ';').filterMap deviceField)).entries = [] then
        .error .malformed
      else .ok (.ofFields raw (OrderedMap.collect ((raw.splitOn ';').filterMap deviceField))) := by
  generalize body : asBytes (String.ofList text) = payload
  have encoded : encodeDeviceId text = beBytes 2 (payload.length + 2) ++ payload := by
    rw [encodeDeviceId, body]
  rw [encoded] at fits ⊢
  have whole : (beBytes 2 (payload.length + 2) ++ payload ++ trailing).length =
      payload.length + 2 + trailing.length := by
    simp only [List.length_append, length_beBytes]
    omega
  have small : payload.length + 2 ≤ maxDeviceIdBytes := by omega
  have header : beNat ((beBytes 2 (payload.length + 2) ++ payload ++ trailing).take 2) =
      payload.length + 2 := by
    rw [List.append_assoc, List.take_left' (length_beBytes 2 _)]
    exact beNat_beBytes (Nat.lt_of_le_of_lt small (by decide))
  have declared : ((beBytes 2 (payload.length + 2) ++ payload ++ trailing).take
      (payload.length + 2)).drop 2 = payload := by
    rw [List.take_left' (by simp [Nat.add_comm]), List.drop_left' (length_beBytes 2 _)]
  have long : ¬(beBytes 2 (payload.length + 2) ++ payload ++ trailing).length < 2 := by omega
  have inside : ¬(¬(2 ≤ payload.length + 2 ∧ payload.length + 2 ≤
      (beBytes 2 (payload.length + 2) ++ payload ++ trailing).length) ∨
      maxDeviceIdBytes < payload.length + 2) := by omega
  have filled : ¬(raw = [] ∨ ';' ∉ raw) := by
    rw [not_or, not_not]
    exact ⟨List.ne_nil_of_mem semicolon, semicolon⟩
  have decoded : okOr (fromUtf8 payload) DeviceIdError.invalidUtf8 = pure (String.ofList text) := by
    rw [← body, fromUtf8_asBytes]
    rfl
  have passed {refused : Prop} [Decidable refused] {error : DeviceIdError} (passes : ¬refused) :
      refuseIf refused error = pure () := if_neg passes
  simp only [parseDeviceId, header, declared, decoded, passed long, passed inside,
    passed (Nat.not_lt.mpr fits), pure_bind, String.toList_ofList, trimmed, passed filled]
  split
  · next none =>
      simp only [refuseIf, if_pos none]
      rfl
  · next some =>
      rw [passed some]
      rfl

/-! ## NUL in front of a key -/

/-- A key without the NUL in front of it. -/
def strippedKey (key : Characters) : Characters := trim (key.dropWhile (· == '\x00'))

/-- The fields that are read where fields are written: NUL in front of the text is no part
of the first key, and the first field is dropped when nothing is left of its key. -/
def rereadFields : List (Characters × Characters) → List (Characters × Characters)
  | [] => []
  | (key, value) :: rest =>
      if strippedKey key = [] then rest else (strippedKey key, value) :: rest

/-- The text that is left of rendered fields. -/
theorem trim_renderFields (field : Characters × Characters)
    (fields : List (Characters × Characters)) :
    trim (trimMatches '\x00' (renderFields (field :: fields))) =
      (trimStart (field.1.dropWhile (· == '\x00')) ++ ':' :: field.2) ++
        ';' :: renderFields fields := by
  have text : renderFields (field :: fields) =
      field.1 ++ ':' :: (field.2 ++ ';' :: renderFields fields) := by
    simp [renderFields]
  have opened : (renderFields (field :: fields)).dropWhile (· == '\x00') =
      (field.1.dropWhile (· == '\x00') ++ ':' :: field.2) ++ ';' :: renderFields fields := by
    rw [text, List.dropWhile_append]
    split
    · next nul =>
        rw [List.isEmpty_iff.mp nul]
        exact List.dropWhile_cons_of_neg (by decide)
    · simp
  rw [trimMatches, opened, rdropWhile_append_cons (by decide), rdropWhile_renderFields (by decide),
    List.append_assoc, List.cons_append, trim_append_of_solid _ _ (by decide),
    trimEnd_append_of_solid _ _ (by decide), trimEnd, rdropWhile_renderFields (by decide)]
  simp

/-- The first field loses NUL in front of its key, and the others are read as they are. -/
theorem filterMap_trimmed {field : Characters × Characters}
    {fields : List (Characters × Characters)}
    (areFields : ∀ other ∈ field :: fields, IsField other) :
    ((trim (trimMatches '\x00' (renderFields (field :: fields)))).splitOn ';').filterMap
      deviceField = rereadFields (field :: fields) := by
  obtain ⟨isField, areLater⟩ := List.forall_mem_cons.mp areFields
  obtain ⟨before, blank, split⟩ := trimStart_split (field.1.dropWhile (· == '\x00'))
  have inside {character : Char}
      (member : character ∈ trimStart (field.1.dropWhile (· == '\x00'))) :
      character ∈ field.1 := by
    apply (List.dropWhile_suffix _).subset
    rw [split]
    exact List.mem_append_right _ member
  have free : ';' ∉ trimStart (field.1.dropWhile (· == '\x00')) ++ ':' :: field.2 := by
    simp only [List.mem_append, List.mem_cons, not_or]
    exact ⟨fun member => isField.keyOpen.2 (inside member), by decide, isField.valueOpen⟩
  have upper : (strippedKey field.1).map upperAscii = strippedKey field.1 := by
    rw [← List.map_id (strippedKey field.1), List.map_map]
    apply List.map_congr_left
    intro character member
    have among : character ∈ field.1 := (List.dropWhile_suffix _).subset (mem_of_mem_trim member)
    have fixed := List.map_eq_map_iff.mp (isField.keyUpper.trans (List.map_id _).symm)
    exact fixed character among
  have first : deviceField (trimStart (field.1.dropWhile (· == '\x00')) ++ ':' :: field.2) =
      if strippedKey field.1 = [] then none else some (strippedKey field.1, field.2) := by
    have again : trim (trimStart (field.1.dropWhile (· == '\x00'))) = strippedKey field.1 := by
      simp only [strippedKey, trim, trimStart, List.dropWhile_idempotent]
    simp only [deviceField, splitOnce_append fun member => isField.keyOpen.1 (inside member),
      again, upper, isField.valueTrimmed]
    by_cases empty : strippedKey field.1 = []
    · rw [if_pos empty, if_neg fun filled => filled.1 empty]
    · rw [if_neg empty, if_pos ⟨empty, isField.valueFilled⟩]
  rw [trim_renderFields, List.splitOn_append_cons_self_of_not_mem free, List.filterMap_cons, first,
    filterMap_renderFields areLater]
  by_cases empty : strippedKey field.1 = []
  · simp [rereadFields, empty]
  · simp [rereadFields, empty]

/-- What is read from the text of fields. -/
theorem parseDeviceId_rendered {fields : List (Characters × Characters)} (filled : fields ≠ [])
    (areFields : ∀ field ∈ fields, IsField field) (trailing : Bytes)
    (fits : (encodeDeviceId (renderFields fields) ++ trailing).length ≤ maxDeviceIdBytes) :
    parseDeviceId (encodeDeviceId (renderFields fields) ++ trailing) =
      if rereadFields fields = [] then .error .malformed
      else .ok (.ofFields (trim (trimMatches '\x00' (renderFields fields)))
        (OrderedMap.collect (rereadFields fields))) := by
  cases fields with
  | nil => exact absurd rfl filled
  | cons field fields =>
      have semicolon : ';' ∈ trim (trimMatches '\x00' (renderFields (field :: fields))) := by
        rw [trim_renderFields]
        exact List.mem_append_right _ List.mem_cons_self
      rw [parseDeviceId_encode trailing fits rfl semicolon, filterMap_trimmed areFields]
      by_cases none : rereadFields (field :: fields) = []
      · rw [none]
        rfl
      · rw [if_neg none, if_neg (collect_ne_nil none)]

/-- Without NUL in front, all of the text and all of its fields are read. -/
theorem reread_of_plain {fields : List (Characters × Characters)} (filled : fields ≠ [])
    (areFields : ∀ field ∈ fields, IsField field)
    (plain : (renderFields fields).head? ≠ some '\x00') :
    rereadFields fields = fields ∧
      trim (trimMatches '\x00' (renderFields fields)) = renderFields fields := by
  cases fields with
  | nil => exact absurd rfl filled
  | cons field fields =>
      have isField := areFields field List.mem_cons_self
      have opened : field.1.dropWhile (· == '\x00') = field.1 := by
        cases key : field.1 with
        | nil => rfl
        | cons front rest =>
            have solid : front ≠ '\x00' := by
              rintro rfl
              simp [renderFields, key] at plain
            exact List.dropWhile_cons_of_neg (by simpa using solid)
      have kept : strippedKey field.1 = field.1 := by
        rw [strippedKey, opened, isField.keyTrimmed]
      constructor
      · rw [rereadFields, kept, if_neg isField.keyFilled]
      · have started : trimStart field.1 = field.1 := by
          have solid := (solid_of_trim field.1).1
          rw [isField.keyTrimmed] at solid
          cases key : field.1 with
          | nil => rfl
          | cons front rest => exact trimStart_cons_of_solid rest (solid front (by rw [key]; rfl))
        rw [trim_renderFields, opened, started]
        simp [renderFields]

/-- Rendered fields are read as they are. -/
theorem parseDeviceId_renderFields {fields : List (Characters × Characters)} (filled : fields ≠ [])
    (areFields : ∀ field ∈ fields, IsField field)
    (plain : (renderFields fields).head? ≠ some '\x00') (trailing : Bytes)
    (fits : (encodeDeviceId (renderFields fields) ++ trailing).length ≤ maxDeviceIdBytes) :
    parseDeviceId (encodeDeviceId (renderFields fields) ++ trailing) =
      .ok (.ofFields (renderFields fields) (OrderedMap.collect fields)) := by
  obtain ⟨all, whole⟩ := reread_of_plain filled areFields plain
  rw [parseDeviceId_rendered filled areFields trailing fits, all, whole, if_neg filled]

/-- Device IDs come back from their text.  Whatever follows the declared bytes, the fields
are those that were written, and the last one counts where a key is repeated. -/
theorem device_id_round_trip {fields : List (Characters × Characters)} (filled : fields ≠ [])
    (areFields : ∀ field ∈ fields, IsField field)
    (plain : (renderFields fields).head? ≠ some '\x00') (trailing : Bytes)
    (fits : (encodeDeviceId (renderFields fields) ++ trailing).length ≤ maxDeviceIdBytes) :
    ∃ id, parseDeviceId (encodeDeviceId (renderFields fields) ++ trailing) = .ok id ∧
      id.raw = renderFields fields ∧ (∀ field ∈ id.fields.entries, field ∈ fields) ∧
      ∀ before field after, fields = before ++ field :: after →
        (∀ other ∈ after, other.1 ≠ field.1) → id.fields.get field.1 = some field.2 := by
  refine ⟨_, parseDeviceId_renderFields filled areFields plain trailing fits, rfl, ?_, ?_⟩
  · exact fun field member => OrderedMap.mem_of_mem_collect member
  · rintro before field after rfl last
    exact OrderedMap.get_collect before field last

/-- The device ID of a label printer, with a field that is written twice. -/
def labelPrinterFields : List (Characters × Characters) :=
  [("MFG".toList, "Brother".toList), ("CMD".toList, "PJL,RASTER".toList),
    ("MDL".toList, "QL".toList), ("MDL".toList, "QL-820NWB".toList)]

theorem device_id_round_trip_labelPrinter :
    ∃ id, parseDeviceId (encodeDeviceId (renderFields labelPrinterFields) ++ [0, 0]) = .ok id ∧
      id.raw = renderFields labelPrinterFields ∧
      (∀ field ∈ id.fields.entries, field ∈ labelPrinterFields) ∧
      ∀ before field after, labelPrinterFields = before ++ field :: after →
        (∀ other ∈ after, other.1 ≠ field.1) → id.fields.get field.1 = some field.2 :=
  device_id_round_trip (by decide) (by decide) (by decide) [0, 0] (by decide +kernel)

/-- The values of a map are those of its entries. -/
theorem isField_of_get {fields : OrderedMap Characters Characters}
    (areFields : ∀ field ∈ fields.entries, IsField field) {key value : Characters}
    (found : fields.get key = some value) : ';' ∉ value :=
  (areFields _ (OrderedMap.get_eq_some.mp found)).valueOpen

/-- The command sets of a device ID are trimmed parts of one of its values. -/
theorem commandSets_of_fields {raw : Characters} {fields : OrderedMap Characters Characters}
    (areFields : ∀ field ∈ fields.entries, IsField field) :
    ∀ set ∈ (DeviceId.ofFields raw fields).commandSets,
      set ≠ [] ∧ trim set = set ∧ ',' ∉ set ∧ ';' ∉ set := by
  intro set member
  simp only [DeviceId.ofFields] at member
  split at member
  · next value found =>
      have closed : ';' ∉ value := by
        rcases Option.or_eq_some_iff.mp found with short | ⟨-, long⟩
        · exact isField_of_get areFields short
        · exact isField_of_get areFields long
      obtain ⟨trimmed, filled⟩ := List.mem_filter.mp member
      obtain ⟨piece, inside, rfl⟩ := List.mem_map.mp trimmed
      obtain ⟨noComma, parts⟩ := of_mem_splitOn inside
      exact ⟨by simpa using filled, trim_trim _, fun comma => noComma (mem_of_mem_trim comma),
        fun semicolon => closed (parts _ (mem_of_mem_trim semicolon))⟩
  · cases member

/-- A device ID whose fields are well formed: keys in upper case and values, trimmed and
not empty, of which the manufacturer, the model and the command sets are parts. -/
structure DeviceId.WellFormed (id : DeviceId) : Prop where
  filled : id.fields.entries ≠ []
  areFields : ∀ field ∈ id.fields.entries, IsField field
  named : id = .ofFields id.raw id.fields
  sets : ∀ set ∈ id.commandSets, set ≠ [] ∧ trim set = set ∧ ',' ∉ set ∧ ';' ∉ set

theorem wellFormed_ofFields (raw : Characters) {fields : OrderedMap Characters Characters}
    (filled : fields.entries ≠ []) (areFields : ∀ field ∈ fields.entries, IsField field) :
    (DeviceId.ofFields raw fields).WellFormed :=
  ⟨filled, areFields, rfl, commandSets_of_fields areFields⟩

theorem wellFormed_of_parsed {data : Bytes} {id : DeviceId}
    (parsed : parseDeviceId data = .ok id) : id.WellFormed := by
  obtain ⟨-, -, -, text, -, -, filled, rfl⟩ := parseDeviceId_eq_ok.mp parsed
  apply wellFormed_ofFields _ filled
  intro field member
  obtain ⟨piece, inside, read⟩ := List.mem_filterMap.mp (OrderedMap.mem_of_mem_collect member)
  exact deviceField_eq_some (of_mem_splitOn inside).1 read

/-- Whatever bytes are accepted as a device ID, it is well formed.  When its fields are
written and read again, NUL in front of the first key is lost, and nothing else is. -/
theorem accepted_device_id {data : Bytes} {id : DeviceId} (parsed : parseDeviceId data = .ok id) :
    id.WellFormed ∧
      ∀ trailing,
        (encodeDeviceId (renderFields id.fields.entries) ++ trailing).length ≤ maxDeviceIdBytes →
        (parseDeviceId (encodeDeviceId (renderFields id.fields.entries) ++ trailing) =
          if rereadFields id.fields.entries = [] then .error .malformed
          else .ok (.ofFields (trim (trimMatches '\x00' (renderFields id.fields.entries)))
            (OrderedMap.collect (rereadFields id.fields.entries)))) ∧
        ((renderFields id.fields.entries).head? ≠ some '\x00' →
          parseDeviceId (encodeDeviceId (renderFields id.fields.entries) ++ trailing) =
            .ok (.ofFields (renderFields id.fields.entries) id.fields)) := by
  have wellFormed := wellFormed_of_parsed parsed
  refine ⟨wellFormed, fun trailing fits => ⟨?_, fun plain => ?_⟩⟩
  · exact parseDeviceId_rendered wellFormed.filled wellFormed.areFields trailing fits
  · rw [parseDeviceId_renderFields wellFormed.filled wellFormed.areFields plain trailing fits,
      OrderedMap.collect_entries]

/-- A device ID with spaces, lower case, an empty part, a repeated key and NUL before a key. -/
def untidyText : Characters :=
  "mfg: Brother ;MDL:QL;;mdl : QL-820NWB;\x00note:x;cmd:PJL, ,RASTER;".toList

theorem accepted_device_id_untidy :
    ∃ id again, parseDeviceId (encodeDeviceId untidyText) = .ok id ∧ id.WellFormed ∧
      id.model = some "QL-820NWB".toList ∧
      id.commandSets = ["PJL".toList, "RASTER".toList] ∧
      id.fields.get "\x00NOTE".toList = some "x".toList ∧
      parseDeviceId (encodeDeviceId (renderFields id.fields.entries) ++ [0]) = .ok again ∧
      again.fields.get "NOTE".toList = some "x".toList ∧ again.model = id.model := by
  have small : (encodeDeviceId untidyText ++ []).length ≤ maxDeviceIdBytes := by decide +kernel
  have read := @parseDeviceId_encode untidyText [] small _ rfl (by decide +kernel)
  rw [List.append_nil, if_neg (by decide +kernel)] at read
  obtain ⟨wellFormed, reread⟩ := accepted_device_id read
  obtain ⟨same, -⟩ := reread [0] (by decide +kernel)
  rw [if_neg (by decide +kernel)] at same
  exact ⟨_, _, read, wellFormed, by decide +kernel, by decide +kernel, by decide +kernel, same,
    by decide +kernel, by decide +kernel⟩

end PrinterSdk.Discovery
