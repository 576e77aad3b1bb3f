import PrinterSdk.Importer.Convert
import PrinterSdk.Importer.FlattenNodes
import PrinterSdk.Label.Forest

/-!
# Imported elements

A document that is imported has an element for each of its nodes, with the id and the type of
the node.  Only the groups of elements are changed after the conversion.
-/

namespace PrinterSdk.Importer

open PrinterSdk.Data PrinterSdk.Label PrinterSdk.Label.Entries

/-- The elements of an imported document. -/
def importedElements (out : Json) : List Json := ((out.get "elements").bind Json.asArray).getD []

section

variable {x : Externals}

/-! ## Conversion -/

/-- The keys that the types of elements insert. -/
def typeKeys : List String :=
  ["text", "fontSize", "horizontalAlign", "verticalAlign", "overflow", "fontResource", "data",
    "errorCorrection", "strokeWidth", "fill", "resource", "symbology", "humanReadable",
    "children"]

/-- Embedded data of an element: the key of its resource, the data and the media type of data
that does not declare one. -/
structure Embedded where
  key : String
  data : String
  fallback : String

/-- The embedded data that an element carries. -/
def embedded (x : Externals) (e : Json) : Option Embedded :=
  if elementType e = "text" then
    ((e.get "fontData").bind Json.asStr).map fun data => ⟨"fontResource", data, "font/ttf"⟩
  else if elementType e = "image" then
    (imageData e).map fun data => ⟨"resource", data, "image/png"⟩
  else if elementType e = "svg" then
    (svgData e).map fun data => ⟨"resource", svgEncoded x data, "image/svg+xml"⟩
  else none

/-- What the type of an element inserts, and the resources afterwards. -/
structure Typed (x : Externals) (e : Json) (before after : List Resource) (fields : Entries) :
    Prop where
  keys : ∀ field ∈ fields, field.1 ∈ typeKeys
  carries : ∀ embed, embedded x e = some embed → ∃ id,
    addResource x before embed.data embed.fallback = .ok (id, after) ∧
      fields.getLast? = some (embed.key, .string id)
  plain : embedded x e = none → after = before
  group : elementType e = "group" →
    fields = [("children", ((e.get "children").or (e.get "elementIds")).getD (.array []))]

theorem keys_of_names {fields : Entries} (names : List String)
    (named : fields.map Prod.fst = names) (known : ∀ name ∈ names, name ∈ typeKeys) :
    ∀ field ∈ fields, field.1 ∈ typeKeys := by
  intro field member
  exact known field.1 (named ▸ List.mem_map_of_mem member)

theorem embedded_none {e : Json} (text : elementType e ≠ "text") (image : elementType e ≠ "image")
    (svg : elementType e ≠ "svg") : embedded x e = none := by
  rw [embedded, if_neg text, if_neg image, if_neg svg]

/-- Fields of an element without embedded data. -/
theorem Typed.bare {e : Json} {resources : List Resource} {fields : Entries}
    (keys : ∀ field ∈ fields, field.1 ∈ typeKeys) (none : embedded x e = none)
    (group : elementType e = "group" →
      fields = [("children", ((e.get "children").or (e.get "elementIds")).getD (.array []))]) :
    Typed x e resources resources fields where
  keys
  carries := by
    intro embed carried
    rw [none] at carried
    cases carried
  plain _ := rfl
  group

/-- Fields of an element whose embedded data were added to the resources. -/
theorem Typed.added {e : Json} {before after : List Resource} (fields : Entries)
    (embed : Embedded) {id : String} (keys : ∀ field ∈ fields ++ [(embed.key, .string id)], field.1 ∈ typeKeys)
    (carried : embedded x e = some embed)
    (added : addResource x before embed.data embed.fallback = .ok (id, after))
    (ungrouped : elementType e ≠ "group") :
    Typed x e before after (fields ++ [(embed.key, .string id)]) where
  keys
  carries := by
    intro other same
    rw [carried] at same
    cases same
    exact ⟨id, added, List.getLast?_concat⟩
  plain none := by
    rw [carried] at none
    cases none
  group isGroup := absurd isGroup ungrouped

theorem typeFields_typed {e : Json} {d : Float} {before after : List Resource} {fields : Entries}
    (made : typeFields x e d before = .ok (fields, after)) : Typed x e before after fields := by
  simp only [typeFields] at made
  split_ifs at made with text qr shape solid image svg barcode group
  · have ungrouped : elementType e ≠ "group" := by simp [text]
    split at made
    · next data found =>
        rw [except_bind_eq_ok] at made
        obtain ⟨⟨id, resources⟩, added, pushed⟩ := made
        cases pushed
        refine .added _ ⟨"fontResource", data, "font/ttf"⟩ (keys_of_names ["text", "fontSize",
          "horizontalAlign", "verticalAlign", "overflow", "fontResource"] rfl
          (by decide +kernel)) ?_ added ungrouped
        rw [embedded, if_pos text, found]
        rfl
    · next none =>
        cases made
        refine .bare (keys_of_names ["text", "fontSize", "horizontalAlign", "verticalAlign",
          "overflow"] rfl (by decide +kernel)) ?_ fun isGroup => absurd isGroup ungrouped
        rw [embedded, if_pos text, none]
        rfl
  · cases made
    exact .bare (keys_of_names ["data", "errorCorrection"] rfl (by decide +kernel))
      (embedded_none text (by simp [qr]) (by simp [qr]))
      fun isGroup => absurd isGroup (by simp [qr])
  · cases made
    rcases shape with shape | shape | shape | shape <;>
      exact .bare (keys_of_names ["strokeWidth", "fill"] rfl (by decide +kernel))
        (embedded_none text (by simp [shape]) (by simp [shape]))
        fun isGroup => absurd isGroup (by simp [shape])
  · cases made
    have line : elementType e = "line" := not_not.mp solid
    exact .bare (keys_of_names ["strokeWidth"] rfl (by decide +kernel))
      (embedded_none text (by simp [line]) (by simp [line]))
      fun isGroup => absurd isGroup (by simp [line])
  · simp only [except_bind_eq_ok, okOr_eq_ok] at made
    obtain ⟨data, found, ⟨id, resources⟩, added, pushed⟩ := made
    cases pushed
    refine .added [] ⟨"resource", data, "image/png"⟩
      (keys_of_names ["resource"] rfl (by decide +kernel)) ?_ added (by simp [image])
    rw [embedded, if_neg text, if_pos image, found]
    rfl
  · simp only [except_bind_eq_ok, okOr_eq_ok] at made
    obtain ⟨data, found, ⟨id, resources⟩, added, pushed⟩ := made
    cases pushed
    refine .added [] ⟨"resource", svgEncoded x data, "image/svg+xml"⟩
      (keys_of_names ["resource"] rfl (by decide +kernel)) ?_ added (by simp [svg])
    rw [embedded, if_neg text, if_neg image, if_pos svg, found]
    rfl
  · cases made
    exact .bare (keys_of_names ["data", "symbology", "humanReadable"] rfl (by decide +kernel))
      (embedded_none text image svg) fun isGroup => absurd isGroup (by simp [barcode])
  · cases made
    exact .bare (keys_of_names ["children"] rfl (by decide +kernel)) (embedded_none text image svg)
      fun _ => rfl

/-- The keys of all elements are not changed by their types. -/
theorem element_get {e converted : Json} {z : Nat} {d : Float} {before after : List Resource}
    (made : element x e z d before = .ok (converted, after)) {key : String}
    (common : key ∉ typeKeys) :
    converted.get key = field key (commonFields x e z d) := by
  rw [element, except_bind_eq_ok] at made
  obtain ⟨⟨fields, resources⟩, typed, isConverted⟩ := made
  cases isConverted
  apply field_setFields_other
  intro field member same
  exact common (same ▸ (typeFields_typed typed).keys field member)

/-- An element is the conversion of a flattened one. -/
def ConvertedFrom (x : Externals) (e converted : Json) : Prop :=
  ∃ z d before after, element x e z d before = .ok (converted, after)

theorem convertFrom_converted {d : Float} {z : Nat} {legacy done elements : List Json}
    {before after : List Resource}
    (made : convertFrom x d z legacy done before = .ok (elements, after)) :
    ∃ converted, elements = done ++ converted ∧
      List.Forall₂ (ConvertedFrom x) legacy converted := by
  induction legacy generalizing z done before with
  | nil =>
      cases made
      exact ⟨[], (List.append_nil _).symm, .nil⟩
  | cons e rest ih =>
      rw [convertFrom, except_bind_eq_ok] at made
      obtain ⟨⟨first, between⟩, here, later⟩ := made
      obtain ⟨converted, isElements, others⟩ := ih later
      refine ⟨first :: converted, ?_, .cons ⟨z, d, before, between, here⟩ others⟩
      rw [isElements, List.append_assoc]
      rfl

end

/-! ## Groups -/

/-- An element with another group. -/
def Regrouped (before after : Json) : Prop :=
  ∀ key, key ≠ "groupId" → after.get key = before.get key

theorem regrouped_setIndex (group e : Json) : Regrouped e (setIndex "groupId" group e) := by
  intro key different
  cases e with
  | object entries => exact field_setField_other different
  | _ => rfl

theorem regrouped_joinGroup (member group : String) (elements : List Json) :
    List.Forall₂ Regrouped elements (joinGroup member group elements) := by
  have unchanged (e : Json) : Regrouped e e := fun _ _ => rfl
  induction elements with
  | nil => exact .nil
  | cons e rest ih =>
      rw [joinGroup]
      split
      · exact .cons (regrouped_setIndex _ e) (List.forall₂_same.mpr fun e _ => unchanged e)
      · exact .cons (unchanged e) ih

theorem forall₂_comp {α β γ : Type} {first : α → β → Prop} {second : β → γ → Prop}
    {as : List α} {bs : List β} {cs : List γ} (one : List.Forall₂ first as bs)
    (two : List.Forall₂ second bs cs) :
    List.Forall₂ (fun a c => ∃ b, first a b ∧ second b c) as cs := by
  induction one generalizing cs with
  | nil =>
      cases two
      exact .nil
  | cons head _ ih =>
      cases two with
      | cons head' tail' => exact .cons ⟨_, head, head'⟩ (ih tail')

/-- Joining elements to groups changes only their groups. -/
theorem regrouped_joinGroups (elements : List Json) (members : List (String × String)) :
    List.Forall₂ Regrouped elements (joinGroups elements members) := by
  induction members generalizing elements with
  | nil => exact List.forall₂_same.mpr fun _ _ _ _ => rfl
  | cons pair rest ih =>
      apply (forall₂_comp (regrouped_joinGroup pair.1 pair.2 elements) (ih _)).imp
      rintro e joined ⟨between, first, second⟩ key different
      exact (second key different).trans (first key different)

/-! ## Documents -/

/-- What the import of a document consists of. -/
structure ImportSteps (x : Externals) (v out : Json) where
  dpmm : Float
  nodes : List Node
  converted : List Json
  resources : List Resource
  enumerates : Enumerates Node.path (NodeOf readMembers v) nodes
  conversion :
    convertFrom x dpmm 0 (nodes.map Node.flattened) [] [] = .ok (converted, resources)
  elements : importedElements out = joinGroups converted (memberships converted)
  stored : out.get "resources" = some (.array (resources.map resourceJson))

variable {x : Externals} {v out : Json}

theorem importSteps (imported : importDocument x v = .ok out) : Nonempty (ImportSteps x v out) := by
  simp only [importDocument, except_bind_eq_ok] at imported
  obtain ⟨-, -, width, -, height, -, legacy, flat, ⟨converted, resources⟩, conversion, made⟩ :=
    imported
  obtain ⟨nodes, enumerates, isLegacy⟩ := flattenFrom_nodes flat
  cases made
  exact ⟨⟨_, nodes, converted, resources, enumerates, isLegacy ▸ conversion, rfl, rfl⟩⟩

/-- An imported element is the conversion of a node, with the id and the type of the node. -/
structure Represents (x : Externals) (node : Node) (e : Json) : Prop where
  id : e.get "id" = some (.string node.id)
  type : e.get "type" = some (.string (typeName (canonicalType (rawType node.entries))))
  content : ∃ converted, ConvertedFrom x node.flattened converted ∧ Regrouped converted e

theorem Node.flattened_get (node : Node) {key : String} (notId : key ≠ "id")
    (notChildren : key ≠ "children") (notElements : key ≠ "elements") :
    node.flattened.get key = field key node.entries := by
  rw [Node.flattened]
  split
  · change field key (dropField _ (setField _ _ (setField _ _ _))) = _
    rw [field_dropField_other notElements, field_setField_other notChildren,
      field_setField_other notId]
  · exact field_setField_other notId

theorem Node.flattened_id (node : Node) : node.flattened.get "id" = some (.string node.id) := by
  rw [Node.flattened]
  split
  · change field "id" (dropField _ (setField _ _ (setField _ _ _))) = _
    rw [field_dropField_other (by decide), field_setField_other (by decide), field_setField_same]
  · exact field_setField_same

theorem Node.elementType_flattened (node : Node) :
    elementType node.flattened = canonicalType (rawType node.entries) := by
  rw [elementType, node.flattened_get (by decide) (by decide) (by decide), rawType]

theorem ConvertedFrom.represents {node : Node} {converted : Json}
    (isConverted : ConvertedFrom x node.flattened converted) : Represents x node converted := by
  obtain ⟨z, d, before, after, made⟩ := isConverted
  refine ⟨?_, ?_, converted, ⟨z, d, before, after, made⟩, fun _ _ => rfl⟩
  · rw [element_get made (by decide)]
    change some (Json.string (((node.flattened.get "id").bind Json.asStr).getD _)) = _
    rw [node.flattened_id]
    rfl
  · rw [element_get made (by decide)]
    change some (Json.string (typeName (elementType node.flattened))) = _
    rw [node.elementType_flattened]

theorem Represents.regrouped {node : Node} {e joined : Json} (represents : Represents x node e)
    (regrouped : Regrouped e joined) : Represents x node joined := by
  obtain ⟨isId, isType, converted, isConverted, before⟩ := represents
  refine ⟨(regrouped _ (by decide)).trans isId, (regrouped _ (by decide)).trans isType, converted,
    isConverted, ?_⟩
  intro key different
  exact (regrouped key different).trans (before key different)

/-- The elements that are converted are those of the nodes. -/
theorem ImportSteps.represents_converted (steps : ImportSteps x v out) :
    List.Forall₂ (Represents x) steps.nodes steps.converted := by
  obtain ⟨converted, isConverted, own⟩ := convertFrom_converted steps.conversion
  rw [isConverted, List.nil_append]
  apply (List.forall₂_map_left_iff.mp own).imp
  intro node e isConverted
  exact isConverted.represents

/-- The elements of an imported document are those of its nodes. -/
theorem ImportSteps.represents (steps : ImportSteps x v out) :
    List.Forall₂ (Represents x) steps.nodes (importedElements out) := by
  rw [steps.elements]
  have both := forall₂_comp steps.represents_converted
    (regrouped_joinGroups steps.converted (memberships steps.converted))
  apply both.imp
  rintro node e ⟨between, represents, regrouped⟩
  exact represents.regrouped regrouped

theorem importDocument_of_importV3 {input : String} (parsed : x.fromStr input = .ok v)
    (imported : importV3 x input = .ok out) : importDocument x v = .ok out := by
  rw [importV3, parsed] at imported
  exact imported

/-! ## Sample documents -/

/-- A document with some elements. -/
def sampleDocument (elements : List Json) : Json :=
  .object [("version", .number "3"), ("widthMm", .number "3"), ("heightMm", .number "3"),
    ("elements", .array elements)]

@[simp] theorem legacyElements_sample (elements : List Json) :
    legacyElements (sampleDocument elements) = elements := rfl

/-- What the other packages do on an input whose numbers are all `3` and whose payloads are all
three zero octets. -/
def sampleExternals (input : String) (elements : List Json) : Externals where
  fromStr text :=
    if text = input then .ok (sampleDocument elements) else .error "EOF while parsing a value"
  asU64 text := if text = "3" then some 3 else none
  asI64 text := if text = "3" then some 3 else none
  asF64 text := if text = "3" then some 3.0 else none
  ofF64 _ := .number "8.0"
  base64 := logoBase64
  encode bytes := if bytes = [0, 0, 0] then "AAAA" else ""
  sha256 := logoSha256

theorem fromStr_sample (input : String) (elements : List Json) :
    (sampleExternals input elements).fromStr input = .ok (sampleDocument elements) := if_pos rfl

theorem importV3_sample {input : String} {elements legacy : List Json}
    (flat : flattenFrom 0 elements [] = .ok legacy)
    (converts : (convertFrom (sampleExternals input elements) 8.0 0 legacy [] []).isOk) :
    ∃ out, importV3 (sampleExternals input elements) input = .ok out := by
  obtain ⟨⟨converted, resources⟩, converts⟩ := exists_of_isOk converts
  have dpmm : (f64Field (sampleExternals input elements) (sampleDocument elements)
      "dotsPerMm").getD 8.0 = 8.0 := rfl
  refine ⟨canonicalDocument (sampleExternals input elements) (sampleDocument elements) 3.0 3.0 8.0
    (joinGroups converted (memberships converted)) resources, ?_⟩
  rw [importV3, fromStr_sample]
  simp only [importDocument, legacyElements_sample, flat, dpmm]
  change (convertFrom _ _ _ _ _ _ >>= _) = _
  rw [converts]
  rfl

/-! A document of two elements that are no groups. -/

section

variable {first second : Entries} (leaf : rawType first ≠ "group") (also : rawType second ≠ "group")

include leaf also

theorem nodeOf_leaves {members : Entries → Option (List Json)} {node : Node} :
    NodeOf members (sampleDocument [.object first, .object second]) node ↔
      node = ⟨[0], first, "legacy-0"⟩ ∨ node = ⟨[1], second, "legacy-1"⟩ := by
  simp only [NodeOf, legacyElements_sample, nodeAmong_cons, nodeAmong_nil, nodeIn_object, leaf,
    also, false_and, false_or, exists_eq_left, or_false]
  rfl

theorem flattenFrom_leaves :
    flattenFrom 0 [.object first, .object second] [] =
      .ok ([⟨[0], first, "legacy-0"⟩, ⟨[1], second, "legacy-1"⟩].map Node.flattened) := by
  simp only [flattenFrom, flattenElement_leaf leaf, flattenElement_leaf also]
  rfl

end

end PrinterSdk.Importer
