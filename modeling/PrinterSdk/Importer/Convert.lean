import PrinterSdk.Data.Digest
import PrinterSdk.Importer.Flatten
import PrinterSdk.Label.Validate

/-!
# Import of v3 documents

Every legacy element is converted to an element of the canonical document.  Data that elements
carry becomes a resource, which elements with the same data share, and groups name themselves
in their members.
-/

namespace PrinterSdk.Importer

open PrinterSdk.Data PrinterSdk.Label PrinterSdk.Label.Entries

/-- What other packages do: the parser and the numbers of `serde_json`, base64 and SHA-256. -/
structure Externals where
  fromStr : String → Except String Json
  asU64 : String → Option UInt64
  asI64 : String → Option Int64
  asF64 : String → Option Float
  ofF64 : Float → Json
  base64 : Base64
  encode : Bytes → String
  sha256 : Sha256

/-! ## Fields -/

/-- `json!` of an integer. -/
def integer (value : Int64) : Json := .number (toString value.toInt)

section

variable (x : Externals)

/-- `Value::as_f64` of a field. -/
def f64Field (value : Json) (key : String) : Option Float :=
  ((value.get key).bind Json.asNumber).bind x.asF64

/-- `mm`. -/
def mm (value : Float) : Int64 := (value * 1000.0).round.toInt64

/-- `px`. -/
def px (value : Json) (key : String) (dpmm : Float) : Int64 :=
  mm ((f64Field x value key).getD 0.0 / dpmm)

/-- `num`, for keys that are paths of object keys. -/
def num (v : Json) : List (List String) → Except ImportError Float
  | [] => .error .dimensions
  | path :: rest =>
      match (path.foldl Json.index v).asNumber.bind x.asF64 with
      | some number => .ok number
      | none => num v rest

end

/-- `align`. -/
def align (text : String) : String :=
  let lower := toAsciiLowercase text
  if lower = "centre" ∨ lower = "middle" then "center"
  else if lower = "end" then "right"
  else if text = "center" ∨ text = "right" then text
  else "left"

/-- `valign`. -/
def valign (e : Json) : String :=
  let text := (((e.get "verticalAlign").or (e.get "valign")).bind Json.asStr).getD "top"
  let lower := toAsciiLowercase text
  if lower = "center" ∨ lower = "centre" then "middle"
  else if lower = "bottom" ∨ lower = "end" then "bottom"
  else "top"

/-! ## Resources -/

/-- The media type and the payload of embedded data. -/
def splitData (data fallbackMedia : String) : Option (String × String) :=
  match data.toList.dropPrefix? "data:".toList with
  | some rest => (splitOnce ',' rest).map fun parts =>
      (.ofList (parts.1.takeWhile (· ≠ ';')), .ofList parts.2)
  | none => some (fallbackMedia, data)

/-- `add_resource`. -/
def addResource (x : Externals) (resources : List Resource) (data fallbackMedia : String) :
    Except ImportError (String × List Resource) := do
  let (media, payload) ← okOr (splitData data fallbackMedia) .resource
  let bytes ← okOr (x.base64 (asBytes payload)) .resource
  let hash := hexBytes (x.sha256 bytes).1
  match resources.find? (·.sha256 = hash) with
  | some existing => return (existing.id, resources)
  | none =>
      let id := "res-" ++ String.ofList (hash.toList.take 16)
      return (id, resources ++ [⟨id, media, hash, x.encode bytes⟩])

/-! ## Elements -/

/-- The canonical name of a type. -/
def canonicalType (raw : String) : String :=
  if raw = "qr" ∨ raw = "qrcode" then "qr"
  else if raw = "rect" then "rectangle"
  else if raw = "bar-code" then "barcode"
  else if raw = "img" then "image"
  else raw

/-- The name that a type has in an imported element. -/
def typeName (ty : String) : String := if ty = "qr" then "qr-code" else ty

/-- The type of a legacy element, as `element` reads it. -/
def elementType (e : Json) : String :=
  canonicalType (toAsciiLowercase (((e.get "type").bind Json.asStr).getD ""))

section

variable (x : Externals)

/-- The fields that all elements have. -/
def commonFields (e : Json) (z : Nat) (d : Float) : Entries :=
  let rotation := (f64Field x e "rotation").getD 0.0
  let zOrder := (((e.get "zOrder").bind Json.asNumber).bind x.asI64).getD (Int64.ofNat z)
  [("id", .string (((e.get "id").bind Json.asStr).getD (topFallback z))),
    ("transform", .object [
      ("x", integer (px x e "x" d)),
      ("y", integer (px x e "y" d)),
      ("width", integer (max (px x e "width" d) 1)),
      ("height", integer (max (px x e "height" d) 1)),
      ("rotationMillidegrees", integer (rotation * 1000.0).round.toInt64)]),
    ("zOrder", integer zOrder),
    ("visible", .boolean (((e.get "visible").bind Json.asBool).getD true)),
    ("locked", .boolean (((e.get "locked").bind Json.asBool).getD false)),
    ("type", .string (typeName (elementType e)))]

/-- The data of an image. -/
def imageData (e : Json) : Option String :=
  ((e.get "imageData").or (e.get "src")).bind Json.asStr

/-- The data of a vector image, which may be its text. -/
def svgData (e : Json) : Option String :=
  ((e.get "svgData").or (e.get "svg")).bind Json.asStr

/-- The text of a vector image as embedded data. -/
def svgEncoded (data : String) : String :=
  if (trimStart data.toList).head? = some '<' then
    "data:image/svg+xml;base64," ++ x.encode (asBytes data)
  else data

/-- The symbology of a barcode. -/
def symbology (e : Json) : String :=
  let raw := (((e.get "symbology").or (e.get "format")).bind Json.asStr).getD "code128"
  let plain := (toAsciiLowercase raw).toList.filter fun character =>
    character ≠ ' ' ∧ character ≠ '-'
  if plain = "ean13".toList then "ean13"
  else if plain = "upca".toList then "upc-a"
  else if plain = "code39".toList then "code39"
  else "code128"

/-- The fields that `element` inserts for the type of the element, in their order. -/
def typeFields (e : Json) (d : Float) (resources : List Resource) :
    Except ImportError (Entries × List Resource) := do
  let ty := elementType e
  if ty = "text" then
    let fields : Entries := [
      ("text", (e.get "text").getD (.string "")),
      ("fontSize", integer (px x e "fontSize" d)),
      ("horizontalAlign", .string (align (((e.get "align").bind Json.asStr).getD "left"))),
      ("verticalAlign", .string (valign e)),
      ("overflow", .string "no-wrap")]
    match (e.get "fontData").bind Json.asStr with
    | some data => do
        let (id, resources) ← addResource x resources data "font/ttf"
        return (fields ++ [("fontResource", .string id)], resources)
    | none => return (fields, resources)
  else if ty = "qr" then
    return ([("data", (e.get "qrData").getD (.string "")), ("errorCorrection", .string "M")],
      resources)
  else if ty = "rectangle" ∨ ty = "ellipse" ∨ ty = "triangle" ∨ ty = "line" then
    return (("strokeWidth", integer 125) ::
      if ty ≠ "line" then [("fill", .boolean false)] else [], resources)
  else if ty = "image" then
    let data ← okOr (imageData e) .resource
    let (id, resources) ← addResource x resources data "image/png"
    return ([("resource", .string id)], resources)
  else if ty = "svg" then
    let data ← okOr (svgData e) .resource
    let (id, resources) ← addResource x resources (svgEncoded x data) "image/svg+xml"
    return ([("resource", .string id)], resources)
  else if ty = "barcode" then
    return ([
      ("data",
        (((e.get "barcodeData").or (e.get "data")).or (e.get "text")).getD (.string "")),
      ("symbology", .string (symbology e)),
      ("humanReadable", .boolean (((e.get "humanReadable").bind Json.asBool).getD false))],
      resources)
  else if ty = "group" then
    return ([("children", ((e.get "children").or (e.get "elementIds")).getD (.array []))],
      resources)
  else .error (.element ty)

/-- `element`. -/
def element (e : Json) (z : Nat) (d : Float) (resources : List Resource) :
    Except ImportError (Json × List Resource) := do
  let (fields, resources) ← typeFields x e d resources
  return (.object (setFields fields (commonFields x e z d)), resources)

/-- The second loop of `import_v3`, from an index on. -/
def convertFrom (d : Float) : Nat → List Json → List Json → List Resource →
    Except ImportError (List Json × List Resource)
  | _, [], elements, resources => .ok (elements, resources)
  | z, e :: rest, elements, resources => do
      let (converted, resources) ← element x e z d resources
      convertFrom d (z + 1) rest (elements ++ [converted]) resources

end

/-! ## Groups -/

/-- Whether a value is a text. -/
def isText (value : Json) (text : String) : Bool := value.asStr = some text

/-- The members of an imported group, each with the id of the group. -/
def groupMembers (group : Json) : List (String × String) :=
  let id := ((group.index "id").asStr).getD ""
  (((group.index "children").asArray).getD []).filterMap fun child =>
    child.asStr.map fun member => (member, id)

/-- The `memberships` of `import_v3`. -/
def memberships (elements : List Json) : List (String × String) :=
  (elements.filter fun e => isText (e.index "type") "group").flatMap groupMembers

/-- `element[key] = value` on an object. -/
def setIndex (key : String) (value : Json) : Json → Json
  | .object entries => .object (setField key value entries)
  | other => other

/-- The first element with the id gets the group. -/
def joinGroup (member group : String) : List Json → List Json
  | [] => []
  | e :: rest =>
      if isText (e.index "id") member then setIndex "groupId" (.string group) e :: rest
      else e :: joinGroup member group rest

/-- The last loop of `import_v3`. -/
def joinGroups (elements : List Json) (members : List (String × String)) : List Json :=
  members.foldl (fun elements pair => joinGroup pair.1 pair.2 elements) elements

/-! ## Documents -/

/-- A resource of the document. -/
def resourceJson (resource : Resource) : Json :=
  .object [("id", .string resource.id), ("mediaType", .string resource.mediaType),
    ("sha256", .string resource.sha256), ("dataBase64", .string resource.dataBase64)]

/-- `fields`. -/
def importFields (v : Json) : Json :=
  .array ((((v.get "fields").bind Json.asArray).getD []).filterMap fun field => do
    let key ← (field.get "key").bind Json.asStr
    let label := ((field.get "label").bind Json.asStr).getD key
    return .object [("key", .string key), ("label", .string label)])

/-- The medium of an imported document. -/
def importMedia (v : Json) (width height dpmm : Float) : Json :=
  let round := ((v.get "round").bind Json.asBool).getD false
  .object [("width", integer (mm width)), ("height", integer (mm height)),
    ("unit", .string "micrometre"),
    ("dpi", .number (toString (dpmm * 25.4).round.toUInt64.toNat)),
    ("orientation", .string "portrait"),
    ("printableBounds", .object [("x", integer 0), ("y", integer 0),
      ("width", integer (mm width)), ("height", integer (mm height))]),
    ("shape", .string (if round then "round" else "rectangle")),
    ("continuous", .boolean (((v.get "continuous").bind Json.asBool).getD false)),
    ("zones", .array [])]

/-- The document that `import_v3` returns. -/
def canonicalDocument (x : Externals) (v : Json) (width height dpmm : Float)
    (elements : List Json) (resources : List Resource) : Json :=
  .object [("version", integer 4),
    ("name", .string (((v.get "name").bind Json.asStr).getD "Imported v3")),
    ("media", importMedia v width height dpmm),
    ("coordinateSystem", .object [("unit", .string "micrometre"), ("origin", .string "top-left"),
      ("rounding", .string "half-away-from-zero")]),
    ("elements", .array elements),
    ("resources", .array (resources.map resourceJson)),
    ("fields", importFields v),
    ("extensions", .object [("makersbrain:legacy-v3", .object [("dotsPerMm", x.ofF64 dpmm)])])]

/-- `import_v3`, of a parsed document. -/
def importDocument (x : Externals) (v : Json) : Except ImportError Json := do
  refuseIf (((v.get "version").bind Json.asNumber).bind x.asU64 ≠ some 3) .version
  let width ← num x v [["widthMm"], ["labelSize", "width"]]
  let height ← num x v [["heightMm"], ["labelSize", "height"]]
  let dpmm := (f64Field x v "dotsPerMm").getD 8.0
  let legacy ← flattenFrom 0 (legacyElements v) []
  let (elements, resources) ← convertFrom x dpmm 0 legacy [] []
  return canonicalDocument x v width height dpmm (joinGroups elements (memberships elements))
    resources

/-- `import_v3`. -/
def importV3 (x : Externals) (input : String) : Except ImportError Json :=
  match x.fromStr input with
  | .ok v => importDocument x v
  | .error message => .error (.json message)

end PrinterSdk.Importer
