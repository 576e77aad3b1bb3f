import PrinterSdk.Data.Chain
import PrinterSdk.Data.Characters
import PrinterSdk.Data.Digest
import PrinterSdk.Data.Machine
import PrinterSdk.Label.Document

/-!
# Validation of documents

Validation checks counts and sizes first.  All other checks are made together, and
their errors are collected in the order of the checks.
-/

namespace PrinterSdk.Label

open PrinterSdk.Data

/-- `ValidationError`. -/
inductive ValidationError where
  | version
  | name
  | media
  | duplicateId (id : String)
  | missingResource (id : String)
  | resourceHash (id : String)
  | resourceEncoding (id : String)
  | geometry (id : String)
  | extensionNamespace (key : String)
  | zone (id : String)
  | reference (message : String)
  | cycle (message : String)
  | resourceMedia (id : String)
  | element (id : String)
  | limit (what : String)
  deriving DecidableEq, Repr

/-- The texts of the errors. -/
def ValidationError.text : ValidationError → String
  | .version => "document version must be 4"
  | .name => "document name must not be empty"
  | .media => "media dimensions, DPI and printable bounds must be positive and contained"
  | .duplicateId id => "duplicate or empty identifier: " ++ id
  | .missingResource id => "missing resource: " ++ id
  | .resourceHash id => "resource hash mismatch: " ++ id
  | .resourceEncoding id => "invalid resource encoding: " ++ id
  | .geometry id => "element geometry must be positive: " ++ id
  | .extensionNamespace key => "extension key must be namespaced: " ++ key
  | .zone id => "invalid zone: " ++ id
  | .reference message => "invalid group/reference: " ++ message
  | .cycle message => "group or zone cycle: " ++ message
  | .resourceMedia id => "resource has incompatible media type: " ++ id
  | .element id => "invalid element property: " ++ id
  | .limit what => "document exceeds processing limit: " ++ what

/-- `if failed { e.push(error) }`. -/
def failIf (failed : Prop) [Decidable failed] (error : ValidationError) : List ValidationError :=
  if failed then [error] else []

/-! ## Identifiers -/

/-- `id.is_empty() || !ids.insert(id)`: the identifier cannot be used once more. -/
def unusable (ids : List String) (id : String) : Prop := id = "" ∨ id ∈ ids

instance (ids : List String) (id : String) : Decidable (unusable ids id) :=
  inferInstanceAs (Decidable (_ ∨ _))

/-- The identifiers after such an insertion. -/
def register (ids : List String) (id : String) : List String :=
  if unusable ids id then ids else id :: ids

/-- A loop over items with identifiers, from the identifiers in use. -/
def scan {α : Type} (idOf : α → String) (duplicate : String → ValidationError)
    (own : α → List ValidationError) : List String → List α → List ValidationError
  | _, [] => []
  | ids, item :: rest =>
      failIf (unusable ids (idOf item)) (duplicate (idOf item)) ++ own item ++
        scan idOf duplicate own (register ids (idOf item)) rest

/-! ## Resources -/

/-- `base64_payload`. -/
def base64Payload (data : String) : Bytes :=
  if startsWith (asBytes data) (asBytes "data:") then
    match splitOnce 0x2c ((asBytes data).drop 5) with
    | some (_, payload) => payload
    | none => asBytes data
  else asBytes data

/-- `estimated_decoded_len` of a text of that many bytes. -/
def estimatedDecodedLen (length : Nat) : Option Nat :=
  (checkedAdd length 3).bind fun padded => checkedMul (padded / 4) 3

/-- `ResourceDecodeError`. -/
inductive ResourceDecodeError where
  | encodedTooLarge
  | decodedTooLarge
  | invalid
  deriving DecidableEq, Repr

/-- The base64 decoder `general_purpose::STANDARD`. -/
abbrev Base64 := Bytes → Option Bytes

section

variable (base64 : Base64) (sha256 : Sha256) (limits : ProcessingLimits)

/-- `Resource::decoded_bytes_with_limits`. -/
def decodedBytesWithLimits (resource : Resource) : Except ResourceDecodeError Bytes :=
  if (asBytes resource.dataBase64).length > limits.maxResourceBytes then
    .error .encodedTooLarge
  else
    match estimatedDecodedLen (base64Payload resource.dataBase64).length with
    | none => .error .decodedTooLarge
    | some estimated =>
        if estimated > limits.maxDecodedResourceBytes then .error .decodedTooLarge
        else
          match base64 (base64Payload resource.dataBase64) with
          | none => .error .invalid
          | some decoded =>
              if decoded.length > limits.maxDecodedResourceBytes then .error .decodedTooLarge
              else .ok decoded

/-- The running totals of encoded and decoded bytes, with the errors pushed so far; the
loop breaks on an overflow. -/
def sizeLoop : Nat → Nat → List Resource → Nat × Nat × List ValidationError
  | totalEncoded, totalDecoded, [] => (totalEncoded, totalDecoded, [])
  | totalEncoded, totalDecoded, resource :: rest =>
      let encoded := (asBytes resource.dataBase64).length
      match checkedAdd totalEncoded encoded with
      | none => (totalEncoded, totalDecoded, [.limit "total encoded resource bytes"])
      | some allEncoded =>
          match estimatedDecodedLen (base64Payload resource.dataBase64).length with
          | none => (allEncoded, totalDecoded, [.limit "total decoded resource bytes"])
          | some decoded =>
              match checkedAdd totalDecoded decoded with
              | none => (allEncoded, totalDecoded, [.limit "total decoded resource bytes"])
              | some allDecoded =>
                  let errors := failIf (encoded > limits.maxResourceBytes)
                      (.limit "encoded resource bytes") ++
                    failIf (decoded > limits.maxDecodedResourceBytes)
                      (.limit "decoded resource bytes")
                  let later := sizeLoop allEncoded allDecoded rest
                  (later.1, later.2.1, errors ++ later.2.2)

/-- The errors of the sizes of all resources. -/
def sizeErrors (document : Document) : List ValidationError :=
  let sizes := sizeLoop limits 0 0 document.resources
  sizes.2.2 ++
    failIf (sizes.1 > limits.maxOutputBytes) (.limit "total encoded resource bytes") ++
    failIf (sizes.2.1 > limits.maxOutputBytes) (.limit "total decoded resource bytes")

/-- The errors of the numbers of elements and resources. -/
def countErrors (document : Document) : List ValidationError :=
  failIf (document.elements.length > limits.maxElements) (.limit "elements") ++
    failIf (document.resources.length > limits.maxResources) (.limit "resources")

/-- A lower-case hexadecimal digit. -/
def isHexDigit (byte : UInt8) : Bool :=
  (0x30 ≤ byte && byte ≤ 0x39) || (0x61 ≤ byte && byte ≤ 0x66)

/-- The errors of the content of a resource. -/
def contentErrors (resource : Resource) : List ValidationError :=
  failIf ((asBytes resource.sha256).length ≠ 64 ∨
      (asBytes resource.sha256).all isHexDigit = false) (.resourceHash resource.id) ++
    match decodedBytesWithLimits base64 limits resource with
    | .ok bytes =>
        failIf (hexBytes (sha256 bytes).1 ≠ resource.sha256) (.resourceHash resource.id)
    | .error .invalid => [.resourceEncoding resource.id]
    | .error .encodedTooLarge => [.limit "encoded resource bytes"]
    | .error .decodedTooLarge => [.limit "decoded resource bytes"]

/-- The loop over the resources. -/
def resourceErrors (ids : List String) (resources : List Resource) : List ValidationError :=
  scan Resource.id .duplicateId (contentErrors base64 sha256 limits) ids resources

end

/-! ## Media and zones -/

/-- `checked_add` on `i64`. -/
def checkedAdd64 (left right : Int64) : Option Int64 :=
  if -2 ^ 63 ≤ left.toInt + right.toInt ∧ left.toInt + right.toInt < 2 ^ 63 then
    some (left + right)
  else none

/-- `bounds_fit`. -/
def boundsFit (bounds : Bounds) (width height : Int64) : Bool :=
  ((checkedAdd64 bounds.x bounds.width).any fun right => decide (right ≤ width)) &&
    (checkedAdd64 bounds.y bounds.height).any fun bottom => decide (bottom ≤ height)

/-- Bounds that are empty, or do not lie on the medium. -/
def misplaced (bounds : Bounds) (media : Media) : Prop :=
  bounds.width ≤ 0 ∨ bounds.height ≤ 0 ∨ bounds.x < 0 ∨ bounds.y < 0 ∨
    boundsFit bounds media.width media.height = false

instance (bounds : Bounds) (media : Media) : Decidable (misplaced bounds media) :=
  inferInstanceAs (Decidable (_ ∨ _))

/-- The errors of version, name and media. -/
def headErrors (document : Document) : List ValidationError :=
  failIf (document.version ≠ 4) .version ++
    failIf (document.name = "") .name ++
    failIf (document.media.width ≤ 0 ∨ document.media.height ≤ 0 ∨ document.media.dpi = 0 ∨
      misplaced document.media.printableBounds document.media) .media

/-- The first loop over the zones. -/
def zoneErrors (media : Media) (ids : List String) (zones : List Zone) : List ValidationError :=
  scan Zone.id .zone (fun zone => failIf (misplaced zone.bounds media) (.zone zone.id)) ids zones

/-- The identifiers of zones that were inserted: all that are not empty. -/
def zoneIds (zones : List Zone) : List String :=
  (zones.map Zone.id).filter fun id => id ≠ ""

/-- The errors of clones of zones that do not exist. -/
def cloneErrors (zones : List Zone) : List ValidationError :=
  zones.flatMap fun zone =>
    match zone.cloneOf with
    | none => []
    | some parent => failIf (parent ∉ zoneIds zones)
        (.reference ("zone " ++ zone.id ++ " clones missing " ++ parent))

/-- What the zone found under an identifier is a clone of. -/
def cloneOf (zones : List Zone) (id : String) : Option String :=
  (zones.find? fun zone => zone.id = id).bind Zone.cloneOf

/-- The errors of zones that are clones of themselves.  A search visits no more than
the zones, the value after the last one, and the end. -/
def zoneCycleErrors (zones : List Zone) : List ValidationError :=
  zones.flatMap fun zone =>
    match Chain.findRepeat (cloneOf zones) (zones.length + 2) [] (some zone.id) with
    | none => []
    | some id => [.cycle ("zone " ++ id)]

/-! ## Elements -/

/-- The first element with an identifier. -/
def findElement (elements : List Element) (id : String) : Option Element :=
  elements.find? fun element => element.id = id

/-- `element_ids`. -/
def elementIds (elements : List Element) : List String := elements.map Element.id

/-- `group_ids`. -/
def groupIds (elements : List Element) : List String :=
  (elements.filter fun element => element.children.isSome).map Element.id

/-- `resource_map.get`: of resources with one identifier the last one is kept. -/
def findResource (resources : List Resource) (id : String) : Option Resource :=
  resources.reverse.find? fun resource => resource.id = id

/-- The errors of resources that an element uses and that do not exist. -/
def missingResourceErrors (document : Document) (element : Element) : List ValidationError :=
  element.resourceIds.flatMap fun id =>
    failIf (id ∉ document.resources.map Resource.id) (.missingResource id)

/-- The errors of the group that an element names. -/
def parentErrors (document : Document) (element : Element) : List ValidationError :=
  match element.common.groupId with
  | none => []
  | some group =>
      failIf (group ∉ groupIds document.elements)
        (.reference (element.id ++ " has missing/non-group parent " ++ group)) ++
      match (findElement document.elements group).bind Element.children with
      | none => []
      | some children => failIf (element.id ∉ children) (.reference
          (element.id ++ " names parent " ++ group ++ ", but is absent from its children"))

/-- The errors of the zone that an element names. -/
def zoneUseErrors (document : Document) (element : Element) : List ValidationError :=
  match element.zone with
  | none => []
  | some zone => failIf (zone ∉ zoneIds document.media.zones)
      (.reference (element.id ++ " uses missing zone " ++ zone))

/-- The errors of the references an element makes. -/
def referenceErrors (document : Document) (element : Element) : List ValidationError :=
  missingResourceErrors document element ++ parentErrors document element ++
    zoneUseErrors document element

/-- The error of a resource that has the wrong media type. -/
def mediaTypeErrors (document : Document) (id : String) (suits : Bytes → Bool) :
    List ValidationError :=
  match findResource document.resources id with
  | none => []
  | some resource => failIf (suits (asBytes resource.mediaType) = false) (.resourceMedia id)

/-- The loop over the children of a group, from the children seen before. -/
def childErrors (elements : List Element) (group : String) :
    List String → List String → List ValidationError
  | _, [] => []
  | unique, child :: rest =>
      if child = group ∨ child ∉ elementIds elements ∨ child ∈ unique then
        .reference ("group " ++ group ++ " child " ++ child) ::
          childErrors elements group unique rest
      else
        failIf ((findElement elements child).bind (fun found => found.common.groupId) ≠
            some group)
          (.reference ("group " ++ group ++ " and child " ++ child ++ " disagree")) ++
        childErrors elements group (child :: unique) rest

/-- The errors of the properties of an element. -/
def propertyErrors (document : Document) (element : Element) : List ValidationError :=
  match element with
  | .text _ _ fontResource fontSize .. =>
      failIf (fontSize ≤ 0) (.element element.id) ++
        fontResource.toList.flatMap fun id =>
          mediaTypeErrors document id fun media => startsWith media (asBytes "font/")
  | .image _ resource crop =>
      mediaTypeErrors document resource (fun media =>
        media == asBytes "image/png" || media == asBytes "image/jpeg") ++
        failIf (crop.any (fun bounds => bounds.width ≤ 0 || bounds.height ≤ 0) = true)
          (.element element.id)
  | .svg _ resource =>
      mediaTypeErrors document resource fun media => media == asBytes "image/svg+xml"
  | .line _ strokeWidth => failIf (strokeWidth ≤ 0) (.element element.id)
  | .rectangle _ strokeWidth _ => failIf (strokeWidth ≤ 0) (.element element.id)
  | .ellipse _ strokeWidth _ => failIf (strokeWidth ≤ 0) (.element element.id)
  | .triangle _ strokeWidth _ => failIf (strokeWidth ≤ 0) (.element element.id)
  | .group _ children => childErrors document.elements element.id [] children
  | .barcode .. => []
  | .qrCode .. => []

/-- The errors of the transform of an element. -/
def transformErrors (element : Element) : List ValidationError :=
  let transform := element.common.transform
  failIf (transform.width ≤ 0 ∨ transform.height ≤ 0) (.geometry element.id) ++
    failIf (transform.rotationMillidegrees < -360000 ∨ 360000 < transform.rotationMillidegrees)
      (.element element.id)

/-- The first loop over the elements. -/
def elementErrors (document : Document) (ids : List String) (elements : List Element) :
    List ValidationError :=
  scan Element.id .duplicateId (fun element =>
    transformErrors element ++ referenceErrors document element ++
      propertyErrors document element) ids elements

/-- The group named by the element found under an identifier. -/
def groupOf (elements : List Element) (id : String) : Option String :=
  (findElement elements id).bind fun element => element.common.groupId

/-- The errors of groups that contain themselves. -/
def groupCycleErrors (elements : List Element) : List ValidationError :=
  elements.flatMap fun element =>
    match Chain.findRepeat (groupOf elements) (elements.length + 2) [] (some element.id) with
    | none => []
    | some id => [.cycle ("group " ++ id)]

/-! ## Extensions -/

/-- A part of an extension key. -/
def validPart (part : Bytes) : Bool :=
  !part.isEmpty && part.all fun byte =>
    (0x30 ≤ byte && byte ≤ 0x39) || (0x41 ≤ byte && byte ≤ 0x5a) ||
      (0x61 ≤ byte && byte ≤ 0x7a) || byte == 0x2e || byte == 0x5f || byte == 0x2d

/-- The errors of extension keys without a namespace. -/
def extensionErrors (document : Document) : List ValidationError :=
  document.extensions.keys.flatMap fun key =>
    failIf (((splitOnce 0x3a (asBytes key)).all fun parts =>
        !validPart parts.1 || !validPart parts.2) = true) (.extensionNamespace key)

/-! ## Documents -/

section

variable (base64 : Base64) (sha256 : Sha256)

/-- The identifiers that the resources leave in use. -/
def registered (resources : List Resource) : List String :=
  resources.foldl (fun ids resource => register ids resource.id) []

/-- The errors that are collected once the sizes are known to be acceptable. -/
def collectedErrors (limits : ProcessingLimits) (document : Document) : List ValidationError :=
  headErrors document ++
    resourceErrors base64 sha256 limits [] document.resources ++
    zoneErrors document.media [] document.media.zones ++
    cloneErrors document.media.zones ++
    zoneCycleErrors document.media.zones ++
    elementErrors document (registered document.resources) document.elements ++
    groupCycleErrors document.elements ++
    extensionErrors document

/-- `Document::validate_with_limits`. -/
def validateWithLimits (limits : ProcessingLimits) (document : Document) :
    Except (List ValidationError) Unit :=
  if countErrors limits document ≠ [] then .error (countErrors limits document)
  else if sizeErrors limits document ≠ [] then .error (sizeErrors limits document)
  else if collectedErrors base64 sha256 limits document ≠ [] then
    .error (collectedErrors base64 sha256 limits document)
  else .ok ()

/-- `Document::validate`. -/
def validate (document : Document) : Except (List ValidationError) Unit :=
  validateWithLimits base64 sha256 .default document

end

end PrinterSdk.Label
