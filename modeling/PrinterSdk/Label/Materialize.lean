import PrinterSdk.Data.Outcome
import PrinterSdk.Label.Validate

/-!
# Materialization of templates

A document with templates is filled in from records.  A zone batch places one record
after the other in the selected zones, page by page, and rewrites the identifiers of
every placed copy so that the copies stay apart.
-/

namespace PrinterSdk.Label

open PrinterSdk.Data

/-- The fields of a record. -/
abbrev Record := OrderedMap String String

/-- `MaterializeOptions`. -/
structure MaterializeOptions where
  locale : String := "en"
  currentDate : String := "1970-01-01"
  deriving DecidableEq, Repr

/-- `TemplateError`. -/
inductive TemplateError where
  | unclosed
  | field (name : String)
  | transform (name : String)
  | limit
  | value (text : String)
  deriving DecidableEq, Repr

/-- `MaterializeError`. -/
inductive MaterializeError where
  | invalidDocument (count : Nat)
  | template (element : Nat) (source : TemplateError)
  | limitExceeded
  | noZones
  | duplicateZone (index : Nat)
  | unknownZone (index : Nat)
  deriving DecidableEq, Repr

/-- `BatchPlacement`. -/
structure BatchPlacement where
  record : Nat
  page : Nat
  zone : String
  deriving DecidableEq, Repr

/-- `ZoneBatchPlan`. -/
structure ZoneBatchPlan where
  pageCount : Nat
  placements : List BatchPlacement
  deriving DecidableEq, Repr

/-- `u32::MAX`. -/
def u32Max : Nat := 2 ^ 32 - 1

/-- `i32::MAX`. -/
def i32Max : Nat := 2 ^ 31 - 1

/-- Return `LimitExceeded` when `exceeded`. -/
def limitIf (exceeded : Prop) [Decidable exceeded] : Outcome MaterializeError Unit :=
  refuseIf exceeded (.error .limitExceeded)

/-- `ok_or(LimitExceeded)`. -/
def orLimit {α : Type} (value : Option α) : Outcome MaterializeError α :=
  okOr value (.error .limitExceeded)

/-- Indexing, which panics out of bounds. -/
def entryAt {α : Type} (list : List α) (index : Nat) : Outcome MaterializeError α :=
  okOr list[index]? .panic

/-! ## Checks -/

/-- The bytes of a resource and the estimate of its decoded bytes, within the limits. -/
def resourceWithin (limits : ProcessingLimits) (total : Nat) (resource : Resource) :
    Outcome MaterializeError Nat := do
  let encoded := (asBytes resource.dataBase64).length
  let decoded ← orLimit (estimatedDecodedLen encoded)
  limitIf (encoded > limits.maxResourceBytes ∨ decoded > limits.maxDecodedResourceBytes)
  let sum ← orLimit (checkedAdd total encoded)
  limitIf (sum > limits.maxOutputBytes)
  return sum

/-- The loop over the resources. -/
def resourcesWithin (limits : ProcessingLimits) : Nat → List Resource →
    Outcome MaterializeError Unit
  | _, [] => return ()
  | total, resource :: rest => do
      let sum ← resourceWithin limits total resource
      resourcesWithin limits sum rest

/-- `validate_document`. -/
def validateDocument (base64 : Base64) (sha256 : Sha256) (limits : ProcessingLimits)
    (document : Document) : Outcome MaterializeError Unit := do
  limitIf (document.elements.length > limits.maxElements ∨
    document.resources.length > limits.maxResources)
  resourcesWithin limits 0 document.resources
  match validate base64 sha256 document with
  | .ok () => return ()
  | .error errors => fail (.invalidDocument errors.length)

/-- The bytes of the fields, unless they do not fit the machine. -/
def fieldBytes (record : Record) : Option Nat :=
  record.entries.foldl (fun total entry => do
    let sum ← total
    let keyed ← checkedAdd sum (asBytes entry.1).length
    checkedAdd keyed (asBytes entry.2).length) (some 0)

/-- `validate_fields`. -/
def validateFields (limits : ProcessingLimits) (record : Record) :
    Outcome MaterializeError Unit := do
  limitIf (record.entries.length > limits.maxElements)
  limitIf ((fieldBytes record).all (fun bytes => bytes > limits.maxOutputBytes) = true)

/-- `selected_zones`, from the index and the zones that were selected before. -/
def selectedZones (zones : List Zone) : Nat → List String → List String →
    Outcome MaterializeError (List Zone)
  | _, _, [] => return []
  | index, seen, id :: rest => do
      refuseIf (id ∈ seen) (.error (.duplicateZone index))
      let zone ← okOr (zones.find? fun zone => zone.id = id) (.error (.unknownZone index))
      let later ← selectedZones zones (index + 1) (id :: seen) rest
      return zone :: later

/-! ## Plans -/

/-- The placement of a record. -/
def placementOf (zones : List Zone) (slots record : Nat) :
    Outcome MaterializeError BatchPlacement := do
  let zone ← entryAt zones (record % slots)
  return ⟨record, record / slots, zone.id⟩

/-- The number of pages for a number of records. -/
def batchPages (recordCount slots : Nat) : Option Nat :=
  if recordCount = 0 then some 0
  else if recordCount + (slots - 1) ≤ u32Max then some ((recordCount + (slots - 1)) / slots)
  else none

section

variable (base64 : Base64) (sha256 : Sha256) (limits : ProcessingLimits)

/-- `plan_zone_batch_with_limits`. -/
def planZoneBatchWithLimits (document : Document) (recordCount : Nat) (zoneIds : List String) :
    Outcome MaterializeError ZoneBatchPlan := do
  refuseIf (zoneIds = []) (.error .noZones)
  validateDocument base64 sha256 limits document
  limitIf (recordCount > limits.maxSheetItems)
  let zones ← selectedZones document.media.zones 0 [] zoneIds
  limitIf (zones.length > u32Max)
  let pageCount ← orLimit (batchPages recordCount zones.length)
  limitIf (pageCount > limits.maxPages)
  let placements ← (List.range recordCount).mapM (placementOf zones zones.length)
  return ⟨pageCount, placements⟩

end

/-! ## Templates -/

/-- The template of an element. -/
def Element.template : Element → Option String
  | .text _ content .. => some content
  | .barcode _ data .. => some data
  | .qrCode _ data .. => some data
  | _ => none

/-- The element with its template filled in. -/
def Element.filled (value : String) : Element → Element
  | .text common _ fontResource fontSize horizontalAlign verticalAlign overflow =>
      .text common value fontResource fontSize horizontalAlign verticalAlign overflow
  | .barcode common _ symbology humanReadable => .barcode common value symbology humanReadable
  | .qrCode common _ errorCorrection quietZone => .qrCode common value errorCorrection quietZone
  | element => element

/-- `template::evaluate_with_context`. -/
abbrev Evaluate := String → Record → MaterializeOptions → Except TemplateError String

section

variable (evaluate : Evaluate) (options : MaterializeOptions) (limits : ProcessingLimits)

/-- The loop of `materialize_unchecked`, from the index and the bytes written before. -/
def fillElements (record : Record) : Nat → Nat → List Element →
    Outcome MaterializeError (List Element)
  | _, _, [] => return []
  | index, written, element :: rest =>
      match element.template with
      | none => do
          let later ← fillElements record (index + 1) written rest
          return element :: later
      | some template =>
          match evaluate template record options with
          | .error source => fail (.template index source)
          | .ok value => do
              let sum ← orLimit (checkedAdd written (asBytes value).length)
              limitIf (sum > limits.maxOutputBytes)
              let later ← fillElements record (index + 1) sum rest
              return element.filled value :: later

/-- `materialize_unchecked`. -/
def materializeUnchecked (document : Document) (record : Record) :
    Outcome MaterializeError Document := do
  let elements ← fillElements evaluate options limits record 0 0 document.elements
  return { document with elements }

end

/-! ## Identifiers -/

/-- `format!("{id}:record:{}:zone:{}", placement.record, placement.zone)`. -/
def rewriteId (placement : BatchPlacement) (id : String) : String :=
  id ++ (":record:" ++ toString placement.record ++ ":zone:" ++ placement.zone)

/-- The element's constraints, in the zone of the placement. -/
def constrainedTo (zone : String) (constraints : Option Constraints) : Constraints :=
  { constraints.getD {} with zone := some zone }

/-- `ids.get(id).cloned().ok_or(LimitExceeded)`, over the identifiers to rewrite. -/
def rewritten (placement : BatchPlacement) (ids : List String) (id : String) :
    Outcome MaterializeError String :=
  orLimit (if id ∈ ids then some (rewriteId placement id) else none)

/-- The group of an element, rewritten. -/
def rewriteGroup (placement : BatchPlacement) (ids : List String) :
    Option String → Outcome MaterializeError (Option String)
  | none => return none
  | some group => do
      let group ← rewritten placement ids group
      return some group

/-- The children of a group, rewritten. -/
def rewriteChildren (placement : BatchPlacement) (ids : List String) :
    Element → Outcome MaterializeError Element
  | .group common children => do
      let children ← children.mapM (rewritten placement ids)
      return .group common children
  | element => return element

/-- One element of `rewrite_elements`. -/
def rewriteElement (placement : BatchPlacement) (ids : List String) (element : Element) :
    Outcome MaterializeError Element := do
  let id ← rewritten placement ids element.id
  let groupId ← rewriteGroup placement ids element.common.groupId
  rewriteChildren placement ids (element.withCommon
    { element.common with
      id
      groupId
      constraints := some (constrainedTo placement.zone element.common.constraints) })

/-- `rewrite_elements`. -/
def rewriteElements (limits : ProcessingLimits) (placement : BatchPlacement)
    (elements : List Element) : Outcome MaterializeError (List Element) := do
  limitIf (elements.any (fun element =>
    (asBytes (rewriteId placement element.id)).length > limits.maxOutputBytes) = true)
  elements.mapM (rewriteElement placement (elementIds elements))

/-! ## Batches -/

/-- Push the elements on a page, in the order of drawing. -/
def pushElements : List Element → List Element → Outcome MaterializeError (List Element)
  | page, [] => return page
  | page, element :: rest => do
      limitIf (page.length > i32Max)
      pushElements (page ++ [element.withCommon
        { element.common with zOrder := Int32.ofNat page.length }]) rest

/-- A page without elements. -/
def emptyPage (document : Document) (page : Nat) : Document :=
  { document with
    name := document.name ++ " page " ++ toString (page + 1)
    elements := [] }

section

variable (base64 : Base64) (sha256 : Sha256) (evaluate : Evaluate)
variable (jsonLength : Document → Option Nat) (jsonLengths : List Document → Option Nat)
variable (options : MaterializeOptions) (limits : ProcessingLimits)
variable (document : Document) (records : List Record)

/-- The copy of the elements for a placement. -/
def placedElements (placement : BatchPlacement) : Outcome MaterializeError (List Element) := do
  let record ← entryAt records placement.record
  validateFields limits record
  let materialized ← materializeUnchecked evaluate options limits document record
  rewriteElements limits placement materialized.elements

/-- The loop over the placements. -/
def placeAll : List Document → List BatchPlacement → Outcome MaterializeError (List Document)
  | pages, [] => return pages
  | pages, placement :: rest => do
      let copies ← placedElements evaluate options limits document records placement
      let page ← entryAt pages placement.page
      let elements ← pushElements page.elements copies
      placeAll (pages.set placement.page { page with elements }) rest

/-- `materialize_zone_batch_with_limits`.  The lengths of the JSON texts are those of
`serde_json::to_vec`, when it succeeds. -/
def materializeZoneBatchWithLimits (zoneIds : List String) :
    Outcome MaterializeError (List Document) := do
  limitIf (records.length > u32Max)
  let plan ← planZoneBatchWithLimits base64 sha256 limits document records.length zoneIds
  if plan.pageCount = 0 then
    return []
  else
    let pageElements ← orLimit (checkedMul document.elements.length zoneIds.length)
    limitIf (pageElements > limits.maxElements)
    let documentBytes ← orLimit (jsonLength document)
    limitIf ((checkedMul documentBytes plan.pageCount).all
      (fun bytes => bytes > limits.maxOutputBytes) = true)
    let pages ← placeAll evaluate options limits document records
      ((List.range plan.pageCount).map (emptyPage document)) plan.placements
    let outputBytes ← orLimit (jsonLengths pages)
    limitIf (outputBytes > limits.maxOutputBytes)
    return pages

end

end PrinterSdk.Label
