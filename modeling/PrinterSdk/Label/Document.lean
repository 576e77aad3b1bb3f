import PrinterSdk.Data.OrderedMap
import Mathlib.Data.String.Basic

/-!
# Label documents

A document places elements on a medium.  Elements are grouped by reference: a group
lists its children, and a child names its group.  Zones of the medium may be clones of
other zones.
-/

namespace PrinterSdk.Label

open PrinterSdk.Data

/-! ## Media -/

/-- `Unit`. -/
inductive MeasureUnit where
  | micrometre
  deriving DecidableEq, Repr

/-- `Orientation`. -/
inductive Orientation where
  | portrait | landscape
  deriving DecidableEq, Repr

/-- `MediaShape`. -/
inductive MediaShape where
  | rectangle | round
  deriving DecidableEq, Repr

/-- `Rounding`. -/
inductive Rounding where
  | halfAwayFromZero
  deriving DecidableEq, Repr

/-- `Origin`. -/
inductive Origin where
  | topLeft
  deriving DecidableEq, Repr

/-- `CoordinateSystem`. -/
structure CoordinateSystem where
  unit : MeasureUnit := .micrometre
  origin : Origin := .topLeft
  rounding : Rounding := .halfAwayFromZero
  deriving DecidableEq, Repr

/-- `Bounds`. -/
structure Bounds where
  x : Int64
  y : Int64
  width : Int64
  height : Int64
  deriving DecidableEq, Repr

/-- `Zone`. -/
structure Zone where
  id : String
  bounds : Bounds
  cloneOf : Option String := none
  deriving DecidableEq, Repr

/-- `Media`. -/
structure Media where
  width : Int64
  height : Int64
  unit : MeasureUnit := .micrometre
  dpi : UInt16
  orientation : Orientation
  printableBounds : Bounds
  shape : MediaShape
  continuous : Bool := false
  zones : List Zone := []
  deriving DecidableEq, Repr

/-! ## Elements -/

/-- `Transform`. -/
structure Transform where
  x : Int64
  y : Int64
  width : Int64
  height : Int64
  rotationMillidegrees : Int32 := 0
  deriving DecidableEq, Repr

/-- `Constraints`. -/
structure Constraints where
  preserveAspect : Bool := false
  zone : Option String := none
  deriving DecidableEq, Repr

/-- `Common`. -/
structure Common where
  id : String
  transform : Transform
  zOrder : Int32
  visible : Bool := true
  locked : Bool := false
  groupId : Option String := none
  constraints : Option Constraints := none
  deriving DecidableEq, Repr

/-- `HorizontalAlign`. -/
inductive HorizontalAlign where
  | left | center | right
  deriving DecidableEq, Repr

/-- `VerticalAlign`. -/
inductive VerticalAlign where
  | top | middle | bottom
  deriving DecidableEq, Repr

/-- `TextOverflow`. -/
inductive TextOverflow where
  | noWrap | wordWrap | clip | shrinkToFit | autoHeight
  deriving DecidableEq, Repr

/-- `BarcodeSymbology`. -/
inductive BarcodeSymbology where
  | code128 | ean13 | upcA | code39
  deriving DecidableEq, Repr

/-- `QrCorrection`. -/
inductive QrCorrection where
  | l | m | q | h
  deriving DecidableEq, Repr

/-- `Element`. -/
inductive Element where
  | text (common : Common) (text : String) (fontResource : Option String) (fontSize : Int64)
      (horizontalAlign : HorizontalAlign) (verticalAlign : VerticalAlign)
      (overflow : TextOverflow)
  | image (common : Common) (resource : String) (crop : Option Bounds)
  | svg (common : Common) (resource : String)
  | line (common : Common) (strokeWidth : Int64)
  | rectangle (common : Common) (strokeWidth : Int64) (fill : Bool)
  | ellipse (common : Common) (strokeWidth : Int64) (fill : Bool)
  | triangle (common : Common) (strokeWidth : Int64) (fill : Bool)
  | barcode (common : Common) (data : String) (symbology : BarcodeSymbology)
      (humanReadable : Bool)
  | qrCode (common : Common) (data : String) (errorCorrection : QrCorrection)
      (quietZone : UInt8)
  | group (common : Common) (children : List String)
  deriving DecidableEq, Repr

namespace Element

/-- `Element::common`. -/
def common : Element → Common
  | .text common .. => common
  | .image common .. => common
  | .svg common .. => common
  | .line common .. => common
  | .rectangle common .. => common
  | .ellipse common .. => common
  | .triangle common .. => common
  | .barcode common .. => common
  | .qrCode common .. => common
  | .group common .. => common

/-- An assignment through `Element::common_mut`. -/
def withCommon (common : Common) : Element → Element
  | .text _ content fontResource fontSize horizontalAlign verticalAlign overflow =>
      .text common content fontResource fontSize horizontalAlign verticalAlign overflow
  | .image _ resource crop => .image common resource crop
  | .svg _ resource => .svg common resource
  | .line _ strokeWidth => .line common strokeWidth
  | .rectangle _ strokeWidth fill => .rectangle common strokeWidth fill
  | .ellipse _ strokeWidth fill => .ellipse common strokeWidth fill
  | .triangle _ strokeWidth fill => .triangle common strokeWidth fill
  | .barcode _ data symbology humanReadable => .barcode common data symbology humanReadable
  | .qrCode _ data errorCorrection quietZone => .qrCode common data errorCorrection quietZone
  | .group _ children => .group common children

@[simp] theorem common_withCommon (common : Common) (element : Element) :
    (element.withCommon common).common = common := by
  cases element <;> rfl

/-- The identifier of the element. -/
def id (element : Element) : String := element.common.id

/-- The zone the element is constrained to. -/
def zone (element : Element) : Option String :=
  element.common.constraints.bind Constraints.zone

/-- The children of a group. -/
def children : Element → Option (List String)
  | .group _ children => some children
  | _ => none

/-- `Element::resource_ids`. -/
def resourceIds : Element → List String
  | .text _ _ fontResource .. => fontResource.toList
  | .image _ resource _ => [resource]
  | .svg _ resource => [resource]
  | _ => []

end Element

/-! ## Documents -/

/-- `Field`. -/
structure Field where
  key : String
  label : String
  deriving DecidableEq, Repr

/-- `Resource`. -/
structure Resource where
  id : String
  mediaType : String
  sha256 : String
  dataBase64 : String
  deriving DecidableEq, Repr

/-- `serde_json::Value`; a number is kept as its text. -/
inductive Json where
  | null
  | boolean (value : Bool)
  | number (text : String)
  | string (value : String)
  | array (values : List Json)
  | object (entries : List (String × Json))

/-- `Document`. -/
structure Document where
  version : UInt8
  name : String
  media : Media
  coordinateSystem : CoordinateSystem := {}
  elements : List Element := []
  resources : List Resource := []
  fields : List Field := []
  extensions : OrderedMap String Json := .empty

/-- `ProcessingLimits`, as far as documents, batches and rendering read them. -/
structure ProcessingLimits where
  maxElements : Nat := 10000
  maxResources : Nat := 1000
  maxResourceBytes : Nat := 8 * 1024 * 1024
  maxDecodedResourceBytes : Nat := 8 * 1024 * 1024
  maxResourcePixels : Nat := 25000000
  maxCanvasPixels : Nat := 100000000
  maxTotalPixels : Nat := 400000000
  maxPages : Nat := 100
  maxOutputBytes : Nat := 128 * 1024 * 1024
  maxSheetSlots : Nat := 1000
  maxSheetItems : Nat := 10000
  deriving DecidableEq, Repr

/-- `ProcessingLimits::default`. -/
def ProcessingLimits.default : ProcessingLimits := {}

end PrinterSdk.Label
