import Mathlib.Data.List.ReduceOption
import PrinterSdk.Render.Draw

/-!
# Measurement

Measuring draws every element alone, in each of its zones, on a canvas that reaches below
all of them, and takes the bounds of the ink.
-/

namespace PrinterSdk.Render

open PrinterSdk.Data PrinterSdk.Label

/-! ## Ink bounds -/

/-- The variables of `gray_ink_bounds`. -/
structure InkBox where
  left : UInt32
  top : UInt32
  right : UInt32 := 0
  bottom : UInt32 := 0
  found : Bool := false
  deriving DecidableEq, Repr

/-- A turn of the loop of `gray_ink_bounds`.  The index is computed with `u32`. -/
def growBox (raster : GrayRaster) (box : InkBox) (dot : UInt32 × UInt32) : InkBox :=
  if raster.pixels.getD (dot.2 * raster.width + dot.1).toNat 255 < 255 then
    { left := min box.left dot.1
      top := min box.top dot.2
      right := max box.right (dot.1 + 1)
      bottom := max box.bottom (dot.2 + 1)
      found := true }
  else box

/-- The dots of a raster, row after row. -/
def dotsOf (raster : GrayRaster) : List (UInt32 × UInt32) :=
  (List.range raster.height.toNat).flatMap fun y =>
    (List.range raster.width.toNat).map fun x => (UInt32.ofNat x, UInt32.ofNat y)

/-- The box of all ink. -/
def inkBox (raster : GrayRaster) : InkBox :=
  (dotsOf raster).foldl (growBox raster) { left := raster.width, top := raster.height }

/-- `i64::try_from`, or else `i64::MAX`. -/
def toI64OrMax (value : Nat) : Int64 := Int64.ofNat (min value (2 ^ 63 - 1))

/-- `dots_to_micrometres_floor`. -/
def dotsToMicrometresFloor (value : UInt32) (dpi : UInt16) : Int64 :=
  toI64OrMax (value.toNat * 25400 / dpi.toNat)

/-- `dots_to_micrometres_ceil`. -/
def dotsToMicrometresCeil (value : UInt32) (dpi : UInt16) : Int64 :=
  toI64OrMax ((value.toNat * 25400 + dpi.toNat - 1) / dpi.toNat)

/-- The bounds of a box, in micrometres. -/
def boxBounds (box : InkBox) (dpi : UInt16) : Bounds :=
  let x := dotsToMicrometresFloor box.left dpi
  let y := dotsToMicrometresFloor box.top dpi
  let rightUm := dotsToMicrometresCeil box.right dpi
  let bottomUm := dotsToMicrometresCeil box.bottom dpi
  { x, y, width := rightUm - x, height := bottomUm - y }

/-- `gray_ink_bounds`. -/
def grayInkBounds (raster : GrayRaster) (dpi : UInt16) : Option Bounds :=
  if (inkBox raster).found then some (boxBounds (inkBox raster) dpi) else none

/-- `union_physical_bounds`. -/
def unionPhysicalBounds (left right : Bounds) : Bounds :=
  let x := min left.x right.x
  let y := min left.y right.y
  let rightEdge := max (left.x + left.width) (right.x + right.width)
  let bottomEdge := max (left.y + left.height) (right.y + right.height)
  { x, y, width := rightEdge - x, height := bottomEdge - y }

/-! ## The measuring canvas -/

/-- The drawings of elements that are no groups, in the order of the elements. -/
def instancesOf (document : Document) (elements : List Element) : List Drawing :=
  (elements.filter fun element =>
    !element.children.isSome && effectivelyVisible element document).flatMap
      (visibleDrawings document)

/-- `stroke_extension_dots`. -/
def strokeExtensionDots (element : Element) (dpi : UInt16) : Int32 :=
  match element with
  | .line _ strokeWidth | .rectangle _ strokeWidth _ | .ellipse _ strokeWidth _
  | .triangle _ strokeWidth _ => (lengthDots 1 strokeWidth dpi + 1) / 2
  | _ => 0

section

variable (engines : Engines) (sha256 : Sha256) (document : Document) (limits : ProcessingLimits)

/-- `auto_height_dots`. -/
def autoHeightDots (element : Element) (placement : Placement) :
    Except RenderError (Option Int32) :=
  match element with
  | .text _ value fontResource fontSize _ _ .autoHeight => do
      let size := lengthDots 8 fontSize document.media.dpi
      let lines ← match fontResource with
        | some id => do
            let bytes ← fontBytes engines document limits id
            let face ← readFace engines bytes
            pure (Int32.ofNat (embeddedWrap face size placement.w value.toList).length * size)
        | none => do
            let scale := max (size / 8) 1
            let maxChars := (max (placement.w / (8 * scale)) 1).toNatClampNeg
            pure (Int32.ofNat (wrap value.toList maxChars).length * 8 * scale)
      return some (max lines placement.h)
  | _ => .ok none

/-- The `candidate` of `measurement_height_dots` for a drawing: a row below all of it. -/
def bottomDots (drawing : Drawing) : Except RenderError Int64 :=
  let placement := placementOf document drawing
  if placement.rotationMillidegrees = 0 then do
    let height ← autoHeightDots engines document limits drawing.element placement
    return placement.y.toInt64 + (height.getD placement.h).toInt64 +
      (strokeExtensionDots drawing.element document.media.dpi).toInt64 + 2
  else do
    refuseIf (halfDiagonal placement > 2 ^ 63 - 1) .tooLarge
    return (placement.y + placement.h / 2).toInt64 + Int64.ofNat (halfDiagonal placement) + 3

/-- `measurement_height_dots`. -/
def measurementHeightDots : Except RenderError UInt32 := do
  let bottom ← (instancesOf document document.elements).foldlM
    (fun bottom drawing => do
      let candidate ← bottomDots engines document limits drawing
      return max bottom candidate)
    (max (micrometresToDots document.media.height document.media.dpi) 1)
  okOr (dotsTryU32 (max bottom 1)) .tooLarge

/-! ## Measuring -/

/-- `MeasuredElementBounds`. -/
structure MeasuredElementBounds where
  instanceId : String
  sourceElementId : String
  zoneId : Option String
  bounds : Bounds
  deriving DecidableEq, Repr

/-- `DocumentMeasurement`. -/
structure DocumentMeasurement where
  elements : List MeasuredElementBounds
  contentBounds : Option Bounds
  layoutVersion : String := "mb-printer-layout-v1"
  deriving DecidableEq, Repr

/-- The measured bounds of a drawing. -/
def instanceBounds (drawing : Drawing) (bounds : Bounds) : MeasuredElementBounds :=
  let sourceId := drawing.element.id
  { instanceId := match drawing.zone with
      | none => sourceId
      | some zone => sourceId ++ "@" ++ zone
    sourceElementId := sourceId
    zoneId := drawing.zone
    bounds }

/-- A drawing on a layer of its own. -/
def measuredLayer (width height : UInt32) (drawing : Drawing) : Except RenderError Canvas := do
  let layer ← orTooLarge (GrayRaster.tryNew width height 255 limits.maxCanvasPixels)
  draw engines document limits drawing ⟨layer, { limit := limits.maxTotalPixels }⟩

/-- What is measured of a drawing. -/
def measuredDrawing (width height : UInt32) (drawing : Drawing) :
    Except RenderError (Option MeasuredElementBounds) := do
  let canvas ← measuredLayer engines document limits width height drawing
  return (grayInkBounds canvas.raster document.media.dpi).map (instanceBounds drawing)

/-- The union of all measured bounds. -/
def contentBounds : List MeasuredElementBounds → Option Bounds
  | [] => none
  | first :: rest =>
      some (rest.foldl (fun bounds element => unionPhysicalBounds bounds element.bounds)
        first.bounds)

/-- `measure_with_limits`. -/
def measureWithLimits : Except RenderError DocumentMeasurement :=
  match validateWithLimits engines.base64 sha256 limits document with
  | .error errors => .error (.validation ("; ".intercalate (errors.map ValidationError.text)))
  | .ok () => do
      let width ← okOr (dotsTryU32 (micrometresToDots document.media.width document.media.dpi))
        .tooLarge
      let height ← measurementHeightDots engines document limits
      let canvasPixels ← okOr (checkedMul width.toNat height.toNat) .tooLarge
      refuseIf (canvasPixels > limits.maxCanvasPixels) .tooLarge
      let measured ← (instancesOf document (paintOrder document)).mapM
        (measuredDrawing engines document limits width height)
      let elements := measured.reduceOption
      return { elements, contentBounds := contentBounds elements }

end

end PrinterSdk.Render
