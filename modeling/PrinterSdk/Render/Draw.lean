import PrinterSdk.Render.Barcode
import PrinterSdk.Render.Lettering
import PrinterSdk.Render.Pictures
import PrinterSdk.Render.Placement

/-!
# Drawing of elements

An element is drawn with calls of `set` on the canvas.  An element that is turned is drawn
on a layer of its own first, whose dots are then looked up for every dot of the canvas
around the element.
-/

namespace PrinterSdk.Render

open PrinterSdk.Data PrinterSdk.Label

/-- `QrCode`: its width, and its dark modules. -/
structure QrSymbol where
  width : Nat
  dark : Nat → Nat → Bool

/-- The code outside this repository that elements are drawn with. -/
structure Engines where
  base64 : Base64
  decoders : Decoders
  basicFont : BasicFont
  woff1 : Bytes → Option Bytes
  woff2 : Bytes → Option Bytes
  face : Bytes → Option Face
  font : Bytes → Except String Font
  code128 : Characters → Except String (List UInt8)
  qrCode : Bytes → QrCorrection → Option QrSymbol

/-- The dots of a length, at least as many as the given ones. -/
def lengthDots (least value : Int64) (dpi : UInt16) : Int32 :=
  (max (micrometresToDots value dpi) least).toInt32

section

variable (engines : Engines)

/-! ## Fonts -/

/-- The rest of `sfnt_bytes`, for a face that was compressed. -/
def unwrappedFace (limits : ProcessingLimits) (unwrapped : Bytes) : Except RenderError Bytes :=
  if unwrapped.length > limits.maxDecodedResourceBytes then
    .error (.font "decoded face is too large")
  else .ok unwrapped

/-- `sfnt_bytes`. -/
def sfntBytes (bytes : Bytes) (limits : ProcessingLimits) : Except RenderError Bytes :=
  if bytes.take 4 = asBytes "wOFF" then do
    let unwrapped ← okOr (engines.woff1 bytes) (.font "cannot decode WOFF face")
    unwrappedFace limits unwrapped
  else if bytes.take 4 = asBytes "wOF2" then do
    let unwrapped ← okOr (engines.woff2 bytes) (.font "cannot decode WOFF2 face")
    unwrappedFace limits unwrapped
  else .ok bytes

/-- The bytes of the font that a text names. -/
def fontBytes (document : Document) (limits : ProcessingLimits) (id : String) :
    Except RenderError Bytes := do
  let resource ← okOr (document.resources.find? fun resource => resource.id = id) (.resource id)
  let bytes ← (decodedBytesWithLimits engines.base64 limits resource).mapError fun _ => .font id
  sfntBytes engines bytes limits

/-- `Face::from_slice`. -/
def readFace (bytes : Bytes) : Except RenderError Face :=
  okOr (engines.face bytes) (.font "cannot parse OpenType face")

/-- `text_embedded`. -/
def textEmbedded (layout : TextLayout) (value : Characters) (bytes : Bytes) :
    Except RenderError (List Write) := do
  let face ← readFace engines bytes
  let font ← (engines.font bytes).mapError .font
  return embeddedText layout face font value

/-! ## Codes -/

/-- `BarcodeLayout`. -/
structure BarcodeLayout where
  x : Int32
  y : Int32
  w : Int32
  h : Int32
  symbology : BarcodeSymbology
  humanReadable : Bool

/-- The modules of a barcode. -/
def barcodeBits (symbology : BarcodeSymbology) (data : String) :
    Except RenderError (List Bool) :=
  match symbology with
  | .code39 => code39 data.toList
  | .ean13 => ean (asBytes data) 13
  | .upcA => ean (asBytes data) 12
  | .code128 => do
      let encoded ← (engines.code128 ('Ɓ' :: data.toList)).mapError .barcode
      return encoded.map fun x => decide (x ≠ 0)

/-- `barcode`. -/
def barcode (layout : BarcodeLayout) (data : String) : Except RenderError (List Write) := do
  let bits ← barcodeBits engines layout.symbology data
  let modules := max (layout.w / Int32.ofNat bits.length) 1
  let total := modules * Int32.ofNat bits.length
  let start := layout.x + (layout.w - total) / 2
  let barHeight := if layout.humanReadable then max (layout.h - 10) 1 else layout.h
  let bars := bits.zipIdx.flatMap fun bit =>
    if bit.1 then
      rect (start + Int32.ofNat bit.2 * modules) layout.y modules barHeight true 1
    else []
  let readable := if layout.humanReadable then
      text engines.basicFont {
        x := layout.x
        y := layout.y + barHeight
        w := layout.w
        h := layout.h - barHeight
        size := 8
        horizontal := .center
        vertical := .bottom
        overflow := .shrinkToFit } data.toList
    else []
  return bars ++ readable

/-- `qr`. -/
def qr (x y w h : Int32) (data : String) (level : QrCorrection) (quietZone : UInt8) :
    Except RenderError (List Write) := do
  let q ← okOr (engines.qrCode (asBytes data) level) .qr
  let n := Int32.ofNat q.width
  let margin := (min quietZone 16).toUInt32.toInt32
  let total := n + 2 * margin
  let scale := max (min w h / total) 1
  let ox := x + (w - total * scale) / 2 + margin * scale
  let oy := y + (h - total * scale) / 2 + margin * scale
  return (span 0 n).flatMap fun yy =>
    (span 0 n).flatMap fun xx =>
      if q.dark xx.toNatClampNeg yy.toNatClampNeg then
        rect (ox + xx * scale) (oy + yy * scale) scale scale true 1
      else []

/-! ## Elements -/

/-- The raster of the resource of a picture. -/
def pictureOf (document : Document) (limits : ProcessingLimits) (resource : String) :
    Except RenderError GrayRaster := do
  let item ← okOr (document.resources.find? fun item => item.id = resource) (.resource resource)
  (normalizeWithLimits engines.base64 engines.decoders item limits).mapError
    fun error => .resource error.text

/-- The pixels of a raster are paid for. -/
def RenderBudget.addRaster (budget : RenderBudget) (raster : GrayRaster) :
    Except RenderError RenderBudget :=
  budget.add (raster.width.toNat * raster.height.toNat)

/-- What an image is cropped to, which is paid for too. -/
def cropped (image : GrayRaster) (crop : Option Bounds) (limits : ProcessingLimits)
    (budget : RenderBudget) : Except RenderError (GrayRaster × RenderBudget) :=
  match crop with
  | none => .ok (image, budget)
  | some bounds => do
      let cropped ← cropSource image bounds limits.maxResourcePixels
      let budget ← budget.addRaster cropped
      return (cropped, budget)

/-- An image with its pixels inverted. -/
def inverted (image : GrayRaster) : GrayRaster :=
  { image with pixels := image.pixels.map fun pixel => 255 - pixel }

/-- `draw_at`: the calls of `set`, and the budget that is left. -/
def drawAt (element : Element) (dpi : UInt16) (document : Document) (placement : Placement)
    (limits : ProcessingLimits) (budget : RenderBudget) :
    Except RenderError (List Write × RenderBudget) := do
  let x := placement.x
  let y := placement.y
  let w := placement.w
  let h := placement.h
  let preserve := element.common.constraints.any Constraints.preserveAspect
  match element with
  | .line _ strokeWidth =>
      return (line x y (x + w - 1) (y + h - 1) (lengthDots 1 strokeWidth dpi), budget)
  | .rectangle _ strokeWidth fill =>
      return (rect x y w h fill (lengthDots 1 strokeWidth dpi), budget)
  | .ellipse _ strokeWidth fill =>
      return (ellipse x y w h fill (lengthDots 1 strokeWidth dpi), budget)
  | .triangle _ strokeWidth fill =>
      return (triangle x y w h fill (lengthDots 1 strokeWidth dpi), budget)
  | .text _ value fontResource fontSize horizontal vertical overflow =>
      let size := lengthDots 8 fontSize dpi
      let layout : TextLayout := { x, y, w, h, size, horizontal, vertical, overflow }
      match fontResource with
      | none => return (text engines.basicFont layout value.toList, budget)
      | some id =>
          let bytes ← fontBytes engines document limits id
          let writes ← textEmbedded engines layout value.toList bytes
          return (writes, budget)
  | .barcode _ data symbology humanReadable =>
      let writes ← barcode engines { x, y, w, h, symbology, humanReadable } data
      return (writes, budget)
  | .qrCode _ data errorCorrection quietZone =>
      let writes ← qr engines x y w h data errorCorrection quietZone
      return (writes, budget)
  | .image _ resource crop =>
      let image ← pictureOf engines document limits resource
      let budget ← budget.addRaster image
      let (part, budget) ← cropped image crop limits budget
      let shown := if imageIsInverted document element.id then inverted part else part
      return (pasteFit shown x y w h preserve, budget)
  | .svg _ resource =>
      let image ← pictureOf engines document limits resource
      let budget ← budget.addRaster image
      return (pasteFit image x y w h preserve, budget)
  | .group .. => return ([], budget)

end

/-! ## Turned layers -/

/-- The loop of `integer_sqrt_ceil`, for a number of rounds. -/
def sqrtCeilLoop (value : Nat) : Nat → Nat → Nat → Nat
  | 0, low, _ => low
  | rounds + 1, low, high =>
      if low < high then
        let middle := low + (high - low) / 2
        if min (middle * middle) usizeMax ≥ value then sqrtCeilLoop value rounds low middle
        else sqrtCeilLoop value rounds (middle + 1) high
      else low

/-- `integer_sqrt_ceil`.  Every round halves the range, which has at most 33 bits. -/
def integerSqrtCeil (value : Nat) : Nat :=
  if value ≤ 1 then value else sqrtCeilLoop value 33 1 (min value (2 ^ 32))

/-- The loop halves a range with the least root in it until nothing else is left. -/
theorem sqrtCeilLoop_spec {value rounds low high : Nat} (ordered : low ≤ high)
    (narrow : high - low < 2 ^ rounds) (small : high ≤ 2 ^ 32)
    (below : ∀ root < low, root * root < value) (above : value ≤ high * high) :
    value ≤ sqrtCeilLoop value rounds low high * sqrtCeilLoop value rounds low high ∧
      ∀ root < sqrtCeilLoop value rounds low high, root * root < value := by
  induction rounds generalizing low high with
  | zero =>
      have met : low = high := by omega
      subst met
      exact ⟨above, below⟩
  | succ rounds ih =>
      rw [Nat.pow_succ] at narrow
      rw [sqrtCeilLoop]
      split
      · next apart =>
          dsimp only
          generalize middle_eq : low + (high - low) / 2 = middle
          have bound : middle ≤ 2 ^ 32 - 1 := by omega
          have square : middle * middle ≤ usizeMax :=
            (Nat.mul_le_mul bound bound).trans (by decide)
          rw [Nat.min_eq_left square]
          split
          · next reached => exact ih (by omega) (by omega) (by omega) below reached
          · next missed =>
              apply ih (by omega) (by omega) small _ above
              intro root less
              have within := Nat.mul_le_mul (Nat.le_of_lt_succ less) (Nat.le_of_lt_succ less)
              omega
      · next met =>
          have same : low = high := by omega
          subst same
          exact ⟨above, below⟩

/-- `integer_sqrt_ceil` is the least root of a square that is not below the value. -/
theorem integerSqrtCeil_spec {value : Nat} (machine : value ≤ usizeMax) :
    value ≤ integerSqrtCeil value * integerSqrtCeil value ∧
      ∀ root < integerSqrtCeil value, root * root < value := by
  unfold integerSqrtCeil
  split
  · next small =>
      have least : value = 0 ∨ value = 1 := by omega
      rcases least with rfl | rfl
      · decide
      · decide
  · next large =>
      apply sqrtCeilLoop_spec
      · omega
      · omega
      · exact Nat.min_le_right ..
      · intro root less
        have zero : root = 0 := by omega
        rw [zero]
        omega
      · by_cases square : value ≤ 2 ^ 32
        · rw [Nat.min_eq_left square]
          exact Nat.le_mul_self value
        · rw [Nat.min_eq_right (Nat.le_of_not_le square)]
          exact machine.trans (by decide)

/-- The square of the diagonal of a placement, as `u64`. -/
def diagonalSquared (placement : Placement) : Nat :=
  let sum := placement.w.toInt64 ^ 2 + placement.h.toInt64 ^ 2
  if 0 ≤ sum then sum.toNatClampNeg else usizeMax

/-- Half of the diagonal of a placement, rounded up. -/
def halfDiagonal (placement : Placement) : Nat :=
  (integerSqrtCeil (diagonalSquared placement) + 1) / 2

/-- The `radius` of `rotate_layer`. -/
def radius (placement : Placement) : Int32 := Int32.ofNat (halfDiagonal placement) + 2

/-- The dots of a canvas around a placement, row after row. -/
def dotsAround (width height : UInt32) (placement : Placement) : List (Int32 × Int32) :=
  let minX := max (placement.x + placement.w / 2 - radius placement) 0
  let maxX := min (placement.x + placement.w / 2 + radius placement) (width.toInt32 - 1)
  let minY := max (placement.y + placement.h / 2 - radius placement) 0
  let maxY := min (placement.y + placement.h / 2 + radius placement) (height.toInt32 - 1)
  (spanTo minY maxY).flatMap fun dy => (spanTo minX maxX).map fun dx => (dx, dy)

/-- The dot of the layer that a dot of the canvas shows. -/
def shownDot (placement : Placement) (dot : Int32 × Int32) : Int32 × Int32 :=
  let cos := (fixedTrig placement.rotationMillidegrees).1
  let sin := (fixedTrig placement.rotationMillidegrees).2
  let cx2 := (2 * placement.x + placement.w - 1).toInt64
  let cy2 := (2 * placement.y + placement.h - 1).toInt64
  let vx2 := (2 * dot.1).toInt64 - cx2
  let vy2 := (2 * dot.2).toInt64 - cy2
  let sx2 := cx2 + roundRatio (cos * vx2.toInt + sin * vy2.toInt) trigScale
  let sy2 := cy2 + roundRatio (-sin * vx2.toInt + cos * vy2.toInt) trigScale
  ((roundRatio sx2.toInt 2).toInt32, (roundRatio sy2.toInt 2).toInt32)

/-- The ink of the layer at a dot. -/
def layerInk (layer : GrayRaster) (dot : Int32 × Int32) : Option UInt8 :=
  if 0 ≤ dot.1 ∧ 0 ≤ dot.2 ∧ dot.1 < layer.width.toInt32 ∧ dot.2 < layer.height.toInt32 then
    let source := layer.pixels.getD
      (dot.2.toNatClampNeg * layer.width.toNat + dot.1.toNatClampNeg) 255
    if source < 255 then some source else none
  else none

/-- A turn of the loop of `rotate_layer`. -/
def rotateDot (layer : GrayRaster) (placement : Placement) (canvas : GrayRaster)
    (dot : Int32 × Int32) : GrayRaster :=
  match layerInk layer (shownDot placement dot) with
  | none => canvas
  | some source =>
      let target := dot.2.toNatClampNeg * canvas.width.toNat + dot.1.toNatClampNeg
      { canvas with pixels := canvas.pixels.modify target fun pixel => min pixel source }

/-- `rotate_layer`. -/
def rotateLayer (canvas layer : GrayRaster) (placement : Placement) : GrayRaster :=
  (dotsAround canvas.width canvas.height placement).foldl (rotateDot layer placement) canvas

/-! ## Drawings -/

/-- The placement of a drawing. -/
def placementOf (document : Document) (drawing : Drawing) : Placement :=
  (placementPx drawing.element.common document.media.dpi document drawing.zone).value

/-- `draw`. -/
def draw (engines : Engines) : Painter := fun document limits drawing canvas =>
  if drawing.element.children.isSome then .ok canvas
  else do
    let placement := placementOf document drawing
    let drawn := drawAt engines drawing.element document.media.dpi document placement limits
    if placement.rotationMillidegrees = 0 then
      let (writes, budget) ← drawn canvas.budget
      return ⟨paint canvas.raster writes, budget⟩
    else
      let pixels ← okOr (checkedMul canvas.raster.width.toNat canvas.raster.height.toNat) .tooLarge
      let budget ← canvas.budget.add pixels
      let layer ← orTooLarge
        (GrayRaster.tryNew canvas.raster.width canvas.raster.height 255 limits.maxCanvasPixels)
      let (writes, budget) ← drawn budget
      return ⟨rotateLayer canvas.raster (paint layer writes) placement, budget⟩

end PrinterSdk.Render
