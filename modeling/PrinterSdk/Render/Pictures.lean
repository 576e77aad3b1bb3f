import PrinterSdk.Data.Text
import PrinterSdk.Render.Canvas
import PrinterSdk.Render.Strokes

/-!
# Pictures

Images and drawings of a document become gray rasters, which are cropped and pasted into a
box of dots.  The decoders themselves are code outside this repository.
-/

namespace PrinterSdk.Render

open PrinterSdk.Data PrinterSdk.Label

/-! ## Decoders -/

/-- The red, green, blue and alpha of a pixel. -/
structure Rgba where
  r : UInt8
  g : UInt8
  b : UInt8
  a : UInt8
  deriving DecidableEq, Repr

/-- `image::Limits`. -/
structure ImageLimits where
  maxImageWidth : UInt32
  maxImageHeight : UInt32
  maxAlloc : Option Nat
  deriving DecidableEq, Repr

/-- `ImageError`. -/
inductive ImageError where
  | limits
  | other (message : String)
  deriving DecidableEq, Repr

/-- `DynamicImage`, with its conversions `to_luma8` and `to_rgba8`. -/
structure DynamicImage where
  width : UInt32
  height : UInt32
  hasAlpha : Bool
  luma8 : List UInt8
  rgba8 : List Rgba

/-- `usvg::Tree`: its size, and the pixels of a white pixmap of that size after
`resvg::render`, if `Pixmap::new` makes one. -/
structure SvgTree where
  width : UInt32
  height : UInt32
  pixmap : Option (List Rgba)

/-- The decoders of images and drawings, and the texts of `Utf8Error`. -/
structure Decoders where
  image : Bytes → ImageLimits → Except ImageError DynamicImage
  svg : String → Except String SvgTree
  utf8Error : Bytes → String

/-! ## Resources -/

/-- `ResourceError`. -/
inductive ResourceError where
  | base64
  | mediaType (found : String)
  | image (message : String)
  | svg (message : String)
  | tooLarge
  deriving DecidableEq, Repr

/-- The texts of the errors. -/
def ResourceError.text : ResourceError → String
  | .base64 => "invalid base64 resource"
  | .mediaType found => "unsupported media type: " ++ found
  | .image message => "image decode failed: " ++ message
  | .svg message => "SVG parse failed: " ++ message
  | .tooLarge => "resource raster is too large"

/-- A pixel over white. -/
def flattenPixel (pixel : Rgba) : UInt8 :=
  let luma := (2126 * pixel.r.toNat + 7152 * pixel.g.toNat + 722 * pixel.b.toNat) / 10000
  let alpha := pixel.a.toNat
  UInt8.ofNat ((luma * alpha + 255 * (255 - alpha) + 127) / 255)

/-- `flatten_on_white`. -/
def flattenOnWhite (image : DynamicImage) : List UInt8 :=
  if image.hasAlpha = false then image.luma8 else image.rgba8.map flattenPixel

/-- The luma of a pixel of a drawing. -/
def svgPixel (pixel : Rgba) : UInt8 :=
  UInt8.ofNat ((pixel.r.toNat * 54 + pixel.g.toNat * 183 + pixel.b.toNat * 19 + 128) / 256)

/-- The references to other files that a drawing may not have. -/
def externalNeedles : List String := [
  "href=\"http://", "href=\"https://", "href='http://", "href='https://", "url(http://",
  "url(https://", "href=\"file:", "href='file:"]

section

variable (decoders : Decoders) (maxPixels : Nat) (bytes : Bytes)

/-- `decode_image`. -/
def decodeImage : Except ResourceError GrayRaster := do
  let maximumDimension :=
    if maxPixels < 2 ^ 32 then UInt32.ofNat maxPixels else UInt32.ofNat (2 ^ 32 - 1)
  let decodeLimits := ⟨maximumDimension, maximumDimension, checkedMul maxPixels 8⟩
  let img ← (decoders.image bytes decodeLimits).mapError fun error =>
    match error with
    | .limits => .tooLarge
    | .other message => .image message
  refuseIf (img.width.toNat * img.height.toNat > maxPixels) .tooLarge
  return ⟨img.width, img.height, flattenOnWhite img⟩

/-- `decode_svg`. -/
def decodeSvg : Except ResourceError GrayRaster := do
  let text ← okOr (fromUtf8 bytes) (.svg (decoders.utf8Error bytes))
  refuseIf (externalNeedles.any (fun needle => contains bytes (asBytes needle)) = true)
    (.svg "external resources are forbidden")
  let tree ← (decoders.svg text).mapError .svg
  refuseIf (tree.width.toNat * tree.height.toNat > maxPixels) .tooLarge
  let rgba ← okOr tree.pixmap .tooLarge
  return ⟨tree.width, tree.height, rgba.map svgPixel⟩

end

/-- `normalize_with_limits`. -/
def normalizeWithLimits (base64 : Base64) (decoders : Decoders) (resource : Resource)
    (limits : ProcessingLimits) : Except ResourceError GrayRaster := do
  let bytes ← (decodedBytesWithLimits base64 limits resource).mapError fun error =>
    match error with
    | .invalid => .base64
    | .encodedTooLarge | .decodedTooLarge => .tooLarge
  if resource.mediaType = "image/png" ∨ resource.mediaType = "image/jpeg" then
    decodeImage decoders limits.maxResourcePixels bytes
  else if resource.mediaType = "image/svg+xml" then
    decodeSvg decoders limits.maxResourcePixels bytes
  else .error (.mediaType resource.mediaType)

/-- `Value::get` of a key; the keys of an object are different. -/
def jsonGet (key : String) : Json → Option Json
  | .object entries => (entries.find? fun entry => entry.1 = key).map Prod.snd
  | _ => none

/-- `Value::as_bool`. -/
def jsonBool : Json → Option Bool
  | .boolean value => some value
  | _ => none

/-- `image_is_inverted`. -/
def imageIsInverted (document : Document) (elementId : String) : Bool :=
  (((document.extensions.get "makersbrain.render:images").bind (jsonGet elementId)).bind
    (jsonGet "invert")).bind jsonBool |>.getD false

/-! ## Boxes of pictures -/

/-- A coordinate of `crop_source`: a number of pixels within bounds. -/
def cropTo (value low : Int64) (high : UInt32) : UInt32 :=
  (min (max value low) high.toUInt64.toInt64).toUInt64.toUInt32

/-- A turn of the loop of `crop_source`: a row is copied.  The indices are computed with
`u32`. -/
def cropRow (source : GrayRaster) (x y w : UInt32) (pixels : List UInt8) (yy : Nat) :
    List UInt8 :=
  let start := ((y + UInt32.ofNat yy) * source.width + x).toNat
  let into := (UInt32.ofNat yy * w).toNat
  pixels.take into ++ (source.pixels.drop start).take w.toNat ++ pixels.drop (into + w.toNat)

/-- `crop_source`. -/
def cropSource (source : GrayRaster) (b : Bounds) (maxPixels : Nat) :
    Except RenderError GrayRaster := do
  let x := cropTo b.x 0 source.width
  let y := cropTo b.y 0 source.height
  let w := cropTo b.width 1 (source.width - x)
  let h := cropTo b.height 1 (source.height - y)
  let out ← orTooLarge (GrayRaster.tryNew w h 255 maxPixels)
  return { out with pixels := (List.range h.toNat).foldl (cropRow source x y w) out.pixels }

/-- A coordinate of a pixel in `paste_scaled`. -/
def scaledTo (offset size : Int32) (length : UInt32) : UInt32 :=
  UInt32.ofNat (min (offset.toNatClampNeg * length.toNat / size.toNatClampNeg)
    (length.toNat - 1))

/-- `paste_scaled`. -/
def pasteScaled (source : GrayRaster) (x y w h : Int32) : List Write :=
  (span 0 h).flatMap fun yy =>
    (span 0 w).map fun xx =>
      let sx := scaledTo xx w source.width
      let sy := scaledTo yy h source.height
      ⟨x + xx, y + yy, source.pixels.getD (sy * source.width + sx).toNat 0⟩

/-- `paste_fit`. -/
def pasteFit (source : GrayRaster) (x y w h : Int32) (preserve : Bool) : List Write :=
  if preserve = false then pasteScaled source x y w h
  else
    let width := source.width.toUInt64.toInt64
    let height := source.height.toUInt64.toInt64
    let scaleNum := min (w.toInt64 * height) (h.toInt64 * width)
    let outW := (max (width * scaleNum / (width * height)) 1).toInt32
    let outH := (max (height * scaleNum / (width * height)) 1).toInt32
    pasteScaled source (x + (w - outW) / 2) (y + (h - outH) / 2) outW outH

end PrinterSdk.Render
