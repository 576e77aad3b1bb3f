import PrinterSdk.Label.Validate
import PrinterSdk.Render.Strokes

/-!
# Lettering

Text is drawn with the glyphs of a bitmap font, or with the outlines of an embedded font,
which other libraries shape and rasterize.  Here a text is wrapped, aligned and clipped.
-/

namespace PrinterSdk.Render

open PrinterSdk.Data PrinterSdk.Label

/-- `TextLayout`. -/
structure TextLayout where
  x : Int32
  y : Int32
  w : Int32
  h : Int32
  size : Int32
  horizontal : HorizontalAlign
  vertical : VerticalAlign
  overflow : TextOverflow
  deriving DecidableEq, Repr

/-- Text that goes on in another line. -/
def wrapsLines (overflow : TextOverflow) : Bool :=
  match overflow with
  | .wordWrap | .autoHeight => true
  | _ => false

namespace TextLayout

variable (layout : TextLayout)

/-- The top of the first of some lines. -/
def top (total : Int32) : Int32 :=
  match layout.vertical with
  | .top => layout.y
  | .middle => layout.y + (layout.h - total) / 2
  | .bottom => layout.y + layout.h - total

/-- The left end of a line. -/
def left (width : Int32) : Int32 :=
  match layout.horizontal with
  | .left => layout.x
  | .center => layout.x + (layout.w - width) / 2
  | .right => layout.x + layout.w - width

/-- The dots that are not clipped. -/
def shows (px py : Int32) : Bool :=
  px ≥ layout.x && px < layout.x + layout.w && py ≥ layout.y &&
    (layout.overflow = .autoHeight || py < layout.y + layout.h)

end TextLayout

/-- `split_whitespace`. -/
def splitWhitespace (text : Characters) : List Characters :=
  (text.splitOnP isWhitespace).filter fun word => word ≠ []

/-! ## The bitmap font -/

/-- The loop over the characters of a word in `wrap`. -/
def wrapCharacters (max : Nat) :
    List Characters → Characters → Characters → List Characters × Characters
  | lines, line, [] => (lines, line)
  | lines, line, ch :: rest =>
      if line.length = max then wrapCharacters max (lines ++ [line]) [ch] rest
      else wrapCharacters max lines (line ++ [ch]) rest

/-- The loop over the words in `wrap`. -/
def wrapWords (max : Nat) :
    List Characters → Characters → List Characters → List Characters × Characters
  | lines, line, [] => (lines, line)
  | lines, line, word :: rest =>
      let pushed := if line ≠ [] ∧ line.length + 1 + word.length > max then
          (lines ++ [line], [])
        else (lines, line)
      let spaced := if pushed.2 ≠ [] then pushed.2 ++ [' '] else pushed.2
      let broken := wrapCharacters max pushed.1 spaced word
      wrapWords max broken.1 broken.2 rest

/-- `wrap`. -/
def wrap (text : Characters) (max : Nat) : List Characters :=
  let wrapped := wrapWords max [] [] (splitWhitespace text)
  if wrapped.2 ≠ [] ∨ wrapped.1 = [] then wrapped.1 ++ [wrapped.2] else wrapped.1

/-- The loop that shrinks the scale of a text, which ends at 1. -/
def shrinkScale (count w h : Int32) : Nat → Int32 → Int32
  | 0, scale => scale
  | rounds + 1, scale =>
      if scale > 1 ∧ (count * 8 * scale > w ∨ 8 * scale > h) then
        shrinkScale count w h rounds (scale - 1)
      else scale

section

/-- `BASIC_FONTS.get`: the rows of a character. -/
abbrev BasicFont := Char → Option (List UInt8)

variable (basicFont : BasicFont) (layout : TextLayout) (scale : Int32)

/-- The dots of a glyph. -/
def glyphDots (cx cy : Int32) (rows : List UInt8) : List Write :=
  rows.zipIdx.flatMap fun row =>
    (List.range 8).flatMap fun col =>
      if row.1 &&& ((1 : UInt8) <<< UInt8.ofNat col) ≠ 0 then
        (span 0 scale).flatMap fun yy =>
          (span 0 scale).filterMap fun xx =>
            let px := cx + Int32.ofNat col * scale + xx
            let py := cy + Int32.ofNat row.2 * scale + yy
            if layout.shows px py = true then some ⟨px, py, 0⟩ else none
      else []

/-- The loop over the characters of a line. -/
def lineDots (cy : Int32) : Int32 → Characters → List Write
  | _, [] => []
  | cx, ch :: rest =>
      (match basicFont ch with
        | none => []
        | some rows => glyphDots layout scale cx cy rows) ++
      lineDots cy (cx + 8 * scale) rest

/-- The loop over the lines. -/
def linesDots : Int32 → List Characters → List Write
  | _, [] => []
  | cy, line :: rest =>
      lineDots basicFont layout scale cy (layout.left (Int32.ofNat line.length * 8 * scale)) line ++
        linesDots (cy + 8 * scale) rest

end

/-- `text`. -/
def text (basicFont : BasicFont) (layout : TextLayout) (value : Characters) : List Write :=
  let whole := max (layout.size / 8) 1
  let scale := if layout.overflow = .shrinkToFit then
      shrinkScale (Int32.ofNat value.length) layout.w layout.h whole.toNatClampNeg whole
    else whole
  let maxChars := (max (layout.w / (8 * scale)) 1).toNatClampNeg
  let lines := if wrapsLines layout.overflow then wrap value maxChars else [value.take maxChars]
  let lines := if layout.overflow = .autoHeight then lines
    else lines.take (max (layout.h / (8 * scale)) 1).toNatClampNeg
  linesDots basicFont layout scale (layout.top (Int32.ofNat lines.length * 8 * scale)) lines

/-! ## Embedded fonts -/

/-- A glyph that a shaper placed. -/
structure Glyph where
  glyphId : UInt32
  xAdvance : Int32
  xOffset : Int32
  yOffset : Int32

/-- `rustybuzz::Face`. -/
structure Face where
  unitsPerEm : Int32
  shape : Characters → List Glyph

/-- What `rasterize_indexed` returns: the metrics and the bitmap. -/
structure GlyphBitmap where
  xmin : Int32
  ymin : Int32
  width : Nat
  height : Nat
  coverage : List UInt8

/-- `fontdue::Font`, at a glyph and a size. -/
abbrev Font := UInt16 → Int32 → GlyphBitmap

/-- Font units at a size, in dots. -/
def Face.scale (face : Face) (size : Int32) (units : Int64) : Int32 :=
  (roundRatio (units.toInt * size.toInt) face.unitsPerEm.toInt).toInt32

/-- `embedded_advance`. -/
def embeddedAdvance (face : Face) (text : Characters) (size : Int32) : Int32 :=
  face.scale size ((face.shape text).map fun glyph => glyph.xAdvance.toInt64).sum

section

variable (face : Face) (size width : Int32)

/-- The loop over the characters of a word in `embedded_wrap`. -/
def embeddedCharacters : List Characters → Characters → Characters →
    List Characters × Characters
  | lines, line, [] => (lines, line)
  | lines, line, character :: rest =>
      if line ≠ [] ∧ embeddedAdvance face (line ++ [character]) size > width then
        embeddedCharacters (lines ++ [line]) [character] rest
      else embeddedCharacters lines (line ++ [character]) rest

/-- The loop over the words in `embedded_wrap`. -/
def embeddedWords : List Characters → Characters → List Characters →
    List Characters × Characters
  | lines, line, [] => (lines, line)
  | lines, line, word :: rest =>
      let candidate := if line = [] then word else line ++ ' ' :: word
      if embeddedAdvance face candidate size ≤ width then embeddedWords lines candidate rest
      else
        let lines := if line ≠ [] then lines ++ [line] else lines
        let broken := embeddedCharacters face size width lines [] word
        embeddedWords broken.1 broken.2 rest

/-- The loop over the paragraphs in `embedded_wrap`. -/
def embeddedParagraphs : List Characters → List Characters → List Characters
  | lines, [] => lines
  | lines, paragraph :: rest =>
      let wrapped := embeddedWords face size width lines [] (splitWhitespace paragraph)
      embeddedParagraphs (wrapped.1 ++ [wrapped.2]) rest

/-- `embedded_wrap`. -/
def embeddedWrap (text : Characters) : List Characters :=
  let lines := embeddedParagraphs face size width [] (text.splitOn '\n')
  if lines = [] then [[]] else lines

/-- The loop that shrinks the size of a text, which ends at 1. -/
def shrinkSize (text : Characters) (w h : Int32) : Nat → Int32 → Int32
  | 0, size => size
  | rounds + 1, size =>
      if size > 1 ∧ (embeddedAdvance face text size > w ∨ size > h) then
        shrinkSize text w h rounds (size - 1)
      else size

end

section

variable (layout : TextLayout) (face : Face) (font : Font)

/-- The dots of a rasterized glyph. -/
def bitmapDots (gx gy : Int32) (bitmap : GlyphBitmap) : List Write :=
  (List.range bitmap.height).flatMap fun yy =>
    (List.range bitmap.width).filterMap fun xx =>
      let px := gx + Int32.ofNat xx
      let py := gy + Int32.ofNat yy
      let alpha := bitmap.coverage.getD (yy * bitmap.width + xx) 0
      if layout.shows px py = true ∧ alpha > 0 then some ⟨px, py, 255 - alpha⟩ else none

/-- The loop over the glyphs of a line. -/
def glyphsDots (origin baseline : Int32) : Int64 → List Glyph → List Write
  | _, [] => []
  | penUnits, glyph :: rest =>
      let bitmap := font glyph.glyphId.toUInt16 layout.size
      let gx := origin + face.scale layout.size (penUnits + glyph.xOffset.toInt64) + bitmap.xmin
      let gy := baseline - face.scale layout.size glyph.yOffset.toInt64 -
        Int32.ofNat bitmap.height - bitmap.ymin
      bitmapDots layout gx gy bitmap ++
        glyphsDots origin baseline (penUnits + glyph.xAdvance.toInt64) rest

/-- `draw_embedded_line`. -/
def drawEmbeddedLine (text : Characters) (baseline : Int32) : List Write :=
  glyphsDots layout face font (layout.left (embeddedAdvance face text layout.size)) baseline 0
    (face.shape text)

end

/-- What `text_embedded` draws, once the face and the font are read. -/
def embeddedText (layout : TextLayout) (face : Face) (font : Font) (value : Characters) :
    List Write :=
  let size := if layout.overflow = .shrinkToFit then
      shrinkSize face value layout.w layout.h layout.size.toNatClampNeg layout.size
    else layout.size
  let layout := { layout with size }
  let lines := if wrapsLines layout.overflow then embeddedWrap face layout.size layout.w value
    else [value]
  let lines := if layout.overflow = .autoHeight then lines
    else lines.take (max (layout.h / max layout.size 1) 1).toNatClampNeg
  let top := layout.top (Int32.ofNat lines.length * layout.size)
  lines.zipIdx.flatMap fun line =>
    drawEmbeddedLine layout face font line.1
      (top + Int32.ofNat line.2 * layout.size + layout.size)

end PrinterSdk.Render
