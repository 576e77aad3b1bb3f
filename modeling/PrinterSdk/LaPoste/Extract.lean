import PrinterSdk.Render.Cropping

/-!
# Stamps on sheets

La Poste sells stamps as pages of A4 sheets.  A page was made a raster elsewhere, and here the
stamps that are on it are cut out.
-/

namespace PrinterSdk.LaPoste

open PrinterSdk.Data PrinterSdk.Render

/-! ## Formats -/

/-- `Format`. -/
structure Format where
  columns : UInt8
  rows : UInt8
  leftUm : Int
  topUm : Int
  columnPitchUm : Int
  rowPitchUm : Int
  deriving DecidableEq, Repr

/-- `STAMP_WIDTH_UM`. -/
def stampWidthUm : Int := 63500

/-- `STAMP_HEIGHT_UM`. -/
def stampHeightUm : Int := 33900

/-- `format`. -/
def format (code : Characters) : Option Format :=
  let upper := code.map Char.toUpper
  if upper ∈ ["L24A".toList, "L24A_SHEET".toList, "SHEET".toList] then
    some ⟨3, 8, 7200, 13100, 66000, 33900⟩
  else if upper = "L24B".toList then some ⟨3, 8, 5000, 3500, 68250, 36700⟩
  else if upper = "L21A".toList then some ⟨3, 7, 7200, 17200, 66000, 38100⟩
  else if upper = "L18A".toList then some ⟨3, 6, 7200, 15100, 66000, 46600⟩
  else if upper = "L16A".toList then some ⟨2, 8, 22500, 13500, 101600, 33900⟩
  else if upper = "L14A".toList then some ⟨2, 7, 22500, 17200, 101600, 38100⟩
  else if upper = "L12A".toList then some ⟨2, 6, 22500, 25600, 101600, 42300⟩
  else none

/-- The number of slots, which is within `u16`. -/
def Format.slots (fmt : Format) : Nat := fmt.columns.toNat * fmt.rows.toNat

/-! ## Pages and stamps -/

/-- `NormalizedPage`. -/
structure NormalizedPage where
  page : UInt32
  widthUm : Int64
  heightUm : Int64
  raster : GrayRaster
  deriving DecidableEq, Repr

/-- `Stamp`. -/
structure Stamp where
  page : UInt32
  slot : Nat
  widthUm : Int
  heightUm : Int
  raster : GrayRaster
  deriving DecidableEq, Repr

/-- `ExtractError`. -/
inductive ExtractError where
  | format (code : Characters)
  | notA4 (page : UInt32) (widthUm heightUm : Int64)
  | pageNumber
  | raster
  | empty
  deriving DecidableEq, Repr

/-- The error of a raster is `ExtractError::Raster`, and a panic stays one. -/
def rasterOrPanic {α : Type} (result : Outcome RasterError α) : Outcome ExtractError α :=
  result.mapError fun fault =>
    match fault with
    | .error _ => .error .raster
    | .panic => .panic

/-- A result of `i64` arithmetic, which panics outside of it. -/
def i64OrPanic (number : Int) : Outcome RasterError Int := orPanic (IsI64 number) number

/-- `(length - nominal).abs() > 1500`. -/
def offA4 (length : Int64) (nominal : Int) : Outcome RasterError Bool := do
  let difference ← i64OrPanic (length.toInt - nominal)
  let distance ← i64OrPanic difference.natAbs
  return distance > 1500

/-- The condition under which `extract` returns `ExtractError::NotA4`. -/
def notA4 (p : NormalizedPage) : Outcome RasterError Bool := do
  let wide ← offA4 p.widthUm 210000
  if wide then return true else offA4 p.heightUm 297000

/-- The checks of a page in `extract`. -/
def checkPage (p : NormalizedPage) : Outcome ExtractError Unit := do
  refuseIf (p.page = 0) (.error .pageNumber)
  rasterOrPanic (p.raster.validate.mapError .error)
  let off ← rasterOrPanic (notA4 p)
  refuseIf (off = true) (.error (.notA4 p.page p.widthUm p.heightUm))

/-! ## Slots -/

/-- `scale`.  The division by zero panics, and the other operations are within `i128`. -/
def scale (um : Int) (pixels : UInt32) (total : Int64) : Outcome RasterError UInt32 :=
  orPanic (total ≠ 0) (.ofNat (max 0 (min
    ((um * pixels.toNat + total.toInt.tdiv 2).tdiv total.toInt) pixels.toNat)).toNat)

/-- The pixels from `(x0, y0)` to `(x1, y1)`. -/
structure Window where
  x0 : UInt32
  y0 : UInt32
  x1 : UInt32
  y1 : UInt32
  deriving DecidableEq, Repr

/-- The pixels of a slot in the loop of `extract`. -/
def slotWindow (fmt : Format) (p : NormalizedPage) (slot : Nat) : Outcome RasterError Window := do
  let col := slot % fmt.columns.toNat
  let row := slot / fmt.columns.toNat
  let across ← i64OrPanic (col * fmt.columnPitchUm)
  let left ← i64OrPanic (fmt.leftUm + across)
  let down ← i64OrPanic (row * fmt.rowPitchUm)
  let top ← i64OrPanic (fmt.topUm + down)
  let x0 ← scale left p.raster.width p.widthUm
  let y0 ← scale top p.raster.height p.heightUm
  let right ← i64OrPanic (left + stampWidthUm)
  let x1 ← scale right p.raster.width p.widthUm
  let bottom ← i64OrPanic (top + stampHeightUm)
  let y1 ← scale bottom p.raster.height p.heightUm
  return ⟨x0, y0, x1, y1⟩

/-- `saturating_sub` on `u32`. -/
def saturatingSub (left right : UInt32) : UInt32 := if right ≤ left then left - right else 0

/-- `GrayRaster::new`, which panics when no vector is that long. -/
def newGray (width height : UInt32) (white : UInt8) : Outcome RasterError GrayRaster :=
  orPanic (width.toNat * height.toNat ≤ isizeMax)
    ⟨width, height, List.replicate (width.toNat * height.toNat) white⟩

/-- `crop`. -/
def crop (r : GrayRaster) (window : Window) : Outcome RasterError GrayRaster := do
  let w := saturatingSub window.x1 window.x0
  let h := saturatingSub window.y1 window.y0
  let out ← newGray w h 255
  let pixels ← (List.range h.toNat).foldlM (cropRowOrPanic r window.x0 window.y0 w) out.pixels
  return { out with pixels }

/-- The inset of `has_ink`.  For every side of a raster, its product with 0.02 in `f64` rounds
to the same number. -/
def inkInset (r : GrayRaster) : Nat :=
  max ((min r.width.toNat r.height.toNat + 25) / 50) 1

/-- A turn of the loops of `has_ink`. -/
def inkTurn (r : GrayRaster) (inset y n x : Nat) : Outcome RasterError Nat := do
  let index ← indexOrPanic (inset + y) r.width.toNat (inset + x)
  let pixel ← readAt r.pixels index
  return n + if pixel < 250 then 1 else 0

/-- `has_ink`.  For every area below 2^32, its product with 0.001 in `f64` rounds to the same
number. -/
def hasInk (r : GrayRaster) : Outcome RasterError Bool := do
  let inset := inkInset r
  let twice ← u32OrPanic (2 * inset)
  if r.width.toNat ≤ twice ∨ r.height.toNat ≤ twice then return false
  else do
    let n ← gridLoop (r.width.toNat - twice) (r.height.toNat - twice) (inkTurn r inset) 0
    let area := (r.width.toNat - twice) * (r.height.toNat - twice)
    return n ≥ max 8 ((area + 500) / 1000)

/-! ## Extraction -/

/-- A turn of the loop over the slots in `extract`. -/
def extractSlot (fmt : Format) (p : NormalizedPage) (out : List Stamp) (slot : Nat) :
    Outcome ExtractError (List Stamp) :=
  rasterOrPanic do
    let window ← slotWindow fmt p slot
    let raster ← crop p.raster window
    let occupied ← hasInk raster
    return if occupied then out ++ [⟨p.page, slot + 1, stampWidthUm, stampHeightUm, raster⟩] else out

/-- A turn of the loop over the pages in `extract`. -/
def extractPage (fmt : Format) (out : List Stamp) (p : NormalizedPage) :
    Outcome ExtractError (List Stamp) := do
  checkPage p
  (List.range fmt.slots).foldlM (extractSlot fmt p) out

/-- `extract`. -/
def extract (pages : List NormalizedPage) (code : Characters) :
    Outcome ExtractError (List Stamp) := do
  let fmt ← okOr (format code) (.error (.format code))
  let out ← pages.foldlM (extractPage fmt) []
  if out = [] then fail .empty else return out

end PrinterSdk.LaPoste
