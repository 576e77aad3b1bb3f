import PrinterSdk.Render.Dots
import PrinterSdk.Render.Raster

/-!
# Strokes

Every shape is drawn with calls of `set`, and which calls these are does not depend on the
canvas: a shape is the list of them.  The arithmetic of `i32` and `i64` wraps here.  A build
that checks it stops at an overflow instead, as every build does outside of a slice, so that
whatever the code returns is returned here.
-/

namespace PrinterSdk.Render

open PrinterSdk.Data

/-! ## Writes -/

/-- A call of `set`. -/
structure Write where
  x : Int32
  y : Int32
  v : UInt8
  deriving DecidableEq, Repr

/-- `set`.  The index is computed with `u32`. -/
def setDot (canvas : GrayRaster) (write : Write) : GrayRaster :=
  if 0 ≤ write.x ∧ 0 ≤ write.y ∧ write.x.toUInt32 < canvas.width ∧
      write.y.toUInt32 < canvas.height then
    { canvas with
      pixels := canvas.pixels.set
        (write.y.toUInt32 * canvas.width + write.x.toUInt32).toNat write.v }
  else canvas

/-- The calls of `set` one after the other. -/
def paint (canvas : GrayRaster) (writes : List Write) : GrayRaster := writes.foldl setDot canvas

/-! ## Ranges -/

/-- The numbers of `start..stop`. -/
def span (start stop : Int32) : List Int32 :=
  (List.range (stop.toInt - start.toInt).toNat).map fun index : Nat =>
    Int32.ofInt (start.toInt + index)

/-- The numbers of `start..=last`. -/
def spanTo (start last : Int32) : List Int32 :=
  (List.range (last.toInt - start.toInt + 1).toNat).map fun index : Nat =>
    Int32.ofInt (start.toInt + index)

/-! ## Shapes -/

/-- The dots that the pen covers at a point. -/
def penDots (t x y : Int32) : List Write :=
  (spanTo (-(t / 2)) (t / 2)).flatMap fun yy =>
    (spanTo (-(t / 2)) (t / 2)).map fun xx => ⟨x + xx, y + yy, 0⟩

/-- The loop of `line`, for a number of rounds. -/
def lineLoop (t x1 y1 dx dy sx sy : Int32) : Nat → Int32 → Int32 → Int32 → List Write
  | 0, _, _, _ => []
  | rounds + 1, x0, y0, err =>
      penDots t x0 y0 ++
        if x0 = x1 ∧ y0 = y1 then []
        else
          let e := 2 * err
          let across := if e ≥ dy then (err + dy, x0 + sx) else (err, x0)
          let down := if e ≤ dx then (across.1 + dx, y0 + sy) else (across.1, y0)
          lineLoop t x1 y1 dx dy sx sy rounds across.2 down.2 down.1

/-- The rounds that are enough for every loop over three `i32` that ends. -/
def lineRounds : Nat := 2 ^ 96

/-- `line`. -/
def line (x0 y0 x1 y1 t : Int32) : List Write :=
  let dx := (x1 - x0).abs
  let sx := if x0 < x1 then 1 else -1
  let dy := -(y1 - y0).abs
  let sy := if y0 < y1 then 1 else -1
  lineLoop t x1 y1 dx dy sx sy lineRounds x0 y0 (dx + dy)

/-- `rect`. -/
def rect (x y w h : Int32) (fill : Bool) (t : Int32) : List Write :=
  if fill then
    (span y (y + h)).flatMap fun yy => (span x (x + w)).map fun xx => ⟨xx, yy, 0⟩
  else
    (span 0 t).flatMap fun i =>
      line x (y + i) (x + w - 1) (y + i) 1 ++
        line x (y + h - 1 - i) (x + w - 1) (y + h - 1 - i) 1 ++
        line (x + i) y (x + i) (y + h - 1) 1 ++
        line (x + w - 1 - i) y (x + w - 1 - i) (y + h - 1) 1

/-- `ellipse`. -/
def ellipse (x y w h : Int32) (fill : Bool) (t : Int32) : List Write :=
  let rx := w.toInt64
  let ry := h.toInt64
  let cx := 2 * x.toInt64 + w.toInt64 - 1
  let cy := 2 * y.toInt64 + h.toInt64 - 1
  let edge := (max t 1 * 4).toInt64
  (span y (y + h)).flatMap fun yy =>
    (span x (x + w)).filterMap fun xx =>
      let dx := 2 * xx.toInt64 - cx
      let dy := 2 * yy.toInt64 - cy
      let lhs := dx * dx * ry * ry + dy * dy * rx * rx
      let rhs := rx * rx * ry * ry
      if lhs ≤ rhs ∧ (fill = true ∨ rhs - lhs ≤ edge * max (rx * ry) 1) then
        some ⟨xx, yy, 0⟩
      else none

/-- `triangle`. -/
def triangle (x y w h : Int32) (fill : Bool) (t : Int32) : List Write :=
  let ax := x + w / 2
  let ay := y
  let bx := x
  let bottom := y + h - 1
  let dx := x + w - 1
  if fill then
    (span y (y + h)).flatMap fun yy =>
      let rel := yy - y
      let half := (rel * w / 2) / max h 1
      (spanTo (ax - half) (ax + half)).map fun xx => ⟨xx, yy, 0⟩
  else
    line ax ay bx bottom t ++ line bx bottom dx bottom t ++ line dx bottom ax ay t

end PrinterSdk.Render
