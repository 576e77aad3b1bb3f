import PrinterSdk.Data.Tracked
import PrinterSdk.Render.Ink
import PrinterSdk.Render.Pixels

/-!
# Exact ellipses

An ellipse is drawn where doubled offsets from its centre are within it, which is computed
with `i64`.  The products of four sides are exact for ellipses that are not too large.
-/

namespace PrinterSdk.Render

open PrinterSdk.Data

/-! ## Tracked arithmetic -/

/-- `a * a * b * b`. -/
def fourfold (a b : Int64) : Tracked Int64 := do
  let square ← Tracked.mul64 a a
  let cube ← Tracked.mul64 square b
  Tracked.mul64 cube b

/-- `2 * start + size - 1`. -/
def ellipseCentre (start size : Int32) : Tracked Int64 := do
  let doubled ← Tracked.double64 start.toInt64
  let sum ← Tracked.add64 doubled size.toInt64
  Tracked.sub64 sum 1

/-- `2 * place - centre`. -/
def ellipseOffset (place : Int32) (centre : Int64) : Tracked Int64 := do
  let doubled ← Tracked.double64 place.toInt64
  Tracked.sub64 doubled centre

/-- What `ellipse` draws at a dot, by the two sides of its inequality. -/
def ellipseWrite (rx ry edge : Int64) (fill : Bool) (lhs rhs : Int64) (write : Write) :
    Tracked (Option Write) :=
  if lhs ≤ rhs then
    if fill = true then return some write
    else do
      let gap ← Tracked.sub64 rhs lhs
      let area ← Tracked.mul64 rx ry
      let band ← Tracked.mul64 edge (max area 1)
      return if gap ≤ band then some write else none
  else return none

/-- A turn of the loops of `ellipse`. -/
def ellipseDot (rx ry cx cy edge : Int64) (fill : Bool) (yy xx : Int32) :
    Tracked (Option Write) := do
  let dx ← ellipseOffset xx cx
  let dy ← ellipseOffset yy cy
  let first ← fourfold dx ry
  let second ← fourfold dy rx
  let lhs ← Tracked.add64 first second
  let rhs ← fourfold rx ry
  ellipseWrite rx ry edge fill lhs rhs ⟨xx, yy, 0⟩

/-- `ellipse`, with a record of its overflows. -/
def ellipseTracked (x y w h : Int32) (fill : Bool) (t : Int32) : Tracked (List Write) := do
  let cx ← ellipseCentre x w
  let cy ← ellipseCentre y h
  let edge ← Tracked.mul32 (max t 1) 4
  let bottom ← Tracked.add32 y h
  let rows ← Tracked.each (span y bottom) fun yy => do
    let right ← Tracked.add32 x w
    let dots ← Tracked.each (span x right)
      (ellipseDot w.toInt64 h.toInt64 cx cy edge.toInt64 fill yy)
    return dots.filterMap id
  return rows.flatten

/-- `set`, with a record of the overflow of its index. -/
def setDotTracked (canvas : GrayRaster) (write : Write) : Tracked GrayRaster :=
  if 0 ≤ write.x ∧ 0 ≤ write.y ∧ write.x.toUInt32 < canvas.width ∧
      write.y.toUInt32 < canvas.height then do
    let index ← Tracked.mulAddU32 write.y.toUInt32 canvas.width write.x.toUInt32
    return { canvas with pixels := canvas.pixels.set index.toNat write.v }
  else return canvas

/-- `ellipse` on a canvas. -/
def drawEllipse (canvas : GrayRaster) (x y w h : Int32) (fill : Bool) (t : Int32) :
    Tracked GrayRaster := do
  let writes ← ellipseTracked x y w h fill t
  writes.foldlM setDotTracked canvas

@[simp] theorem value_fourfold (a b : Int64) : (fourfold a b).value = a * a * b * b := rfl

@[simp] theorem value_ellipseCentre (start size : Int32) :
    (ellipseCentre start size).value = 2 * start.toInt64 + size.toInt64 - 1 := rfl

@[simp] theorem value_ellipseOffset (place : Int32) (centre : Int64) :
    (ellipseOffset place centre).value = 2 * place.toInt64 - centre := rfl

theorem value_ellipseWrite (rx ry edge : Int64) (fill : Bool) (lhs rhs : Int64) (write : Write) :
    (ellipseWrite rx ry edge fill lhs rhs write).value =
      if lhs ≤ rhs ∧ (fill = true ∨ rhs - lhs ≤ edge * max (rx * ry) 1) then some write
      else none := by
  unfold ellipseWrite
  by_cases within : lhs ≤ rhs
  · cases fill with
    | true => simp [within]
    | false =>
        simp only [within, if_true, Bool.false_eq_true, if_false, false_or, true_and]
        rfl
  · simp [within]

/-- The tracked ellipse is the ellipse of the renderer. -/
theorem value_ellipseTracked (x y w h : Int32) (fill : Bool) (t : Int32) :
    (ellipseTracked x y w h fill t).value = ellipse x y w h fill t := by
  unfold ellipseTracked ellipse
  simp only [Tracked.value_bind, Tracked.value_pure, Tracked.value_each, ellipseDot,
    value_ellipseWrite, value_ellipseOffset, value_fourfold, Tracked.value_add64,
    value_ellipseCentre, Tracked.value_mul32, Tracked.value_add32, List.filterMap_map,
    List.flatMap_def, Function.comp_def, id_eq]

theorem value_setDotTracked (canvas : GrayRaster) (write : Write) :
    (setDotTracked canvas write).value = setDot canvas write := by
  unfold setDotTracked setDot
  split
  · rfl
  · rfl

theorem value_drawEllipse (canvas : GrayRaster) (x y w h : Int32) (fill : Bool) (t : Int32) :
    (drawEllipse canvas x y w h fill t).value = paint canvas (ellipse x y w h fill t) := by
  rw [drawEllipse, Tracked.value_bind, Tracked.value_foldlM, value_ellipseTracked]
  simp only [value_setDotTracked]
  rfl

/-! ## When the arithmetic is exact -/

section

open Tracked

theorem yields_ellipseCentre (start size : Int32) :
    Yields (ellipseCentre start size) True fun centre =>
      centre.toInt = 2 * start.toInt + size.toInt - 1 := by
  have startLeast := start.le_toInt
  have startMost := start.toInt_lt
  have sizeLeast := size.le_toInt
  have sizeMost := size.toInt_lt
  have computed : Yields (ellipseCentre start size) _ fun centre =>
      centre.toInt = 2 * start.toInt + size.toInt - 1 :=
    (yields_double64 start.toInt_toInt64).bind fun doubled twice =>
      (yields_add64 twice size.toInt_toInt64).bind fun sum added =>
        yields_sub64 added rfl
  apply computed.mono
  · rw [iff_true]
    exact ⟨⟨by omega, by omega⟩, ⟨by omega, by omega⟩, by omega, by omega⟩
  · exact fun _ _ same => same

theorem yields_ellipseOffset {place : Int32} {centre : Int64} {middle : Int}
    (same : centre.toInt = middle) (bounded : -2 ^ 34 < middle ∧ middle < 2 ^ 34) :
    Yields (ellipseOffset place centre) True fun offset =>
      offset.toInt = 2 * place.toInt - middle := by
  have least := place.le_toInt
  have most := place.toInt_lt
  have computed : Yields (ellipseOffset place centre) _ fun offset =>
      offset.toInt = 2 * place.toInt - middle :=
    (yields_double64 place.toInt_toInt64).bind fun doubled twice => yields_sub64 twice same
  apply computed.mono
  · rw [iff_true]
    exact ⟨⟨by omega, by omega⟩, by omega, by omega⟩
  · exact fun _ _ same => same

/-- A product of two squares is exact when it is an `i64`. -/
theorem yields_fourfold {a b : Int64} {first second : Int} (same : a.toInt = first)
    (other : b.toInt = second) (bounded : |first| < 2 ^ 31) (positive : 1 ≤ second) :
    Yields (fourfold a b) (IsI64 (first * first * second * second)) fun product =>
      product.toInt = first * first * second * second := by
  have computed : Yields (fourfold a b) _ fun product =>
      product.toInt = first * first * second * second :=
    (yields_mul64 same same).bind fun square squared =>
      (yields_mul64 squared other).bind fun cube cubed => yields_mul64 cubed other
  have squareLow : 0 ≤ first * first := mul_self_nonneg first
  have squareHigh : first * first < 2 ^ 62 := by
    rw [← abs_mul_abs_self]
    have nonneg := abs_nonneg first
    nlinarith
  have cubeLow : 0 ≤ first * first * second := Int.mul_nonneg squareLow (by omega)
  have grows : first * first * second ≤ first * first * second * second :=
    le_mul_of_one_le_right cubeLow positive
  apply computed.mono
  · constructor
    · exact fun fits => fits.2.2
    · intro fits
      exact ⟨⟨by omega, by omega⟩, ⟨by omega, Int.lt_of_le_of_lt grows fits.2⟩, fits⟩
  · exact fun _ _ same => same

end

/-- The left side of the inequality of an ellipse, at a doubled offset from its centre. -/
def ellipseSide (w h : Int32) (dx dy : Int) : Int :=
  dx * dx * h.toInt * h.toInt + dy * dy * w.toInt * w.toInt

/-- The right side of the inequality of an ellipse. -/
def ellipseArea (w h : Int32) : Int := w.toInt * w.toInt * h.toInt * h.toInt

/-- The doubled offset of a dot from the centre of a box along one direction. -/
def offsetAt (start size : Int32) (place : Int) : Int :=
  2 * place - (2 * start.toInt + size.toInt - 1)

/-- A dot is in the ellipse in a box. -/
def InEllipse (x y w h : Int32) (i j : Int) : Prop :=
  ellipseSide w h (offsetAt x w i) (offsetAt y h j) ≤ ellipseArea w h

instance (x y w h : Int32) (i j : Int) : Decidable (InEllipse x y w h i j) :=
  inferInstanceAs (Decidable (_ ≤ _))

section

variable {x y w h t : Int32}

open Tracked

theorem abs_offsetAt {start size : Int32} {place : Int}
    (inside : start.toInt ≤ place ∧ place < start.toInt + size.toInt) :
    |offsetAt start size place| ≤ size.toInt - 1 := by
  unfold offsetAt
  rw [abs_le]
  omega

theorem ellipseSide_nonneg (w h : Int32) (dx dy : Int) :
    0 ≤ dx * dx * h.toInt * h.toInt ∧ 0 ≤ dy * dy * w.toInt * w.toInt := by
  have square (first second : Int) : 0 ≤ first * first * second * second := by
    rw [Int.mul_assoc (first * first)]
    exact Int.mul_nonneg (mul_self_nonneg first) (mul_self_nonneg second)
  exact ⟨square dx h.toInt, square dy w.toInt⟩

theorem yields_ellipseWrite {rx ry edge lhs rhs : Int64} {first second : Int} (write : Write)
    (same : lhs.toInt = first) (other : rhs.toInt = second) :
    Yields (ellipseWrite rx ry edge true lhs rhs write) True fun dot =>
      dot = if first ≤ second then some write else none := by
  have within : lhs ≤ rhs ↔ first ≤ second := by rw [Int64.le_iff_toInt_le, same, other]
  simp only [ellipseWrite, within, if_true]
  split
  · exact yields_pure _ _ rfl
  · exact yields_pure _ _ rfl

/-- A dot of a filled ellipse is decided exactly when both sides are `i64`. -/
theorem yields_ellipseDot {cx cy edge : Int64} {xx yy : Int32} (wide : 1 ≤ w) (high : 1 ≤ h)
    (centreX : cx.toInt = 2 * x.toInt + w.toInt - 1)
    (centreY : cy.toInt = 2 * y.toInt + h.toInt - 1)
    (across : x.toInt ≤ xx.toInt ∧ xx.toInt < x.toInt + w.toInt)
    (down : y.toInt ≤ yy.toInt ∧ yy.toInt < y.toInt + h.toInt) :
    Yields (ellipseDot w.toInt64 h.toInt64 cx cy edge true yy xx)
      (ellipseSide w h (offsetAt x w xx.toInt) (offsetAt y h yy.toInt) < 2 ^ 63 ∧
        ellipseArea w h < 2 ^ 63)
      fun dot => dot = if InEllipse x y w h xx.toInt yy.toInt then some ⟨xx, yy, 0⟩ else none := by
  have wide : 1 ≤ w.toInt := Int32.le_iff_toInt_le.mp wide
  have high : 1 ≤ h.toInt := Int32.le_iff_toInt_le.mp high
  have left := x.le_toInt
  have right := x.toInt_lt
  have top := y.le_toInt
  have bottom := y.toInt_lt
  have widest := w.toInt_lt
  have highest := h.toInt_lt
  have offsetX : |offsetAt x w xx.toInt| < 2 ^ 31 := by
    have bound := abs_offsetAt across
    omega
  have offsetY : |offsetAt y h yy.toInt| < 2 ^ 31 := by
    have bound := abs_offsetAt down
    omega
  have size : |w.toInt| < 2 ^ 31 := by rwa [abs_of_nonneg (by omega)]
  have computed : Yields (ellipseDot w.toInt64 h.toInt64 cx cy edge true yy xx) _ fun dot =>
      dot = if InEllipse x y w h xx.toInt yy.toInt then some ⟨xx, yy, 0⟩ else none :=
    (yields_ellipseOffset centreX ⟨by omega, by omega⟩).bind fun dx dxIs =>
      (yields_ellipseOffset centreY ⟨by omega, by omega⟩).bind fun dy dyIs =>
        (yields_fourfold dxIs h.toInt_toInt64 offsetX high).bind fun first firstIs =>
          (yields_fourfold dyIs w.toInt_toInt64 offsetY wide).bind fun second secondIs =>
            (yields_add64 firstIs secondIs).bind fun lhs lhsIs =>
              (yields_fourfold w.toInt_toInt64 h.toInt_toInt64 size high).bind fun rhs rhsIs =>
                yields_ellipseWrite ⟨xx, yy, 0⟩ lhsIs rhsIs
  obtain ⟨firstLow, secondLow⟩ :=
    ellipseSide_nonneg w h (offsetAt x w xx.toInt) (offsetAt y h yy.toInt)
  have areaLow : 0 ≤ ellipseArea w h := (ellipseSide_nonneg w h w.toInt 0).1
  apply computed.mono
  · constructor
    · intro fits
      obtain ⟨-, -, -, -, sum, area, -⟩ := fits
      exact ⟨sum.2, area.2⟩
    · intro fits
      obtain ⟨sum, area⟩ := fits
      unfold ellipseSide at sum
      unfold offsetAt at *
      exact ⟨trivial, trivial, ⟨by omega, by omega⟩, ⟨by omega, by omega⟩, ⟨by omega, by omega⟩,
        ⟨by unfold ellipseArea at areaLow; omega, area⟩, trivial⟩
  · exact fun _ _ same => same

/-- The arithmetic of an ellipse is within its machine ranges. -/
structure EllipseFits (x y w h t : Int32) : Prop where
  stroke : 4 * max t.toInt 1 < 2 ^ 31
  below : y.toInt + h.toInt < 2 ^ 31
  beside : x.toInt + w.toInt < 2 ^ 31
  corner : ellipseSide w h (w.toInt - 1) (h.toInt - 1) < 2 ^ 63
  area : ellipseArea w h < 2 ^ 63

/-- The corner of the box is furthest from the centre. -/
theorem ellipseSide_le {dx dy : Int} (across : |dx| ≤ w.toInt - 1) (down : |dy| ≤ h.toInt - 1) :
    ellipseSide w h dx dy ≤ ellipseSide w h (w.toInt - 1) (h.toInt - 1) := by
  have square {offset most : Int} (side : Int) (within : |offset| ≤ most) :
      offset * offset * side * side ≤ most * most * side * side := by
    have squares : offset * offset ≤ most * most := by
      rw [← abs_mul_abs_self offset]
      exact mul_self_le_mul_self (abs_nonneg offset) within
    rw [Int.mul_assoc (offset * offset), Int.mul_assoc (most * most)]
    exact Int.mul_le_mul_of_nonneg_right squares (mul_self_nonneg side)
  exact Int.add_le_add (square h.toInt across) (square w.toInt down)

/-- The corner of the box is at the largest offsets. -/
theorem ellipseSide_corner (x y w h : Int32) :
    ellipseSide w h (offsetAt x w x.toInt) (offsetAt y h y.toInt) =
      ellipseSide w h (w.toInt - 1) (h.toInt - 1) := by
  have offset (start size : Int32) : offsetAt start size start.toInt = -(size.toInt - 1) := by
    unfold offsetAt
    omega
  rw [offset, offset, ellipseSide, ellipseSide, Int.neg_mul_neg, Int.neg_mul_neg]

/-- The places of a box along one direction. -/
theorem mem_span_add {start size place : Int32} (fits : start.toInt + size.toInt < 2 ^ 31)
    (positive : 1 ≤ size.toInt) :
    place ∈ span start (start + size) ↔
      start.toInt ≤ place.toInt ∧ place.toInt < start.toInt + size.toInt := by
  have least := start.le_toInt
  have sum : (start + size).toInt = start.toInt + size.toInt :=
    (yields_add32 rfl rfl).value ⟨by omega, fits⟩
  rw [mem_span, Int32.le_iff_toInt_le, Int32.lt_iff_toInt_lt, sum]

theorem exact_ellipseTracked (wide : 1 ≤ w) (high : 1 ≤ h) :
    (ellipseTracked x y w h true t).exact = true ↔ EllipseFits x y w h t := by
  have centreX := yields_ellipseCentre x w
  have centreY := yields_ellipseCentre y h
  have quadrupled := yields_mul32 (toInt_max32 t 1) (show (4 : Int32).toInt = 4 from rfl)
  have bottom := yields_add32 (Eq.refl y.toInt) (Eq.refl h.toInt)
  have right := yields_add32 (Eq.refl x.toInt) (Eq.refl w.toInt)
  have positiveW : 1 ≤ w.toInt := Int32.le_iff_toInt_le.mp wide
  have positiveH : 1 ≤ h.toInt := Int32.le_iff_toInt_le.mp high
  have one : (1 : Int32).toInt = 1 := rfl
  rw [one] at quadrupled
  simp only [ellipseTracked, exact_bind, exact_pure, and_true, exact_each, value_add32,
    centreX.exact_iff, centreY.exact_iff, quadrupled.exact_iff, bottom.exact_iff, right.exact_iff,
    true_and]
  constructor
  · intro exact
    obtain ⟨stroke, below, dots⟩ := exact
    have first := dots y ((mem_span_add below.2 positiveH).mpr ⟨le_rfl, by omega⟩)
    obtain ⟨beside, row⟩ := first
    have corner := row x ((mem_span_add beside.2 positiveW).mpr ⟨le_rfl, by omega⟩)
    rw [(yields_ellipseDot wide high (centreX.value trivial) (centreY.value trivial)
      ⟨le_rfl, by omega⟩ ⟨le_rfl, by omega⟩).exact_iff, ellipseSide_corner] at corner
    exact ⟨by have most := stroke.2; omega, below.2, beside.2, corner.1, corner.2⟩
  · intro fits
    have least := x.le_toInt
    have lowest := y.le_toInt
    have stroke := fits.stroke
    refine ⟨⟨by omega, by omega⟩, ⟨by omega, fits.below⟩, ?_⟩
    intro yy down
    refine ⟨⟨by omega, fits.beside⟩, ?_⟩
    intro xx across
    rw [mem_span_add fits.beside positiveW] at across
    rw [mem_span_add fits.below positiveH] at down
    rw [(yields_ellipseDot wide high (centreX.value trivial) (centreY.value trivial) across
      down).exact_iff]
    refine ⟨?_, fits.area⟩
    exact Int.lt_of_le_of_lt (ellipseSide_le (abs_offsetAt across) (abs_offsetAt down)) fits.corner

/-- A filled ellipse that fits is drawn at its dots in the box. -/
theorem mem_ellipse (wide : 1 ≤ w) (high : 1 ≤ h) (fits : EllipseFits x y w h t) {write : Write} :
    write ∈ ellipse x y w h true t ↔ write.v = 0 ∧
      (x.toInt ≤ write.x.toInt ∧ write.x.toInt < x.toInt + w.toInt) ∧
      (y.toInt ≤ write.y.toInt ∧ write.y.toInt < y.toInt + h.toInt) ∧
      InEllipse x y w h write.x.toInt write.y.toInt := by
  have centreX := yields_ellipseCentre x w
  have centreY := yields_ellipseCentre y h
  have positiveW : 1 ≤ w.toInt := Int32.le_iff_toInt_le.mp wide
  have positiveH : 1 ≤ h.toInt := Int32.le_iff_toInt_le.mp high
  have decided (edge : Int64) (xx yy : Int32)
      (across : x.toInt ≤ xx.toInt ∧ xx.toInt < x.toInt + w.toInt)
      (down : y.toInt ≤ yy.toInt ∧ yy.toInt < y.toInt + h.toInt) :
      (ellipseDot w.toInt64 h.toInt64 (ellipseCentre x w).value (ellipseCentre y h).value edge
        true yy xx).value = if InEllipse x y w h xx.toInt yy.toInt then some ⟨xx, yy, 0⟩ else none :=
    (yields_ellipseDot wide high (centreX.value trivial) (centreY.value trivial) across down).value
      ⟨Int.lt_of_le_of_lt (ellipseSide_le (abs_offsetAt across) (abs_offsetAt down)) fits.corner,
        fits.area⟩
  rw [← value_ellipseTracked, ellipseTracked]
  simp only [value_bind, value_pure, value_each, value_add32, List.mem_flatten, List.mem_map]
  constructor
  · intro member
    obtain ⟨_, ⟨yy, down, rfl⟩, among⟩ := member
    obtain ⟨drawn, ⟨xx, across, rfl⟩, shown⟩ := by
      simpa only [List.mem_filterMap, List.mem_map, id_eq] using among
    rw [mem_span_add fits.beside positiveW] at across
    rw [mem_span_add fits.below positiveH] at down
    rw [decided _ xx yy across down] at shown
    split at shown
    · next inside =>
        obtain rfl := Option.some.inj shown
        exact ⟨rfl, across, down, inside⟩
    · cases shown
  · intro drawn
    obtain ⟨black, across, down, inside⟩ := drawn
    refine ⟨_, ⟨write.y, (mem_span_add fits.below positiveH).mpr down, rfl⟩, ?_⟩
    rw [List.mem_filterMap]
    refine ⟨some write, List.mem_map.mpr
      ⟨write.x, (mem_span_add fits.beside positiveW).mpr across, ?_⟩, rfl⟩
    rw [decided _ write.x write.y across down, if_pos inside, ← black]

/-- A number whose square is below another one's, times a square. -/
theorem abs_le_of_scaled {offset side other : Int} (nonneg : 0 ≤ side) (positive : 1 ≤ other)
    (less : offset * offset * other * other ≤ side * side * other * other) : |offset| ≤ side := by
  rw [Int.mul_assoc (offset * offset), Int.mul_assoc (side * side)] at less
  have square : 0 < other * other := Int.mul_pos positive positive
  have squares := Int.le_of_mul_le_mul_right less square
  rw [← abs_mul_abs_self offset] at squares
  exact (mul_self_le_mul_self_iff (abs_nonneg offset) nonneg).mpr squares

/-- A dot of the ellipse is in the box. -/
theorem inBox_of_inEllipse (wide : 1 ≤ w) (high : 1 ≤ h) {i j : Int}
    (inside : InEllipse x y w h i j) :
    (x.toInt ≤ i ∧ i < x.toInt + w.toInt) ∧ y.toInt ≤ j ∧ j < y.toInt + h.toInt := by
  have positiveW : 1 ≤ w.toInt := Int32.le_iff_toInt_le.mp wide
  have positiveH : 1 ≤ h.toInt := Int32.le_iff_toInt_le.mp high
  obtain ⟨firstLow, secondLow⟩ := ellipseSide_nonneg w h (offsetAt x w i) (offsetAt y h j)
  unfold InEllipse ellipseSide ellipseArea at inside
  have offsetX : |offsetAt x w i| ≤ w.toInt :=
    abs_le_of_scaled (by omega) positiveH (by omega)
  have offsetY : |offsetAt y h j| ≤ h.toInt := by
    apply abs_le_of_scaled (by omega) positiveW
    have swapped : h.toInt * h.toInt * w.toInt * w.toInt =
        w.toInt * w.toInt * h.toInt * h.toInt := by ring
    omega
  unfold offsetAt at offsetX offsetY
  rw [abs_le] at offsetX offsetY
  omega

/-- The dots of the ellipse are those of its writes. -/
theorem exists_write_iff (wide : 1 ≤ w) (high : 1 ≤ h) (fits : EllipseFits x y w h t) {i j : Nat} :
    (∃ write ∈ ellipse x y w h true t, write.At i j) ↔ InEllipse x y w h i j := by
  constructor
  · rintro ⟨write, member, column, row⟩
    obtain ⟨-, -, -, inside⟩ := (mem_ellipse wide high fits).mp member
    rwa [column, row] at inside
  · intro inside
    obtain ⟨across, down⟩ := inBox_of_inEllipse wide high inside
    have beside := fits.beside
    have below := fits.below
    have column : (Int32.ofInt i).toInt = i := toInt_ofInt32 ⟨by omega, by omega⟩
    have row : (Int32.ofInt j).toInt = j := toInt_ofInt32 ⟨by omega, by omega⟩
    refine ⟨⟨.ofInt i, .ofInt j, 0⟩, ?_, column, row⟩
    rw [mem_ellipse wide high fits, column, row]
    exact ⟨rfl, across, down, inside⟩

end

/-! ## When the canvas is exact -/

section

variable {canvas : GrayRaster} {width height : UInt32}

theorem exact_setDotTracked (sized : canvas.Sized width height) (write : Write) :
    (setDotTracked canvas write).exact = true ↔ IndexFits width height write := by
  unfold setDotTracked
  rw [sized.wide, sized.high]
  split
  · next within =>
      obtain ⟨place, dot⟩ := write_inside_iff.mp within
      rw [Tracked.exact_bind, Tracked.exact_pure, and_iff_left rfl, Tracked.mulAddU32,
        decide_eq_true_iff]
      constructor
      · intro fits x y _ other
        obtain ⟨rfl, rfl⟩ := other.unsigned
        exact fits
      · exact fun fits => fits _ _ place dot
  · next outside =>
      rw [Tracked.exact_pure, eq_self, true_iff]
      intro x y inside dot
      obtain ⟨rfl, rfl⟩ := dot.unsigned
      exact absurd (write_inside_iff.mpr ⟨inside, dot⟩) outside

/-- Painting is exact when the index of every write is. -/
theorem exact_foldlM_setDot (sized : canvas.Sized width height) (writes : List Write) :
    (writes.foldlM setDotTracked canvas).exact = true ↔
      ∀ write ∈ writes, IndexFits width height write := by
  induction writes generalizing canvas with
  | nil => simp
  | cons write rest ih =>
      have later := ih (value_setDotTracked canvas write ▸ setDot_sized sized write)
      rw [List.foldlM_cons, Tracked.exact_bind, exact_setDotTracked sized, later,
        List.forall_mem_cons]

/-- Painting with black changes the dots of its writes, and no other ones. -/
theorem dotAt_paint_black (sized : canvas.Sized width height) {i j : Nat}
    (inside : Inside width height i j) {writes : List Write}
    (black : ∀ write ∈ writes, write.v = 0)
    (fits : ∀ write ∈ writes, IndexFits width height write) :
    (paint canvas writes).dotAt i j =
      if ∃ write ∈ writes, write.At i j then 0 else canvas.dotAt i j := by
  unfold paint
  induction writes generalizing canvas with
  | nil => simp
  | cons write rest ih =>
      rw [List.forall_mem_cons] at black fits
      rw [List.foldl_cons, ih (setDot_sized sized write) black.2 fits.2,
        dotAt_setDot_of_fits sized inside fits.1, black.1]
      by_cases here : write.At i j
      · simp [here]
      · simp [here]

end

/-! ## Exact ellipses -/

/-- An ellipse is drawn without an overflow, and blackens its dots of the canvas and leaves the
other ones as they were. -/
structure DrawsEllipse (canvas : GrayRaster) (x y w h t : Int32) : Prop where
  exact : (drawEllipse canvas x y w h true t).exact = true
  sized : (drawEllipse canvas x y w h true t).value.Sized canvas.width canvas.height
  dots : ∀ i j, Inside canvas.width canvas.height i j →
    (drawEllipse canvas x y w h true t).value.dotAt i j =
      if InEllipse x y w h i j then 0 else canvas.dotAt i j

theorem DrawsEllipse.fits {canvas : GrayRaster} {x y w h t : Int32} (wide : 1 ≤ w) (high : 1 ≤ h)
    (draws : DrawsEllipse canvas x y w h t) : EllipseFits x y w h t := by
  have exact := draws.exact
  rw [drawEllipse, Tracked.exact_bind] at exact
  exact (exact_ellipseTracked wide high).mp exact.1

/-- A filled ellipse is drawn without an overflow, at exactly its dots, if and only if the
products of its sides are `i64`, its far sides and its stroke `i32`, and the indices of its dots
`u32`. -/
theorem drawsEllipse_iff {canvas : GrayRaster} {x y w h t : Int32}
    (valid : canvas.validate = .ok ()) (wide : 1 ≤ w) (high : 1 ≤ h) :
    DrawsEllipse canvas x y w h t ↔
      EllipseFits x y w h t ∧ ∀ i j, Inside canvas.width canvas.height i j →
        InEllipse x y w h i j → j * canvas.width.toNat + i < 2 ^ 32 := by
  have sized : canvas.Sized canvas.width canvas.height :=
    ⟨rfl, rfl, by rw [(GrayRaster.validate_iff.mp valid).2.2, Nat.mul_comm]⟩
  have exact_iff : (drawEllipse canvas x y w h true t).exact = true ↔ EllipseFits x y w h t ∧
      ∀ write ∈ ellipse x y w h true t, IndexFits canvas.width canvas.height write := by
    rw [drawEllipse, Tracked.exact_bind, exact_ellipseTracked wide high,
      exact_foldlM_setDot sized, value_ellipseTracked]
  constructor
  · intro draws
    obtain ⟨fits, indices⟩ := exact_iff.mp draws.exact
    refine ⟨fits, ?_⟩
    intro i j place inside
    obtain ⟨write, member, dot⟩ := (exists_write_iff wide high fits).mpr inside
    exact indices write member i j place dot
  · intro both
    obtain ⟨fits, indices⟩ := both
    have small : ∀ write ∈ ellipse x y w h true t,
        IndexFits canvas.width canvas.height write := by
      intro write member i j place dot
      exact indices i j place ((exists_write_iff wide high fits).mp ⟨write, member, dot⟩)
    refine ⟨exact_iff.mpr ⟨fits, small⟩, ?_, ?_⟩
    · rw [value_drawEllipse]
      exact paint_sized sized _
    · intro i j place
      have black : ∀ write ∈ ellipse x y w h true t, write.v = 0 :=
        fun write member => ((mem_ellipse wide high fits).mp member).1
      simp only [value_drawEllipse, dotAt_paint_black sized place black small,
        exists_write_iff wide high fits]

/-- A circle of three dots on a canvas of that size. -/
theorem drawsEllipse_iff_circle :
    DrawsEllipse ⟨3, 3, List.replicate 9 255⟩ 0 0 3 3 1 := by
  have fits : EllipseFits 0 0 3 3 1 := ⟨by decide, by decide, by decide, by decide, by decide⟩
  refine (drawsEllipse_iff rfl (by decide) (by decide)).mpr ⟨fits, ?_⟩
  intro i j place _
  exact Nat.lt_trans place.index_lt (by decide)

/-- The products of a circle of 65536 dots are no `i64`, and the dots in its middle are left
out. -/
theorem large_circle_not_exact :
    (⟨1, 1, [255]⟩ : GrayRaster).validate = .ok () ∧
      ¬DrawsEllipse ⟨1, 1, [255]⟩ 0 0 65536 65536 1 ∧
      InEllipse 0 0 65536 65536 32768 32768 ∧
      (ellipseDot 65536 65536 65535 65535 4 true 32768 32768).value = none := by
  refine ⟨rfl, ?_, by decide, by decide⟩
  intro draws
  exact absurd (draws.fits (by decide) (by decide)).area (by decide)

end PrinterSdk.Render
