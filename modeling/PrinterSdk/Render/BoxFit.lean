import PrinterSdk.Render.Pictures
import PrinterSdk.Render.Pixels
import Mathlib.Algebra.Order.Ring.Int

/-!
# Fitting into a box

A picture is scaled into a box with its aspect kept.  One side of the box is filled, and the
other side follows from it: rounded half up for finished labels, and cut off for the pictures
of a label.
-/

namespace PrinterSdk.Render

open PrinterSdk.Data

/-! ## Finished labels -/

/-- A side of the scaled image: `(side * limit + other / 2) / other`, cast to `u32`. -/
def scaledSide (side limit other : UInt32) : Outcome RasterError UInt32 := do
  let product ← u64OrPanic (side.toNat * limit.toNat)
  let sum ← u64OrPanic (product + other.toNat / 2)
  return .ofNat (sum / other.toNat)

/-- The size of the scaled image in `fit_mono_to_box`. -/
def scaledSize (image : MonoRaster) (width height : UInt32) :
    Outcome RasterError (UInt32 × UInt32) := do
  let across ← u64OrPanic (width.toNat * image.height.toNat)
  let down ← u64OrPanic (height.toNat * image.width.toNat)
  if across ≤ down then
    let scaledHeight ← scaledSide image.height width image.width
    return (width, max scaledHeight 1)
  else
    let scaledWidth ← scaledSide image.width height image.height
    return (max scaledWidth 1, height)

/-- A turn of the loops that scale the image. -/
def scaledPixel (image : MonoRaster) (scaledWidth scaledHeight y : Nat) (pixels : List UInt8)
    (x : Nat) : Outcome RasterError (List UInt8) := do
  let across ← u64OrPanic (x * image.width.toNat)
  let down ← u64OrPanic (y * image.height.toNat)
  let sourceX := across / scaledWidth % 2 ^ 32
  let sourceY := down / scaledHeight % 2 ^ 32
  let value ← readAt image.pixels (← indexOrPanic sourceY image.width.toNat sourceX)
  writeAt pixels (← indexOrPanic y scaledWidth x) value

/-- A turn of the loop that copies the scaled image into the box. -/
def boxRow (scaled : MonoRaster) (width left top : Nat) (pixels : List UInt8) (y : Nat) :
    Outcome RasterError (List UInt8) := do
  let source ← u32OrPanic (y * scaled.width.toNat)
  let row ← u32OrPanic (top + y)
  let destination ← indexOrPanic row width left
  let slice ← sliceAt scaled.pixels source scaled.width.toNat
  copyInto pixels destination slice

/-- The scaled image in its box. -/
def boxed (image : MonoRaster) (width height : UInt32) : Outcome RasterError MonoRaster := do
  let size ← scaledSize image width height
  let area ← u64OrPanic (width.toNat * height.toNat)
  let blank ← (MonoRaster.tryNew size.1 size.2 area).mapError .error
  let pixels ← gridLoop blank.width.toNat blank.height.toNat
    (scaledPixel image blank.width.toNat blank.height.toNat) blank.pixels
  let scaled := { blank with pixels }
  let output ← (MonoRaster.tryNew width height area).mapError .error
  let left ← subOrPanic width.toNat scaled.width.toNat
  let top ← subOrPanic height.toNat scaled.height.toNat
  let pixels ← (List.range scaled.height.toNat).foldlM
    (boxRow scaled width.toNat (left / 2) (top / 2)) output.pixels
  return { output with pixels }

/-- `fit_mono_to_box`. -/
def fitMonoToBox (image : MonoRaster) (width height : UInt32) : Outcome RenderError MonoRaster := do
  refuseIf (width = 0 ∨ height = 0 ∨ image.width = 0 ∨ image.height = 0) (.error .tooLarge)
  tooLargeOrPanic (boxed image width height)

/-- The other side of a scaled image stays within its bound. -/
theorem scaledSide_le {side limit other bound : Nat} (positive : 0 < other)
    (fits : limit * side ≤ bound * other) : (side * limit + other / 2) / other ≤ bound := by
  apply Nat.le_of_lt_succ
  apply Nat.div_lt_of_lt_mul
  rw [Nat.mul_comm side, Nat.mul_succ, Nat.mul_comm other bound]
  have half := Nat.div_lt_self positive (by decide : 1 < 2)
  omega

theorem toNat_max_one (number : UInt32) : (max number 1).toNat = max number.toNat 1 := by
  rw [UInt32.toNat_max]
  rfl

/-- A side is scaled within its bound. -/
theorem scaledSide_eq_ok {side limit other bound : UInt32} (nonzero : other ≠ 0) (some : bound ≠ 0)
    (fits : limit.toNat * side.toNat ≤ bound.toNat * other.toNat) :
    ∃ scaled, scaledSide side limit other = .ok scaled ∧
      0 < (max scaled 1).toNat ∧ (max scaled 1).toNat ≤ bound.toNat := by
  have product := u64OrPanic_mul_add side.toNat_lt limit.toNat_lt (by decide : 0 < 2 ^ 32)
  have half : other.toNat / 2 < 2 ^ 32 := Nat.lt_of_le_of_lt (Nat.div_le_self ..) other.toNat_lt
  have sum := u64OrPanic_mul_add side.toNat_lt limit.toNat_lt half
  have within := scaledSide_le (MonoRaster.toNat_pos nonzero) fits
  have positive := MonoRaster.toNat_pos some
  refine ⟨.ofNat ((side.toNat * limit.toNat + other.toNat / 2) / other.toNat), ?_, ?_, ?_⟩
  · rw [Nat.add_zero] at product
    simp only [scaledSide, product, sum, bind, Except.bind, pure, Except.pure]
  · rw [toNat_max_one]
    omega
  · rw [toNat_max_one, UInt32.toNat_ofNat_of_lt' (Nat.lt_of_le_of_lt within bound.toNat_lt)]
    omega

/-- The scaled size is in the box, and fills it in one direction. -/
theorem scaledSize_eq_ok {image : MonoRaster} {width height : UInt32}
    (filled : image.width ≠ 0 ∧ image.height ≠ 0) (box : width ≠ 0 ∧ height ≠ 0) :
    ∃ scaledWidth scaledHeight, scaledSize image width height = .ok (scaledWidth, scaledHeight) ∧
      (0 < scaledWidth.toNat ∧ scaledWidth.toNat ≤ width.toNat) ∧
      (0 < scaledHeight.toNat ∧ scaledHeight.toNat ≤ height.toNat) ∧
      (scaledWidth = width ∨ scaledHeight = height) := by
  have across := u64OrPanic_mul_add width.toNat_lt image.height.toNat_lt (by decide : 0 < 2 ^ 32)
  have down := u64OrPanic_mul_add height.toNat_lt image.width.toNat_lt (by decide : 0 < 2 ^ 32)
  rw [Nat.add_zero] at across down
  by_cases byWidth : width.toNat * image.height.toNat ≤ height.toNat * image.width.toNat
  · obtain ⟨scaled, side, within⟩ := scaledSide_eq_ok filled.1 box.2 byWidth
    refine ⟨width, max scaled 1, ?_, ⟨MonoRaster.toNat_pos box.1, le_rfl⟩, within, .inl rfl⟩
    simp only [scaledSize, across, down, byWidth, side, bind, Except.bind, pure, Except.pure,
      if_true]
  · obtain ⟨scaled, side, within⟩ := scaledSide_eq_ok filled.2 box.1 (Nat.le_of_not_le byWidth)
    refine ⟨max scaled 1, height, ?_, within, ⟨MonoRaster.toNat_pos box.2, le_rfl⟩, .inr rfl⟩
    simp only [scaledSize, across, down, byWidth, side, bind, Except.bind, pure, Except.pure,
      if_false]

section

variable {image : MonoRaster} {scaledWidth scaledHeight : UInt32}

/-- The cell of an image that a cell of the scaled image shows. -/
def scaledCell (image : MonoRaster) (scaledWidth scaledHeight x y : Nat) : UInt8 :=
  (image.pixel (x * image.width.toNat / scaledWidth) (y * image.height.toNat / scaledHeight)).getD 0

theorem scaled_lt {place length scaled : Nat} (positive : 0 < length) (inside : place < scaled) :
    place * length / scaled < length := by
  apply Nat.div_lt_of_lt_mul
  exact Nat.mul_lt_mul_of_pos_right inside positive

/-- The loops fill the scaled image. -/
theorem scaledPixels_eq_ok (valid : image.validate = .ok ())
    (small : image.width.toNat * image.height.toNat < 2 ^ 32)
    (area : scaledWidth.toNat * scaledHeight.toNat < 2 ^ 32) :
    gridLoop scaledWidth.toNat scaledHeight.toNat
        (scaledPixel image scaledWidth.toNat scaledHeight.toNat)
        (MonoRaster.white scaledWidth scaledHeight).pixels =
      .ok (tabulate scaledWidth.toNat scaledHeight.toNat
        (scaledCell image scaledWidth.toNat scaledHeight.toNat)) := by
  obtain ⟨wide, high, -⟩ := MonoRaster.validate_eq_ok valid
  obtain ⟨last, ended, length, written⟩ := gridLoop_scatter scaledWidth.toNat scaledHeight.toNat
    (scaledPixel image scaledWidth.toNat scaledHeight.toNat)
    (fun x y => y * scaledWidth.toNat + x)
    (scaledCell image scaledWidth.toNat scaledHeight.toNat)
    (List.length_replicate (n := scaledWidth.toNat * scaledHeight.toNat) (a := (0 : UInt8))) (by
      intro x y state left top length
      have across := u64OrPanic_mul_add (Nat.lt_trans left scaledWidth.toNat_lt)
        image.width.toNat_lt (by decide : 0 < 2 ^ 32)
      have down := u64OrPanic_mul_add (Nat.lt_trans top scaledHeight.toNat_lt)
        image.height.toNat_lt (by decide : 0 < 2 ^ 32)
      rw [Nat.add_zero] at across down
      have sourceX := scaled_lt (MonoRaster.toNat_pos wide) left
      have sourceY := scaled_lt (MonoRaster.toNat_pos high) top
      have castX := Nat.mod_eq_of_lt (Nat.lt_trans sourceX image.width.toNat_lt)
      have castY := Nat.mod_eq_of_lt (Nat.lt_trans sourceY image.height.toNat_lt)
      obtain ⟨value, found⟩ := MonoRaster.exists_pixel valid sourceX sourceY
      have inside : y * scaledWidth.toNat + x < state.length := by
        rw [length, Nat.mul_comm scaledWidth.toNat]
        exact cell_lt left top
      simp only [scaledPixel, except_bind_eq_ok, indexOrPanic_eq_ok, readAt_eq_ok]
      refine ⟨_, across, _, down, _, ⟨?_, rfl⟩, value, ?_, _,
        ⟨MonoRaster.place_lt_u32 area left top, rfl⟩, ?_⟩
      · rw [castX, castY]
        exact MonoRaster.place_lt_u32 small sourceX sourceY
      · rw [castX, castY]
        exact found
      · rw [writeAt_of_lt inside, scaledCell, found, Option.getD_some])
    (fun x y left top => by
      rw [Nat.mul_comm scaledWidth.toNat]
      exact cell_lt left top)
    (fun _ _ _ _ left _ within _ same => (cell_inj left within same).symm)
  rw [MonoRaster.white, ended]
  congr 1
  exact eq_tabulate (by rw [length, Nat.mul_comm]) written

/-- The scaled image is copied into its box. -/
theorem boxRows_eq_ok {width height : UInt32} {cell : Nat → Nat → UInt8} {left top : Nat}
    (across : left + scaledWidth.toNat ≤ width.toNat)
    (down : top + scaledHeight.toNat ≤ height.toNat)
    (area : width.toNat * height.toNat < 2 ^ 32) :
    (List.range scaledHeight.toNat).foldlM
        (boxRow (.ofCells scaledWidth scaledHeight cell) width.toNat left top)
        (MonoRaster.white width height).pixels =
      .ok (tabulate width.toNat height.toNat
        (overlay left top scaledWidth.toNat scaledHeight.toNat cell fun _ _ => 0)) := by
  have blank : (MonoRaster.white width height).pixels =
      tabulate width.toNat height.toNat fun _ _ => 0 := by
    rw [tabulate_const, MonoRaster.white, Nat.mul_comm]
  rw [blank]
  apply copyRows_total across down
  intro pixels row inside length
  have below : top + row < height.toNat := by omega
  have last := piece_le across below
  have room : row * scaledWidth.toNat + scaledWidth.toNat ≤
      (tabulate scaledWidth.toNat scaledHeight.toNat cell).length := by
    rw [length_tabulate]
    exact piece_le (Nat.le_of_eq (Nat.zero_add _)) inside
  have source : row * scaledWidth.toNat < 2 ^ 32 := by
    calc row * scaledWidth.toNat ≤ height.toNat * width.toNat :=
          Nat.mul_le_mul (by omega) (by omega)
      _ < 2 ^ 32 := by rwa [Nat.mul_comm]
  have destination : (top + row) * width.toNat + left < 2 ^ 32 := by
    rw [Nat.mul_comm] at area
    omega
  simp only [boxRow, except_bind_eq_ok, u32OrPanic_eq_ok, indexOrPanic_eq_ok]
  refine ⟨_, ⟨source, rfl⟩, _, ⟨Nat.lt_trans below height.toNat_lt, rfl⟩, _, ⟨destination, rfl⟩, _,
    sliceAt_of_le room, ?_⟩
  rw [MonoRaster.pixels_ofCells, MonoRaster.width_ofCells, row_tabulate inside]
  apply copyInto_of_le
  rw [List.length_map, List.length_range, length]
  exact last

end

/-- The scaled image in the middle of a white box. -/
def boxedImage (image : MonoRaster) (width height scaledWidth scaledHeight : UInt32) : MonoRaster :=
  .ofCells width height <|
    overlay ((width.toNat - scaledWidth.toNat) / 2) ((height.toNat - scaledHeight.toNat) / 2)
      scaledWidth.toNat scaledHeight.toNat
      (scaledCell image scaledWidth.toNat scaledHeight.toNat) fun _ _ => 0

theorem fitMonoToBox_eq_ok {image : MonoRaster} (valid : image.validate = .ok ())
    {width height scaledWidth scaledHeight : UInt32}
    (size : scaledSize image width height = .ok (scaledWidth, scaledHeight))
    (box : width ≠ 0 ∧ height ≠ 0)
    (small : image.width.toNat * image.height.toNat < 2 ^ 32)
    (area : width.toNat * height.toNat < 2 ^ 32)
    (across : 0 < scaledWidth.toNat ∧ scaledWidth.toNat ≤ width.toNat)
    (down : 0 < scaledHeight.toNat ∧ scaledHeight.toNat ≤ height.toNat) :
    fitMonoToBox image width height =
      .ok (boxedImage image width height scaledWidth scaledHeight) := by
  obtain ⟨wide, high, -⟩ := MonoRaster.validate_eq_ok valid
  have scaledArea : scaledWidth.toNat * scaledHeight.toNat ≤ width.toNat * height.toNat :=
    Nat.mul_le_mul across.2 down.2
  have blank := MonoRaster.tryNew_eq_ok.mpr
    ⟨MonoRaster.ne_zero_of_pos across.1, MonoRaster.ne_zero_of_pos down.1, scaledArea, rfl⟩
  have output := MonoRaster.tryNew_eq_ok.mpr ⟨box.1, box.2, Nat.le_refl _, rfl⟩
  have counted : u64OrPanic (width.toNat * height.toNat) = .ok (width.toNat * height.toNat) :=
    u64OrPanic_of_le (pixels_le_usizeMax width height)
  have scaled := scaledPixels_eq_ok valid small (Nat.lt_of_le_of_lt scaledArea area)
  have rows := @boxRows_eq_ok scaledWidth scaledHeight width height
    (scaledCell image scaledWidth.toNat scaledHeight.toNat)
    ((width.toNat - scaledWidth.toNat) / 2) ((height.toNat - scaledHeight.toNat) / 2)
    (by omega) (by omega) area
  have body : boxed image width height =
      .ok (boxedImage image width height scaledWidth scaledHeight) := by
    simp only [boxed, except_bind_eq_ok, except_mapError_eq_ok, subOrPanic_eq_ok,
      except_pure_eq_ok]
    exact ⟨_, size, _, counted, _, blank, _, scaled, _, output, _, ⟨across.2, rfl⟩, _,
      ⟨down.2, rfl⟩, _, rows, rfl⟩
  have accepted : ¬(width = 0 ∨ height = 0 ∨ image.width = 0 ∨ image.height = 0) := by
    simp only [not_or]
    exact ⟨box.1, box.2, wide, high⟩
  rw [fitMonoToBox, except_bind_eq_ok]
  refine ⟨(), (refuseIf_eq_ok _ _ _).mpr accepted, ?_⟩
  rw [tooLargeOrPanic, except_mapError_eq_ok]
  exact body

/-! ## Pictures of a label -/

/-- A side of a picture that `paste_fit` shows. -/
def fittedSide (side scaleNum width height : Int64) : Tracked Int32 := do
  let scaled ← Tracked.mul64 side scaleNum
  let area ← Tracked.mul64 width height
  let quotient ← Tracked.div64 scaled area
  Tracked.asI32 (max quotient 1)

/-- The size `(out_w, out_h)` at which `paste_fit` shows a picture. -/
def fittedSize (source : GrayRaster) (w h : Int32) : Tracked (Int32 × Int32) := do
  let width := source.width.toUInt64.toInt64
  let height := source.height.toUInt64.toInt64
  let across ← Tracked.mul64 w.toInt64 height
  let down ← Tracked.mul64 h.toInt64 width
  let outW ← fittedSide width (min across down) width height
  let outH ← fittedSide height (min across down) width height
  return (outW, outH)

/-- A picture with its aspect preserved is pasted at its fitted size. -/
theorem pasteFit_eq (source : GrayRaster) (x y w h : Int32) :
    pasteFit source x y w h true =
      let out := (fittedSize source w h).value
      pasteScaled source (x + (w - out.1) / 2) (y + (h - out.2) / 2) out.1 out.2 := by
  simp only [pasteFit, fittedSize, fittedSide, Tracked.value_bind, Tracked.value_pure,
    Tracked.value_mul64]
  rfl

section

open Tracked

/-- A side is computed exactly where the products and the side are machine integers. -/
theorem yields_fittedSide {side scaleNum width height : Int64} {first second area : Int}
    (sides : side.toInt = first) (scales : scaleNum.toInt = second)
    (areas : width.toInt * height.toInt = area) (positive : 0 < area) (machine : area < 2 ^ 63)
    (low : 0 ≤ first * second) (high : first * second < 2 ^ 63)
    (least : first * second / area < 2 ^ 31) :
    Yields (fittedSide side scaleNum width height) True fun out =>
      out.toInt = max (first * second / area) 1 := by
  have quotient : (first * second).tdiv area = first * second / area :=
    Int.tdiv_eq_ediv_of_nonneg low
  have nonneg := Int.ediv_nonneg low (Int.le_of_lt positive)
  have computed : Yields (fittedSide side scaleNum width height) _ fun out =>
      out.toInt = max (first * second / area) 1 :=
    (yields_mul64 sides scales).bind fun scaled product =>
      (yields_mul64 rfl rfl).bind fun total multiplied =>
        (yields_div64 product (multiplied.trans areas)).bind fun result divided =>
          yields_asI32 (by rw [toInt_max64, divided, quotient]; rfl)
  apply computed.mono
  · rw [iff_true, quotient, areas]
    exact ⟨⟨by omega, high⟩, ⟨by omega, machine⟩, ⟨by omega, by omega, by omega⟩,
      by omega, by omega⟩
  · exact fun _ _ same => same

/-- The quotients of both sides, by the smaller of the two products. -/
theorem aspect_sides {width height w h : Int} (wide : 0 < width) (high : 0 < height) :
    let scaleNum := min (w * height) (h * width)
    (width * scaleNum / (width * height) ≤ w ∧ height * scaleNum / (width * height) ≤ h) ∧
      (width * scaleNum / (width * height) = w ∨ height * scaleNum / (width * height) = h) := by
  intro scaleNum
  have first : width * scaleNum / (width * height) = scaleNum / height :=
    Int.mul_ediv_mul_of_pos _ _ wide
  have second : height * scaleNum / (width * height) = scaleNum / width := by
    rw [Int.mul_comm width]
    exact Int.mul_ediv_mul_of_pos _ _ high
  rw [first, second]
  refine ⟨⟨?_, ?_⟩, ?_⟩
  · calc scaleNum / height ≤ w * height / height := Int.ediv_le_ediv high (min_le_left _ _)
      _ = w := Int.mul_ediv_cancel w (Int.ne_of_gt high)
  · calc scaleNum / width ≤ h * width / width := Int.ediv_le_ediv wide (min_le_right _ _)
      _ = h := Int.mul_ediv_cancel h (Int.ne_of_gt wide)
  · rcases min_choice (w * height) (h * width) with byWidth | byHeight
    · left
      rw [show scaleNum = w * height from byWidth, Int.mul_ediv_cancel w (Int.ne_of_gt high)]
    · right
      rw [show scaleNum = h * width from byHeight, Int.mul_ediv_cancel h (Int.ne_of_gt wide)]

theorem isI64_mul {first second : Int} (firstLow : 0 ≤ first) (firstHigh : first < 2 ^ 31)
    (secondLow : 0 ≤ second) (secondHigh : second < 2 ^ 31) :
    0 ≤ first * second ∧ first * second < 2 ^ 63 := by
  refine ⟨Int.mul_nonneg firstLow secondLow, ?_⟩
  calc first * second ≤ 2 ^ 31 * 2 ^ 31 :=
        Int.mul_le_mul (Int.le_of_lt firstHigh) (Int.le_of_lt secondHigh) secondLow (by decide)
    _ < 2 ^ 63 := by decide

/-- A picture of a size within the limit is fitted into its box, and fills it in one
direction. -/
theorem yields_fittedSize {source : GrayRaster} {limit pixels : Nat} {w h : Int32}
    (sized : checkedPixelLen source.width source.height limit = .ok pixels)
    (limited : limit < 2 ^ 31) (across : 0 < w) (down : 0 < h) :
    Yields (fittedSize source w h) True fun out =>
      (1 ≤ out.1 ∧ out.1 ≤ w) ∧ (1 ≤ out.2 ∧ out.2 ≤ h) ∧ (out.1 = w ∨ out.2 = h) := by
  obtain ⟨wide, high, rfl, within⟩ := checkedPixelLen_eq_ok.mp sized
  rw [Int32.lt_iff_toInt_lt] at across down
  have acrossMost := w.toInt_lt
  have downMost := h.toInt_lt
  have one : (1 : Int32).toInt = 1 := rfl
  have zero : (0 : Int32).toInt = 0 := rfl
  rw [zero] at across down
  obtain ⟨width, widths⟩ : ∃ width : Int, width = source.width.toNat := ⟨_, rfl⟩
  obtain ⟨height, heights⟩ : ∃ height : Int, height = source.height.toNat := ⟨_, rfl⟩
  have wide : 0 < width := widths ▸ Int.natCast_pos.mpr (MonoRaster.toNat_pos wide)
  have high : 0 < height := heights ▸ Int.natCast_pos.mpr (MonoRaster.toNat_pos high)
  have area : width * height < 2 ^ 31 := by
    rw [widths, heights]
    exact_mod_cast Nat.lt_of_le_of_lt within limited
  have filled : 0 < width * height := Int.mul_pos wide high
  have widthMost : width ≤ width * height := le_mul_of_one_le_right (Int.le_of_lt wide) high
  have heightMost : height ≤ width * height := le_mul_of_one_le_left (Int.le_of_lt high) wide
  obtain ⟨sides, full⟩ := @aspect_sides width height w.toInt h.toInt wide high
  have scaleLow : 0 ≤ min (w.toInt * height) (h.toInt * width) :=
    le_min (Int.mul_nonneg (by omega) (by omega)) (Int.mul_nonneg (by omega) (by omega))
  have acrossScale := min_le_left (w.toInt * height) (h.toInt * width)
  have downScale := min_le_right (w.toInt * height) (h.toInt * width)
  have acrossProduct := isI64_mul (Int.le_of_lt across) acrossMost (Int.le_of_lt high)
    (Int.lt_of_le_of_lt heightMost area)
  have downProduct := isI64_mul (Int.le_of_lt down) downMost (Int.le_of_lt wide)
    (Int.lt_of_le_of_lt widthMost area)
  have acrossArea := (isI64_mul (Int.le_of_lt across) acrossMost (Int.le_of_lt filled) area).2
  have downArea := (isI64_mul (Int.le_of_lt down) downMost (Int.le_of_lt filled) area).2
  obtain ⟨scaleNum, scales⟩ : ∃ scaleNum, scaleNum = min (w.toInt * height) (h.toInt * width) :=
    ⟨_, rfl⟩
  rw [← scales] at sides full scaleLow acrossScale downScale
  have acrossFits : width * scaleNum < 2 ^ 63 := by
    calc width * scaleNum ≤ width * (w.toInt * height) :=
          Int.mul_le_mul_of_nonneg_left acrossScale (Int.le_of_lt wide)
      _ = w.toInt * (width * height) := Int.mul_left_comm ..
      _ < 2 ^ 63 := acrossArea
  have downFits : height * scaleNum < 2 ^ 63 := by
    calc height * scaleNum ≤ height * (h.toInt * width) :=
          Int.mul_le_mul_of_nonneg_left downScale (Int.le_of_lt high)
      _ = h.toInt * (width * height) := by rw [Int.mul_left_comm, Int.mul_comm height]
      _ < 2 ^ 63 := downArea
  have areaFits : width * height < 2 ^ 63 := by omega
  have acrossLow := Int.mul_nonneg (Int.le_of_lt wide) scaleLow
  have downLow := Int.mul_nonneg (Int.le_of_lt high) scaleLow
  have computed : Yields (fittedSize source w h) _ fun out =>
      out.1.toInt = max (width * scaleNum / (width * height)) 1 ∧
        out.2.toInt = max (height * scaleNum / (width * height)) 1 :=
    (yields_mul64 w.toInt_toInt64 ((toInt_ofU32 _).trans heights.symm)).bind fun first acrossIs =>
      (yields_mul64 h.toInt_toInt64 ((toInt_ofU32 _).trans widths.symm)).bind
        fun second downIs =>
          have smaller : (min first second).toInt = scaleNum := by
            rw [toInt_min64, acrossIs, downIs, scales]
          have areas : source.width.toUInt64.toInt64.toInt *
              source.height.toUInt64.toInt64.toInt = width * height := by
            rw [toInt_ofU32, toInt_ofU32, ← widths, ← heights]
          (yields_fittedSide ((toInt_ofU32 _).trans widths.symm) smaller areas filled areaFits
            acrossLow acrossFits (by omega)).bind fun outW outWIs =>
              (yields_fittedSide ((toInt_ofU32 _).trans heights.symm) smaller areas filled areaFits
                downLow downFits (by omega)).bind fun outH outHIs =>
                  yields_pure (outW, outH) _ ⟨outWIs, outHIs⟩
  apply computed.mono
  · rw [iff_true]
    exact ⟨⟨by omega, acrossProduct.2⟩, ⟨by omega, downProduct.2⟩, trivial, trivial, trivial⟩
  · intro _ out same
    simp only [Int32.le_iff_toInt_le, ← Int32.toInt_inj, same.1, same.2, one]
    omega

end

/-! ## Both ways of fitting -/

/-- A finished label is scaled into its box, and fills it in one direction, and so does a
picture of a label whose aspect is preserved. -/
theorem aspect_fitting :
    (∀ (image : MonoRaster) (width height : UInt32), image.validate = .ok () →
      width ≠ 0 ∧ height ≠ 0 → image.width.toNat * image.height.toNat < 2 ^ 32 →
      width.toNat * height.toNat < 2 ^ 32 →
      ∃ scaledWidth scaledHeight fitted,
        scaledSize image width height = .ok (scaledWidth, scaledHeight) ∧
        (0 < scaledWidth.toNat ∧ scaledWidth.toNat ≤ width.toNat) ∧
        (0 < scaledHeight.toNat ∧ scaledHeight.toNat ≤ height.toNat) ∧
        (scaledWidth = width ∨ scaledHeight = height) ∧
        fitMonoToBox image width height = .ok fitted ∧
        fitted.width = width ∧ fitted.height = height ∧
        fitted = boxedImage image width height scaledWidth scaledHeight) ∧
    ∀ (source : GrayRaster) (pixels : Nat) (x y w h : Int32),
      checkedPixelLen source.width source.height
        Label.ProcessingLimits.default.maxResourcePixels = .ok pixels →
      0 < w → 0 < h →
      ∃ outW outH, fittedSize source w h = ⟨(outW, outH), true⟩ ∧
        (1 ≤ outW ∧ outW ≤ w) ∧ (1 ≤ outH ∧ outH ≤ h) ∧ (outW = w ∨ outH = h) ∧
        pasteFit source x y w h true =
          pasteScaled source (x + (w - outW) / 2) (y + (h - outH) / 2) outW outH := by
  constructor
  · intro image width height valid box small area
    obtain ⟨wide, high, -⟩ := MonoRaster.validate_eq_ok valid
    obtain ⟨scaledWidth, scaledHeight, size, across, down, full⟩ :=
      scaledSize_eq_ok ⟨wide, high⟩ box
    exact ⟨scaledWidth, scaledHeight, _, size, across, down, full,
      fitMonoToBox_eq_ok valid size box small area across down, rfl, rfl, rfl⟩
  · intro source pixels x y w h sized across down
    have yields := yields_fittedSize sized (by decide) across down
    obtain ⟨outAcross, outDown, full⟩ := yields.value trivial
    refine ⟨_, _, ?_, outAcross, outDown, full, pasteFit_eq source x y w h⟩
    have exact := yields.exact_iff.mpr trivial
    rw [← exact]

/-- A row of two pixels in a higher box, and a row of three in a square one. -/
theorem aspect_fitting_rows :
    fitMonoToBox ⟨2, 1, [1, 0]⟩ 3 4 = .ok ⟨3, 4, [0, 0, 0, 1, 1, 0, 1, 1, 0, 0, 0, 0]⟩ ∧
      fittedSize ⟨3, 1, [0, 0, 0]⟩ 5 5 = ⟨(5, 1), true⟩ ∧
      pasteFit ⟨3, 1, [0, 0, 0]⟩ 0 0 5 5 true = pasteScaled ⟨3, 1, [0, 0, 0]⟩ 0 2 5 1 := by
  obtain ⟨scaledWidth, scaledHeight, fitted, size, -, -, -, ended, -, -, rfl⟩ :=
    aspect_fitting.1 ⟨2, 1, [1, 0]⟩ 3 4 rfl (by decide) (by decide) (by decide)
  obtain ⟨outW, outH, fits, -, -, -, pasted⟩ :=
    aspect_fitting.2 ⟨3, 1, [0, 0, 0]⟩ 3 0 0 5 5 rfl (by decide) (by decide)
  have sized : scaledSize ⟨2, 1, [1, 0]⟩ 3 4 = .ok (3, 2) := by decide
  have shown : fittedSize ⟨3, 1, [0, 0, 0]⟩ 5 5 = ⟨(5, 1), true⟩ := by decide
  rw [sized] at size
  rw [shown] at fits
  cases size
  cases fits
  exact ⟨ended, shown, pasted⟩

end PrinterSdk.Render
