import PrinterSdk.Render.Pictures
import PrinterSdk.Render.Pixels

/-!
# Cropped pictures

A picture is cropped to a window of it.  The origin of the window is moved into the picture,
and its far sides are cut off where the picture ends.
-/

namespace PrinterSdk.Render

open PrinterSdk.Data PrinterSdk.Label

/-! ## Cropping with its panics -/

/-- A turn of the loop of `crop_source`, with its panics. -/
def cropRowOrPanic (source : GrayRaster) (x y w : UInt32) (pixels : List UInt8) (yy : Nat) :
    Outcome RasterError (List UInt8) := do
  let row ← u32OrPanic (y.toNat + yy)
  let start ← indexOrPanic row source.width.toNat x.toNat
  let into ← u32OrPanic (yy * w.toNat)
  let slice ← sliceAt source.pixels start w.toNat
  copyInto pixels into slice

/-- `crop_source`, with its panics. -/
def cropSourceOrPanic (source : GrayRaster) (b : Bounds) (maxPixels : Nat) :
    Outcome RenderError GrayRaster := do
  let x := cropTo b.x 0 source.width
  let y := cropTo b.y 0 source.height
  let w := cropTo b.width 1 (source.width - x)
  let h := cropTo b.height 1 (source.height - y)
  let out ← tooLargeOrPanic ((GrayRaster.tryNew w h 255 maxPixels).mapError .error)
  let pixels ← tooLargeOrPanic
    ((List.range h.toNat).foldlM (cropRowOrPanic source x y w) out.pixels)
  return { out with pixels }

/-- A row that is copied without a panic is copied by the wrapping indices too. -/
theorem cropRow_of_ok {source : GrayRaster} {x y w : UInt32} {pixels next : List UInt8} {yy : Nat}
    (copied : cropRowOrPanic source x y w pixels yy = .ok next) :
    cropRow source x y w pixels yy = next := by
  simp only [cropRowOrPanic, except_bind_eq_ok, u32OrPanic_eq_ok, indexOrPanic_eq_ok] at copied
  obtain ⟨_, ⟨rowFits, rfl⟩, _, ⟨startFits, rfl⟩, _, ⟨intoFits, rfl⟩, slice, sliced, copied⟩ := copied
  have productFits := Nat.lt_of_le_of_lt (Nat.le_add_right _ _) startFits
  have start : ((y + UInt32.ofNat yy) * source.width + x).toNat =
      (y.toNat + yy) * source.width.toNat + x.toNat := by
    simp only [UInt32.toNat_add, UInt32.toNat_mul, UInt32.toNat_ofNat', Nat.add_mod_mod,
      Nat.mod_eq_of_lt rowFits, Nat.mod_eq_of_lt productFits, Nat.mod_eq_of_lt startFits]
  have into : (UInt32.ofNat yy * w).toNat = yy * w.toNat := by
    rw [UInt32.toNat_mul, UInt32.toNat_ofNat', Nat.mod_mul_mod, Nat.mod_eq_of_lt intoFits]
  unfold sliceAt at sliced
  split at sliced
  · next inside =>
      obtain rfl := Except.ok.inj sliced
      have length : ((source.pixels.drop ((y.toNat + yy) * source.width.toNat + x.toNat)).take
          w.toNat).length = w.toNat := by
        rw [List.length_take, List.length_drop]
        omega
      unfold copyInto at copied
      rw [length] at copied
      split at copied
      · rw [cropRow, start, into]
        exact Except.ok.inj copied
      · cases copied
  · cases sliced

/-- What is cropped without a panic is what the wrapping indices crop. -/
theorem cropSource_of_ok {source out : GrayRaster} {b : Bounds} {maxPixels : Nat}
    (cropped : cropSourceOrPanic source b maxPixels = .ok out) :
    cropSource source b maxPixels = .ok out := by
  simp only [cropSourceOrPanic, tooLargeOrPanic, except_bind_eq_ok, except_mapError_eq_ok,
    except_pure_eq_ok] at cropped
  obtain ⟨blank, made, pixels, copied, rfl⟩ := cropped
  have rows := foldl_of_foldlM (fun _ _ _ copied => cropRow_of_ok copied) copied
  simp only [cropSource, orTooLarge, except_bind_eq_ok, except_mapError_eq_ok, except_pure_eq_ok]
  exact ⟨blank, made, by rw [rows]⟩

/-! ## The window in the picture -/

/-- A place is in the window along one direction. -/
def InWindow (origin extent : Int64) (place : Nat) : Prop :=
  origin.toInt ≤ place ∧ (place : Int) < origin.toInt + extent.toInt

instance (origin extent : Int64) (place : Nat) : Decidable (InWindow origin extent place) :=
  inferInstanceAs (Decidable (_ ∧ _))

/-- The first place of a picture in the window, if there is one. -/
def windowStart (origin : Int64) : Nat := (max origin.toInt 0).toNat

/-- The end of the window in a picture. -/
def windowEnd (origin extent : Int64) (length : UInt32) : Nat :=
  (min (origin.toInt + extent.toInt) length.toNat).toNat

theorem inWindow_iff {origin extent : Int64} {length : UInt32} {place : Nat}
    (inside : place < length.toNat) :
    InWindow origin extent place ↔
      windowStart origin ≤ place ∧ place < windowEnd origin extent length := by
  unfold InWindow windowStart windowEnd
  omega

/-- The window meets the picture. -/
def Meets (source : GrayRaster) (b : Bounds) : Prop :=
  ∃ i j, i < source.width.toNat ∧ j < source.height.toNat ∧ InWindow b.x b.width i ∧
    InWindow b.y b.height j

/-- The pixels of a picture that are in the window. -/
def intersection (source : GrayRaster) (b : Bounds) : GrayRaster :=
  let left := windowStart b.x
  let top := windowStart b.y
  let width := windowEnd b.x b.width source.width - left
  let height := windowEnd b.y b.height source.height - top
  ⟨.ofNat width, .ofNat height, tabulate width height fun i j =>
    (source.pixel (left + i) (top + j)).getD 0⟩

/-- The end of the window stays where it is when its begin is moved into the picture. -/
def KeepsEnd (origin extent : Int64) (length : UInt32) : Prop :=
  0 ≤ origin.toInt ∨ (length.toNat : Int) ≤ origin.toInt + extent.toInt

/-! ## What is cropped -/

theorem toNat_cropTo {value low : Int64} {high : UInt32} (nonneg : 0 ≤ low.toInt) :
    (cropTo value low high).toNat = (min (max value.toInt low.toInt) high.toNat).toNat := by
  have bound := high.toNat_lt
  have least : (min (max value low) high.toUInt64.toInt64).toInt =
      min (max value.toInt low.toInt) high.toNat := by
    rw [toInt_min64, toInt_max64, toInt_ofU32]
  have positive : 0 ≤ min (max value low) high.toUInt64.toInt64 := by
    rw [Int64.le_iff_toInt_le, least, show (0 : Int64).toInt = 0 from rfl]
    omega
  rw [cropTo, UInt64.toNat_toUInt32, Int64.toNat_toUInt64_of_le positive, ← Int64.toNat_toInt,
    least]
  apply Nat.mod_eq_of_lt
  omega

/-- The origin is moved to the first place of the window in the picture. -/
theorem toNat_cropStart {origin extent : Int64} {length : UInt32} {place : Nat}
    (inside : place < length.toNat) (met : InWindow origin extent place) :
    (cropTo origin 0 length).toNat = windowStart origin ∧
      windowStart origin < length.toNat := by
  have zero : (0 : Int64).toInt = 0 := rfl
  rw [toNat_cropTo (by rw [zero]), zero]
  unfold InWindow at met
  unfold windowStart
  omega

/-- The extent ends where the window does, if the window begins in the picture or reaches its
end. -/
theorem toNat_cropExtent {origin extent : Int64} {length : UInt32} {place : Nat}
    (inside : place < length.toNat) (met : InWindow origin extent place)
    (positive : 0 < extent.toInt) {cropped : UInt32}
    (extended : cropped = cropTo extent 1 (length - cropTo origin 0 length)) :
    0 < cropped.toNat ∧ windowStart origin + cropped.toNat ≤ length.toNat ∧
      (cropped.toNat = windowEnd origin extent length - windowStart origin ↔
        KeepsEnd origin extent length) := by
  obtain ⟨started, least⟩ := toNat_cropStart inside met
  have one : (1 : Int64).toInt = 1 := rfl
  have rest : (length - cropTo origin 0 length).toNat = length.toNat - windowStart origin := by
    rw [UInt32.toNat_sub_of_le _ _ (UInt32.le_iff_toNat_le.mpr (by omega)), started]
  have sized : (cropped.toNat : Int) =
      min extent.toInt ((length.toNat : Int) - windowStart origin) := by
    rw [extended, toNat_cropTo (by rw [one]; decide), one, rest, max_eq_left (by omega)]
    omega
  have begins : (windowStart origin : Int) = max origin.toInt 0 :=
    Int.toNat_of_nonneg (le_max_right _ _)
  have ends : (windowEnd origin extent length : Int) =
      min (origin.toInt + extent.toInt) length.toNat :=
    Int.toNat_of_nonneg (le_min (by have := met.1; have := met.2; omega) (by omega))
  have reaches := lt_of_le_of_lt (Int.natCast_nonneg place) met.2
  clear extended met rest started inside
  unfold KeepsEnd
  generalize windowStart origin = start at *
  generalize windowEnd origin extent length = finish at *
  generalize cropped.toNat = count at *
  rcases le_total 0 origin.toInt with inPicture | before
  · rw [max_eq_left inPicture] at begins
    omega
  · rw [max_eq_right before] at begins
    omega

section

variable {source : GrayRaster} {x y w h : UInt32}

/-- The rows of a rectangle are copied. -/
theorem cropRows_eq_ok (valid : source.validate = .ok ())
    (across : x.toNat + w.toNat ≤ source.width.toNat)
    (down : y.toNat + h.toNat ≤ source.height.toNat)
    (fits : (y.toNat + h.toNat - 1) * source.width.toNat + x.toNat < 2 ^ 32) :
    (List.range h.toNat).foldlM (cropRowOrPanic source x y w)
        (List.replicate (w.toNat * h.toNat) 255) =
      .ok (tabulate w.toNat h.toNat fun i j =>
        (source.pixel (x.toNat + i) (y.toNat + j)).getD 0) := by
  obtain ⟨-, -, filled⟩ := GrayRaster.validate_iff.mp valid
  have rows := @copyRows_total _ _ w.toNat h.toNat 0 0 w.toNat h.toNat (cropRowOrPanic source x y w)
    (fun i j => (source.pixel (x.toNat + i) (y.toNat + j)).getD 0) (fun _ _ => 255)
    (Nat.le_of_eq (Nat.zero_add _)) (Nat.le_of_eq (Nat.zero_add _)) (by
      intro pixels row inside length
      have below : y.toNat + row < source.height.toNat := by omega
      have startFits : (y.toNat + row) * source.width.toNat + x.toNat < 2 ^ 32 := by
        apply Nat.lt_of_le_of_lt _ fits
        exact Nat.add_le_add_right (Nat.mul_le_mul_right _ (by omega)) _
      have intoFits : row * w.toNat < 2 ^ 32 := by
        calc row * w.toNat ≤ (y.toNat + row) * source.width.toNat :=
              Nat.mul_le_mul (Nat.le_add_left _ _) (by omega)
          _ < 2 ^ 32 := Nat.lt_of_le_of_lt (Nat.le_add_right _ _) startFits
      have room : (y.toNat + row) * source.width.toNat + x.toNat + w.toNat ≤
          source.pixels.length := by
        rw [filled]
        exact piece_le across below
      have piece := @slice_tabulate _ _ _ (fun i j => (source.pixel i j).getD 0) _ _ _ across below
      rw [← GrayRaster.pixels_eq_tabulate valid] at piece
      simp only [cropRowOrPanic, except_bind_eq_ok, u32OrPanic_eq_ok, indexOrPanic_eq_ok]
      refine ⟨_, ⟨Nat.lt_trans below source.height.toNat_lt, rfl⟩, _, ⟨startFits, rfl⟩, _,
        ⟨intoFits, rfl⟩, _, sliceAt_of_le room, ?_⟩
      rw [piece, Nat.zero_add, Nat.add_zero]
      apply copyInto_of_le
      rw [List.length_map, List.length_range, length]
      exact piece_le (Nat.le_of_eq (Nat.zero_add _)) inside)
  rw [tabulate_const, Nat.mul_comm, overlay_whole] at rows
  exact rows

/-- A raster of the size of the picture at most is made, and then its rows are copied. -/
theorem cropSourceOrPanic_eq_ok {b : Bounds} {maxPixels : Nat} {out : GrayRaster}
    (within : source.width.toNat * source.height.toNat ≤ maxPixels)
    (starts : cropTo b.x 0 source.width = x ∧ cropTo b.y 0 source.height = y)
    (extents : cropTo b.width 1 (source.width - x) = w ∧
      cropTo b.height 1 (source.height - y) = h)
    (wide : 0 < w.toNat ∧ w.toNat ≤ source.width.toNat)
    (high : 0 < h.toNat ∧ h.toNat ≤ source.height.toNat) :
    cropSourceOrPanic source b maxPixels = .ok out ↔
      ∃ pixels, (List.range h.toNat).foldlM (cropRowOrPanic source x y w)
          (List.replicate (w.toNat * h.toNat) 255) = .ok pixels ∧ ⟨w, h, pixels⟩ = out := by
  have counted : checkedPixelLen w h maxPixels = .ok (w.toNat * h.toNat) :=
    checkedPixelLen_eq_ok.mpr ⟨MonoRaster.ne_zero_of_pos wide.1,
      MonoRaster.ne_zero_of_pos high.1, rfl, Nat.le_trans (Nat.mul_le_mul wide.2 high.2) within⟩
  have made : GrayRaster.tryNew w h 255 maxPixels =
      .ok ⟨w, h, List.replicate (w.toNat * h.toNat) 255⟩ := by
    rw [GrayRaster.tryNew, counted]
    rfl
  simp only [cropSourceOrPanic, starts, extents, made, tooLargeOrPanic, except_bind_eq_ok,
    except_mapError_eq_ok, except_pure_eq_ok]
  constructor
  · intro cropped
    obtain ⟨blank, blanked, pixels, copied, same⟩ := cropped
    obtain rfl := Except.ok.inj blanked
    exact ⟨pixels, copied, same⟩
  · intro cropped
    obtain ⟨pixels, copied, same⟩ := cropped
    exact ⟨_, rfl, pixels, copied, same⟩

end

/-- The crop of a picture is its intersection with the window if and only if the window does
not begin before the picture, or reaches its end, in both directions, and the indices of the
cropped rows are within `u32`. -/
theorem crop_eq_intersection_iff {source : GrayRaster} {b : Bounds} {maxPixels : Nat}
    (valid : source.validate = .ok ())
    (within : source.width.toNat * source.height.toNat ≤ maxPixels)
    (positive : 0 < b.width ∧ 0 < b.height) (meets : Meets source b) :
    cropSourceOrPanic source b maxPixels = .ok (intersection source b) ↔
      (KeepsEnd b.x b.width source.width ∧ KeepsEnd b.y b.height source.height) ∧
        (windowEnd b.y b.height source.height - 1) * source.width.toNat + windowStart b.x <
          2 ^ 32 := by
  obtain ⟨i, j, left, top, across, down⟩ := meets
  obtain ⟨startX, leftmost⟩ := toNat_cropStart left across
  obtain ⟨startY, topmost⟩ := toNat_cropStart top down
  obtain ⟨wide, right, widthIff⟩ :=
    toNat_cropExtent left across (Int64.lt_iff_toInt_lt.mp positive.1) rfl
  obtain ⟨high, bottom, heightIff⟩ :=
    toNat_cropExtent top down (Int64.lt_iff_toInt_lt.mp positive.2) rfl
  rw [cropSourceOrPanic_eq_ok within ⟨rfl, rfl⟩ ⟨rfl, rfl⟩ ⟨wide, by omega⟩ ⟨high, by omega⟩]
  generalize cropTo b.x 0 source.width = x at *
  generalize cropTo b.y 0 source.height = y at *
  generalize cropTo b.width 1 (source.width - x) = w at *
  generalize cropTo b.height 1 (source.height - y) = h at *
  have lastX := (inWindow_iff left).mp across
  have lastY := (inWindow_iff top).mp down
  have endX : windowEnd b.x b.width source.width ≤ source.width.toNat := by
    unfold windowEnd
    omega
  have endY : windowEnd b.y b.height source.height ≤ source.height.toNat := by
    unfold windowEnd
    omega
  have machineX := source.width.toNat_lt
  have machineY := source.height.toNat_lt
  constructor
  · intro cropped
    obtain ⟨pixels, copied, same⟩ := cropped
    obtain ⟨sameWidth, sameHeight, -⟩ := GrayRaster.mk.inj same
    have reachX := widthIff.mp (by
      rw [sameWidth, UInt32.toNat_ofNat', Nat.mod_eq_of_lt (by omega)])
    have reachY := heightIff.mp (by
      rw [sameHeight, UInt32.toNat_ofNat', Nat.mod_eq_of_lt (by omega)])
    refine ⟨⟨reachX, reachY⟩, ?_⟩
    obtain ⟨state, next, lastRow⟩ := loop_ran (List.mem_range.mpr (Nat.sub_one_lt_of_lt high)) copied
    simp only [cropRowOrPanic, except_bind_eq_ok, u32OrPanic_eq_ok, indexOrPanic_eq_ok] at lastRow
    obtain ⟨_, ⟨-, rfl⟩, _, ⟨fits, -⟩, -⟩ := lastRow
    have ends := heightIff.mpr reachY
    rw [startX, startY] at fits
    have last : windowStart b.y + (h.toNat - 1) = windowEnd b.y b.height source.height - 1 := by
      omega
    rwa [last] at fits
  · intro reaches
    obtain ⟨⟨reachX, reachY⟩, fits⟩ := reaches
    have width := widthIff.mpr reachX
    have height := heightIff.mpr reachY
    have last : y.toNat + h.toNat - 1 = windowEnd b.y b.height source.height - 1 := by omega
    refine ⟨_, cropRows_eq_ok valid (by omega) (by omega) (by rwa [last, startX]), ?_⟩
    rw [intersection, ← width, ← height, startX, startY, UInt32.ofNat_toNat, UInt32.ofNat_toNat]

/-- A window that ends behind the picture. -/
theorem crop_eq_intersection_iff_far :
    cropSourceOrPanic ⟨4, 1, [10, 20, 30, 40]⟩ ⟨1, 0, 5, 1⟩ 4 = .ok ⟨3, 1, [20, 30, 40]⟩ := by
  have meets : Meets ⟨4, 1, [10, 20, 30, 40]⟩ ⟨1, 0, 5, 1⟩ :=
    ⟨1, 0, by decide, by decide, by decide, by decide⟩
  exact (crop_eq_intersection_iff rfl (Nat.le_refl _) (by decide) meets).mpr
    ⟨⟨.inl (by decide), .inl (by decide)⟩, by decide⟩

/-- A window that begins before the picture is moved into it, and shows a pixel too many. -/
theorem crop_before_picture :
    Meets ⟨4, 1, [10, 20, 30, 40]⟩ ⟨-1, 0, 2, 1⟩ ∧
      intersection ⟨4, 1, [10, 20, 30, 40]⟩ ⟨-1, 0, 2, 1⟩ = ⟨1, 1, [10]⟩ ∧
      cropSourceOrPanic ⟨4, 1, [10, 20, 30, 40]⟩ ⟨-1, 0, 2, 1⟩ 4 = .ok ⟨2, 1, [10, 20]⟩ ∧
      cropSourceOrPanic ⟨4, 1, [10, 20, 30, 40]⟩ ⟨-1, 0, 2, 1⟩ 4 ≠
        .ok (intersection ⟨4, 1, [10, 20, 30, 40]⟩ ⟨-1, 0, 2, 1⟩) := by
  have meets : Meets ⟨4, 1, [10, 20, 30, 40]⟩ ⟨-1, 0, 2, 1⟩ :=
    ⟨0, 0, by decide, by decide, by decide, by decide⟩
  exact ⟨meets, by decide, by decide, by decide⟩

end PrinterSdk.Render
