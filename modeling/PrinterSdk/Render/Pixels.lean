import PrinterSdk.Data.Grid
import PrinterSdk.Data.Tracked
import PrinterSdk.Render.Raster

/-!
# Pixels of a raster

A raster keeps its pixels in a vector, and the loops over it compute the place of each pixel.
Arithmetic outside a machine range panics, and so does a place outside the vector.
-/

namespace PrinterSdk.Render

open PrinterSdk.Data

/-! ## Machine arithmetic -/

/-- The value of an operation that panics where it is not defined. -/
def orPanic {α : Type} (defined : Prop) [Decidable defined] (value : α) : Outcome RasterError α :=
  if defined then .ok value else panics

theorem orPanic_eq_ok {α : Type} {defined : Prop} [Decidable defined] {value result : α} :
    orPanic defined value = .ok result ↔ defined ∧ value = result := by
  by_cases isDefined : defined <;> simp [orPanic, panics, isDefined]

/-- A sum or a product of `u32`, which panics beyond them. -/
def u32OrPanic (number : Nat) : Outcome RasterError Nat := orPanic (number < 2 ^ 32) number

/-- A sum or a product of `u64`, which panics beyond them. -/
def u64OrPanic (number : Nat) : Outcome RasterError Nat := orPanic (number ≤ usizeMax) number

/-- A difference of `u32`, which panics below zero. -/
def subOrPanic (left right : Nat) : Outcome RasterError Nat := orPanic (right ≤ left) (left - right)

/-- A sum of `i32`, which panics outside them. -/
def addI32OrPanic (left right : Int32) : Outcome RasterError Int32 :=
  orPanic (IsI32 (left.toInt + right.toInt)) (left + right)

/-- `row * width + column` on `u32`. -/
def indexOrPanic (row width column : Nat) : Outcome RasterError Nat := do
  let start ← u32OrPanic (row * width)
  u32OrPanic (start + column)

/-- `pixels[index]`, which panics out of bounds. -/
def readAt (pixels : List UInt8) (index : Nat) : Outcome RasterError UInt8 :=
  match pixels[index]? with
  | some pixel => .ok pixel
  | none => panics

/-- `pixels[index] = pixel`, which panics out of bounds. -/
def writeAt (pixels : List UInt8) (index : Nat) (pixel : UInt8) :
    Outcome RasterError (List UInt8) :=
  orPanic (index < pixels.length) (pixels.set index pixel)

/-- `vec![0; length]`, which panics when no vector is that long. -/
def zeros (length : Nat) : Outcome RasterError (List UInt8) :=
  orPanic (length ≤ isizeMax) (List.replicate length 0)

theorem u32OrPanic_eq_ok {number result : Nat} :
    u32OrPanic number = .ok result ↔ number < 2 ^ 32 ∧ number = result := orPanic_eq_ok

theorem u64OrPanic_of_le {number : Nat} (fits : number ≤ usizeMax) :
    u64OrPanic number = .ok number :=
  orPanic_eq_ok.mpr ⟨fits, rfl⟩

/-- A product of `u32` numbers and another `u32` number are within `u64`. -/
theorem u64OrPanic_mul_add {left right extra : Nat} (leftBound : left < 2 ^ 32)
    (rightBound : right < 2 ^ 32) (extraBound : extra < 2 ^ 32) :
    u64OrPanic (left * right + extra) = .ok (left * right + extra) := by
  apply u64OrPanic_of_le
  have product := Nat.mul_le_mul (Nat.le_of_lt_succ leftBound) (Nat.le_of_lt_succ rightBound)
  unfold usizeMax
  omega

theorem subOrPanic_eq_ok {left right result : Nat} :
    subOrPanic left right = .ok result ↔ right ≤ left ∧ left - right = result := orPanic_eq_ok

theorem readAt_eq_ok {pixels : List UInt8} {index : Nat} {pixel : UInt8} :
    readAt pixels index = .ok pixel ↔ pixels[index]? = some pixel := by
  unfold readAt
  cases pixels[index]? <;> simp [panics]

theorem indexOrPanic_eq_ok {row width column result : Nat} :
    indexOrPanic row width column = .ok result ↔
      row * width + column < 2 ^ 32 ∧ row * width + column = result := by
  rw [indexOrPanic, except_bind_eq_ok]
  constructor
  · intro computed
    obtain ⟨start, started, ended⟩ := computed
    obtain ⟨-, rfl⟩ := orPanic_eq_ok.mp started
    exact orPanic_eq_ok.mp ended
  · intro fits
    have started := Nat.lt_of_le_of_lt (Nat.le_add_right _ _) fits.1
    exact ⟨_, orPanic_eq_ok.mpr ⟨started, rfl⟩, orPanic_eq_ok.mpr fits⟩

theorem indexOrPanic_of_lt {row width column : Nat} (fits : row * width + column < 2 ^ 32) :
    indexOrPanic row width column = .ok (row * width + column) :=
  indexOrPanic_eq_ok.mpr ⟨fits, rfl⟩

theorem writeAt_of_lt {pixels : List UInt8} {index : Nat} {pixel : UInt8}
    (inside : index < pixels.length) : writeAt pixels index pixel = .ok (pixels.set index pixel) :=
  orPanic_eq_ok.mpr ⟨inside, rfl⟩

theorem sliceAt_of_le {pixels : List UInt8} {start length : Nat}
    (fits : start + length ≤ pixels.length) :
    sliceAt pixels start length = .ok ((pixels.drop start).take length) :=
  if_pos fits

theorem copyInto_of_le {pixels slice : List UInt8} {start : Nat}
    (fits : start + slice.length ≤ pixels.length) :
    copyInto pixels start slice = .ok (splice pixels start slice) :=
  if_pos fits

namespace MonoRaster

/-- `self.pixels[y * self.width + x]`. -/
def pixel (raster : MonoRaster) (x y : Nat) : Option UInt8 :=
  raster.pixels[y * raster.width.toNat + x]?

/-! ## Valid rasters -/

theorem toNat_pos {number : UInt32} (nonzero : number ≠ 0) : 0 < number.toNat := by
  apply Nat.pos_of_ne_zero
  intro none
  exact nonzero (UInt32.toNat_inj.mp none)

theorem ne_zero_of_pos {number : UInt32} (positive : 0 < number.toNat) : number ≠ 0 := by
  rintro rfl
  exact Nat.lt_irrefl _ positive

theorem validate_iff {raster : MonoRaster} :
    raster.validate = .ok () ↔ raster.width ≠ 0 ∧ raster.height ≠ 0 ∧
      raster.pixels.length = raster.height.toNat * raster.width.toNat ∧
      ∀ pixel ∈ raster.pixels, pixel ≤ 1 := by
  rw [validate, except_bind_eq_ok]
  constructor
  · intro valid
    obtain ⟨expected, counted, checked⟩ := valid
    obtain ⟨wide, high, rfl, -⟩ := checkedPixelLen_eq_ok.mp counted
    by_cases sound : raster.pixels.length = raster.width.toNat * raster.height.toNat ∧
        raster.pixels.all (fun pixel => pixel ≤ 1) = true
    · refine ⟨wide, high, by rw [sound.1, Nat.mul_comm], ?_⟩
      simpa using sound.2
    · rw [if_neg sound] at checked
      cases checked
  · intro sound
    obtain ⟨wide, high, filled, bits⟩ := sound
    refine ⟨_, checkedPixelLen_eq_ok.mpr ⟨wide, high, rfl, pixels_le_usizeMax ..⟩, ?_⟩
    exact if_pos ⟨by rw [filled, Nat.mul_comm], by simpa using bits⟩

/-- The pixels of a valid raster are there. -/
theorem validate_eq_ok {raster : MonoRaster} (valid : raster.validate = .ok ()) :
    raster.width ≠ 0 ∧ raster.height ≠ 0 ∧
      raster.pixels.length = raster.height.toNat * raster.width.toNat := by
  obtain ⟨wide, high, filled, -⟩ := validate_iff.mp valid
  exact ⟨wide, high, filled⟩

theorem exists_pixel {raster : MonoRaster} (valid : raster.validate = .ok ()) {x y : Nat}
    (left : x < raster.width.toNat) (top : y < raster.height.toNat) :
    ∃ value, raster.pixel x y = some value := by
  have inside : y * raster.width.toNat + x < raster.pixels.length := by
    rw [(validate_eq_ok valid).2.2]
    exact cell_lt left top
  exact ⟨_, List.getElem?_eq_getElem inside⟩

theorem pixel_of_mem {raster : MonoRaster} (valid : raster.validate = .ok ()) {value : UInt8}
    (member : value ∈ raster.pixels) :
    ∃ x y, x < raster.width.toNat ∧ y < raster.height.toNat ∧ raster.pixel x y = some value := by
  obtain ⟨index, found⟩ := List.mem_iff_getElem?.mp member
  have inside := (List.getElem?_eq_some_iff.mp found).1
  rw [(validate_eq_ok valid).2.2] at inside
  obtain ⟨x, y, left, top, rfl⟩ := exists_cell inside
  exact ⟨x, y, left, top, found⟩

/-- A pixel of a valid raster is white or black. -/
theorem pixel_eq {raster : MonoRaster} (valid : raster.validate = .ok ()) {value : UInt8}
    (member : value ∈ raster.pixels) : value = 0 ∨ value = 1 := by
  have bound := UInt8.le_iff_toNat_le.mp ((validate_iff.mp valid).2.2.2 value member)
  rw [← UInt8.toNat_inj, ← UInt8.toNat_inj]
  exact Nat.le_one_iff_eq_zero_or_eq_one.mp bound

/-- The pixels of a valid raster are a grid. -/
theorem pixels_eq_tabulate {raster : MonoRaster} (valid : raster.validate = .ok ()) :
    raster.pixels = tabulate raster.width.toNat raster.height.toNat fun x y =>
      (raster.pixel x y).getD 0 := by
  apply eq_tabulate (validate_eq_ok valid).2.2
  intro x y left top
  obtain ⟨value, found⟩ := exists_pixel valid left top
  rw [found]
  exact found

/-! ## Rasters of cells -/

/-- The raster with the given pixels. -/
def ofCells (width height : UInt32) (cell : Nat → Nat → UInt8) : MonoRaster :=
  ⟨width, height, tabulate width.toNat height.toNat cell⟩

@[simp] theorem width_ofCells (width height : UInt32) (cell : Nat → Nat → UInt8) :
    (ofCells width height cell).width = width := rfl

@[simp] theorem height_ofCells (width height : UInt32) (cell : Nat → Nat → UInt8) :
    (ofCells width height cell).height = height := rfl

@[simp] theorem pixels_ofCells (width height : UInt32) (cell : Nat → Nat → UInt8) :
    (ofCells width height cell).pixels = tabulate width.toNat height.toNat cell := rfl

theorem ofCells_congr {width height : UInt32} {cell other : Nat → Nat → UInt8}
    (same : ∀ x y, x < width.toNat → y < height.toNat → cell x y = other x y) :
    ofCells width height cell = ofCells width height other := by
  rw [ofCells, tabulate_congr same, ofCells]

/-- A valid raster is one of cells. -/
theorem exists_cells {raster : MonoRaster} (valid : raster.validate = .ok ()) :
    ∃ cell, raster = ofCells raster.width raster.height cell ∧ ∀ x y, cell x y ≤ 1 := by
  refine ⟨fun x y => (raster.pixel x y).getD 0, ?_, ?_⟩
  · rw [ofCells, ← pixels_eq_tabulate valid]
  · intro x y
    simp only []
    cases found : raster.pixel x y with
    | none => exact UInt8.zero_le
    | some value => exact (validate_iff.mp valid).2.2.2 value (List.mem_of_getElem? found)

section

variable {width height : UInt32} {cell : Nat → Nat → UInt8}

theorem place_lt_u32 (small : width.toNat * height.toNat < 2 ^ 32) {x y : Nat}
    (left : x < width.toNat) (top : y < height.toNat) : y * width.toNat + x < 2 ^ 32 :=
  Nat.lt_trans (cell_lt left top) (by rwa [Nat.mul_comm])

theorem validate_ofCells (wide : width ≠ 0) (high : height ≠ 0) (bits : ∀ x y, cell x y ≤ 1) :
    (ofCells width height cell).validate = .ok () := by
  apply validate_iff.mpr
  refine ⟨wide, high, length_tabulate .., ?_⟩
  intro pixel member
  obtain ⟨x, y, -, -, rfl⟩ := mem_tabulate.mp member
  exact bits x y

end

end MonoRaster

namespace GrayRaster

/-- `GrayRaster::validate`. -/
def validate (raster : GrayRaster) : Except RasterError Unit := do
  let expected ← checkedPixelLen raster.width raster.height usizeMax
  if raster.pixels.length = expected then return () else .error .length

/-- `self.pixels[y * self.width + x]`. -/
def pixel (raster : GrayRaster) (x y : Nat) : Option UInt8 :=
  raster.pixels[y * raster.width.toNat + x]?

theorem validate_iff {raster : GrayRaster} :
    raster.validate = .ok () ↔ raster.width ≠ 0 ∧ raster.height ≠ 0 ∧
      raster.pixels.length = raster.height.toNat * raster.width.toNat := by
  rw [validate, except_bind_eq_ok]
  constructor
  · intro valid
    obtain ⟨expected, counted, checked⟩ := valid
    obtain ⟨wide, high, rfl, -⟩ := checkedPixelLen_eq_ok.mp counted
    by_cases filled : raster.pixels.length = raster.width.toNat * raster.height.toNat
    · exact ⟨wide, high, by rw [filled, Nat.mul_comm]⟩
    · rw [if_neg filled] at checked
      cases checked
  · intro sound
    obtain ⟨wide, high, filled⟩ := sound
    refine ⟨_, checkedPixelLen_eq_ok.mpr ⟨wide, high, rfl, pixels_le_usizeMax ..⟩, ?_⟩
    exact if_pos (by rw [filled, Nat.mul_comm])

/-- The pixels of a valid raster are a grid. -/
theorem pixels_eq_tabulate {raster : GrayRaster} (valid : raster.validate = .ok ()) :
    raster.pixels = tabulate raster.width.toNat raster.height.toNat fun x y =>
      (raster.pixel x y).getD 0 := by
  obtain ⟨-, -, filled⟩ := validate_iff.mp valid
  apply eq_tabulate filled
  intro x y left top
  have inside : y * raster.width.toNat + x < raster.pixels.length := by
    rw [filled]
    exact cell_lt left top
  rw [pixel, List.getElem?_eq_getElem inside, Option.getD_some]

end GrayRaster

end PrinterSdk.Render
