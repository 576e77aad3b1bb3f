import PrinterSdk.Render.Pixels

/-!
# Turned and mirrored rasters

A raster is turned by quarters and mirrored from left to right.  The turns and the mirror
image are the symmetries of a rectangle.
-/

namespace PrinterSdk.Render

open PrinterSdk.Data

/-- `Rotation`. -/
inductive Rotation where
  | zero
  | clockwise90
  | half
  | counterClockwise90
  deriving DecidableEq, Repr

namespace MonoRaster

/-- The place `(nx, ny)` of a pixel in the turned raster. -/
def turnedPlace (raster : MonoRaster) (r : Rotation) (x y : Nat) :
    Outcome RasterError (Nat × Nat) :=
  if r = .clockwise90 then do
    let last ← subOrPanic raster.height.toNat 1
    let nx ← subOrPanic last y
    return (nx, x)
  else do
    let last ← subOrPanic raster.width.toNat 1
    let ny ← subOrPanic last x
    return (y, ny)

/-- A turn of the loops of `rotate`. -/
def turnPixel (raster : MonoRaster) (r : Rotation) (y : Nat) (pixels : List UInt8) (x : Nat) :
    Outcome RasterError (List UInt8) := do
  let place ← raster.turnedPlace r x y
  let value ← readAt raster.pixels (← indexOrPanic y raster.width.toNat x)
  writeAt pixels (← indexOrPanic place.2 raster.height.toNat place.1) value

/-- `MonoRaster::rotate`. -/
def rotate (raster : MonoRaster) (r : Rotation) : Outcome RasterError MonoRaster :=
  match r with
  | .zero => .ok raster
  | .half => .ok { raster with pixels := raster.pixels.reverse }
  | .clockwise90 | .counterClockwise90 => do
      let pixels ← gridLoop raster.width.toNat raster.height.toNat (raster.turnPixel r)
        (List.replicate raster.pixels.length 0)
      return ⟨raster.height, raster.width, pixels⟩

/-- A turn of the loops of `mirror_horizontal`. -/
def mirrorPixel (raster : MonoRaster) (y : Nat) (pixels : List UInt8) (x : Nat) :
    Outcome RasterError (List UInt8) := do
  let start ← u32OrPanic (y * raster.width.toNat)
  let stop ← u32OrPanic (start + raster.width.toNat)
  let last ← subOrPanic stop 1
  let value ← readAt raster.pixels (← subOrPanic last x)
  writeAt pixels (← indexOrPanic y raster.width.toNat x) value

/-- `MonoRaster::mirror_horizontal`. -/
def mirrorHorizontal (raster : MonoRaster) : Outcome RasterError MonoRaster := do
  let pixels ← gridLoop raster.width.toNat raster.height.toNat raster.mirrorPixel raster.pixels
  return { raster with pixels }

/-! ## Turned cells -/

/-- The number of black pixels. -/
def blackPixels (raster : MonoRaster) : Nat := raster.pixels.count 1

section

variable {width height : UInt32} {cell : Nat → Nat → UInt8}

/-- A loop of quarter turns writes every pixel to its turned place. -/
theorem turn_ofCells (small : width.toNat * height.toNat < 2 ^ 32) (r : Rotation)
    (place back : Nat → Nat → Nat × Nat)
    (placed : ∀ x y, x < width.toNat → y < height.toNat →
      (ofCells width height cell).turnedPlace r x y = .ok (place x y))
    (inside : ∀ x y, x < width.toNat → y < height.toNat →
      (place x y).1 < height.toNat ∧ (place x y).2 < width.toNat ∧
        back (place x y).1 (place x y).2 = (x, y))
    (onto : ∀ x y, x < height.toNat → y < width.toNat →
      (back x y).1 < width.toNat ∧ (back x y).2 < height.toNat ∧
        place (back x y).1 (back x y).2 = (x, y)) :
    gridLoop width.toNat height.toNat ((ofCells width height cell).turnPixel r)
        (List.replicate (ofCells width height cell).pixels.length 0) =
      .ok (tabulate height.toNat width.toNat fun x y => cell (back x y).1 (back x y).2) := by
  have turned : height.toNat * width.toNat < 2 ^ 32 := by rwa [Nat.mul_comm]
  have length : (ofCells width height cell).pixels.length = width.toNat * height.toNat := by
    rw [ofCells, length_tabulate, Nat.mul_comm]
  obtain ⟨last, ended, sized, written⟩ := gridLoop_scatter width.toNat height.toNat
    ((ofCells width height cell).turnPixel r)
    (fun x y => (place x y).2 * height.toNat + (place x y).1) cell
    (List.length_replicate.trans length) (by
      intro x y state left top sized
      obtain ⟨across, down, -⟩ := inside x y left top
      have within : (place x y).2 * height.toNat + (place x y).1 < state.length := by
        rw [sized]
        exact cell_lt across down
      simp only [turnPixel, except_bind_eq_ok, indexOrPanic_eq_ok, readAt_eq_ok]
      exact ⟨_, placed x y left top, _, ⟨place_lt_u32 small left top, rfl⟩, _,
        getElem?_tabulate left top, _, ⟨place_lt_u32 turned across down, rfl⟩,
        writeAt_of_lt within⟩)
    (fun x y left top => cell_lt (inside x y left top).1 (inside x y left top).2.1) (by
      intro x y i j left top within below same
      obtain ⟨across, -, first⟩ := inside x y left top
      obtain ⟨further, -, second⟩ := inside i j within below
      obtain ⟨rows, columns⟩ := cell_inj across further same
      rw [rows, columns, second] at first
      exact ⟨congrArg Prod.fst first.symm, congrArg Prod.snd first.symm⟩)
  rw [ended]
  congr 1
  apply eq_tabulate sized
  intro x y left top
  obtain ⟨across, down, found⟩ := onto x y left top
  have stored := written (back x y).1 (back x y).2 across down
  rw [found] at stored
  exact stored

theorem rotate_clockwise (small : width.toNat * height.toNat < 2 ^ 32) :
    (ofCells width height cell).rotate .clockwise90 =
      .ok (ofCells height width fun x y => cell y (height.toNat - 1 - x)) := by
  have loop := @turn_ofCells width height cell small .clockwise90
    (fun x y => (height.toNat - 1 - y, x)) (fun x y => (y, height.toNat - 1 - x))
    (by
      intro x y left top
      simp only [turnedPlace, if_true, except_bind_eq_ok, subOrPanic_eq_ok]
      exact ⟨_, ⟨Nat.one_le_of_lt top, rfl⟩, _, ⟨Nat.le_sub_one_of_lt top, rfl⟩, rfl⟩)
    (by
      intro x y left top
      refine ⟨by omega, left, ?_⟩
      rw [Nat.sub_sub_self (Nat.le_sub_one_of_lt top)])
    (by
      intro x y left top
      refine ⟨top, by omega, ?_⟩
      rw [Nat.sub_sub_self (Nat.le_sub_one_of_lt left)])
  simp only [rotate, ofCells, except_bind_eq_ok, except_pure_eq_ok]
  exact ⟨_, loop, rfl⟩

theorem rotate_counterClockwise (small : width.toNat * height.toNat < 2 ^ 32) :
    (ofCells width height cell).rotate .counterClockwise90 =
      .ok (ofCells height width fun x y => cell (width.toNat - 1 - y) x) := by
  have loop := @turn_ofCells width height cell small .counterClockwise90
    (fun x y => (y, width.toNat - 1 - x)) (fun x y => (width.toNat - 1 - y, x))
    (by
      intro x y left top
      simp only [turnedPlace, reduceCtorEq, if_false, except_bind_eq_ok, subOrPanic_eq_ok]
      exact ⟨_, ⟨Nat.one_le_of_lt left, rfl⟩, _, ⟨Nat.le_sub_one_of_lt left, rfl⟩, rfl⟩)
    (by
      intro x y left top
      refine ⟨top, by omega, ?_⟩
      rw [Nat.sub_sub_self (Nat.le_sub_one_of_lt left)])
    (by
      intro x y left top
      refine ⟨by omega, left, ?_⟩
      rw [Nat.sub_sub_self (Nat.le_sub_one_of_lt top)])
  simp only [rotate, ofCells, except_bind_eq_ok, except_pure_eq_ok]
  exact ⟨_, loop, rfl⟩

theorem rotate_half :
    (ofCells width height cell).rotate .half =
      .ok (ofCells width height fun x y => cell (width.toNat - 1 - x) (height.toNat - 1 - y)) := by
  rw [rotate, ofCells, reverse_tabulate, ofCells]

theorem mirrorHorizontal_ofCells (small : width.toNat * height.toNat < 2 ^ 32) :
    (ofCells width height cell).mirrorHorizontal =
      .ok (ofCells width height fun x y => cell (width.toNat - 1 - x) y) := by
  obtain ⟨last, ended, sized, written⟩ := gridLoop_scatter width.toNat height.toNat
    (ofCells width height cell).mirrorPixel (fun x y => y * width.toNat + x)
    (fun x y => cell (width.toNat - 1 - x) y) (length_tabulate ..) (by
      intro x y state left top sized
      have within : y * width.toNat + x < state.length := by
        rw [sized]
        exact cell_lt left top
      have row : y * width.toNat + width.toNat < 2 ^ 32 := by
        calc y * width.toNat + width.toNat = (y + 1) * width.toNat := (Nat.succ_mul ..).symm
          _ ≤ height.toNat * width.toNat := Nat.mul_le_mul_right _ top
          _ < 2 ^ 32 := by rwa [Nat.mul_comm]
      have source : y * width.toNat + width.toNat - 1 - x =
          y * width.toNat + (width.toNat - 1 - x) := by omega
      simp only [mirrorPixel, width_ofCells, pixels_ofCells, except_bind_eq_ok,
        u32OrPanic_eq_ok, subOrPanic_eq_ok, readAt_eq_ok, indexOrPanic_eq_ok]
      refine ⟨_, ⟨Nat.lt_of_le_of_lt (Nat.le_add_right ..) row, rfl⟩, _, ⟨row, rfl⟩, _,
        ⟨?_, rfl⟩, _, ⟨?_, rfl⟩, _, ?_, _, ⟨place_lt_u32 small left top, rfl⟩,
        writeAt_of_lt within⟩
      · omega
      · omega
      · rw [source]
        exact getElem?_tabulate (by omega) top)
    (fun x y left top => cell_lt left top)
    (fun x y i j left _ within _ same => (cell_inj left within same).symm.imp id id)
  simp only [mirrorHorizontal, except_bind_eq_ok, except_pure_eq_ok]
  refine ⟨last, ended, ?_⟩
  rw [eq_tabulate sized written]
  rfl

/-! ## Black pixels -/

theorem blackPixels_mirrored (width height : UInt32) (cell : Nat → Nat → UInt8) :
    (ofCells width height fun x y => cell (width.toNat - 1 - x) y).blackPixels =
      (ofCells width height cell).blackPixels :=
  (mirror_perm width.toNat height.toNat cell).count_eq 1

theorem blackPixels_transposed (width height : UInt32) (cell : Nat → Nat → UInt8) :
    (ofCells height width fun x y => cell y x).blackPixels =
      (ofCells width height cell).blackPixels :=
  (transpose_perm width.toNat height.toNat cell).count_eq 1

/-- Every turn returns a valid raster with as many black pixels. -/
theorem rotate_valid (small : width.toNat * height.toNat < 2 ^ 32) (wide : width ≠ 0)
    (high : height ≠ 0) (bits : ∀ x y, cell x y ≤ 1) (r : Rotation) :
    ∃ turned, (ofCells width height cell).rotate r = .ok turned ∧ turned.validate = .ok () ∧
      turned.blackPixels = (ofCells width height cell).blackPixels := by
  cases r with
  | zero => exact ⟨_, rfl, validate_ofCells wide high bits, rfl⟩
  | clockwise90 =>
      refine ⟨_, rotate_clockwise small, validate_ofCells high wide fun _ _ => bits .., ?_⟩
      exact (blackPixels_mirrored height width fun x y => cell y x).trans
        (blackPixels_transposed width height cell)
  | half =>
      refine ⟨_, rotate_half, validate_ofCells wide high fun _ _ => bits .., ?_⟩
      rw [blackPixels, pixels_ofCells, ← reverse_tabulate, List.count_reverse]
      rfl
  | counterClockwise90 =>
      refine ⟨_, rotate_counterClockwise small, validate_ofCells high wide fun _ _ => bits .., ?_⟩
      exact (blackPixels_transposed width height fun x y => cell (width.toNat - 1 - x) y).trans
        (blackPixels_mirrored width height cell)

end

/-! ## The symmetries of a rectangle -/

/-- Turns and the mirror image of a raster compose as the symmetries of a rectangle do, and
each returns a valid raster with as many black pixels. -/
theorem rotate_mirror_symmetries (raster : MonoRaster) (valid : raster.validate = .ok ())
    (small : raster.width.toNat * raster.height.toNat < 2 ^ 32) :
    (raster.rotate .counterClockwise90 >>= fun turned => turned.rotate .clockwise90) =
        .ok raster ∧
      (raster.rotate .clockwise90 >>= fun turned => turned.rotate .counterClockwise90) =
        .ok raster ∧
      (raster.rotate .clockwise90 >>= fun turned => turned.rotate .clockwise90 >>=
        fun turned => turned.rotate .clockwise90 >>= fun turned => turned.rotate .clockwise90) =
        .ok raster ∧
      raster.rotate .half =
        (raster.rotate .clockwise90 >>= fun turned => turned.rotate .clockwise90) ∧
      (raster.mirrorHorizontal >>= mirrorHorizontal) = .ok raster ∧
      (raster.mirrorHorizontal >>= fun mirrored => mirrored.rotate .clockwise90 >>=
        mirrorHorizontal) = raster.rotate .counterClockwise90 ∧
      (∀ r, ∃ turned, raster.rotate r = .ok turned ∧ turned.validate = .ok () ∧
        turned.blackPixels = raster.blackPixels) ∧
      ∃ mirrored, raster.mirrorHorizontal = .ok mirrored ∧ mirrored.validate = .ok () ∧
        mirrored.blackPixels = raster.blackPixels := by
  obtain ⟨wide, high, -⟩ := validate_eq_ok valid
  obtain ⟨cell, cells, bits⟩ := exists_cells valid
  have turned : raster.height.toNat * raster.width.toNat < 2 ^ 32 := by rwa [Nat.mul_comm]
  generalize raster.width = width at *
  generalize raster.height = height at *
  subst cells
  have reflect {x count : Nat} (inside : x < count) : count - 1 - (count - 1 - x) = x :=
    Nat.sub_sub_self (Nat.le_sub_one_of_lt inside)
  have ok_bind {α β : Type} (value : α) (next : α → Outcome RasterError β) :
      ((.ok value : Outcome RasterError α) >>= next) = next value := rfl
  refine ⟨?_, ?_, ?_, ?_, ?_, ?_, rotate_valid small wide high bits, ?_⟩
  · rw [rotate_counterClockwise small, ok_bind, rotate_clockwise turned]
    congr 1
    exact ofCells_congr fun x y left _ => by rw [reflect left]
  · rw [rotate_clockwise small, ok_bind, rotate_counterClockwise turned]
    congr 1
    exact ofCells_congr fun x y _ top => by rw [reflect top]
  · rw [rotate_clockwise small, ok_bind, rotate_clockwise turned, ok_bind,
      rotate_clockwise small, ok_bind, rotate_clockwise turned]
    congr 1
    exact ofCells_congr fun x y left top => by rw [reflect left, reflect top]
  · rw [rotate_half, rotate_clockwise small, ok_bind, rotate_clockwise turned]
  · rw [mirrorHorizontal_ofCells small, ok_bind, mirrorHorizontal_ofCells small]
    congr 1
    exact ofCells_congr fun x y left _ => by rw [reflect left]
  · rw [mirrorHorizontal_ofCells small, ok_bind, rotate_clockwise small, ok_bind,
      mirrorHorizontal_ofCells turned, rotate_counterClockwise small]
    congr 1
    exact ofCells_congr fun x y left _ => by rw [reflect left]
  · exact ⟨_, mirrorHorizontal_ofCells small, validate_ofCells wide high fun _ _ => bits ..,
      blackPixels_mirrored width height cell⟩

theorem rotate_mirror_symmetries_corner :
    (rotate ⟨3, 2, [1, 0, 0, 1, 1, 0]⟩ .counterClockwise90 >>= fun turned =>
      turned.rotate .clockwise90) = .ok ⟨3, 2, [1, 0, 0, 1, 1, 0]⟩ :=
  (rotate_mirror_symmetries ⟨3, 2, [1, 0, 0, 1, 1, 0]⟩ rfl (by decide)).1

end MonoRaster

end PrinterSdk.Render
