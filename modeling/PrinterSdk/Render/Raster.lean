import PrinterSdk.Data.Machine
import PrinterSdk.Data.Outcome

/-!
# Rasters of pixels

Labels are drawn on a gray canvas and become monochrome.  Both rasters keep one byte for
every pixel, row after row.
-/

namespace PrinterSdk.Render

open PrinterSdk.Data

/-- `RasterError`. -/
inductive RasterError where
  | length
  | headWidth
  | dimensions
  | placement
  deriving DecidableEq, Repr

/-- `Dither`. -/
inductive Dither where
  | auto
  | threshold (level : UInt8)
  | bayer2
  | bayer4
  | floydSteinberg
  | atkinson
  deriving DecidableEq, Repr

/-- `GrayRaster`. -/
structure GrayRaster where
  width : UInt32
  height : UInt32
  pixels : List UInt8
  deriving DecidableEq, Repr

/-- `MonoRaster`: 0 for white and 1 for black. -/
structure MonoRaster where
  width : UInt32
  height : UInt32
  pixels : List UInt8
  deriving DecidableEq, Repr

/-- `checked_pixel_len`. -/
def checkedPixelLen (width height : UInt32) (maxPixels : Nat) : Except RasterError Nat := do
  refuseIf (width = 0 ∨ height = 0) .dimensions
  let pixels ← okOr (checkedMul width.toNat height.toNat) .dimensions
  refuseIf (pixels > maxPixels) .dimensions
  return pixels

theorem pixels_le_usizeMax (width height : UInt32) :
    width.toNat * height.toNat ≤ usizeMax := by
  have wide := Nat.le_of_lt_succ width.toNat_lt
  have high := Nat.le_of_lt_succ height.toNat_lt
  calc width.toNat * height.toNat ≤ (2 ^ 32 - 1) * (2 ^ 32 - 1) := Nat.mul_le_mul wide high
    _ ≤ usizeMax := by decide

theorem checkedPixelLen_eq_ok {width height : UInt32} {maxPixels pixels : Nat} :
    checkedPixelLen width height maxPixels = .ok pixels ↔
      width ≠ 0 ∧ height ≠ 0 ∧ pixels = width.toNat * height.toNat ∧ pixels ≤ maxPixels := by
  have fits := pixels_le_usizeMax width height
  unfold checkedPixelLen
  rw [except_bind_eq_ok]
  simp only [refuseIf_eq_ok, except_bind_eq_ok, okOr_eq_ok, except_pure_eq_ok, checkedMul_eq_some]
  constructor
  · rintro ⟨_, filled, found, ⟨-, rfl⟩, _, small, rfl⟩
    rw [not_or] at filled
    exact ⟨filled.1, filled.2, rfl, by omega⟩
  · rintro ⟨wide, high, rfl, small⟩
    exact ⟨(), by simp [wide, high], _, ⟨fits, rfl⟩, (), by omega, rfl⟩

theorem checkedPixelLen_ne_placement {width height : UInt32} {maxPixels : Nat} :
    checkedPixelLen width height maxPixels ≠ .error .placement := by
  apply except_bind_ne_error (refuseIf_ne_error (by nofun))
  intro _ _
  apply except_bind_ne_error (okOr_ne_error (by nofun))
  intro pixels _
  apply except_bind_ne_error (refuseIf_ne_error (by nofun))
  intro _ _
  nofun

/-- `GrayRaster::try_new`. -/
def GrayRaster.tryNew (width height : UInt32) (white : UInt8) (maxPixels : Nat) :
    Except RasterError GrayRaster := do
  let len ← checkedPixelLen width height maxPixels
  return ⟨width, height, List.replicate len white⟩

/-! ## Monochrome rasters -/

/-- `checked_add` on `u32`. -/
def checkedAddU32 (left right : UInt32) : Option UInt32 :=
  if left.toNat + right.toNat < 2 ^ 32 then some (left + right) else none

theorem checkedAddU32_eq_some {left right total : UInt32} :
    checkedAddU32 left right = some total ↔ left.toNat + right.toNat = total.toNat := by
  unfold checkedAddU32
  have bound := total.toNat_lt
  split
  · next fits =>
      rw [Option.some.injEq, ← UInt32.toNat_inj, UInt32.toNat_add, Nat.mod_eq_of_lt fits]
  · next overflows =>
      constructor
      · intro added
        cases added
      · intro same
        exact absurd (same ▸ bound) overflows

theorem checkedAddU32_ne_none {left right bound : UInt32}
    (fits : left.toNat + right.toNat ≤ bound.toNat) : checkedAddU32 left right ≠ none := by
  have machine := bound.toNat_lt
  unfold checkedAddU32
  rw [if_pos (by omega)]
  simp

/-- A slice of the pixels, which panics out of bounds. -/
def sliceAt (pixels : List UInt8) (start length : Nat) : Outcome RasterError (List UInt8) :=
  if start + length ≤ pixels.length then .ok ((pixels.drop start).take length) else panics

/-- `copy_from_slice` into a slice of the pixels, which panics out of bounds. -/
def copyInto (pixels : List UInt8) (start : Nat) (slice : List UInt8) :
    Outcome RasterError (List UInt8) :=
  if start + slice.length ≤ pixels.length then
    .ok (pixels.take start ++ slice ++ pixels.drop (start + slice.length))
  else panics

namespace MonoRaster

/-- `MonoRaster::try_new`. -/
def tryNew (width height : UInt32) (maxPixels : Nat) : Except RasterError MonoRaster := do
  let len ← checkedPixelLen width height maxPixels
  return ⟨width, height, List.replicate len 0⟩

/-- `MonoRaster::validate`. -/
def validate (raster : MonoRaster) : Except RasterError Unit := do
  let expected ← checkedPixelLen raster.width raster.height usizeMax
  if raster.pixels.length = expected ∧ raster.pixels.all (fun pixel => pixel ≤ 1) = true then
    return ()
  else
    .error .length

/-- One row of the loop of `MonoRaster::blit`. -/
def blitRow (destination source : MonoRaster) (x y : UInt32) (pixels : List UInt8) (row : Nat) :
    Outcome RasterError (List UInt8) := do
  let sourceStart ← okOr (checkedMul row source.width.toNat) (.error .dimensions)
  let destinationStart ← okOr
    (((checkedAdd y.toNat row).bind fun value => checkedMul value destination.width.toNat).bind
      fun value => checkedAdd value x.toNat) (.error .dimensions)
  let slice ← sliceAt source.pixels sourceStart source.width.toNat
  copyInto pixels destinationStart slice

/-- `MonoRaster::blit`. -/
def blit (destination source : MonoRaster) (x y : UInt32) : Outcome RasterError MonoRaster := do
  destination.validate.mapError .error
  source.validate.mapError .error
  let right ← okOr (checkedAddU32 x source.width) (.error .placement)
  let bottom ← okOr (checkedAddU32 y source.height) (.error .placement)
  refuseIf (right > destination.width ∨ bottom > destination.height) (.error .placement)
  let pixels ← (List.range source.height.toNat).foldlM
    (blitRow destination source x y) destination.pixels
  return { destination with pixels }

/-! ## Errors of blitting -/

theorem validate_ne_placement (raster : MonoRaster) : raster.validate ≠ .error .placement := by
  apply except_bind_ne_error checkedPixelLen_ne_placement
  intro expected _
  split <;> nofun

theorem blitRow_ne_placement {destination source : MonoRaster} {x y : UInt32}
    {pixels : List UInt8} {row : Nat} :
    destination.blitRow source x y pixels row ≠ .error (.error .placement) := by
  apply except_bind_ne_error (okOr_ne_error (by nofun))
  intro sourceStart _
  apply except_bind_ne_error (okOr_ne_error (by nofun))
  intro destinationStart _
  apply except_bind_ne_error
  · unfold sliceAt
    split <;> nofun
  intro slice _
  unfold copyInto
  split <;> nofun

/-- A raster that fits into another one at an origin is not refused for its placement. -/
theorem blit_ne_placement {destination source : MonoRaster} {x y : UInt32}
    (right : x.toNat + source.width.toNat ≤ destination.width.toNat)
    (bottom : y.toNat + source.height.toNat ≤ destination.height.toNat) :
    destination.blit source x y ≠ .error (.error .placement) := by
  have validated (raster : MonoRaster) :
      raster.validate.mapError Fault.error ≠ .error (.error .placement) := by
    apply except_mapError_ne_error
    intro error invalid same
    rw [Fault.error.inj same] at invalid
    exact validate_ne_placement raster invalid
  apply except_bind_ne_error (validated destination)
  intro _ _
  apply except_bind_ne_error (validated source)
  intro _ _
  apply except_bind_ne_error
  · intro beyond
    exact checkedAddU32_ne_none right ((okOr_eq_error _ _ _).mp beyond).1
  intro total across
  apply except_bind_ne_error
  · intro beyond
    exact checkedAddU32_ne_none bottom ((okOr_eq_error _ _ _).mp beyond).1
  intro sum down
  rw [okOr_eq_ok, checkedAddU32_eq_some] at across down
  apply except_bind_ne_error
  · intro beyond
    have outside := ((refuseIf_eq_error _ _ _).mp beyond).1
    simp only [GT.gt, UInt32.lt_iff_toNat_lt] at outside
    omega
  intro _ _
  apply except_bind_ne_error
  · apply foldlM_ne_error (fun _ => True) trivial (fun _ _ _ _ _ _ => trivial)
    intro pixels row _ _
    exact blitRow_ne_placement
  intro pixels _
  nofun

/-- The raster that is white all over. -/
def white (width height : UInt32) : MonoRaster :=
  ⟨width, height, List.replicate (width.toNat * height.toNat) 0⟩

theorem tryNew_eq_ok {width height : UInt32} {maxPixels : Nat} {raster : MonoRaster} :
    tryNew width height maxPixels = .ok raster ↔
      width ≠ 0 ∧ height ≠ 0 ∧ width.toNat * height.toNat ≤ maxPixels ∧
        raster = white width height := by
  rw [tryNew, except_bind_eq_ok]
  constructor
  · intro made
    obtain ⟨len, counted, made⟩ := made
    obtain ⟨wide, high, rfl, small⟩ := checkedPixelLen_eq_ok.mp counted
    exact ⟨wide, high, small, ((except_pure_eq_ok _ _).mp made).symm⟩
  · intro sized
    obtain ⟨wide, high, small, rfl⟩ := sized
    exact ⟨_, checkedPixelLen_eq_ok.mpr ⟨wide, high, rfl, small⟩, rfl⟩

/-- A white raster is valid. -/
theorem validate_white {width height : UInt32} (wide : width ≠ 0) (high : height ≠ 0) :
    (white width height).validate = .ok () := by
  have fits : checkedPixelLen width height usizeMax = .ok (width.toNat * height.toNat) :=
    checkedPixelLen_eq_ok.mpr ⟨wide, high, rfl, pixels_le_usizeMax width height⟩
  have bits : (List.replicate (width.toNat * height.toNat) (0 : UInt8)).all
      (fun pixel => pixel ≤ 1) = true := by
    rw [List.all_replicate]
    split <;> rfl
  rw [validate, except_bind_eq_ok]
  exact ⟨_, fits, if_pos ⟨List.length_replicate, bits⟩⟩

/-- A raster that sticks out of another one on the right is refused for its placement. -/
theorem blit_eq_placement {destination source : MonoRaster} {x y : UInt32}
    (valid : destination.validate = .ok ()) (sound : source.validate = .ok ())
    (beyond : destination.width.toNat < x.toNat + source.width.toNat) :
    destination.blit source x y = .error (.error .placement) := by
  have checks : destination.blit source x y = (do
      let right ← okOr (checkedAddU32 x source.width) (.error .placement)
      let bottom ← okOr (checkedAddU32 y source.height) (.error .placement)
      refuseIf (right > destination.width ∨ bottom > destination.height) (.error .placement)
      let pixels ← (List.range source.height.toNat).foldlM
        (blitRow destination source x y) destination.pixels
      return { destination with pixels }) := by
    rw [blit, valid, sound]
    rfl
  rw [checks, except_bind_eq_error]
  cases across : checkedAddU32 x source.width with
  | none => exact .inl rfl
  | some right =>
      refine .inr ⟨right, rfl, ?_⟩
      rw [except_bind_eq_error]
      cases checkedAddU32 y source.height with
      | none => exact .inl rfl
      | some bottom =>
          refine .inr ⟨bottom, rfl, ?_⟩
          have outside : right > destination.width := by
            rw [checkedAddU32_eq_some] at across
            rw [GT.gt, UInt32.lt_iff_toNat_lt]
            omega
          rw [except_bind_eq_error, refuseIf_eq_error]
          exact .inl ⟨.inl outside, rfl⟩

/-- Blitting changes pixels only. -/
theorem blit_eq_ok {destination source result : MonoRaster} {x y : UInt32}
    (blitted : destination.blit source x y = .ok result) :
    result.width = destination.width ∧ result.height = destination.height := by
  obtain ⟨_, -, blitted⟩ := (except_bind_eq_ok _ _ _).mp blitted
  obtain ⟨_, -, blitted⟩ := (except_bind_eq_ok _ _ _).mp blitted
  obtain ⟨_, -, blitted⟩ := (except_bind_eq_ok _ _ _).mp blitted
  obtain ⟨_, -, blitted⟩ := (except_bind_eq_ok _ _ _).mp blitted
  obtain ⟨_, -, blitted⟩ := (except_bind_eq_ok _ _ _).mp blitted
  obtain ⟨pixels, -, blitted⟩ := (except_bind_eq_ok _ _ _).mp blitted
  rw [← (except_pure_eq_ok _ _).mp blitted]
  exact ⟨rfl, rfl⟩

end MonoRaster

end PrinterSdk.Render
