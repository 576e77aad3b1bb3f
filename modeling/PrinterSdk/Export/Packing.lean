import PrinterSdk.Data.RowBits
import PrinterSdk.Export.Pdf
import PrinterSdk.Render.Pixels

/-!
# Packed rasters

A monochrome raster is packed into rows of whole bytes, eight pixels to a byte and the first
pixel in the most significant bit.
-/

namespace PrinterSdk.Render.MonoRaster

open PrinterSdk.Data

/-- A turn of the loops of `pack_msb`: the bit of a black pixel is set. -/
def packPixel (raster : MonoRaster) (stride y : Nat) (out : Bytes) (x : Nat) :
    Outcome RasterError Bytes := do
  let pixel ← readAt raster.pixels (← indexOrPanic y raster.width.toNat x)
  if pixel ≠ 0 then
    let index ← indexOrPanic y stride (x / 8)
    let byte ← readAt out index
    writeAt out index (byte ||| (0x80 : UInt8) >>> UInt8.ofNat (x % 8))
  else
    return out

/-- `MonoRaster::pack_msb`. -/
def packMsb (raster : MonoRaster) : Outcome RasterError Bytes := do
  raster.validate.mapError .error
  let stride := (raster.width.toNat + 7) / 8
  let out ← zeros (stride * raster.height.toNat)
  gridLoop raster.width.toNat raster.height.toNat (raster.packPixel stride) out

/-! ## Packed bits -/

/-- The bit of the pixel `(x, y)` in packed rows. -/
def packedBit (bytes : Bytes) (stride x y : Nat) : Bool :=
  (bytes.getD (y * stride + x / 8) 0).toNat.testBit (7 - x % 8)

/-- The bytes have a bit for every pixel, and their other bits are zero. -/
structure Packs (raster : MonoRaster) (bytes : Bytes) : Prop where
  length : bytes.length = (raster.width.toNat + 7) / 8 * raster.height.toNat
  pixels : ∀ x y, x < raster.width.toNat → y < raster.height.toNat →
    (packedBit bytes ((raster.width.toNat + 7) / 8) x y = true ↔ raster.pixel x y = some 1)
  padding : ∀ x y, raster.width.toNat ≤ x → x < (raster.width.toNat + 7) / 8 * 8 →
    y < raster.height.toNat → packedBit bytes ((raster.width.toNat + 7) / 8) x y = false

/-- The raster of packed rows. -/
def unpackMsb (width height : UInt32) (bytes : Bytes) : MonoRaster :=
  ofCells width height fun x y => if packedBit bytes ((width.toNat + 7) / 8) x y then 1 else 0

theorem packedBit_eq (bytes : Bytes) (stride x y : Nat) :
    packedBit bytes stride x y = bitAt bytes (y * (stride * 8) + x) := by
  have place : (y * (stride * 8) + x) / 8 = y * stride + x / 8 ∧
      (y * (stride * 8) + x) % 8 = x % 8 := by
    rw [← Nat.mul_assoc]
    omega
  rw [bitAt, place.1, place.2, packedBit]

/-- A turn for a black pixel sets its bit. -/
theorem set_eq_setBit {out : Bytes} {stride x y : Nat} {byte : UInt8}
    (found : out[y * stride + x / 8]? = some byte) :
    out.set (y * stride + x / 8) (byte ||| (0x80 : UInt8) >>> UInt8.ofNat (x % 8)) =
      setBit out (y * (stride * 8) + x) := by
  have place : (y * (stride * 8) + x) / 8 = y * stride + x / 8 ∧
      (y * (stride * 8) + x) % 8 = x % 8 := by
    rw [← Nat.mul_assoc]
    omega
  obtain ⟨inside, rfl⟩ := List.getElem?_eq_some_iff.mp found
  rw [setBit, bitMask, place.1, place.2, List.modify_eq_set, List.getElem?_eq_getElem inside,
    Option.getD_some]

section

variable {raster : MonoRaster}

/-- The bits of the black pixels before a place are set, and no others. -/
structure PacksUntil (raster : MonoRaster) (stride count : Nat) (out : Bytes) : Prop where
  length : out.length = raster.height.toNat * stride
  bits : ∀ x y, x < stride * 8 → y < raster.height.toNat →
    (packedBit out stride x y = true ↔ x < raster.width.toNat ∧
      y * raster.width.toNat + x < count ∧ raster.pixel x y = some 1)

/-- A turn packs one pixel more. -/
theorem PacksUntil.packPixel (valid : raster.validate = .ok ())
    (small : raster.width.toNat * raster.height.toNat < 2 ^ 32) {stride : Nat}
    (narrow : stride ≤ raster.width.toNat) (wide : raster.width.toNat ≤ stride * 8)
    {out : Bytes} {x y : Nat} (left : x < raster.width.toNat) (top : y < raster.height.toNat)
    (before : raster.PacksUntil stride (y * raster.width.toNat + x) out) :
    ∃ next, raster.packPixel stride y out x = .ok next ∧
      raster.PacksUntil stride (y * raster.width.toNat + x + 1) next := by
  obtain ⟨value, found⟩ := exists_pixel valid left top
  have place := place_lt_u32 small left top
  have column : x / 8 < stride := by omega
  have inside : y * stride + x / 8 < out.length := by
    rw [before.length]
    exact cell_lt column top
  have machine : y * stride + x / 8 < 2 ^ 32 := by
    apply Nat.lt_of_le_of_lt _ place
    exact Nat.add_le_add (Nat.mul_le_mul_left y narrow) (Nat.div_le_self x 8)
  have byte := List.getElem?_eq_getElem inside
  -- A bit that is set is one of an earlier pixel or of this one.
  have behind {i j : Nat} (within : i < raster.width.toNat) :
      j * raster.width.toNat + i < y * raster.width.toNat + x + 1 ↔
        j * raster.width.toNat + i < y * raster.width.toNat + x ∨ i = x ∧ j = y := by
    rw [Nat.lt_succ_iff_lt_or_eq]
    apply or_congr_right
    constructor
    · intro same
      exact (cell_inj within left same).symm
    · intro same
      rw [same.1, same.2]
  simp only [MonoRaster.packPixel, except_bind_eq_ok, indexOrPanic_eq_ok, readAt_eq_ok]
  by_cases black : value = 1
  · subst black
    refine ⟨setBit out (y * (stride * 8) + x), ⟨_, ⟨place, rfl⟩, 1, found, ?_⟩, ?_, ?_⟩
    · rw [if_pos (by decide)]
      simp only [except_bind_eq_ok, indexOrPanic_eq_ok, readAt_eq_ok]
      refine ⟨_, ⟨machine, rfl⟩, _, byte, ?_⟩
      rw [writeAt_of_lt inside, set_eq_setBit byte]
    · rw [length_setBit, before.length]
    · intro i j within below
      have bit : y * (stride * 8) + x < out.length * 8 := by
        rw [before.length, Nat.mul_assoc]
        exact cell_lt (Nat.lt_of_lt_of_le left wide) top
      have same : j * (stride * 8) + i = y * (stride * 8) + x ↔ i = x ∧ j = y := by
        constructor
        · intro equal
          exact (cell_inj within (Nat.lt_of_lt_of_le left wide) equal).symm
        · intro equal
          rw [equal.1, equal.2]
      rw [packedBit_eq, bitAt_setBit bit, Bool.or_eq_true, decide_eq_true_iff, same,
        ← packedBit_eq, before.bits i j within below]
      constructor
      · rintro (⟨across, earlier, set⟩ | ⟨rfl, rfl⟩)
        · exact ⟨across, (behind across).mpr (.inl earlier), set⟩
        · exact ⟨left, Nat.lt_succ_self _, found⟩
      · rintro ⟨across, earlier, set⟩
        rcases (behind across).mp earlier with earlier | here
        · exact .inl ⟨across, earlier, set⟩
        · exact .inr here
  · obtain rfl := (pixel_eq valid (List.mem_of_getElem? found)).resolve_right black
    refine ⟨out, ⟨_, ⟨place, rfl⟩, 0, found, rfl⟩, before.length, ?_⟩
    intro i j within below
    rw [before.bits i j within below]
    constructor
    · rintro ⟨across, earlier, set⟩
      exact ⟨across, Nat.lt_succ_of_lt earlier, set⟩
    · rintro ⟨across, earlier, set⟩
      refine ⟨across, ?_, set⟩
      rcases (behind across).mp earlier with earlier | ⟨rfl, rfl⟩
      · exact earlier
      · rw [found] at set
        cases set

/-- A valid raster is packed. -/
theorem packMsb_packs (valid : raster.validate = .ok ())
    (small : raster.width.toNat * raster.height.toNat < 2 ^ 32) :
    ∃ bytes, raster.packMsb = .ok bytes ∧ raster.Packs bytes := by
  have narrow : (raster.width.toNat + 7) / 8 ≤ raster.width.toNat := by
    have filled := toNat_pos (validate_eq_ok valid).1
    omega
  have wide : raster.width.toNat ≤ (raster.width.toNat + 7) / 8 * 8 := by omega
  have room : (raster.width.toNat + 7) / 8 * raster.height.toNat ≤ isizeMax := by
    calc (raster.width.toNat + 7) / 8 * raster.height.toNat
        ≤ raster.width.toNat * raster.height.toNat := Nat.mul_le_mul_right _ narrow
      _ ≤ 2 ^ 32 := Nat.le_of_lt small
      _ ≤ isizeMax := by decide
  have white : raster.PacksUntil ((raster.width.toNat + 7) / 8) 0
      (List.replicate ((raster.width.toNat + 7) / 8 * raster.height.toNat) 0) := by
    constructor
    · rw [List.length_replicate, Nat.mul_comm]
    · intro x y _ _
      rw [packedBit_eq, bitAt_replicate_zero]
      simp
  obtain ⟨bytes, ended, packed⟩ := gridLoop_total raster.width.toNat raster.height.toNat
    (raster.packPixel ((raster.width.toNat + 7) / 8)) _ white
    fun x y out left top before => before.packPixel valid small narrow wide left top
  refine ⟨bytes, ?_, ?_, ?_, ?_⟩
  · simp only [packMsb, except_bind_eq_ok, except_mapError_eq_ok, zeros]
    exact ⟨(), valid, _, orPanic_eq_ok.mpr ⟨room, rfl⟩, ended⟩
  · rw [packed.length, Nat.mul_comm]
  · intro x y left top
    rw [packed.bits x y (Nat.lt_of_lt_of_le left wide) top]
    constructor
    · intro set
      exact set.2.2
    · intro set
      exact ⟨left, cell_lt left top, set⟩
  · intro x y beyond within top
    apply Bool.eq_false_iff.mpr
    intro set
    exact Nat.not_lt.mpr beyond ((packed.bits x y within top).mp set).1

/-- Unpacking recovers the raster. -/
theorem Packs.unpack {bytes : Bytes} (packs : raster.Packs bytes)
    (valid : raster.validate = .ok ()) : unpackMsb raster.width raster.height bytes = raster := by
  have filled : raster =
      ofCells raster.width raster.height fun x y => (raster.pixel x y).getD 0 := by
    rw [ofCells, ← pixels_eq_tabulate valid]
  rw [unpackMsb]
  conv_rhs => rw [filled]
  apply ofCells_congr
  intro x y left top
  obtain ⟨value, found⟩ := exists_pixel valid left top
  have set := packs.pixels x y left top
  rw [found] at set ⊢
  rcases pixel_eq valid (List.mem_of_getElem? found) with rfl | rfl
  · exact if_neg fun black => absurd (set.mp black) (by decide)
  · exact if_pos (set.mpr rfl)

end

end PrinterSdk.Render.MonoRaster

namespace PrinterSdk.Export

open PrinterSdk.Data PrinterSdk.Render

/-- `PackedMonoRaster::try_new`. -/
def PackedMonoRaster.tryNew (width height : UInt32) (bytes : Bytes) (maxPixels : Nat) :
    Except RasterError PackedMonoRaster := do
  let _ ← checkedPixelLen width height maxPixels
  let padded ← okOr (checkedAddU32 width 7) .dimensions
  let stride := padded / 8
  let expected ← okOr (checkedMul stride.toNat height.toNat) .dimensions
  refuseIf (bytes.length ≠ expected) .length
  return ⟨width, height, stride, bytes⟩

/-- `PackedMonoRaster::from_mono`. -/
def PackedMonoRaster.fromMono (raster : MonoRaster) (maxPixels : Nat) :
    Outcome RasterError PackedMonoRaster := do
  let bytes ← raster.packMsb
  (tryNew raster.width raster.height bytes maxPixels).mapError .error

namespace PackedMonoRaster

/-! ## Converted rasters -/

section

variable {width height : UInt32} {bytes : Bytes} {maxPixels : Nat}

theorem toNat_stride (narrow : width.toNat + 7 < 2 ^ 32) :
    ((width + 7) / 8).toNat = (width.toNat + 7) / 8 := by
  rw [UInt32.toNat_div, UInt32.toNat_add]
  change (width.toNat + 7) % 2 ^ 32 / 8 = _
  rw [Nat.mod_eq_of_lt narrow]

theorem checkedAddU32_seven (narrow : width.toNat + 7 < 2 ^ 32) :
    checkedAddU32 width 7 = some (width + 7) := if_pos narrow

theorem checkedMul_stride (narrow : width.toNat + 7 < 2 ^ 32) :
    checkedMul ((width + 7) / 8).toNat height.toNat =
      some ((width.toNat + 7) / 8 * height.toNat) := by
  apply checkedMul_eq_some.mpr
  refine ⟨pixels_le_usizeMax _ _, ?_⟩
  rw [toNat_stride narrow]

theorem tryNew_of_narrow (wide : width ≠ 0) (high : height ≠ 0)
    (within : width.toNat * height.toNat ≤ maxPixels)
    (length : bytes.length = (width.toNat + 7) / 8 * height.toNat)
    (narrow : width.toNat + 7 < 2 ^ 32) :
    tryNew width height bytes maxPixels = .ok ⟨width, height, (width + 7) / 8, bytes⟩ := by
  simp only [tryNew, except_bind_eq_ok, okOr_eq_ok, refuseIf_eq_ok, except_pure_eq_ok]
  exact ⟨_, checkedPixelLen_eq_ok.mpr ⟨wide, high, rfl, within⟩, _, checkedAddU32_seven narrow, _,
    checkedMul_stride narrow, (), not_not.mpr length, rfl⟩

theorem validate_of_narrow (wide : width ≠ 0) (high : height ≠ 0)
    (length : bytes.length = (width.toNat + 7) / 8 * height.toNat)
    (narrow : width.toNat + 7 < 2 ^ 32) :
    (⟨width, height, (width + 7) / 8, bytes⟩ : PackedMonoRaster).validate = .ok () := by
  simp only [validate, except_bind_eq_ok, okOr_eq_ok]
  exact ⟨_, checkedPixelLen_eq_ok.mpr ⟨wide, high, rfl, pixels_le_usizeMax ..⟩, _,
    checkedAddU32_seven narrow, _, checkedMul_stride narrow, if_pos ⟨rfl, length⟩⟩

/-- The stride of the seven widest rasters is not computed. -/
theorem tryNew_of_wide (wide : width ≠ 0) (high : height ≠ 0)
    (within : width.toNat * height.toNat ≤ maxPixels) (beyond : 2 ^ 32 ≤ width.toNat + 7) :
    tryNew width height bytes maxPixels = .error .dimensions := by
  have counted : checkedPixelLen width height maxPixels = .ok (width.toNat * height.toNat) :=
    checkedPixelLen_eq_ok.mpr ⟨wide, high, rfl, within⟩
  have overflows : checkedAddU32 width 7 = none := if_neg (Nat.not_lt.mpr beyond)
  rw [tryNew, counted, overflows]
  rfl

end

/-- Packing a raster loses nothing, and the packed raster is made and is valid. -/
structure Lossless (raster : MonoRaster) : Prop where
  packs : ∃ bytes, raster.packMsb = .ok bytes ∧ raster.Packs bytes ∧
    MonoRaster.unpackMsb raster.width raster.height bytes = raster
  converts : ∀ maxPixels, raster.width.toNat * raster.height.toNat ≤ maxPixels →
    ∃ packed, fromMono raster maxPixels = .ok packed ∧ packed.validate = .ok ()

theorem fromMono_of_wide {raster : MonoRaster} (valid : raster.validate = .ok ())
    (small : raster.width.toNat * raster.height.toNat < 2 ^ 32) {maxPixels : Nat}
    (within : raster.width.toNat * raster.height.toNat ≤ maxPixels)
    (beyond : 2 ^ 32 ≤ raster.width.toNat + 7) :
    fromMono raster maxPixels = .error (.error .dimensions) := by
  obtain ⟨wide, high, -⟩ := MonoRaster.validate_eq_ok valid
  obtain ⟨bytes, packed, -⟩ := MonoRaster.packMsb_packs valid small
  have refused := @tryNew_of_wide _ _ bytes _ wide high within beyond
  rw [fromMono, packed]
  change (tryNew raster.width raster.height bytes maxPixels).mapError Fault.error = _
  rw [refused]
  rfl

/-- Packing is lossless, except that the stride of the seven widest rasters overflows. -/
theorem lossless_iff (raster : MonoRaster) (valid : raster.validate = .ok ())
    (small : raster.width.toNat * raster.height.toNat < 2 ^ 32) :
    Lossless raster ↔ raster.width.toNat + 7 < 2 ^ 32 := by
  obtain ⟨wide, high, -⟩ := MonoRaster.validate_eq_ok valid
  obtain ⟨bytes, packed, packs⟩ := MonoRaster.packMsb_packs valid small
  constructor
  · intro lossless
    obtain ⟨made, converted, -⟩ := lossless.converts _ (Nat.le_refl _)
    apply Nat.lt_of_not_le
    intro beyond
    rw [fromMono_of_wide valid small (Nat.le_refl _) beyond] at converted
    cases converted
  · intro narrow
    constructor
    · exact ⟨bytes, packed, packs, packs.unpack valid⟩
    · intro maxPixels within
      have made := tryNew_of_narrow wide high within packs.length narrow
      refine ⟨_, ?_, validate_of_narrow wide high packs.length narrow⟩
      simp only [fromMono, except_bind_eq_ok, except_mapError_eq_ok]
      exact ⟨bytes, packed, made⟩

theorem lossless_iff_tenDots : Lossless ⟨10, 1, [1, 0, 1, 0, 0, 0, 0, 0, 0, 1]⟩ :=
  (lossless_iff ⟨10, 1, [1, 0, 1, 0, 0, 0, 0, 0, 0, 1]⟩ rfl (by decide)).mpr (by decide)

/-- The widest raster is packed, but its stride overflows. -/
theorem widest_not_lossless :
    (MonoRaster.white 4294967295 1).validate = .ok () ∧
      (∃ bytes, (MonoRaster.white 4294967295 1).packMsb = .ok bytes) ∧
      fromMono (MonoRaster.white 4294967295 1) (2 ^ 32) = .error (.error .dimensions) ∧
      ¬Lossless (MonoRaster.white 4294967295 1) := by
  have valid : (MonoRaster.white 4294967295 1).validate = .ok () :=
    MonoRaster.validate_white (by decide) (by decide)
  have small : (4294967295 : UInt32).toNat * (1 : UInt32).toNat < 2 ^ 32 := by decide
  have refused := @fromMono_of_wide (MonoRaster.white 4294967295 1) valid small
  obtain ⟨bytes, packed, -⟩ := MonoRaster.packMsb_packs valid small
  refine ⟨valid, ⟨bytes, packed⟩, refused (by decide) (by decide), ?_⟩
  intro lossless
  obtain ⟨made, converted, -⟩ := lossless.converts (2 ^ 32) (by decide)
  rw [refused (by decide) (by decide)] at converted
  cases converted

end PackedMonoRaster

end PrinterSdk.Export
