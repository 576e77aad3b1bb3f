import PrinterSdk.Render.Pixels

/-!
# Rasters on the print head

A raster is copied to a column of a wider one, the dots of the head.  The column is computed
in whole bytes with unsigned arithmetic, and is then used as a signed offset.
-/

namespace PrinterSdk.Render

open PrinterSdk.Data

/-- `Fit`. -/
inductive Fit where
  | left
  | center
  | right
  deriving DecidableEq, Repr

namespace MonoRaster

/-! ## Copying -/

/-- The turn of the loops of `place_on_head` at row `y` and the copied column `x`.  The sums
on `i64` are exact. -/
def placePixel (raster : MonoRaster) (headWidth height src dst : Nat) (offsetX offsetY : Int)
    (y : Nat) (pixels : List UInt8) (x : Nat) : Outcome RasterError (List UInt8) := do
  let sx := src + x
  let dx : Int := dst + x + offsetX
  let dy : Int := y + offsetY
  if dx ≥ 0 ∧ dy ≥ 0 ∧ dx < headWidth ∧ dy < height then
    let value ← readAt raster.pixels (← indexOrPanic y raster.width.toNat sx)
    writeAt pixels (← indexOrPanic dy.toNat headWidth dx.toNat) value
  else
    return pixels

/-- The inner loop of `place_on_head`, over the copied columns of row `y`. -/
def placeRow (raster : MonoRaster) (headWidth height copy src dst : Nat) (offsetX offsetY : Int)
    (pixels : List UInt8) (y : Nat) : Outcome RasterError (List UInt8) :=
  (List.range copy).foldlM (raster.placePixel headWidth height src dst offsetX offsetY y) pixels

/-- `MonoRaster::place_on_head`. -/
def placeOnHead (raster : MonoRaster) (headWidth : UInt32) (align : Fit)
    (offsetX offsetY : Int32) : Outcome RasterError MonoRaster := do
  refuseIf (headWidth = 0) (.error .headWidth)
  let height ← u32OrPanic (raster.height.toNat + (max offsetY.toInt 0).toNat)
  let white ← zeros (headWidth.toNat * height)
  let copy := min raster.width.toNat headWidth.toNat
  let src := match align with
    | .left => 0
    | .center => (raster.width.toNat - copy) / 2
    | .right => raster.width.toNat - copy
  let dst := match align with
    | .left => 0
    | .center => (headWidth.toNat - copy) / 2
    | .right => headWidth.toNat - copy
  let pixels ← (List.range raster.height.toNat).foldlM
    (raster.placeRow headWidth.toNat height copy src dst offsetX.toInt offsetY.toInt) white
  return ⟨headWidth, .ofNat height, pixels⟩

/-- The column at which `place_on_head_byte_aligned` puts a raster. -/
def headBase (packedWidth headWidth : Nat) : Fit → Outcome RasterError Nat
  | .left => pure 0
  | .center => do
      let spare ← subOrPanic (headWidth / 8) (packedWidth / 8)
      u32OrPanic (spare / 2 * 8)
  | .right => subOrPanic headWidth packedWidth

/-- `MonoRaster::place_on_head_byte_aligned`. -/
def placeOnHeadByteAligned (raster : MonoRaster) (headWidth : UInt32) (align : Fit)
    (offsetX offsetY : Int32) : Outcome RasterError MonoRaster := do
  refuseIf (headWidth = 0 ∨ raster.width > headWidth) (.error .headWidth)
  let packedWidth ← u32OrPanic ((raster.width.toNat + 7) / 8 * 8)
  let base ← headBase packedWidth headWidth.toNat align
  let shift ← addI32OrPanic (.ofNat base) offsetX
  raster.placeOnHead headWidth .left shift offsetY

/-! ## What the loops paint -/

/-- The copied pixel `(x, y)` lands on the dot `(column, row)` of the head. -/
def Lands (headWidth height dst : Nat) (offsetX offsetY : Int) (x y column row : Nat) : Prop :=
  column < headWidth ∧ row < height ∧ (column : Int) = dst + x + offsetX ∧
    (row : Int) = y + offsetY

/-- The copied pixels are on the head, and nothing else is. -/
structure Painted (raster : MonoRaster) (headWidth height src dst : Nat) (offsetX offsetY : Int)
    (copied : Nat → Nat → Prop) (pixels : List UInt8) : Prop where
  length : pixels.length = headWidth * height
  shown : ∀ x y column row, copied x y → Lands headWidth height dst offsetX offsetY x y column row →
    pixels[row * headWidth + column]? = raster.pixel (src + x) y
  blank : ∀ column row, column < headWidth → row < height →
    (∀ x y, copied x y → ¬Lands headWidth height dst offsetX offsetY x y column row) →
    pixels[row * headWidth + column]? = some 0

section

variable {raster : MonoRaster} {headWidth height copy src dst : Nat} {offsetX offsetY : Int}
variable {pixels next : List UInt8} {copied : Nat → Nat → Prop}

theorem Lands.same_dot {x y column row other further : Nat}
    (lands : Lands headWidth height dst offsetX offsetY x y column row)
    (also : Lands headWidth height dst offsetX offsetY x y other further) :
    column = other ∧ row = further := by
  obtain ⟨-, -, across, down⟩ := lands
  obtain ⟨-, -, again, below⟩ := also
  constructor
  · exact Int.ofNat.inj (across.trans again.symm)
  · exact Int.ofNat.inj (down.trans below.symm)

theorem Lands.same_pixel {x y i j column row : Nat}
    (lands : Lands headWidth height dst offsetX offsetY x y column row)
    (also : Lands headWidth height dst offsetX offsetY i j column row) : i = x ∧ j = y := by
  obtain ⟨-, -, across, down⟩ := lands
  obtain ⟨-, -, again, below⟩ := also
  constructor
  · omega
  · omega

/-- A turn writes the pixel to the dot where it lands, or does nothing. -/
theorem placePixel_eq_ok {x y : Nat} :
    raster.placePixel headWidth height src dst offsetX offsetY y pixels x = .ok next ↔
      (∃ column row value, Lands headWidth height dst offsetX offsetY x y column row ∧
        y * raster.width.toNat + (src + x) < 2 ^ 32 ∧ row * headWidth + column < 2 ^ 32 ∧
        raster.pixel (src + x) y = some value ∧ row * headWidth + column < pixels.length ∧
        pixels.set (row * headWidth + column) value = next) ∨
      (∀ column row, ¬Lands headWidth height dst offsetX offsetY x y column row) ∧
        pixels = next := by
  rw [placePixel]
  by_cases inside : (dst : Int) + x + offsetX ≥ 0 ∧ (y : Int) + offsetY ≥ 0 ∧
      (dst : Int) + x + offsetX < headWidth ∧ (y : Int) + offsetY < height
  · have across := Int.toNat_of_nonneg inside.1
    have down := Int.toNat_of_nonneg inside.2.1
    have lands : Lands headWidth height dst offsetX offsetY x y
        ((dst : Int) + x + offsetX).toNat ((y : Int) + offsetY).toNat :=
      ⟨by omega, by omega, across, down⟩
    simp only [if_pos inside, except_bind_eq_ok, indexOrPanic_eq_ok, readAt_eq_ok]
    constructor
    · intro written
      obtain ⟨_, ⟨small, rfl⟩, value, found, _, ⟨fits, rfl⟩, written⟩ := written
      obtain ⟨within, rfl⟩ := orPanic_eq_ok.mp written
      exact .inl ⟨_, _, value, lands, small, fits, found, within, rfl⟩
    · intro written
      rcases written with ⟨column, row, value, also, small, fits, found, within, rfl⟩ | outside
      · obtain ⟨rfl, rfl⟩ := also.same_dot lands
        exact ⟨_, ⟨small, rfl⟩, value, found, _, ⟨fits, rfl⟩, orPanic_eq_ok.mpr ⟨within, rfl⟩⟩
      · exact absurd lands (outside.1 _ _)
  · have outside (column row : Nat) :
        ¬Lands headWidth height dst offsetX offsetY x y column row := by
      intro lands
      obtain ⟨left, top, across, down⟩ := lands
      exact inside ⟨by omega, by omega, by omega, by omega⟩
    simp only [if_neg inside, except_pure_eq_ok]
    constructor
    · intro same
      exact .inr ⟨outside, same⟩
    · intro written
      rcases written with ⟨column, row, value, lands, -⟩ | same
      · exact absurd lands (outside column row)
      · exact same.2

/-- One turn paints one pixel more. -/
theorem Painted.placePixel {x y : Nat}
    (painted : Painted raster headWidth height src dst offsetX offsetY copied pixels)
    (placed : raster.placePixel headWidth height src dst offsetX offsetY y pixels x = .ok next) :
    Painted raster headWidth height src dst offsetX offsetY
      (fun i j => copied i j ∨ i = x ∧ j = y) next := by
  rcases placePixel_eq_ok.mp placed with
    ⟨column, row, value, lands, -, -, found, within, rfl⟩ | ⟨outside, rfl⟩
  · constructor
    · rw [List.length_set]
      exact painted.length
    · intro i j other further before there
      by_cases same : row * headWidth + column = further * headWidth + other
      · obtain ⟨rfl, rfl⟩ := cell_inj lands.1 there.1 same
        obtain ⟨rfl, rfl⟩ := lands.same_pixel there
        rw [List.getElem?_set_self within, found]
      · rw [List.getElem?_set_ne same]
        apply painted.shown i j other further _ there
        apply before.resolve_right
        intro this
        obtain ⟨rfl, rfl⟩ := this
        obtain ⟨rfl, rfl⟩ := lands.same_dot there
        exact same rfl
    · intro other further left top free
      by_cases same : row * headWidth + column = further * headWidth + other
      · obtain ⟨rfl, rfl⟩ := cell_inj lands.1 left same
        exact absurd lands (free x y (.inr ⟨rfl, rfl⟩))
      · rw [List.getElem?_set_ne same]
        exact painted.blank other further left top fun i j before => free i j (.inl before)
  · constructor
    · exact painted.length
    · intro i j other further before there
      rcases before with before | ⟨rfl, rfl⟩
      · exact painted.shown i j other further before there
      · exact absurd there (outside other further)
    · intro other further left top free
      exact painted.blank other further left top fun i j before => free i j (.inl before)

theorem Painted.congr {other : Nat → Nat → Prop}
    (painted : Painted raster headWidth height src dst offsetX offsetY copied pixels)
    (same : ∀ x y, copied x y ↔ other x y) :
    Painted raster headWidth height src dst offsetX offsetY other pixels := by
  have equal : copied = other := by
    funext x y
    exact propext (same x y)
  rw [← equal]
  exact painted

/-- The head is white before the loops. -/
theorem painted_white {length : Nat} (sized : length = headWidth * height)
    (none : ∀ x y, ¬copied x y) :
    Painted raster headWidth height src dst offsetX offsetY copied (List.replicate length 0) := by
  constructor
  · rw [List.length_replicate, sized]
  · intro x y column row before
    exact absurd before (none x y)
  · intro column row left top _
    apply List.getElem?_replicate_of_lt
    rw [sized, Nat.mul_comm headWidth]
    exact cell_lt left top

/-- The pixels that are copied before row `y` and the columns up to `x` in it. -/
def copiedUntil (copy y x : Nat) (i j : Nat) : Prop := i < copy ∧ j < y ∨ i < x ∧ j = y

/-- The pixels of the rows before `y`. -/
def copiedRows (copy y : Nat) (i j : Nat) : Prop := i < copy ∧ j < y

theorem copiedUntil_start (copy y i j : Nat) :
    copiedRows copy y i j ↔ copiedUntil copy y 0 i j := by
  simp [copiedRows, copiedUntil]

theorem copiedUntil_step (copy y x i j : Nat) :
    copiedUntil copy y x i j ∨ i = x ∧ j = y ↔ copiedUntil copy y (x + 1) i j := by
  unfold copiedUntil
  omega

theorem copiedUntil_end (copy y i j : Nat) :
    copiedUntil copy y copy i j ↔ copiedRows copy (y + 1) i j := by
  unfold copiedUntil copiedRows
  omega

theorem Painted.placeRow {y : Nat}
    (painted : Painted raster headWidth height src dst offsetX offsetY (copiedRows copy y) pixels)
    (placed : raster.placeRow headWidth height copy src dst offsetX offsetY pixels y = .ok next) :
    Painted raster headWidth height src dst offsetX offsetY (copiedRows copy (y + 1)) next := by
  have row := countingLoop_keeps
    (fun x => Painted raster headWidth height src dst offsetX offsetY (copiedUntil copy y x))
    (painted.congr (copiedUntil_start copy y))
    (fun x state after _ before turned =>
      (before.placePixel turned).congr (copiedUntil_step copy y x)) placed
  exact row.congr (copiedUntil_end copy y)

theorem painted_rows {length : Nat} (sized : length = headWidth * height) {rows : Nat}
    (placed : (List.range rows).foldlM
      (raster.placeRow headWidth height copy src dst offsetX offsetY)
      (List.replicate length 0) = .ok next) :
    Painted raster headWidth height src dst offsetX offsetY (copiedRows copy rows) next := by
  apply countingLoop_keeps (fun y => Painted raster headWidth height src dst offsetX offsetY
    (copiedRows copy y)) _ _ placed
  · apply painted_white sized
    intro x y before
    exact Nat.not_lt_zero y before.2
  · intro y state after _ before turned
    exact before.placeRow turned

/-! ## When the loops succeed -/

/-- The places of a copied pixel and of its dot are within `u32`. -/
def Indexed (raster : MonoRaster) (headWidth height src dst : Nat) (offsetX offsetY : Int)
    (x y : Nat) : Prop :=
  ∀ column row, Lands headWidth height dst offsetX offsetY x y column row →
    y * raster.width.toNat + (src + x) < 2 ^ 32 ∧ row * headWidth + column < 2 ^ 32

theorem indexed_of_placePixel {x y : Nat}
    (placed : raster.placePixel headWidth height src dst offsetX offsetY y pixels x = .ok next) :
    Indexed raster headWidth height src dst offsetX offsetY x y := by
  intro column row lands
  rcases placePixel_eq_ok.mp placed with
    ⟨other, further, value, also, small, fits, -⟩ | ⟨outside, -⟩
  · obtain ⟨rfl, rfl⟩ := lands.same_dot also
    exact ⟨small, fits⟩
  · exact absurd lands (outside column row)

theorem placePixel_total {x y : Nat}
    (painted : Painted raster headWidth height src dst offsetX offsetY copied pixels)
    (present : ∃ value, raster.pixel (src + x) y = some value)
    (indexed : Indexed raster headWidth height src dst offsetX offsetY x y) :
    ∃ next, raster.placePixel headWidth height src dst offsetX offsetY y pixels x = .ok next := by
  by_cases inside : ∃ column row, Lands headWidth height dst offsetX offsetY x y column row
  · obtain ⟨column, row, lands⟩ := inside
    obtain ⟨value, found⟩ := present
    obtain ⟨small, fits⟩ := indexed column row lands
    have within : row * headWidth + column < pixels.length := by
      rw [painted.length, Nat.mul_comm headWidth]
      exact cell_lt lands.1 lands.2.1
    exact ⟨_, placePixel_eq_ok.mpr
      (.inl ⟨column, row, value, lands, small, fits, found, within, rfl⟩)⟩
  · refine ⟨pixels, placePixel_eq_ok.mpr (.inr ⟨?_, rfl⟩)⟩
    intro column row lands
    exact inside ⟨column, row, lands⟩

/-- The inner loop succeeds when all places of its row are within `u32`. -/
theorem placeRow_total {y : Nat}
    (painted : Painted raster headWidth height src dst offsetX offsetY (copiedRows copy y) pixels)
    (present : ∀ x < copy, ∃ value, raster.pixel (src + x) y = some value)
    (indexed : ∀ x < copy, Indexed raster headWidth height src dst offsetX offsetY x y) :
    ∃ next, raster.placeRow headWidth height copy src dst offsetX offsetY pixels y = .ok next := by
  have total : ∃ next,
      raster.placeRow headWidth height copy src dst offsetX offsetY pixels y = .ok next ∧
        Painted raster headWidth height src dst offsetX offsetY (copiedUntil copy y copy) next := by
    apply countingLoop_total (fun x => Painted raster headWidth height src dst offsetX offsetY
      (copiedUntil copy y x)) (painted.congr (copiedUntil_start copy y))
    intro x state left before
    obtain ⟨next, placed⟩ := placePixel_total before (present x left) (indexed x left)
    exact ⟨next, placed, (before.placePixel placed).congr (copiedUntil_step copy y x)⟩
  obtain ⟨next, placed, -⟩ := total
  exact ⟨next, placed⟩

/-- The loops succeed exactly when all places are within `u32`. -/
theorem placeRows_isOk_iff {length : Nat} (sized : length = headWidth * height) {rows : Nat}
    (present : ∀ y < rows, ∀ x < copy, ∃ value, raster.pixel (src + x) y = some value) :
    (∃ last, (List.range rows).foldlM
      (raster.placeRow headWidth height copy src dst offsetX offsetY)
      (List.replicate length 0) = .ok last) ↔
      ∀ y < rows, ∀ x < copy, Indexed raster headWidth height src dst offsetX offsetY x y := by
  constructor
  · intro ended y top x left
    obtain ⟨last, ended⟩ := ended
    obtain ⟨state, next, turned⟩ := loop_ran (List.mem_range.mpr top) ended
    obtain ⟨before, after, placed⟩ := loop_ran (List.mem_range.mpr left) turned
    exact indexed_of_placePixel placed
  · intro indexed
    have total : ∃ last, (List.range rows).foldlM
        (raster.placeRow headWidth height copy src dst offsetX offsetY)
        (List.replicate length 0) = .ok last ∧
          Painted raster headWidth height src dst offsetX offsetY (copiedRows copy rows) last := by
      apply countingLoop_total (fun y => Painted raster headWidth height src dst offsetX offsetY
        (copiedRows copy y))
      · apply painted_white sized
        intro x y before
        exact Nat.not_lt_zero y before.2
      · intro y state top before
        obtain ⟨next, placed⟩ := placeRow_total before (present y top) (indexed y top)
        exact ⟨next, placed, before.placeRow placed⟩
    obtain ⟨last, ended, -⟩ := total
    exact ⟨last, ended⟩

end

/-! ## Byte-aligned columns -/

/-- The column of the byte-aligned raster, in whole numbers. -/
def alignedBase (width headWidth : Nat) : Fit → Nat
  | .left => 0
  | .center => (headWidth / 8 - (width + 7) / 8) / 2 * 8
  | .right => headWidth - (width + 7) / 8 * 8

/-- The subtractions of `place_on_head_byte_aligned` do not underflow. -/
def Spared (width headWidth : Nat) : Fit → Prop
  | .left => True
  | .center => (width + 7) / 8 ≤ headWidth / 8
  | .right => (width + 7) / 8 * 8 ≤ headWidth

theorem headBase_eq_ok {width headWidth base : Nat} (machine : headWidth < 2 ^ 32) (align : Fit) :
    headBase ((width + 7) / 8 * 8) headWidth align = .ok base ↔
      Spared width headWidth align ∧ alignedBase width headWidth align = base := by
  cases align with
  | left => simp [headBase, Spared, alignedBase]
  | center =>
      have bytes : (width + 7) / 8 * 8 / 8 = (width + 7) / 8 := Nat.mul_div_cancel _ (by decide)
      have small : (headWidth / 8 - (width + 7) / 8) / 2 * 8 < 2 ^ 32 := by omega
      rw [headBase, except_bind_eq_ok, bytes]
      constructor
      · intro computed
        obtain ⟨spare, spared, computed⟩ := computed
        obtain ⟨enough, rfl⟩ := orPanic_eq_ok.mp spared
        exact ⟨enough, (orPanic_eq_ok.mp computed).2⟩
      · intro computed
        exact ⟨_, orPanic_eq_ok.mpr ⟨computed.1, rfl⟩, orPanic_eq_ok.mpr ⟨small, computed.2⟩⟩
  | right => exact orPanic_eq_ok

theorem alignedBase_le {width headWidth : Nat} {align : Fit} (within : width ≤ headWidth)
    (spared : Spared width headWidth align) :
    alignedBase width headWidth align + width ≤ headWidth := by
  cases align with
  | left => exact (Nat.zero_add width).symm ▸ within
  | center =>
      simp only [Spared] at spared
      simp only [alignedBase]
      omega
  | right =>
      simp only [Spared] at spared
      simp only [alignedBase]
      omega

/-- The raster stands at a column of the head: its pixels are there, and the rest is white. -/
structure StandsAt (raster placed : MonoRaster) (headWidth : UInt32) (base : Nat) : Prop where
  width : placed.width = headWidth
  height : placed.height = raster.height
  length : placed.pixels.length = headWidth.toNat * raster.height.toNat
  within : base + raster.width.toNat ≤ headWidth.toNat
  inside : ∀ x y, x < raster.width.toNat → y < raster.height.toNat →
    placed.pixel (base + x) y = raster.pixel x y
  outside : ∀ x y, x < headWidth.toNat → y < raster.height.toNat →
    x < base ∨ base + raster.width.toNat ≤ x → placed.pixel x y = some 0

/-- The raster is placed on the head at its byte-aligned column. -/
def KeepsPixels (raster : MonoRaster) (headWidth : UInt32) (align : Fit) : Prop :=
  ∃ placed, raster.placeOnHeadByteAligned headWidth align 0 0 = .ok placed ∧
    StandsAt raster placed headWidth
      (alignedBase raster.width.toNat headWidth.toNat align)

/-- The raster can be placed: the columns exist in whole bytes, and either the column is an
`i32` and all dots are counted by a `u32`, or the raster is white. -/
def Placeable (raster : MonoRaster) (headWidth : UInt32) (align : Fit) : Prop :=
  (raster.width.toNat + 7) / 8 * 8 < 2 ^ 32 ∧ Spared raster.width.toNat headWidth.toNat align ∧
    if alignedBase raster.width.toNat headWidth.toNat align < 2 ^ 31 then
      (raster.height.toNat - 1) * headWidth.toNat +
        (alignedBase raster.width.toNat headWidth.toNat align + raster.width.toNat - 1) < 2 ^ 32
    else
      headWidth.toNat * raster.height.toNat ≤ isizeMax ∧ ∀ pixel ∈ raster.pixels, pixel = 0

section

variable {raster placed : MonoRaster} {headWidth : UInt32} {align : Fit} {shift : Int32}

/-- A raster that fits is copied from its first column on. -/
theorem placeOnHead_left_eq_ok (within : raster.width ≤ headWidth) (wide : raster.width ≠ 0) :
    raster.placeOnHead headWidth .left shift 0 = .ok placed ↔
      headWidth.toNat * raster.height.toNat ≤ isizeMax ∧ ∃ pixels,
        (List.range raster.height.toNat).foldlM
          (raster.placeRow headWidth.toNat raster.height.toNat raster.width.toNat 0 0 shift.toInt 0)
          (List.replicate (headWidth.toNat * raster.height.toNat) 0) = .ok pixels ∧
        ⟨headWidth, raster.height, pixels⟩ = placed := by
  rw [UInt32.le_iff_toNat_le] at within
  have filled : headWidth ≠ 0 := by
    intro none
    rw [none] at within
    exact wide (UInt32.toNat_inj.mp (Nat.le_zero.mp within))
  have copy : min raster.width.toNat headWidth.toNat = raster.width.toNat := Nat.min_eq_left within
  have down : raster.height.toNat + (max (0 : Int32).toInt 0).toNat = raster.height.toNat := rfl
  have restored : UInt32.ofNat raster.height.toNat = raster.height := UInt32.ofNat_toNat
  rw [placeOnHead]
  simp only [except_bind_eq_ok, refuseIf_eq_ok, u32OrPanic, zeros, orPanic_eq_ok, down, copy,
    except_pure_eq_ok]
  constructor
  · intro computed
    obtain ⟨-, -, _, ⟨-, rfl⟩, _, ⟨small, rfl⟩, pixels, ended, made⟩ := computed
    rw [restored] at made
    exact ⟨small, pixels, ended, made⟩
  · intro computed
    obtain ⟨small, pixels, ended, made⟩ := computed
    rw [← restored] at made
    exact ⟨(), filled, _, ⟨raster.height.toNat_lt, rfl⟩, _, ⟨small, rfl⟩, pixels, ended, made⟩

theorem placeOnHeadByteAligned_eq_ok (within : raster.width ≤ headWidth)
    (wide : raster.width ≠ 0) :
    raster.placeOnHeadByteAligned headWidth align 0 0 = .ok placed ↔
      (raster.width.toNat + 7) / 8 * 8 < 2 ^ 32 ∧
        Spared raster.width.toNat headWidth.toNat align ∧
        raster.placeOnHead headWidth .left
          (.ofNat (alignedBase raster.width.toNat headWidth.toNat align)) 0 = .ok placed := by
  have filled : headWidth ≠ 0 := by
    intro none
    rw [none, UInt32.le_iff_toNat_le] at within
    exact wide (UInt32.toNat_inj.mp (Nat.le_zero.mp within))
  have admitted : ¬(headWidth = 0 ∨ raster.width > headWidth) :=
    not_or.mpr ⟨filled, UInt32.not_lt.mpr within⟩
  have unshifted (base : Nat) :
      addI32OrPanic (.ofNat base) 0 = (.ok (.ofNat base) : Outcome RasterError Int32) := by
    apply orPanic_eq_ok.mpr
    rw [Int32.add_zero]
    refine ⟨?_, rfl⟩
    exact ⟨by simpa using (Int32.ofNat base).le_toInt, by simpa using (Int32.ofNat base).toInt_lt⟩
  rw [placeOnHeadByteAligned]
  simp only [except_bind_eq_ok, refuseIf_eq_ok, u32OrPanic, orPanic_eq_ok]
  constructor
  · intro computed
    obtain ⟨-, -, _, ⟨packed, rfl⟩, base, based, moved, shifted, ended⟩ := computed
    obtain ⟨spared, rfl⟩ := (headBase_eq_ok headWidth.toNat_lt align).mp based
    rw [unshifted] at shifted
    cases shifted
    exact ⟨packed, spared, ended⟩
  · intro computed
    obtain ⟨packed, spared, ended⟩ := computed
    exact ⟨(), admitted, _, ⟨packed, rfl⟩, _,
      (headBase_eq_ok headWidth.toNat_lt align).mpr ⟨spared, rfl⟩, _, unshifted _, ended⟩

/-- The loops of a raster that fits succeed when all places are within `u32`. -/
theorem copied_isOk_iff (valid : raster.validate = .ok ()) (headWidth : UInt32) (offsetX : Int) :
    (∃ pixels, (List.range raster.height.toNat).foldlM
      (raster.placeRow headWidth.toNat raster.height.toNat raster.width.toNat 0 0 offsetX 0)
      (List.replicate (headWidth.toNat * raster.height.toNat) 0) = .ok pixels) ↔
      ∀ y < raster.height.toNat, ∀ x < raster.width.toNat,
        Indexed raster headWidth.toNat raster.height.toNat 0 0 offsetX 0 x y := by
  apply placeRows_isOk_iff rfl
  intro y top x left
  rw [Nat.zero_add]
  exact exists_pixel valid left top

theorem standsAt_of_painted {pixels : List UInt8} {base : Nat}
    (fits : base + raster.width.toNat ≤ headWidth.toNat)
    (painted : Painted raster headWidth.toNat raster.height.toNat 0 0 base 0
      (copiedRows raster.width.toNat raster.height.toNat) pixels) :
    StandsAt raster ⟨headWidth, raster.height, pixels⟩ headWidth base := by
  refine ⟨rfl, rfl, painted.length, fits, ?_, ?_⟩
  · intro x y left top
    have shown := painted.shown x y (base + x) y ⟨left, top⟩
      ⟨by omega, top, by omega, by omega⟩
    rw [Nat.zero_add] at shown
    exact shown
  · intro x y left top beside
    apply painted.blank x y left top
    intro i j before lands
    obtain ⟨-, -, across, -⟩ := lands
    have inside := before.1
    omega

/-- On a column that is an `i32`, all pixels land on the head. -/
theorem standsAt_iff_of_small (valid : raster.validate = .ok ()) {base : Nat}
    (fits : base + raster.width.toNat ≤ headWidth.toNat) (small : base < 2 ^ 31) :
    (∃ placed, raster.placeOnHead headWidth .left (.ofNat base) 0 = .ok placed ∧
      StandsAt raster placed headWidth base) ↔
      (raster.height.toNat - 1) * headWidth.toNat + (base + raster.width.toNat - 1) < 2 ^ 32 := by
  obtain ⟨wide, high, -⟩ := validate_eq_ok valid
  have left := toNat_pos wide
  have top := toNat_pos high
  have within : raster.width ≤ headWidth :=
    UInt32.le_iff_toNat_le.mpr (Nat.le_trans (Nat.le_add_left _ _) fits)
  have signed : (Int32.ofNat base).toInt = base := Int32.toInt_ofNat_of_lt small
  have loops := copied_isOk_iff valid headWidth base
  simp only [placeOnHead_left_eq_ok within wide, signed]
  constructor
  · intro kept
    obtain ⟨placed, ⟨-, pixels, ended, -⟩, -⟩ := kept
    have last := loops.mp ⟨pixels, ended⟩ (raster.height.toNat - 1) (by omega)
      (raster.width.toNat - 1) (by omega) (base + (raster.width.toNat - 1))
      (raster.height.toNat - 1) ⟨by omega, by omega, by omega, by omega⟩
    rw [Nat.add_sub_assoc left]
    exact last.2
  · intro bounded
    have rows : headWidth.toNat * raster.height.toNat =
        (raster.height.toNat - 1) * headWidth.toNat + headWidth.toNat := by
      rw [← Nat.succ_mul, Nat.succ_eq_add_one, Nat.sub_add_cancel top, Nat.mul_comm]
    have machine := headWidth.toNat_lt
    have capacity : headWidth.toNat * raster.height.toNat ≤ isizeMax := by
      rw [rows]
      have room : 2 ^ 32 + 2 ^ 32 ≤ isizeMax := by decide
      omega
    obtain ⟨pixels, ended⟩ : ∃ pixels, (List.range raster.height.toNat).foldlM
        (raster.placeRow headWidth.toNat raster.height.toNat raster.width.toNat 0 0 base 0)
        (List.replicate (headWidth.toNat * raster.height.toNat) 0) = .ok pixels := by
      apply loops.mpr
      intro y below x inside column row lands
      obtain ⟨-, -, across, down⟩ := lands
      have dot : y * headWidth.toNat + (base + x) ≤
          (raster.height.toNat - 1) * headWidth.toNat + (base + raster.width.toNat - 1) :=
        cell_le_last (Nat.add_lt_add_left inside base) below
      have source : y * raster.width.toNat ≤ y * headWidth.toNat :=
        Nat.mul_le_mul_left y (UInt32.le_iff_toNat_le.mp within)
      have same : row = y ∧ column = base + x := ⟨by omega, by omega⟩
      rw [same.1, same.2]
      exact ⟨by omega, by omega⟩
    exact ⟨_, ⟨capacity, pixels, ended, rfl⟩, standsAt_of_painted fits (painted_rows rfl ended)⟩

/-- On a column beyond the `i32`, no pixel lands on the head. -/
theorem standsAt_iff_of_large (valid : raster.validate = .ok ()) {base : Nat}
    (fits : base + raster.width.toNat ≤ headWidth.toNat) (large : 2 ^ 31 ≤ base) :
    (∃ placed, raster.placeOnHead headWidth .left (.ofNat base) 0 = .ok placed ∧
      StandsAt raster placed headWidth base) ↔
      headWidth.toNat * raster.height.toNat ≤ isizeMax ∧ ∀ pixel ∈ raster.pixels, pixel = 0 := by
  obtain ⟨wide, high, filled⟩ := validate_eq_ok valid
  have within : raster.width ≤ headWidth :=
    UInt32.le_iff_toNat_le.mpr (Nat.le_trans (Nat.le_add_left _ _) fits)
  have machine := headWidth.toNat_lt
  have signed : (Int32.ofNat base).toInt = (base : Int) - 2 ^ 32 := by
    have size : ((Int32.size : Nat) : Int) = 2 ^ 32 := rfl
    rw [Int32.toInt_ofNat', Int.bmod_def, size]
    omega
  have astray {x y column row : Nat} (inside : x < raster.width.toNat) :
      ¬Lands headWidth.toNat raster.height.toNat 0 ((base : Int) - 2 ^ 32) 0 x y column row := by
    intro lands
    obtain ⟨-, -, across, -⟩ := lands
    omega
  simp only [placeOnHead_left_eq_ok within wide, signed]
  constructor
  · intro kept
    obtain ⟨placed, ⟨capacity, pixels, ended, rfl⟩, stands⟩ := kept
    have painted := painted_rows rfl ended
    refine ⟨capacity, ?_⟩
    intro value member
    obtain ⟨x, y, left, top, found⟩ := pixel_of_mem valid member
    have blank : pixels[y * headWidth.toNat + (base + x)]? = some 0 := by
      apply painted.blank (base + x) y (by omega) top
      intro i j before
      exact astray before.1
    have same : some 0 = some value := by
      rw [← found, ← stands.inside x y left top, ← blank]
      rfl
    exact (Option.some.inj same).symm
  · intro white
    obtain ⟨capacity, white⟩ := white
    obtain ⟨pixels, ended⟩ := (copied_isOk_iff valid headWidth ((base : Int) - 2 ^ 32)).mpr
      fun y _ x inside column row lands => absurd lands (astray inside)
    have painted := painted_rows rfl ended
    have blank : ∀ column row, column < headWidth.toNat → row < raster.height.toNat →
        pixels[row * headWidth.toNat + column]? = some 0 := by
      intro column row left top
      apply painted.blank column row left top
      intro x y before
      exact astray before.1
    refine ⟨_, ⟨capacity, pixels, ended, rfl⟩, rfl, rfl, painted.length, fits, ?_, ?_⟩
    · intro x y left top
      obtain ⟨value, found⟩ := exists_pixel valid left top
      rw [found, white value (List.mem_of_getElem? found)]
      exact blank (base + x) y (by omega) top
    · intro x y left top _
      exact blank x y left top

end

/-- A raster that is not wider than the head keeps every pixel on it exactly when it can be
placed. -/
theorem placeOnHeadByteAligned_keepsPixels_iff (raster : MonoRaster) (headWidth : UInt32)
    (align : Fit) (valid : raster.validate = .ok ()) (within : raster.width ≤ headWidth) :
    raster.KeepsPixels headWidth align ↔ raster.Placeable headWidth align := by
  obtain ⟨wide, high, filled⟩ := validate_eq_ok valid
  have apart : raster.KeepsPixels headWidth align ↔
      (raster.width.toNat + 7) / 8 * 8 < 2 ^ 32 ∧
        Spared raster.width.toNat headWidth.toNat align ∧
        ∃ placed, raster.placeOnHead headWidth .left
          (.ofNat (alignedBase raster.width.toNat headWidth.toNat align)) 0 = .ok placed ∧
          StandsAt raster placed headWidth
            (alignedBase raster.width.toNat headWidth.toNat align) := by
    simp only [KeepsPixels, placeOnHeadByteAligned_eq_ok within wide]
    constructor
    · intro kept
      obtain ⟨placed, ⟨packed, spared, ended⟩, stands⟩ := kept
      exact ⟨packed, spared, placed, ended, stands⟩
    · intro kept
      obtain ⟨packed, spared, placed, ended, stands⟩ := kept
      exact ⟨placed, ⟨packed, spared, ended⟩, stands⟩
  rw [apart, Placeable]
  apply and_congr_right
  intro _
  apply and_congr_right
  intro spared
  have fits := alignedBase_le (UInt32.le_iff_toNat_le.mp within) spared
  split
  · next small => exact standsAt_iff_of_small valid fits small
  · next large => exact standsAt_iff_of_large valid fits (Nat.le_of_not_lt large)

theorem placeOnHeadByteAligned_keepsPixels_iff_center :
    KeepsPixels ⟨3, 2, [1, 0, 1, 1, 1, 0]⟩ 24 .center :=
  (placeOnHeadByteAligned_keepsPixels_iff ⟨3, 2, [1, 0, 1, 1, 1, 0]⟩ 24 .center rfl (by decide)).mpr
    ⟨by decide, by unfold Spared; decide, by decide⟩

/-- Nine dots take two bytes of a head of nine dots, which has one byte. -/
theorem nineDots_not_keepsPixels :
    validate ⟨9, 1, List.replicate 9 1⟩ = .ok () ∧
      placeOnHeadByteAligned ⟨9, 1, List.replicate 9 1⟩ 9 .center 0 0 = .error .panic ∧
      ¬KeepsPixels ⟨9, 1, List.replicate 9 1⟩ 9 .center := by
  have panicked :
      placeOnHeadByteAligned ⟨9, 1, List.replicate 9 1⟩ 9 .center 0 0 = .error .panic := rfl
  refine ⟨rfl, panicked, ?_⟩
  intro kept
  obtain ⟨placed, ended, -⟩ := kept
  rw [panicked] at ended
  cases ended

end MonoRaster

end PrinterSdk.Render
