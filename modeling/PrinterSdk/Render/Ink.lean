import PrinterSdk.Render.Draw

/-!
# Ink

What a drawing does to one dot of a canvas does not depend on how high the canvas is, as
long as its pixels can be counted with `u32`.  So ink that a drawing leaves on a canvas is
there, too, when the drawing is alone on a higher one.
-/

namespace PrinterSdk.Render

open PrinterSdk.Data PrinterSdk.Label

/-! ## Dots -/

namespace GrayRaster

/-- The value of the dot in a column and a row. -/
def dotAt (raster : GrayRaster) (x y : Nat) : UInt8 :=
  raster.pixels.getD (y * raster.width.toNat + x) 255

/-- A raster with a pixel for every dot. -/
structure Sized (raster : GrayRaster) (width height : UInt32) : Prop where
  wide : raster.width = width
  high : raster.height = height
  filled : raster.pixels.length = width.toNat * height.toNat

end GrayRaster

/-- A dot in a canvas of the given size. -/
structure Inside (width height : UInt32) (x y : Nat) : Prop where
  across : x < width.toNat
  down : y < height.toNat

theorem Inside.index_lt {width height : UInt32} {x y : Nat} (inside : Inside width height x y) :
    y * width.toNat + x < width.toNat * height.toNat := by
  have rows : (y + 1) * width.toNat ≤ height.toNat * width.toNat :=
    Nat.mul_le_mul_right _ inside.down
  have across := inside.across
  rw [Nat.mul_comm width.toNat]
  rw [Nat.add_mul, Nat.one_mul] at rows
  omega

/-- Dots of a row of that width are different when their indices are. -/
theorem rowIndex_inj {width x y column row : Nat} (across : x < width) (within : column < width) :
    row * width + column = y * width + x ↔ column = x ∧ row = y := by
  constructor
  · intro same
    have positive : 0 < width := Nat.zero_lt_of_lt across
    have columns := congrArg (· % width) same
    simp only [Nat.mul_add_mod', Nat.mod_eq_of_lt across, Nat.mod_eq_of_lt within] at columns
    rw [columns] at same
    exact ⟨columns, Nat.eq_of_mul_eq_mul_right positive (Nat.add_right_cancel same)⟩
  · rintro ⟨rfl, rfl⟩
    rfl

section

variable {width height : UInt32} {raster : GrayRaster} {x y : Nat}

theorem sized_of_tryNew {white : UInt8} {maxPixels : Nat}
    (made : GrayRaster.tryNew width height white maxPixels = .ok raster) :
    raster.Sized width height ∧ raster.pixels = List.replicate raster.pixels.length white := by
  obtain ⟨len, counted, filled⟩ := (except_bind_eq_ok _ _ _).mp made
  obtain ⟨-, -, rfl, -⟩ := checkedPixelLen_eq_ok.mp counted
  cases (except_pure_eq_ok _ _).mp filled
  have length := List.length_replicate (n := width.toNat * height.toNat) (a := white)
  refine ⟨⟨rfl, rfl, length⟩, ?_⟩
  dsimp only
  rw [length]

/-- A new canvas is blank. -/
theorem dotAt_of_tryNew {maxPixels : Nat}
    (made : GrayRaster.tryNew width height 255 maxPixels = .ok raster) : raster.dotAt x y = 255 := by
  rw [GrayRaster.dotAt, (sized_of_tryNew made).2, List.getD_eq_getElem?_getD,
    List.getElem?_replicate]
  split
  · rfl
  · rfl

/-- A change of a pixel is a change of its dot alone. -/
theorem dotAt_modify (sized : raster.Sized width height) (inside : Inside width height x y)
    {column row : Nat} (within : column < width.toNat) (change : UInt8 → UInt8) :
    (GrayRaster.mk width height
      (raster.pixels.modify (row * width.toNat + column) change)).dotAt x y =
        if column = x ∧ row = y then change (raster.dotAt x y) else raster.dotAt x y := by
  have bound : y * width.toNat + x < raster.pixels.length := by
    rw [sized.filled]
    exact inside.index_lt
  rw [GrayRaster.dotAt, GrayRaster.dotAt]
  dsimp only
  rw [sized.wide, List.getD_eq_getElem?_getD, List.getD_eq_getElem?_getD, List.getElem?_modify,
    List.getElem?_eq_getElem bound]
  simp only [rowIndex_inj inside.across within, Option.map_eq_map, Option.map_some,
    Option.getD_some]

/-! ## Painting -/

/-- A write is at a dot. -/
def Write.At (write : Write) (x y : Nat) : Prop := write.x.toInt = x ∧ write.y.toInt = y

instance (write : Write) (x y : Nat) : Decidable (write.At x y) :=
  inferInstanceAs (Decidable (_ ∧ _))

theorem setDot_sized (sized : raster.Sized width height) (write : Write) :
    (setDot raster write).Sized width height := by
  unfold setDot
  split
  · exact ⟨sized.wide, sized.high, (List.length_set ..).trans sized.filled⟩
  · exact sized

/-- The index of a write is a `u32`, if there is a dot for it in the canvas. -/
def IndexFits (width height : UInt32) (write : Write) : Prop :=
  ∀ x y, Inside width height x y → write.At x y → y * width.toNat + x < 2 ^ 32

/-- A write is in the canvas when it is at a dot of it. -/
theorem write_inside_iff {write : Write} :
    (0 ≤ write.x ∧ 0 ≤ write.y ∧ write.x.toUInt32 < width ∧ write.y.toUInt32 < height) ↔
      Inside width height write.x.toUInt32.toNat write.y.toUInt32.toNat ∧
        write.At write.x.toUInt32.toNat write.y.toUInt32.toNat := by
  constructor
  · intro within
    obtain ⟨right, below, across, down⟩ := within
    refine ⟨⟨UInt32.lt_iff_toNat_lt.mp across, UInt32.lt_iff_toNat_lt.mp down⟩, ?_, ?_⟩
    · rw [Int32.toNat_toUInt32_of_le right]
      exact (Int32.cast_toNatClampNeg _ right).symm
    · rw [Int32.toNat_toUInt32_of_le below]
      exact (Int32.cast_toNatClampNeg _ below).symm
  · intro inside
    obtain ⟨⟨across, down⟩, column, row⟩ := inside
    refine ⟨?_, ?_, UInt32.lt_iff_toNat_lt.mpr across, UInt32.lt_iff_toNat_lt.mpr down⟩
    · rw [Int32.le_iff_toInt_le, column]
      exact Int.natCast_nonneg _
    · rw [Int32.le_iff_toInt_le, row]
      exact Int.natCast_nonneg _

/-- A write that is at a dot is at that dot with its unsigned coordinates. -/
theorem Write.At.unsigned {write : Write} {x y : Nat} (dot : write.At x y) :
    write.x.toUInt32.toNat = x ∧ write.y.toUInt32.toNat = y := by
  obtain ⟨column, row⟩ := dot
  have right : 0 ≤ write.x := by
    rw [Int32.le_iff_toInt_le, column]
    exact Int.natCast_nonneg x
  have below : 0 ≤ write.y := by
    rw [Int32.le_iff_toInt_le, row]
    exact Int.natCast_nonneg y
  have first := Int32.cast_toNatClampNeg _ right
  have second := Int32.cast_toNatClampNeg _ below
  rw [Int32.toNat_toUInt32_of_le right, Int32.toNat_toUInt32_of_le below]
  omega

/-- `set` changes the dot that it is called for, and no other one. -/
theorem dotAt_setDot_of_fits (sized : raster.Sized width height) (inside : Inside width height x y)
    {write : Write} (fits : IndexFits width height write) :
    (setDot raster write).dotAt x y = if write.At x y then write.v else raster.dotAt x y := by
  unfold setDot
  rw [sized.wide, sized.high]
  split
  · next within =>
      obtain ⟨place, dot⟩ := write_inside_iff.mp within
      have index := fits _ _ place dot
      have product := Nat.lt_of_le_of_lt (Nat.le_add_right _ _) index
      rw [UInt32.toNat_add, UInt32.toNat_mul, Nat.mod_eq_of_lt product, Nat.mod_eq_of_lt index,
        List.set_eq_modify, dotAt_modify sized inside place.across]
      have same : (write.x.toUInt32.toNat = x ∧ write.y.toUInt32.toNat = y) ↔ write.At x y := by
        constructor
        · rintro ⟨rfl, rfl⟩
          exact dot
        · exact Write.At.unsigned
      simp only [same]
  · next outside =>
      rw [if_neg]
      intro dot
      obtain ⟨rfl, rfl⟩ := dot.unsigned
      exact outside (write_inside_iff.mpr ⟨inside, dot⟩)

theorem dotAt_setDot (sized : raster.Sized width height)
    (area : width.toNat * height.toNat ≤ 2 ^ 32) (inside : Inside width height x y)
    (write : Write) :
    (setDot raster write).dotAt x y = if write.At x y then write.v else raster.dotAt x y :=
  dotAt_setDot_of_fits sized inside fun _ _ place _ => Nat.lt_of_lt_of_le place.index_lt area

/-- Ink that painting leaves was there before, or is left on another canvas of that width,
whatever it was painted on. -/
theorem ink_of_paint {other : GrayRaster} {high : UInt32} (sized : raster.Sized width height)
    (area : width.toNat * height.toNat ≤ 2 ^ 32) (inside : Inside width height x y)
    (sizes : other.Sized width high) (areas : width.toNat * high.toNat ≤ 2 ^ 32)
    (shorter : height.toNat ≤ high.toNat) {old : Prop}
    (before : raster.dotAt x y < 255 → old ∨ other.dotAt x y < 255) (writes : List Write) :
    (paint raster writes).dotAt x y < 255 → old ∨ (paint other writes).dotAt x y < 255 := by
  unfold paint
  induction writes generalizing raster other with
  | nil => exact before
  | cons write rest ih =>
      apply ih (setDot_sized sized write) (setDot_sized sizes write)
      have within : Inside width high x y := ⟨inside.across, Nat.lt_of_lt_of_le inside.down shorter⟩
      rw [dotAt_setDot sized area inside, dotAt_setDot sizes areas within]
      split
      · exact .inr
      · exact before

theorem paint_sized (sized : raster.Sized width height) (writes : List Write) :
    (paint raster writes).Sized width height := by
  unfold paint
  induction writes generalizing raster with
  | nil => exact sized
  | cons write rest ih => exact ih (setDot_sized sized write)

/-! ## Turning -/

/-- A number is its distance behind an earlier one. -/
theorem ofInt32_reached {start value : Int32} (after : start.toInt ≤ value.toInt) :
    Int32.ofInt (start.toInt + (value.toInt - start.toInt).toNat) = value := by
  have reached : start.toInt + (value.toInt - start.toInt) = value.toInt := by omega
  rw [Int.toNat_of_nonneg (by omega), reached]
  exact Int32.ofInt_toInt value

/-- The numbers of a range that includes its last one. -/
theorem mem_spanTo {start last value : Int32} :
    value ∈ spanTo start last ↔ start ≤ value ∧ value ≤ last := by
  rw [Int32.le_iff_toInt_le, Int32.le_iff_toInt_le, spanTo, List.mem_map]
  have least := start.le_toInt
  have most := last.toInt_lt
  constructor
  · rintro ⟨index, listed, rfl⟩
    rw [List.mem_range] at listed
    rw [toInt_ofInt32 ⟨by omega, by omega⟩]
    constructor
    · omega
    · omega
  · rintro ⟨after, before⟩
    refine ⟨(value.toInt - start.toInt).toNat, List.mem_range.mpr (by omega), ?_⟩
    exact ofInt32_reached after

theorem mem_span {start stop value : Int32} :
    value ∈ span start stop ↔ start ≤ value ∧ value < stop := by
  rw [Int32.le_iff_toInt_le, Int32.lt_iff_toInt_lt, span, List.mem_map]
  have least := start.le_toInt
  have most := stop.toInt_lt
  constructor
  · rintro ⟨index, listed, rfl⟩
    rw [List.mem_range] at listed
    rw [toInt_ofInt32 ⟨by omega, by omega⟩]
    constructor
    · omega
    · omega
  · rintro ⟨after, before⟩
    refine ⟨(value.toInt - start.toInt).toNat, List.mem_range.mpr (by omega), ?_⟩
    exact ofInt32_reached after

theorem max_le_iff32 {left right bound : Int32} :
    max left right ≤ bound ↔ left ≤ bound ∧ right ≤ bound := by
  change (if left ≤ right then right else left) ≤ bound ↔ _
  split
  · next ordered => exact ⟨fun below => ⟨Int32.le_trans ordered below, below⟩, And.right⟩
  · next ordered =>
      have reversed := (Int32.le_total left right).resolve_left ordered
      exact ⟨fun below => ⟨below, Int32.le_trans reversed below⟩, And.left⟩

/-- A dot in the square around a placement. -/
def Around (placement : Placement) (dot : Int32 × Int32) : Prop :=
  (placement.x + placement.w / 2 - radius placement ≤ dot.1 ∧
    dot.1 ≤ placement.x + placement.w / 2 + radius placement) ∧
  placement.y + placement.h / 2 - radius placement ≤ dot.2 ∧
    dot.2 ≤ placement.y + placement.h / 2 + radius placement

theorem mem_dotsAround {placement : Placement} {dot : Int32 × Int32} :
    dot ∈ dotsAround width height placement ↔
      Around placement dot ∧ (0 ≤ dot.1 ∧ 0 ≤ dot.2) ∧
        dot.1 ≤ width.toInt32 - 1 ∧ dot.2 ≤ height.toInt32 - 1 := by
  obtain ⟨dx, dy⟩ := dot
  unfold dotsAround
  rw [List.mem_flatMap]
  simp only [List.mem_map, Prod.mk.injEq, mem_spanTo, max_le_iff32, Std.le_min_iff]
  constructor
  · rintro ⟨row, ⟨⟨top, positive⟩, below, down⟩, column, ⟨⟨left, first⟩, right, across⟩, rfl, rfl⟩
    exact ⟨⟨⟨left, right⟩, top, below⟩, ⟨first, positive⟩, across, down⟩
  · rintro ⟨⟨⟨left, right⟩, top, below⟩, ⟨first, positive⟩, across, down⟩
    exact ⟨dy, ⟨⟨top, positive⟩, below, down⟩, dx, ⟨⟨left, first⟩, right, across⟩, rfl, rfl⟩

/-- A cast to `i32` keeps what is below `2^31` and makes the rest negative. -/
theorem toInt_toInt32 (value : UInt32) :
    value.toInt32.toInt = if value.toNat < 2 ^ 31 then (value.toNat : Int)
      else value.toNat - 2 ^ 32 := by
  have cast : value.toInt32.toInt = value.toBitVec.toInt := rfl
  rw [cast, BitVec.toInt_eq_toNat_cond, UInt32.toNat_toBitVec]
  have halved : 2 * value.toNat < 2 ^ 32 ↔ value.toNat < 2 ^ 31 := by omega
  simp only [halved]
  rfl

/-- The layer has ink at a dot of it. -/
theorem layerInk_isSome {layer : GrayRaster} {dot : Int32 × Int32} :
    (layerInk layer dot).isSome = true ↔
      ((0 ≤ dot.1 ∧ 0 ≤ dot.2) ∧ dot.1 < layer.width.toInt32 ∧ dot.2 < layer.height.toInt32) ∧
        layer.dotAt dot.1.toNatClampNeg dot.2.toNatClampNeg < 255 := by
  unfold layerInk
  split
  · next within =>
      rw [and_iff_right ⟨⟨within.1, within.2.1⟩, within.2.2⟩]
      dsimp only
      split
      · next inked => exact iff_of_true rfl inked
      · next blank => exact iff_of_false (by simp) blank
  · next outside =>
      apply iff_of_false
      · simp
      · rintro ⟨⟨⟨right, below⟩, across, down⟩, -⟩
        exact outside ⟨right, below, across, down⟩

theorem layerInk_lt {layer : GrayRaster} {dot : Int32 × Int32} {source : UInt8}
    (inked : layerInk layer dot = some source) : source < 255 := by
  unfold layerInk at inked
  split at inked
  · dsimp only at inked
    split at inked
    · next dark =>
        cases inked
        exact dark
    · cases inked
  · cases inked

theorem rotateDot_sized (sized : raster.Sized width height) (layer : GrayRaster)
    (placement : Placement) (dot : Int32 × Int32) :
    (rotateDot layer placement raster dot).Sized width height := by
  unfold rotateDot
  split
  · exact sized
  · exact ⟨sized.wide, sized.high, (List.length_modify ..).trans sized.filled⟩

/-- A turn of the loop adds ink at one dot, where the layer has it. -/
theorem ink_rotateDot (sized : raster.Sized width height) (inside : Inside width height x y)
    {layer : GrayRaster} {placement : Placement} {dot : Int32 × Int32}
    (within : dot.1.toNatClampNeg < width.toNat) :
    (rotateDot layer placement raster dot).dotAt x y < 255 ↔
      raster.dotAt x y < 255 ∨ (dot.1.toNatClampNeg = x ∧ dot.2.toNatClampNeg = y) ∧
        (layerInk layer (shownDot placement dot)).isSome = true := by
  unfold rotateDot
  split
  · next blank =>
      rw [blank]
      simp
  · next source inked =>
      have dark := layerInk_lt inked
      dsimp only
      rw [sized.wide, sized.high, dotAt_modify sized inside within, inked]
      split
      · next here =>
          apply iff_of_true
          · exact UInt8.lt_of_le_of_lt Std.min_le_right dark
          · exact .inr ⟨here, rfl⟩
      · next elsewhere =>
          rw [or_iff_left]
          exact fun inked => elsewhere inked.1

/-- The ink of a loop over some dots. -/
theorem ink_rotateDots (sized : raster.Sized width height) (inside : Inside width height x y)
    {layer : GrayRaster} {placement : Placement} {dots : List (Int32 × Int32)}
    (within : ∀ dot ∈ dots, dot.1.toNatClampNeg < width.toNat) :
    (dots.foldl (rotateDot layer placement) raster).dotAt x y < 255 ↔
      raster.dotAt x y < 255 ∨ ∃ dot ∈ dots,
        (dot.1.toNatClampNeg = x ∧ dot.2.toNatClampNeg = y) ∧
          (layerInk layer (shownDot placement dot)).isSome = true := by
  induction dots generalizing raster with
  | nil => simp
  | cons dot rest ih =>
      have first := within dot (List.mem_cons_self ..)
      rw [List.foldl_cons, ih (rotateDot_sized sized layer placement dot) fun other member =>
        within other (List.mem_cons_of_mem _ member), ink_rotateDot sized inside first, or_assoc,
        List.exists_mem_cons_iff]

/-- Nothing is turned on a layer that is too large for `i32`. -/
theorem rotateLayer_of_large {layer : GrayRaster} {placement : Placement}
    (large : 2 ^ 31 ≤ layer.width.toNat ∨ 2 ^ 31 ≤ layer.height.toNat) :
    rotateLayer raster layer placement = raster := by
  have blank (dot : Int32 × Int32) : layerInk layer dot = none := by
    rw [← Option.not_isSome_iff_eq_none, layerInk_isSome]
    rintro ⟨⟨⟨right, below⟩, across, down⟩, -⟩
    rw [Int32.le_iff_toInt_le, Int32.toInt_zero] at right below
    rw [Int32.lt_iff_toInt_lt, toInt_toInt32] at across down
    have wide := layer.width.toNat_lt
    have high := layer.height.toNat_lt
    rcases large with large | large
    · rw [if_neg (by omega)] at across
      omega
    · rw [if_neg (by omega)] at down
      omega
  unfold rotateLayer
  generalize dotsAround raster.width raster.height placement = dots
  induction dots with
  | nil => rfl
  | cons dot rest ih =>
      have first : rotateDot layer placement raster dot = raster := by
        unfold rotateDot
        rw [blank]
      rw [List.foldl_cons, first]
      exact ih

/-- Numbers up to the last one that a size of `i32` leaves. -/
theorem le_size_sub_one_iff {size : UInt32} (small : size.toNat < 2 ^ 31) {value : Int32}
    (positive : 0 ≤ value) : value ≤ size.toInt32 - 1 ↔ value.toNatClampNeg < size.toNat := by
  have exact := Int32.cast_toNatClampNeg _ positive
  have last : (size.toInt32 - 1).toInt = (size.toNat : Int) - 1 := by
    rw [Int32.toInt_sub, toInt_toInt32, if_pos small, Int32.toInt_one]
    apply Int.bmod_eq_of_le
    · omega
    · omega
  rw [Int32.le_iff_toInt_le, last]
  omega

theorem lt_size_iff {size : UInt32} (small : size.toNat < 2 ^ 31) {value : Int32}
    (positive : 0 ≤ value) : value < size.toInt32 ↔ value.toNatClampNeg < size.toNat := by
  have exact := Int32.cast_toNatClampNeg _ positive
  rw [Int32.lt_iff_toInt_lt, toInt_toInt32, if_pos small]
  omega

/-- Turning leaves ink of the canvas, and ink of the layer around the placement. -/
theorem ink_rotateLayer (sized : raster.Sized width height) (wide : width.toNat < 2 ^ 31)
    (high : height.toNat < 2 ^ 31) (inside : Inside width height x y) {layer : GrayRaster}
    (sizes : layer.Sized width height) {placement : Placement} :
    (rotateLayer raster layer placement).dotAt x y < 255 ↔
      raster.dotAt x y < 255 ∨ ∃ dot, Around placement dot ∧ (0 ≤ dot.1 ∧ 0 ≤ dot.2) ∧
        (dot.1.toNatClampNeg = x ∧ dot.2.toNatClampNeg = y) ∧
          (0 ≤ (shownDot placement dot).1 ∧ 0 ≤ (shownDot placement dot).2) ∧
            Inside width height (shownDot placement dot).1.toNatClampNeg
              (shownDot placement dot).2.toNatClampNeg ∧
            layer.dotAt (shownDot placement dot).1.toNatClampNeg
              (shownDot placement dot).2.toNatClampNeg < 255 := by
  have within : ∀ dot ∈ dotsAround width height placement,
      dot.1.toNatClampNeg < width.toNat := by
    intro dot listed
    obtain ⟨-, ⟨right, -⟩, across, -⟩ := mem_dotsAround.mp listed
    exact (le_size_sub_one_iff wide right).mp across
  rw [rotateLayer, sized.wide, sized.high, ink_rotateDots sized inside within]
  apply or_congr_right
  apply exists_congr
  intro dot
  rw [mem_dotsAround, layerInk_isSome, sizes.wide, sizes.high]
  constructor
  · rintro ⟨⟨around, ⟨right, below⟩, -⟩, here, ⟨⟨left, top⟩, across, down⟩, inked⟩
    rw [lt_size_iff wide left] at across
    rw [lt_size_iff high top] at down
    exact ⟨around, ⟨right, below⟩, here, ⟨left, top⟩, ⟨across, down⟩, inked⟩
  · rintro ⟨around, ⟨right, below⟩, here, ⟨left, top⟩, shown, inked⟩
    refine ⟨⟨around, ⟨right, below⟩, ?_, ?_⟩, here, ⟨⟨left, top⟩, ?_, ?_⟩, inked⟩
    · rw [le_size_sub_one_iff wide right, here.1]
      exact inside.across
    · rw [le_size_sub_one_iff high below, here.2]
      exact inside.down
    · exact (lt_size_iff wide left).mpr shown.across
    · exact (lt_size_iff high top).mpr shown.down

end

/-! ## Budgets -/

/-- Two computations agree on their value, whatever budgets they leave, when neither fails. -/
def SameValue {α : Type} (left right : Except RenderError (α × RenderBudget)) : Prop :=
  ∀ first second rest other, left = .ok (first, rest) → right = .ok (second, other) →
    first = second

section

variable {α β γ : Type}

theorem sameValue_return (value : α) (budget other : RenderBudget) :
    SameValue (.ok (value, budget)) (.ok (value, other)) := by
  intro first second _ _ once again
  cases once
  cases again
  rfl

/-- What both compute, without a budget. -/
theorem sameValue_bind (computed : Except RenderError β)
    {next following : β → Except RenderError (α × RenderBudget)}
    (same : ∀ value, SameValue (next value) (following value)) :
    SameValue (computed >>= next) (computed >>= following) := by
  intro first second rest other once again
  obtain ⟨value, found, once⟩ := (except_bind_eq_ok _ _ _).mp once
  obtain ⟨copy, finds, again⟩ := (except_bind_eq_ok _ _ _).mp again
  rw [found] at finds
  cases finds
  exact same value first second rest other once again

/-- What is paid does not matter. -/
theorem sameValue_charge (left right : Except RenderError RenderBudget)
    {next following : RenderBudget → Except RenderError (α × RenderBudget)}
    (same : ∀ budget other, SameValue (next budget) (following other)) :
    SameValue (left >>= next) (right >>= following) := by
  intro first second rest other once again
  obtain ⟨budget, -, once⟩ := (except_bind_eq_ok _ _ _).mp once
  obtain ⟨copy, -, again⟩ := (except_bind_eq_ok _ _ _).mp again
  exact same budget copy first second rest other once again

theorem SameValue.bind {left right : Except RenderError (β × RenderBudget)}
    (begins : SameValue left right)
    {next following : β × RenderBudget → Except RenderError (α × RenderBudget)}
    (same : ∀ value budget other, SameValue (next (value, budget)) (following (value, other))) :
    SameValue (left >>= next) (right >>= following) := by
  intro first second rest other once again
  obtain ⟨⟨value, budget⟩, found, once⟩ := (except_bind_eq_ok _ _ _).mp once
  obtain ⟨⟨copy, spent⟩, finds, again⟩ := (except_bind_eq_ok _ _ _).mp again
  cases begins value copy budget spent found finds
  exact same value budget spent first second rest other once again

end

/-! ## Drawings -/

section

variable {engines : Engines} {document : Document} {limits : ProcessingLimits}

theorem cropped_sameValue (image : GrayRaster) (crop : Option Bounds)
    (budget other : RenderBudget) :
    SameValue (cropped image crop limits budget) (cropped image crop limits other) := by
  cases crop with
  | none => exact sameValue_return image budget other
  | some bounds =>
      apply sameValue_bind
      intro part
      apply sameValue_charge
      intro left right
      exact sameValue_return part left right

/-- What is drawn does not depend on the budget. -/
theorem drawAt_sameValue (element : Element) (dpi : UInt16) (placement : Placement)
    (budget other : RenderBudget) :
    SameValue (drawAt engines element dpi document placement limits budget)
      (drawAt engines element dpi document placement limits other) := by
  unfold drawAt
  cases element with
  | line | rectangle | ellipse | triangle | group => exact sameValue_return _ budget other
  | text common value fontResource fontSize horizontal vertical overflow =>
      cases fontResource with
      | none => exact sameValue_return _ budget other
      | some id =>
          apply sameValue_bind
          intro bytes
          apply sameValue_bind
          intro writes
          exact sameValue_return writes budget other
  | barcode common data symbology humanReadable =>
      apply sameValue_bind
      intro writes
      exact sameValue_return writes budget other
  | qrCode common data errorCorrection quietZone =>
      apply sameValue_bind
      intro writes
      exact sameValue_return writes budget other
  | image common resource crop =>
      apply sameValue_bind
      intro image
      apply sameValue_charge
      intro left right
      apply (cropped_sameValue image crop left right).bind
      intro part first second
      exact sameValue_return _ first second
  | svg common resource =>
      apply sameValue_bind
      intro image
      apply sameValue_charge
      intro left right
      exact sameValue_return _ left right

/-- What a drawing does on a canvas: nothing for a group, and otherwise it paints the canvas,
or turns a painted layer of that size onto it. -/
inductive Draws (engines : Engines) (document : Document) (limits : ProcessingLimits)
    (drawing : Drawing) (before after : GrayRaster) : Prop where
  | group (isGroup : drawing.element.children.isSome = true) (same : after = before)
  | straight (noGroup : ¬drawing.element.children.isSome = true)
      (level : (placementOf document drawing).rotationMillidegrees = 0)
      (writes : List Write) (budget rest : RenderBudget)
      (drawn : drawAt engines drawing.element document.media.dpi document
        (placementOf document drawing) limits budget = .ok (writes, rest))
      (painted : after = paint before writes)
  | turned (noGroup : ¬drawing.element.children.isSome = true)
      (level : ¬(placementOf document drawing).rotationMillidegrees = 0)
      (writes : List Write) (budget rest : RenderBudget)
      (drawn : drawAt engines drawing.element document.media.dpi document
        (placementOf document drawing) limits budget = .ok (writes, rest))
      (layer : GrayRaster)
      (blank : GrayRaster.tryNew before.width before.height 255 limits.maxCanvasPixels = .ok layer)
      (painted : after = rotateLayer before (paint layer writes) (placementOf document drawing))

theorem draws_of_draw {drawing : Drawing} {canvas next : Canvas}
    (drawn : draw engines document limits drawing canvas = .ok next) :
    Draws engines document limits drawing canvas.raster next.raster := by
  unfold draw at drawn
  split at drawn
  · next isGroup =>
      cases drawn
      exact .group isGroup rfl
  · next noGroup =>
      dsimp only at drawn
      split at drawn
      · next level =>
          obtain ⟨⟨writes, rest⟩, called, drawn⟩ := (except_bind_eq_ok _ _ _).mp drawn
          cases drawn
          exact .straight noGroup level writes canvas.budget rest called rfl
      · next turned =>
          obtain ⟨pixels, -, drawn⟩ := (except_bind_eq_ok _ _ _).mp drawn
          obtain ⟨budget, -, drawn⟩ := (except_bind_eq_ok _ _ _).mp drawn
          obtain ⟨layer, made, drawn⟩ := (except_bind_eq_ok _ _ _).mp drawn
          obtain ⟨⟨writes, rest⟩, called, drawn⟩ := (except_bind_eq_ok _ _ _).mp drawn
          cases drawn
          exact .turned noGroup turned writes budget rest called layer
            (orTooLarge_eq_ok.mp made) rfl

theorem rotateLayer_sized {raster layer : GrayRaster} {width height : UInt32}
    {placement : Placement} (sized : raster.Sized width height) :
    (rotateLayer raster layer placement).Sized width height := by
  unfold rotateLayer
  generalize dotsAround raster.width raster.height placement = dots
  induction dots generalizing raster with
  | nil => exact sized
  | cons dot rest ih => exact ih (rotateDot_sized sized layer placement dot)

section

variable {drawing : Drawing} {before after : GrayRaster} {width height : UInt32}

theorem Draws.sized (draws : Draws engines document limits drawing before after)
    (sized : before.Sized width height) : after.Sized width height := by
  cases draws with
  | group isGroup same =>
      rw [same]
      exact sized
  | straight noGroup level writes budget rest drawn painted =>
      rw [painted]
      exact paint_sized sized writes
  | turned noGroup level writes budget rest drawn layer blank painted =>
      rw [painted]
      exact rotateLayer_sized sized

/-- Ink that a turned layer leaves on a canvas was there before, or is left on a higher canvas
by a layer with the ink of the lower one. -/
theorem ink_of_turned {other layer taller : GrayRaster} {high : UInt32} {x y : Nat}
    {placement : Placement} (sized : before.Sized width height) (sizes : other.Sized width high)
    (layers : layer.Sized width height) (copies : taller.Sized width high)
    (shorter : height.toNat ≤ high.toNat) (low : high.toNat < 2 ^ 31 ∨ 2 ^ 31 ≤ height.toNat)
    (covers : ∀ column row, Inside width height column row → layer.dotAt column row < 255 →
      taller.dotAt column row < 255)
    (inside : Inside width height x y)
    (inked : (rotateLayer before layer placement).dotAt x y < 255) :
    before.dotAt x y < 255 ∨ (rotateLayer other taller placement).dotAt x y < 255 := by
  by_cases large : 2 ^ 31 ≤ width.toNat ∨ 2 ^ 31 ≤ height.toNat
  · rw [rotateLayer_of_large (by rwa [layers.wide, layers.high])] at inked
    exact .inl inked
  · rw [not_or, not_le, not_le] at large
    have bound : high.toNat < 2 ^ 31 := low.resolve_right (by omega)
    have within : Inside width high x y :=
      ⟨inside.across, Nat.lt_of_lt_of_le inside.down shorter⟩
    rw [ink_rotateLayer sized large.1 large.2 inside layers] at inked
    rw [ink_rotateLayer sizes large.1 bound within copies]
    rcases inked with old | ⟨dot, around, positive, here, first, shown, dark⟩
    · exact .inl old
    · exact .inr (.inr ⟨dot, around, positive, here, first,
        ⟨shown.across, Nat.lt_of_lt_of_le shown.down shorter⟩, covers _ _ shown dark⟩)

/-- Ink that a drawing leaves on a canvas was there before, or is left on a higher canvas as
well. -/
theorem Draws.ink {other alone : GrayRaster} {high : UInt32} {x y : Nat}
    (draws : Draws engines document limits drawing before after)
    (again : Draws engines document limits drawing other alone)
    (sized : before.Sized width height) (sizes : other.Sized width high)
    (shorter : height.toNat ≤ high.toNat) (area : width.toNat * high.toNat ≤ 2 ^ 32)
    (low : ¬(placementOf document drawing).rotationMillidegrees = 0 →
      high.toNat < 2 ^ 31 ∨ 2 ^ 31 ≤ height.toNat)
    (inside : Inside width height x y) (inked : after.dotAt x y < 255) :
    before.dotAt x y < 255 ∨ alone.dotAt x y < 255 := by
  have smaller : width.toNat * height.toNat ≤ 2 ^ 32 :=
    (Nat.mul_le_mul_left _ shorter).trans area
  cases draws with
  | group isGroup same =>
      rw [same] at inked
      exact .inl inked
  | straight noGroup level writes budget rest drawn painted =>
      cases again with
      | group isGroup => exact absurd isGroup noGroup
      | turned _ turned => exact absurd level turned
      | straight _ _ copies _ _ draws paints =>
          have same := drawAt_sameValue _ _ _ _ _ _ _ _ _ drawn draws
          rw [painted] at inked
          rw [paints, ← same]
          exact ink_of_paint sized smaller inside sizes area shorter .inl writes inked
  | turned noGroup level writes budget rest drawn layer blank painted =>
      cases again with
      | group isGroup => exact absurd isGroup noGroup
      | straight _ straight => exact absurd straight level
      | turned _ _ copies _ _ draws copy blanks paints =>
          have same := drawAt_sameValue _ _ _ _ _ _ _ _ _ drawn draws
          rw [sized.wide, sized.high] at blank
          rw [sizes.wide, sizes.high] at blanks
          have made := (sized_of_tryNew blank).1
          have makes := (sized_of_tryNew blanks).1
          rw [painted] at inked
          rw [paints, ← same]
          apply ink_of_turned sized sizes (paint_sized made writes) (paint_sized makes writes)
            shorter (low level) _ inside inked
          -- both layers start blank, so the ink of the lower one was painted
          intro column row shown dark
          have fresh : layer.dotAt column row < 255 → False ∨ copy.dotAt column row < 255 := by
            rw [dotAt_of_tryNew blank]
            intro absurdly
            exact absurd absurdly (by decide)
          exact (ink_of_paint made smaller shown makes area shorter fresh writes
            dark).resolve_left id

end

end

end PrinterSdk.Render
