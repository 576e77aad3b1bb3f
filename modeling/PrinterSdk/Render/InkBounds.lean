import PrinterSdk.Render.Ink
import PrinterSdk.Render.Measure

/-!
# Ink bounds

The measured bounds of a raster contain the square of every dot with ink, and the bounds of
a document contain the bounds of its elements.  Squares of dots have exact edges in
micrometres, which are compared as fractions.
-/

namespace PrinterSdk.Render

open PrinterSdk.Data PrinterSdk.Label

/-- A dot in a row or a column lies within a range of micrometres. -/
structure DotBetween (low length : Int64) (dpi : UInt16) (dot : Nat) : Prop where
  starts : low.toInt * dpi.toNat ≤ dot * 25400
  ends : ((dot : Int) + 1) * 25400 ≤ (low.toInt + length.toInt) * dpi.toNat

/-- The square of a dot, in micrometres, lies within bounds. -/
structure DotWithin (bounds : Bounds) (dpi : UInt16) (x y : Nat) : Prop where
  across : DotBetween bounds.x bounds.width dpi x
  down : DotBetween bounds.y bounds.height dpi y

/-! ## Boxes -/

/-- A box contains a dot. -/
structure BoxHas (box : InkBox) (x y : Nat) : Prop where
  found : box.found = true
  left : box.left.toNat ≤ x
  top : box.top.toNat ≤ y
  right : x < box.right.toNat
  bottom : y < box.bottom.toNat

theorem BoxHas.grow {box : InkBox} {x y : Nat} (has : BoxHas box x y) (raster : GrayRaster)
    (dot : UInt32 × UInt32) : BoxHas (growBox raster box dot) x y := by
  unfold growBox
  split
  · constructor
    · rfl
    · exact (UInt32.toNat_min ..).trans_le ((Nat.min_le_left ..).trans has.left)
    · exact (UInt32.toNat_min ..).trans_le ((Nat.min_le_left ..).trans has.top)
    · exact has.right.trans_le ((Nat.le_max_left ..).trans_eq (UInt32.toNat_max ..).symm)
    · exact has.bottom.trans_le ((Nat.le_max_left ..).trans_eq (UInt32.toNat_max ..).symm)
  · exact has

theorem BoxHas.grows {box : InkBox} {x y : Nat} (has : BoxHas box x y) (raster : GrayRaster)
    (dots : List (UInt32 × UInt32)) : BoxHas (dots.foldl (growBox raster) box) x y := by
  induction dots generalizing box with
  | nil => exact has
  | cons dot rest ih => exact ih (has.grow raster dot)

section

variable {raster : GrayRaster} {width height : UInt32} {x y : Nat}

/-- The index of a dot on a canvas whose pixels `u32` can count. -/
theorem index_toNat (area : width.toNat * height.toNat ≤ 2 ^ 32)
    (inside : Inside width height x y) :
    (UInt32.ofNat y * width + UInt32.ofNat x).toNat = y * width.toNat + x := by
  have column : x < 2 ^ 32 := inside.across.trans width.toNat_lt
  have row : y < 2 ^ 32 := inside.down.trans height.toNat_lt
  rw [UInt32.toNat_add, UInt32.toNat_mul, UInt32.toNat_ofNat_of_lt' column,
    UInt32.toNat_ofNat_of_lt' row, Nat.mod_add_mod]
  exact Nat.mod_eq_of_lt (Nat.lt_of_lt_of_le inside.index_lt area)

theorem growBox_has (sized : raster.Sized width height)
    (area : width.toNat * height.toNat ≤ 2 ^ 32) (inside : Inside width height x y)
    (inked : raster.dotAt x y < 255) (box : InkBox) :
    BoxHas (growBox raster box (UInt32.ofNat x, UInt32.ofNat y)) x y := by
  have across := inside.across
  have down := inside.down
  have wide := width.toNat_lt
  have high := height.toNat_lt
  have column : (UInt32.ofNat x).toNat = x := UInt32.toNat_ofNat_of_lt' (across.trans wide)
  have row : (UInt32.ofNat y).toNat = y := UInt32.toNat_ofNat_of_lt' (down.trans high)
  have right : (UInt32.ofNat x + 1).toNat = x + 1 := by
    rw [UInt32.toNat_add, column]
    exact Nat.mod_eq_of_lt (by rw [UInt32.toNat_one]; omega)
  have bottom : (UInt32.ofNat y + 1).toNat = y + 1 := by
    rw [UInt32.toNat_add, row]
    exact Nat.mod_eq_of_lt (by rw [UInt32.toNat_one]; omega)
  have index := index_toNat area inside
  rw [GrayRaster.dotAt, sized.wide, ← index] at inked
  unfold growBox
  rw [sized.wide, if_pos inked]
  constructor
  · rfl
  · exact (UInt32.toNat_min ..).trans_le ((Nat.min_le_right ..).trans_eq column)
  · exact (UInt32.toNat_min ..).trans_le ((Nat.min_le_right ..).trans_eq row)
  · apply Nat.lt_of_lt_of_le _ ((Nat.le_max_right ..).trans_eq (UInt32.toNat_max ..).symm)
    rw [right]
    exact Nat.lt_succ_self x
  · apply Nat.lt_of_lt_of_le _ ((Nat.le_max_right ..).trans_eq (UInt32.toNat_max ..).symm)
    rw [bottom]
    exact Nat.lt_succ_self y

theorem mem_dotsOf (sized : raster.Sized width height) (inside : Inside width height x y) :
    (UInt32.ofNat x, UInt32.ofNat y) ∈ dotsOf raster := by
  unfold dotsOf
  rw [sized.wide, sized.high]
  apply List.mem_flatMap.mpr
  refine ⟨y, List.mem_range.mpr inside.down, ?_⟩
  apply List.mem_map.mpr
  exact ⟨x, List.mem_range.mpr inside.across, rfl⟩

/-- The box of all ink contains every dot with ink. -/
theorem inkBox_has (sized : raster.Sized width height)
    (area : width.toNat * height.toNat ≤ 2 ^ 32) (inside : Inside width height x y)
    (inked : raster.dotAt x y < 255) : BoxHas (inkBox raster) x y := by
  obtain ⟨before, after, split⟩ := List.append_of_mem (mem_dotsOf sized inside)
  unfold inkBox
  rw [split, List.foldl_append, List.foldl_cons]
  exact (growBox_has sized area inside inked _).grows raster after

/-- There is no box when nothing has ink. -/
theorem inkBox_blank (blank : ∀ pixel ∈ raster.pixels, pixel = 255) :
    (inkBox raster).found = false := by
  have keeps (box : InkBox) (dot : UInt32 × UInt32) : growBox raster box dot = box := by
    have white : raster.pixels.getD (dot.2 * raster.width + dot.1).toNat 255 = 255 := by
      rw [List.getD_eq_getElem?_getD]
      cases located : raster.pixels[(dot.2 * raster.width + dot.1).toNat]? with
      | none => rfl
      | some pixel => exact blank pixel (List.mem_of_getElem? located)
    unfold growBox
    rw [white]
    rfl
  unfold inkBox
  generalize dotsOf raster = dots
  induction dots with
  | nil => rfl
  | cons dot rest ih =>
      rw [List.foldl_cons, keeps]
      exact ih

end

/-! ## Ranges -/

/-- A range far within `i64`. -/
structure ModerateRange (low length : Int64) : Prop where
  least : 0 ≤ low.toInt
  nonneg : 0 ≤ length.toInt
  most : low.toInt + length.toInt < 2 ^ 62

/-- The range between two edges. -/
theorem range_of_edges {low high : Int64} (least : 0 ≤ low.toInt)
    (ordered : low.toInt ≤ high.toInt) (most : high.toInt < 2 ^ 62) :
    ModerateRange low (high - low) ∧ low.toInt + (high - low).toInt = high.toInt := by
  have length : (high - low).toInt = high.toInt - low.toInt := by
    rw [Int64.toInt_sub]
    apply Int.bmod_eq_of_le
    · omega
    · omega
  have reached : low.toInt + (high - low).toInt = high.toInt := by
    rw [length]
    omega
  refine ⟨⟨least, ?_, ?_⟩, reached⟩
  · rw [length]
    exact Int.sub_nonneg_of_le ordered
  · rw [reached]
    exact most

theorem ModerateRange.stop {low length : Int64} (moderate : ModerateRange low length) :
    (low + length).toInt = low.toInt + length.toInt := by
  have least := moderate.least
  have nonneg := moderate.nonneg
  have most := moderate.most
  rw [Int64.toInt_add]
  apply Int.bmod_eq_of_le
  · omega
  · omega

/-- The edges of the union of two ranges. -/
theorem union_edges {low other length size : Int64} (first : ModerateRange low length)
    (second : ModerateRange other size) :
    ModerateRange (min low other) (max (low + length) (other + size) - min low other) ∧
      (min low other).toInt + (max (low + length) (other + size) - min low other).toInt =
        max (low.toInt + length.toInt) (other.toInt + size.toInt) := by
  have bottom := toInt_min64 low other
  have top : (max (low + length) (other + size)).toInt =
      max (low.toInt + length.toInt) (other.toInt + size.toInt) := by
    rw [toInt_max64, first.stop, second.stop]
  have least := first.least
  have nonneg := first.nonneg
  have also := second.least
  have alsoNonneg := second.nonneg
  have start : 0 ≤ (min low other).toInt := by omega
  have ascending : (min low other).toInt ≤ (max (low + length) (other + size)).toInt := by omega
  have most : (max (low + length) (other + size)).toInt < 2 ^ 62 := by
    rw [top]
    exact max_lt first.most second.most
  obtain ⟨moderate, reached⟩ := range_of_edges start ascending most
  exact ⟨moderate, reached.trans top⟩

/-- The union of two ranges is moderate and contains what they contain. -/
theorem union_range {low other length size : Int64} (first : ModerateRange low length)
    (second : ModerateRange other size) :
    ModerateRange (min low other) (max (low + length) (other + size) - min low other) ∧
      ∀ dpi dot, DotBetween low length dpi dot ∨ DotBetween other size dpi dot →
        DotBetween (min low other) (max (low + length) (other + size) - min low other) dpi dot := by
  have bottom := toInt_min64 low other
  obtain ⟨moderate, reached⟩ := union_edges first second
  refine ⟨moderate, ?_⟩
  intro dpi dot within
  have resolution : (0 : Int) ≤ dpi.toNat := Int.natCast_nonneg _
  constructor
  · rw [bottom]
    rcases within with inside | inside
    · exact (Int.mul_le_mul_of_nonneg_right (Int.min_le_left ..) resolution).trans inside.starts
    · exact (Int.mul_le_mul_of_nonneg_right (Int.min_le_right ..) resolution).trans inside.starts
  · rw [reached]
    rcases within with inside | inside
    · exact inside.ends.trans (Int.mul_le_mul_of_nonneg_right (Int.le_max_left ..) resolution)
    · exact inside.ends.trans (Int.mul_le_mul_of_nonneg_right (Int.le_max_right ..) resolution)

/-! ## Micrometres -/

section

variable {dpi : UInt16}

theorem toInt_toI64OrMax {value : Nat} (small : value < 2 ^ 62) :
    (toI64OrMax value).toInt = value := by
  unfold toI64OrMax
  rw [Nat.min_eq_left (by omega)]
  exact Int64.toInt_ofNat_of_lt (by omega)

theorem toInt_dotsToMicrometresFloor (value : UInt32) :
    (dotsToMicrometresFloor value dpi).toInt = (value.toNat * 25400 / dpi.toNat : Nat) := by
  have machine := value.toNat_lt
  have smaller := Nat.div_le_self (value.toNat * 25400) dpi.toNat
  exact toInt_toI64OrMax (by omega)

theorem ceil_lt (value : UInt32) (dpi : UInt16) :
    (value.toNat * 25400 + dpi.toNat - 1) / dpi.toNat < 2 ^ 62 := by
  have machine := value.toNat_lt
  have resolved := dpi.toNat_lt
  have small := Nat.div_le_self (value.toNat * 25400 + dpi.toNat - 1) dpi.toNat
  omega

theorem toInt_dotsToMicrometresCeil (value : UInt32) :
    (dotsToMicrometresCeil value dpi).toInt =
      ((value.toNat * 25400 + dpi.toNat - 1) / dpi.toNat : Nat) :=
  toInt_toI64OrMax (ceil_lt value dpi)

/-- A range of dots, in micrometres, is moderate, and ends at the far edge. -/
theorem micrometres_edges (resolution : 0 < dpi.toNat) {low high : UInt32}
    (ordered : low.toNat ≤ high.toNat) :
    ModerateRange (dotsToMicrometresFloor low dpi)
        (dotsToMicrometresCeil high dpi - dotsToMicrometresFloor low dpi) ∧
      (dotsToMicrometresFloor low dpi).toInt +
          (dotsToMicrometresCeil high dpi - dotsToMicrometresFloor low dpi).toInt =
        (dotsToMicrometresCeil high dpi).toInt := by
  have grows : low.toNat * 25400 / dpi.toNat ≤
      (high.toNat * 25400 + dpi.toNat - 1) / dpi.toNat := Nat.div_le_div_right (by omega)
  apply range_of_edges
  · rw [toInt_dotsToMicrometresFloor]
    exact Int.natCast_nonneg _
  · rw [toInt_dotsToMicrometresFloor, toInt_dotsToMicrometresCeil]
    exact Int.ofNat_le.mpr grows
  · rw [toInt_dotsToMicrometresCeil]
    exact Int.ofNat_lt.mpr (ceil_lt high dpi)

/-- A range of dots, in micrometres, contains its dots. -/
theorem micrometres_range (resolution : 0 < dpi.toNat) {low high : UInt32}
    (ordered : low.toNat ≤ high.toNat) :
    ModerateRange (dotsToMicrometresFloor low dpi)
        (dotsToMicrometresCeil high dpi - dotsToMicrometresFloor low dpi) ∧
      ∀ dot, low.toNat ≤ dot → dot < high.toNat →
        DotBetween (dotsToMicrometresFloor low dpi)
          (dotsToMicrometresCeil high dpi - dotsToMicrometresFloor low dpi) dpi dot := by
  obtain ⟨moderate, reached⟩ := micrometres_edges resolution ordered
  refine ⟨moderate, ?_⟩
  intro dot after before
  constructor
  · rw [toInt_dotsToMicrometresFloor]
    have floor := Nat.div_mul_le_self (low.toNat * 25400) dpi.toNat
    exact Int.ofNat_le.mpr (floor.trans (Nat.mul_le_mul_right _ after))
  · have ceil : high.toNat * 25400 ≤
        (high.toNat * 25400 + dpi.toNat - 1) / dpi.toNat * dpi.toNat := by
      have parts := Nat.div_add_mod' (high.toNat * 25400 + dpi.toNat - 1) dpi.toNat
      have rest := Nat.mod_lt (high.toNat * 25400 + dpi.toNat - 1) resolution
      omega
    rw [reached, toInt_dotsToMicrometresCeil]
    exact Int.ofNat_le.mpr ((Nat.mul_le_mul_right _ before).trans ceil)

end

/-! ## Bounds -/

/-- Bounds far within `i64`. -/
structure Moderate (bounds : Bounds) : Prop where
  across : ModerateRange bounds.x bounds.width
  down : ModerateRange bounds.y bounds.height

theorem union_moderate {first second : Bounds} (moderate : Moderate first)
    (also : Moderate second) : Moderate (unionPhysicalBounds first second) :=
  ⟨(union_range moderate.across also.across).1, (union_range moderate.down also.down).1⟩

theorem union_within {first second : Bounds} (moderate : Moderate first) (also : Moderate second)
    {dpi : UInt16} {x y : Nat} (within : DotWithin first dpi x y ∨ DotWithin second dpi x y) :
    DotWithin (unionPhysicalBounds first second) dpi x y :=
  ⟨(union_range moderate.across also.across).2 dpi x
      (within.imp DotWithin.across DotWithin.across),
    (union_range moderate.down also.down).2 dpi y (within.imp DotWithin.down DotWithin.down)⟩

/-- The bounds of a document contain what the bounds of its elements contain. -/
theorem contentBounds_within {elements : List MeasuredElementBounds}
    (moderate : ∀ element ∈ elements, Moderate element.bounds) {dpi : UInt16} {x y : Nat}
    {element : MeasuredElementBounds} (member : element ∈ elements)
    (within : DotWithin element.bounds dpi x y) :
    ∃ bounds, contentBounds elements = some bounds ∧ DotWithin bounds dpi x y := by
  cases elements with
  | nil => cases member
  | cons first rest =>
      refine ⟨_, rfl, ?_⟩
      have start := moderate first (List.mem_cons_self ..)
      have later := fun element member => moderate element (List.mem_cons_of_mem first member)
      have reached : DotWithin first.bounds dpi x y ∨
          ∃ element ∈ rest, DotWithin element.bounds dpi x y := by
        rcases List.mem_cons.mp member with rfl | inside
        · exact .inl within
        · exact .inr ⟨element, inside, within⟩
      clear member within moderate
      generalize first.bounds = bounds at start reached
      -- the union of the bounds so far stays moderate, and never loses a dot
      induction rest generalizing bounds with
      | nil => exact reached.resolve_right (by simp)
      | cons next rest ih =>
          have nextModerate := later next (List.mem_cons_self ..)
          apply ih (fun element member => later element (List.mem_cons_of_mem next member))
          · exact union_moderate start nextModerate
          · rcases reached with here | ⟨element, listed, inside⟩
            · exact .inl (union_within start nextModerate (.inl here))
            · rcases List.mem_cons.mp listed with rfl | listed
              · exact .inl (union_within start nextModerate (.inr inside))
              · exact .inr ⟨element, listed, inside⟩

/-! ## Rasters -/

section

variable {raster : GrayRaster} {width height : UInt32} {x y : Nat} {dpi : UInt16}

theorem boxBounds_moderate (resolution : 0 < dpi.toNat) {box : InkBox} (has : BoxHas box x y) :
    Moderate (boxBounds box dpi) := by
  have across := has.left.trans (Nat.le_of_lt has.right)
  have down := has.top.trans (Nat.le_of_lt has.bottom)
  exact ⟨(micrometres_range resolution across).1, (micrometres_range resolution down).1⟩

theorem boxBounds_within (resolution : 0 < dpi.toNat) {box : InkBox} (has : BoxHas box x y) :
    DotWithin (boxBounds box dpi) dpi x y := by
  have across := has.left.trans (Nat.le_of_lt has.right)
  have down := has.top.trans (Nat.le_of_lt has.bottom)
  exact ⟨(micrometres_range resolution across).2 x has.left has.right,
    (micrometres_range resolution down).2 y has.top has.bottom⟩

/-- Every dot with ink lies within the bounds of the ink. -/
theorem grayInkBounds_within (resolution : 0 < dpi.toNat) (sized : raster.Sized width height)
    (area : width.toNat * height.toNat ≤ 2 ^ 32) (inside : Inside width height x y)
    (inked : raster.dotAt x y < 255) :
    ∃ bounds, grayInkBounds raster dpi = some bounds ∧ DotWithin bounds dpi x y := by
  have has := inkBox_has sized area inside inked
  refine ⟨boxBounds (inkBox raster) dpi, ?_, boxBounds_within resolution has⟩
  rw [grayInkBounds, if_pos has.found]

/-- The bounds of ink are moderate. -/
theorem grayInkBounds_moderate (resolution : 0 < dpi.toNat) (sized : raster.Sized width height)
    (area : width.toNat * height.toNat ≤ 2 ^ 32) {bounds : Bounds}
    (found : grayInkBounds raster dpi = some bounds) : Moderate bounds := by
  unfold grayInkBounds at found
  split at found
  · next inked =>
      cases found
      by_contra extreme
      apply Bool.eq_false_iff.mp (inkBox_blank _) inked
      intro pixel member
      by_contra dark
      obtain ⟨index, bound, located⟩ := List.getElem_of_mem member
      apply extreme
      have wide : 0 < width.toNat := by
        apply Nat.pos_of_ne_zero
        intro zero
        rw [sized.filled, zero, Nat.zero_mul] at bound
        exact Nat.not_lt_zero _ bound
      have inside : Inside width height (index % width.toNat) (index / width.toNat) := by
        constructor
        · exact Nat.mod_lt _ wide
        · rw [Nat.div_lt_iff_lt_mul wide, Nat.mul_comm, ← sized.filled]
          exact bound
      apply boxBounds_moderate resolution (inkBox_has sized area inside _)
      rw [GrayRaster.dotAt, sized.wide, Nat.div_add_mod', List.getD_eq_getElem?_getD,
        List.getElem?_eq_getElem bound, located, Option.getD_some]
      have most := pixel.toNat_lt
      rw [UInt8.lt_iff_toNat_lt]
      have different : pixel.toNat ≠ 255 := fun same => dark (UInt8.toNat_inj.mp same)
      change pixel.toNat < 255
      omega
  · cases found

end

end PrinterSdk.Render
