import Mathlib.Data.Rat.Floor
import PrinterSdk.Data.Frames
import PrinterSdk.Render.InkBounds
import PrinterSdk.Render.Pixels

/-!
# Exact ink bounds

The ink of a raster has a least frame of dots around it, whose edges are rounded outwards to
micrometres.  The union of measured bounds is the least frame around all of them.
-/

namespace PrinterSdk.Render

open PrinterSdk.Data PrinterSdk.Label

/-! ## Frames -/

/-- The square of a dot. -/
def dotFrame (dot : Nat × Nat) : Frame Nat := ⟨dot.1, dot.2, dot.1 + 1, dot.2 + 1⟩

/-- A frame of dots encloses the square of a dot between its half-open edges. -/
theorem dotFrame_le_iff {dot : Nat × Nat} {frame : Frame Nat} :
    dotFrame dot ≤ frame ↔ (frame.left ≤ dot.1 ∧ dot.1 < frame.right) ∧
      frame.top ≤ dot.2 ∧ dot.2 < frame.bottom := by
  rw [Frame.le_iff]
  simp only [dotFrame, Nat.lt_iff_add_one_le]
  tauto

/-- A dot of a raster that is darker than white. -/
def Inked (raster : GrayRaster) (dot : Nat × Nat) : Prop :=
  Inside raster.width raster.height dot.1 dot.2 ∧ raster.dotAt dot.1 dot.2 < 255

/-- A frame of dots in micrometres, rounded outwards. -/
def outward (dpi : UInt16) (frame : Frame Nat) : Frame Int where
  left := ⌊((frame.left * 25400 : Nat) : ℚ) / dpi.toNat⌋
  top := ⌊((frame.top * 25400 : Nat) : ℚ) / dpi.toNat⌋
  right := ⌈((frame.right * 25400 : Nat) : ℚ) / dpi.toNat⌉
  bottom := ⌈((frame.bottom * 25400 : Nat) : ℚ) / dpi.toNat⌉

/-- The edges of bounds. -/
def edges (bounds : Bounds) : Frame Int where
  left := bounds.x.toInt
  top := bounds.y.toInt
  right := bounds.x.toInt + bounds.width.toInt
  bottom := bounds.y.toInt + bounds.height.toInt

/-- Bounds are determined by their edges. -/
theorem edges_injective : Function.Injective edges := by
  intro first second same
  cases first
  cases second
  simp only [edges, Frame.mk.injEq, Int64.toInt_inj] at same
  obtain ⟨rfl, rfl, across, down⟩ := same
  rw [Bounds.mk.injEq]
  exact ⟨rfl, rfl, Int64.toInt_inj.mp (Int.add_left_cancel across),
    Int64.toInt_inj.mp (Int.add_left_cancel down)⟩

/-! ## The box of a raster -/

/-- The frame of an ink box. -/
def InkBox.frame (box : InkBox) : Frame Nat :=
  ⟨box.left.toNat, box.top.toNat, box.right.toNat, box.bottom.toNat⟩

section

variable {raster : GrayRaster}

/-- Whether a dot is darker than white. -/
def isInked (raster : GrayRaster) (dot : Nat × Nat) : Bool := raster.dotAt dot.1 dot.2 < 255

/-- A dot on the machine. -/
def machineDot (dot : Nat × Nat) : UInt32 × UInt32 := (.ofNat dot.1, .ofNat dot.2)

/-- A turn of the loop leaves the box alone at a white dot. -/
theorem growBox_white (area : raster.width.toNat * raster.height.toNat ≤ 2 ^ 32) (box : InkBox)
    {dot : Nat × Nat} (inside : Inside raster.width raster.height dot.1 dot.2)
    (white : isInked raster dot = false) : growBox raster box (machineDot dot) = box := by
  rw [isInked, GrayRaster.dotAt, ← index_toNat area inside] at white
  exact if_neg (of_decide_eq_false white)

/-- A turn of the loop extends the frame by a dot with ink. -/
theorem growBox_inked (area : raster.width.toNat * raster.height.toNat ≤ 2 ^ 32) (box : InkBox)
    {dot : Nat × Nat} (inside : Inside raster.width raster.height dot.1 dot.2)
    (inked : isInked raster dot = true) :
    (growBox raster box (machineDot dot)).frame = box.frame ⊔ dotFrame dot ∧
      (growBox raster box (machineDot dot)).found = true := by
  have wide := raster.width.toNat_lt
  have high := raster.height.toNat_lt
  have across := inside.across
  have down := inside.down
  have column : (UInt32.ofNat dot.1).toNat = dot.1 := UInt32.toNat_ofNat_of_lt' (across.trans wide)
  have row : (UInt32.ofNat dot.2).toNat = dot.2 := UInt32.toNat_ofNat_of_lt' (down.trans high)
  have right : (UInt32.ofNat dot.1 + 1).toNat = dot.1 + 1 := by
    rw [UInt32.toNat_add, column]
    exact Nat.mod_eq_of_lt (by rw [UInt32.toNat_one]; omega)
  have bottom : (UInt32.ofNat dot.2 + 1).toNat = dot.2 + 1 := by
    rw [UInt32.toNat_add, row]
    exact Nat.mod_eq_of_lt (by rw [UInt32.toNat_one]; omega)
  rw [isInked, GrayRaster.dotAt, ← index_toNat area inside] at inked
  have grown : growBox raster box (machineDot dot) = _ := if_pos (of_decide_eq_true inked)
  rw [grown]
  refine ⟨?_, rfl⟩
  rw [InkBox.frame, Frame.sup_eq, Frame.around, Frame.mk.injEq, UInt32.toNat_min,
    UInt32.toNat_min, UInt32.toNat_max, UInt32.toNat_max]
  simp only [machineDot, column, row, right, bottom, InkBox.frame, dotFrame, and_self]

/-- The loop extends the frame by every dot with ink. -/
theorem growBoxes (area : raster.width.toNat * raster.height.toNat ≤ 2 ^ 32)
    {dots : List (Nat × Nat)}
    (inside : ∀ dot ∈ dots, Inside raster.width raster.height dot.1 dot.2) (box : InkBox) :
    ((dots.map machineDot).foldl (growBox raster) box).frame =
        ((dots.filter (isInked raster)).map dotFrame).foldl (· ⊔ ·) box.frame ∧
      ((dots.map machineDot).foldl (growBox raster) box).found =
        (box.found || dots.any (isInked raster)) := by
  induction dots generalizing box with
  | nil => exact ⟨rfl, (Bool.or_false _).symm⟩
  | cons dot dots ih =>
      obtain ⟨here, later⟩ := List.forall_mem_cons.mp inside
      obtain ⟨frame, found⟩ := ih later (growBox raster box (machineDot dot))
      rw [List.map_cons, List.foldl_cons, frame, found, List.any_cons]
      cases inked : isInked raster dot with
      | false =>
          rw [growBox_white area box here inked,
            List.filter_cons_of_neg (Bool.eq_false_iff.mp inked), Bool.false_or]
          exact ⟨rfl, rfl⟩
      | true =>
          obtain ⟨extended, noticed⟩ := growBox_inked area box here inked
          rw [extended, noticed, List.filter_cons_of_pos inked, List.map_cons, List.foldl_cons,
            Bool.true_or, Bool.or_true]
          exact ⟨rfl, rfl⟩

/-- The dots of a raster, row after row. -/
def dots (raster : GrayRaster) : List (Nat × Nat) :=
  tabulate raster.width.toNat raster.height.toNat fun x y => (x, y)

theorem mem_dots {dot : Nat × Nat} :
    dot ∈ dots raster ↔ Inside raster.width raster.height dot.1 dot.2 := by
  rw [dots, mem_tabulate]
  constructor
  · intro member
    obtain ⟨x, y, left, top, rfl⟩ := member
    exact ⟨left, top⟩
  · intro inside
    exact ⟨dot.1, dot.2, inside.across, inside.down, rfl⟩

theorem dotsOf_eq (raster : GrayRaster) : dotsOf raster = (dots raster).map machineDot := by
  rw [dots, map_tabulate]
  rfl

theorem inked_iff {dot : Nat × Nat} :
    Inked raster dot ↔ dot ∈ dots raster ∧ isInked raster dot = true := by
  rw [mem_dots, isInked, decide_eq_true_iff]
  rfl

/-- The box is found when there is ink. -/
theorem inkBox_found (area : raster.width.toNat * raster.height.toNat ≤ 2 ^ 32) :
    (inkBox raster).found = true ↔ ∃ dot, Inked raster dot := by
  have found := (growBoxes area (fun dot => mem_dots.mp)
    { left := raster.width, top := raster.height }).2
  rw [inkBox, dotsOf_eq, found, Bool.false_or, List.any_eq_true]
  simp only [inked_iff]

/-- The box has the least frame around the ink, if there is any. -/
theorem inkBox_least (area : raster.width.toNat * raster.height.toNat ≤ 2 ^ 32)
    {dot : Nat × Nat} (inked : Inked raster dot) :
    IsLUB (dotFrame '' {dot | Inked raster dot}) (inkBox raster).frame := by
  let start : InkBox := { left := raster.width, top := raster.height }
  have frame : (inkBox raster).frame = _ :=
    (congrArg (fun dots => (dots.foldl (growBox raster) start).frame) (dotsOf_eq raster)).trans
      (growBoxes area (fun dot => mem_dots.mp) start).1
  have squares : {frame | frame = start.frame ∨
      frame ∈ ((dots raster).filter (isInked raster)).map dotFrame} =
        {frame | frame = start.frame ∨ frame ∈ dotFrame '' {dot | Inked raster dot}} := by
    ext frame
    simp only [Set.mem_ofPred_eq, List.mem_map, List.mem_filter, Set.mem_image, inked_iff]
  have isLUB := isLUB_foldl_sup start.frame
    (((dots raster).filter (isInked raster)).map dotFrame)
  rw [squares] at isLUB
  rw [frame]
  -- the loop starts with the empty frame at the far corner, which every dot lies before
  apply isLUB_of_start_le isLUB ⟨dot, inked, rfl⟩
  exact ⟨Nat.le_of_lt inked.1.across, Nat.le_of_lt inked.1.down, Nat.zero_le _, Nat.zero_le _⟩

/-! ## Micrometres -/

/-- A raster whose pixels `u32` can count, and a resolution. -/
structure Measurable (raster : GrayRaster) (dpi : UInt16) : Prop where
  valid : raster.validate = .ok ()
  small : raster.width.toNat * raster.height.toNat < 2 ^ 32
  resolution : 0 < dpi

/-- Bounds that were measured on a raster. -/
def IsMeasured (bounds : Bounds) : Prop :=
  ∃ raster dpi, Measurable raster dpi ∧ grayInkBounds raster dpi = some bounds

/-- A ceiling of naturals, as the machine computes it. -/
theorem ceil_eq (value : Nat) {parts : Nat} (positive : 0 < parts) :
    ⌈((value : Nat) : ℚ) / parts⌉ = ((value + parts - 1) / parts : Nat) := by
  have whole := Nat.div_add_mod (value + parts - 1) parts
  have rest := Nat.mod_lt (value + parts - 1) positive
  generalize (value + parts - 1) / parts = quotient at *
  generalize (value + parts - 1) % parts = remainder at *
  have missing : -(value : Int) = (parts - 1 - remainder) + parts * -quotient := by
    have exact : (parts : Int) * quotient + remainder = value + parts - 1 := by omega
    rw [Int.mul_neg]
    omega
  have nonzero : (parts : Int) ≠ 0 := by omega
  rw [Rat.ceil_natCast_div_natCast, missing, Int.add_mul_ediv_left _ _ nonzero,
    Int.ediv_eq_zero_of_lt (by omega) (by omega), Int.zero_add, Int.neg_neg]

/-- The bounds of a box have its edges, rounded outwards. -/
theorem edges_boxBounds {dpi : UInt16} (resolution : 0 < dpi.toNat) {box : InkBox}
    (across : box.left.toNat ≤ box.right.toNat) (down : box.top.toNat ≤ box.bottom.toNat) :
    edges (boxBounds box dpi) = outward dpi box.frame := by
  rw [edges, boxBounds, (micrometres_edges resolution across).2,
    (micrometres_edges resolution down).2]
  simp only [toInt_dotsToMicrometresFloor, toInt_dotsToMicrometresCeil, outward, InkBox.frame,
    ceil_eq _ resolution, Rat.floor_natCast_div_natCast, Int.natCast_ediv]

/-- A valid raster has ink when one of its pixels is below 255. -/
theorem inked_iff_pixel (valid : raster.validate = .ok ()) :
    (∃ dot, Inked raster dot) ↔ ∃ pixel ∈ raster.pixels, pixel < 255 := by
  have length := (GrayRaster.validate_iff.mp valid).2.2
  have located {x y : Nat} (inside : y * raster.width.toNat + x < raster.pixels.length) :
      raster.dotAt x y = raster.pixels[y * raster.width.toNat + x] := by
    rw [GrayRaster.dotAt, List.getD_eq_getElem?_getD, List.getElem?_eq_getElem inside,
      Option.getD_some]
  constructor
  · intro ink
    obtain ⟨dot, inside, dark⟩ := ink
    have index : dot.2 * raster.width.toNat + dot.1 < raster.pixels.length := by
      rw [length, Nat.mul_comm raster.height.toNat]
      exact inside.index_lt
    rw [located index] at dark
    exact ⟨_, List.getElem_mem index, dark⟩
  · intro pixels
    obtain ⟨pixel, member, dark⟩ := pixels
    obtain ⟨place, index, rfl⟩ := List.getElem_of_mem member
    have cell := index
    rw [length] at cell
    obtain ⟨x, y, left, top, rfl⟩ := exists_cell cell
    refine ⟨(x, y), ⟨left, top⟩, ?_⟩
    rw [located index]
    exact dark

/-- The bounds of a raster are the least frame around its ink, rounded outwards. -/
theorem grayInkBounds_exact {dpi : UInt16} (measurable : Measurable raster dpi)
    {dot : Nat × Nat} (inked : Inked raster dot) :
    ∃ frame bounds, IsLUB (dotFrame '' {dot | Inked raster dot}) frame ∧
      grayInkBounds raster dpi = some bounds ∧ edges bounds = outward dpi frame := by
  have area := Nat.le_of_lt measurable.small
  have least := inkBox_least area inked
  have found := (inkBox_found area).mpr ⟨dot, inked⟩
  obtain ⟨⟨left, right⟩, top, bottom⟩ := dotFrame_le_iff.mp (least.1 ⟨dot, inked, rfl⟩)
  have resolution : 0 < dpi.toNat := UInt16.lt_iff_toNat_lt.mp measurable.resolution
  exact ⟨(inkBox raster).frame, boxBounds (inkBox raster) dpi, least, if_pos found,
    edges_boxBounds resolution (left.trans (Nat.le_of_lt right)) (top.trans (Nat.le_of_lt bottom))⟩

theorem IsMeasured.moderate {bounds : Bounds} (measured : IsMeasured bounds) : Moderate bounds := by
  obtain ⟨raster, dpi, measurable, found⟩ := measured
  have length := (GrayRaster.validate_iff.mp measurable.valid).2.2
  have resolution : 0 < dpi.toNat := UInt16.lt_iff_toNat_lt.mp measurable.resolution
  exact grayInkBounds_moderate resolution ⟨rfl, rfl, length.trans (Nat.mul_comm _ _)⟩
    (Nat.le_of_lt measurable.small) found

end

/-! ## Unions -/

/-- A union has the edges of the frame around both. -/
theorem edges_union {first second : Bounds} (moderate : Moderate first) (also : Moderate second) :
    edges (unionPhysicalBounds first second) = edges first ⊔ edges second := by
  rw [Frame.sup_eq, Frame.around, edges, Frame.mk.injEq]
  exact ⟨toInt_min64 .., toInt_min64 .., (union_edges moderate.across also.across).2,
    (union_edges moderate.down also.down).2⟩

/-- The unions of moderate bounds have the edges of the frame around all of them. -/
theorem edges_unions {first : Bounds} (moderate : Moderate first) {rest : List Bounds}
    (also : ∀ bounds ∈ rest, Moderate bounds) :
    edges (rest.foldl unionPhysicalBounds first) =
      (rest.map edges).foldl (· ⊔ ·) (edges first) := by
  induction rest generalizing first with
  | nil => rfl
  | cons next rest ih =>
      obtain ⟨here, later⟩ := List.forall_mem_cons.mp also
      rw [List.foldl_cons, ih (union_moderate moderate here) later, edges_union moderate here]
      rfl

/-- The edges of measured bounds. -/
def measuredFrames (elements : List MeasuredElementBounds) : Set (Frame Int) :=
  {frame | ∃ element ∈ elements, edges element.bounds = frame}

/-- The content bounds are the least frame around all measured bounds. -/
theorem contentBounds_least {elements : List MeasuredElementBounds} (filled : elements ≠ [])
    (measured : ∀ element ∈ elements, IsMeasured element.bounds) :
    ∃ bounds, contentBounds elements = some bounds ∧
      IsLUB (measuredFrames elements) (edges bounds) := by
  cases elements with
  | nil => exact absurd rfl filled
  | cons first rest =>
      obtain ⟨here, later⟩ := List.forall_mem_cons.mp measured
      have moderate : ∀ bounds ∈ rest.map (·.bounds), Moderate bounds := by
        intro bounds member
        obtain ⟨element, listed, rfl⟩ := List.mem_map.mp member
        exact (later element listed).moderate
      have unions := edges_unions here.moderate moderate
      have frames : measuredFrames (first :: rest) = {frame | frame = edges first.bounds ∨
          frame ∈ (rest.map (·.bounds)).map edges} := by
        ext frame
        simp only [measuredFrames, Set.mem_ofPred_eq, List.exists_mem_cons_iff, List.map_map,
          List.mem_map, Function.comp_apply, eq_comm]
      refine ⟨(rest.map (·.bounds)).foldl unionPhysicalBounds first.bounds, ?_, ?_⟩
      · rw [contentBounds, List.foldl_map]
      · rw [frames, unions]
        exact isLUB_foldl_sup (edges first.bounds) _

/-- The order of the elements does not matter. -/
theorem contentBounds_perm {elements others : List MeasuredElementBounds}
    (filled : elements ≠ []) (measured : ∀ element ∈ elements, IsMeasured element.bounds)
    (perm : others.Perm elements) : contentBounds others = contentBounds elements := by
  have same : measuredFrames others = measuredFrames elements := by
    ext frame
    simp only [measuredFrames, Set.mem_ofPred_eq, perm.mem_iff]
  obtain ⟨bounds, union, least⟩ := contentBounds_least filled measured
  obtain ⟨other, reordered, alsoLeast⟩ :=
    contentBounds_least (mt (fun none => (none ▸ perm).nil_eq.symm) filled)
      fun element member => measured element (perm.mem_iff.mp member)
  rw [same] at alsoLeast
  rw [union, reordered, edges_injective (alsoLeast.unique least)]

/-- There are ink bounds unless every pixel is white, and they are the least frame of dots
around the ink, rounded outwards.  The union of measured bounds is the least frame around all
of them, in every order. -/
theorem ink_bounds_tight :
    (∀ raster dpi, Measurable raster dpi →
      (grayInkBounds raster dpi = none ↔ ∀ pixel ∈ raster.pixels, ¬pixel < 255) ∧
      ((∃ pixel ∈ raster.pixels, pixel < 255) →
        ∃ frame bounds, IsLUB (dotFrame '' {dot | Inked raster dot}) frame ∧
          grayInkBounds raster dpi = some bounds ∧ edges bounds = outward dpi frame)) ∧
    ∀ elements : List MeasuredElementBounds, elements ≠ [] →
      (∀ element ∈ elements, IsMeasured element.bounds) →
      ∃ bounds, contentBounds elements = some bounds ∧
        IsLUB (measuredFrames elements) (edges bounds) ∧
        ∀ others, others.Perm elements → contentBounds others = some bounds := by
  constructor
  · intro raster dpi measurable
    have ink := inked_iff_pixel measurable.valid
    have found := inkBox_found (Nat.le_of_lt measurable.small)
    constructor
    · have white : (∀ pixel ∈ raster.pixels, ¬pixel < 255) ↔ ¬∃ dot, Inked raster dot := by
        rw [ink]
        push Not
        rfl
      rw [white, ← found, grayInkBounds, ite_eq_right_iff]
      simp
    · intro dark
      obtain ⟨dot, inked⟩ := ink.mpr dark
      exact grayInkBounds_exact measurable inked
  · intro elements filled measured
    obtain ⟨bounds, union, least⟩ := contentBounds_least filled measured
    refine ⟨bounds, union, least, ?_⟩
    intro others perm
    rw [contentBounds_perm filled measured perm, union]

/-- A dot on each of two layers, and the content bounds around both. -/
theorem ink_bounds_tight_dots :
    let first : MeasuredElementBounds := ⟨"a", "a", none, ⟨200, 0, 100, 100⟩⟩
    let second : MeasuredElementBounds := ⟨"b", "b", none, ⟨0, 100, 100, 100⟩⟩
    grayInkBounds ⟨3, 2, [255, 255, 9, 255, 255, 255]⟩ 254 = some first.bounds ∧
      grayInkBounds ⟨3, 2, [255, 255, 255, 254, 255, 255]⟩ 254 = some second.bounds ∧
      contentBounds [first, second] = some ⟨0, 0, 300, 200⟩ ∧
      contentBounds [second, first] = some ⟨0, 0, 300, 200⟩ := by
  intro first second
  have upper : grayInkBounds ⟨3, 2, [255, 255, 9, 255, 255, 255]⟩ 254 = some first.bounds := by
    decide +kernel
  have lower : grayInkBounds ⟨3, 2, [255, 255, 255, 254, 255, 255]⟩ 254 = some second.bounds := by
    decide +kernel
  have measurable (pixels : List UInt8) (filled : pixels.length = 6) :
      Measurable ⟨3, 2, pixels⟩ 254 := by
    have sides : (3 : UInt32) ≠ 0 ∧ (2 : UInt32) ≠ 0 := by decide
    have area : (3 : UInt32).toNat * (2 : UInt32).toNat < 2 ^ 32 := by decide
    exact ⟨GrayRaster.validate_iff.mpr ⟨sides.1, sides.2, filled⟩, area, by decide⟩
  have measured : ∀ element ∈ [first, second], IsMeasured element.bounds := by
    intro element member
    rcases List.mem_pair.mp member with rfl | rfl
    · exact ⟨_, _, measurable _ rfl, upper⟩
    · exact ⟨_, _, measurable _ rfl, lower⟩
  obtain ⟨bounds, union, -, reordered⟩ :=
    ink_bounds_tight.2 [first, second] (List.cons_ne_nil _ _) measured
  have both : contentBounds [first, second] = some ⟨0, 0, 300, 200⟩ := by decide
  have other := reordered [second, first] (.swap ..)
  rw [← union, both] at other
  exact ⟨upper, lower, both, other⟩

end PrinterSdk.Render
