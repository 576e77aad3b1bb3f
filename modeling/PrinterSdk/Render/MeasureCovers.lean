import PrinterSdk.Render.InkBounds

/-!
# Measuring covers rendering

Rendering draws everything on one canvas, and measuring draws every element alone on a
higher one.  What rendering leaves with ink before dithering lies within the bounds that are
measured, as long as the pixels of the higher canvas can be counted with `u32` and, where
elements are turned, its rows with `i32`.
-/

namespace PrinterSdk.Render

open PrinterSdk.Data PrinterSdk.Label

section

variable (engines : Engines) (sha256 : Sha256) (document : Document)

/-- The canvas of `render_with_limits` before it is dithered. -/
def undithered (options : RenderOptions) (limits : ProcessingLimits) :
    Except RenderError Canvas :=
  match validateWithLimits engines.base64 sha256 limits document with
  | .error errors => .error (.validation ("; ".intercalate (errors.map ValidationError.text)))
  | .ok () => do
      let canvas ← canvasOf document options limits
      (drawUntil (draw engines document limits) canvas (drawings document)).2

/-- A dot lies within the bounds that are measured for an element in a zone, and within those
of the content. -/
structure Covered (measurement : DocumentMeasurement) (x y : Nat) : Prop where
  measured : ∃ drawing ∈ drawings document, ∃ bounds,
    instanceBounds drawing bounds ∈ measurement.elements ∧
      DotWithin bounds document.media.dpi x y
  content : ∃ bounds, measurement.contentBounds = some bounds ∧
    DotWithin bounds document.media.dpi x y

/-- The ink of a canvas lies within what is measured. -/
def Covers (measurement : DocumentMeasurement) (canvas : GrayRaster) : Prop :=
  ∀ x y, x < canvas.width.toNat → y < canvas.height.toNat → canvas.dotAt x y < 255 →
    Covered document measurement x y

/-- Rows that the measuring canvas reaches down to. -/
inductive Reaches (limits : ProcessingLimits) : Int64 → Prop where
  | media : Reaches limits (micrometresToDots document.media.height document.media.dpi)
  | drawing (drawing : Drawing) (shown : drawing ∈ instancesOf document document.elements)
      (bottom : Int64) (below : bottomDots engines document limits drawing = .ok bottom) :
      Reaches limits bottom

/-- The pixels of the measuring canvas can be counted with `u32` and, if an element is turned
on a medium whose rows can be counted with `i32`, its rows with `i32`. -/
structure Countable (limits : ProcessingLimits) : Prop where
  pixels : ∀ bottom, Reaches engines document limits bottom →
    (micrometresToDots document.media.width document.media.dpi).toInt * bottom.toInt ≤ 2 ^ 32
  rows : ∀ drawing ∈ instancesOf document document.elements,
    (placementOf document drawing).rotationMillidegrees ≠ 0 →
      (micrometresToDots document.media.height document.media.dpi).toInt < 2 ^ 31 →
        ∀ bottom, Reaches engines document limits bottom → bottom.toInt < 2 ^ 31

end

section

variable {engines : Engines} {sha256 : Sha256} {document : Document} {limits : ProcessingLimits}
variable {options : RenderOptions}

/-! ## Rendering -/

/-- Rendering dithers the canvas. -/
theorem renderWithLimits_result (dither : Dither → GrayRaster → Except RasterError MonoRaster) :
    (renderWithLimits engines.base64 sha256 (draw engines) dither document options limits).result =
      (undithered engines sha256 document options limits).bind fun canvas =>
        orTooLarge (dither options.dither canvas.raster) := by
  unfold renderWithLimits undithered
  cases validateWithLimits engines.base64 sha256 limits document with
  | error errors => rfl
  | ok value =>
      cases canvasOf document options limits with
      | error error => rfl
      | ok canvas => rfl

/-- The instances of elements are their drawings, groups left out. -/
theorem mem_instancesOf {drawing : Drawing} {elements : List Element}
    (members : ∀ element, element ∈ elements ↔ element ∈ document.elements) :
    drawing ∈ instancesOf document elements ↔
      drawing ∈ drawings document ∧ ¬drawing.element.children.isSome = true := by
  unfold instancesOf drawings
  simp only [List.mem_flatMap, List.mem_filter, members, mem_paintOrder, Bool.and_eq_true,
    Bool.not_eq_true', Bool.not_eq_true]
  constructor
  · rintro ⟨element, ⟨member, single, visible⟩, drawn⟩
    refine ⟨⟨element, ⟨member, visible⟩, drawn⟩, ?_⟩
    rw [element_of_visibleDrawings document element drawing drawn]
    exact single
  · rintro ⟨⟨element, ⟨member, visible⟩, drawn⟩, single⟩
    rw [element_of_visibleDrawings document element drawing drawn] at single
    exact ⟨element, ⟨member, single, visible⟩, drawn⟩

theorem drawUntil_sized {canvas last : Canvas} {list : List Drawing} {width height : UInt32}
    (sized : canvas.raster.Sized width height)
    (drawn : (drawUntil (draw engines document limits) canvas list).2 = .ok last) :
    last.raster.Sized width height := by
  apply drawUntil_invariant (fun canvas => canvas.raster.Sized width height) sized _ drawn
  intro canvas drawing next _ sized step
  exact (draws_of_draw step).sized sized

theorem measuredLayer_sized {drawing : Drawing} {width high : UInt32} {alone : Canvas}
    (laid : measuredLayer engines document limits width high drawing = .ok alone) :
    alone.raster.Sized width high := by
  obtain ⟨layer, made, drawn⟩ := (except_bind_eq_ok _ _ _).mp laid
  exact (draws_of_draw drawn).sized (sized_of_tryNew (orTooLarge_eq_ok.mp made)).1

/-- Ink of a sequence of drawings was there before, or one of the drawings leaves it on a
layer of its own. -/
theorem ink_of_drawUntil {canvas last : Canvas} {list : List Drawing} {width height high : UInt32}
    (sized : canvas.raster.Sized width height) (shorter : height.toNat ≤ high.toNat)
    (area : width.toNat * high.toNat ≤ 2 ^ 32)
    (rows : ∀ drawing ∈ list, ¬drawing.element.children.isSome = true →
      ¬(placementOf document drawing).rotationMillidegrees = 0 →
        high.toNat < 2 ^ 31 ∨ 2 ^ 31 ≤ height.toNat)
    (measured : ∀ drawing ∈ list, ¬drawing.element.children.isSome = true →
      ∃ alone, measuredLayer engines document limits width high drawing = .ok alone)
    {x y : Nat} (inside : Inside width height x y)
    (drawn : (drawUntil (draw engines document limits) canvas list).2 = .ok last) :
    last.raster.dotAt x y < 255 →
      canvas.raster.dotAt x y < 255 ∨ ∃ drawing ∈ list, ¬drawing.element.children.isSome = true ∧
        ∃ alone, measuredLayer engines document limits width high drawing = .ok alone ∧
          alone.raster.dotAt x y < 255 := by
  -- between two drawings, all ink is that of the start or of a layer
  suffices explained : last.raster.Sized width height ∧ (last.raster.dotAt x y < 255 → _) from
    explained.2
  apply drawUntil_invariant (fun last => last.raster.Sized width height ∧
    (last.raster.dotAt x y < 255 → _)) ⟨sized, .inl⟩ _ drawn
  rintro before drawing after member ⟨sizes, earlier⟩ step
  have draws := draws_of_draw step
  refine ⟨draws.sized sizes, ?_⟩
  intro inked
  by_cases group : drawing.element.children.isSome = true
  · cases draws with
    | group isGroup same => exact earlier (same ▸ inked)
    | straight noGroup => exact absurd group noGroup
    | turned noGroup => exact absurd group noGroup
  · obtain ⟨alone, laid⟩ := measured drawing member group
    obtain ⟨layer, blank, again⟩ := (except_bind_eq_ok _ _ _).mp laid
    have layers := (sized_of_tryNew (orTooLarge_eq_ok.mp blank)).1
    rcases draws.ink (draws_of_draw again) sizes layers shorter area (rows drawing member group)
      inside inked with old | shown
    · exact earlier old
    · exact .inr ⟨drawing, member, group, alone, laid, shown⟩

/-! ## Measuring -/

/-- The measuring canvas is not lower than the medium, and reaches down to the medium's last
row or to a row below an instance. -/
theorem measurementHeightDots_spec {height high : UInt32} (positive : height ≠ 0)
    (tall : (micrometresToDots document.media.height document.media.dpi).toInt = height.toNat)
    (measured : measurementHeightDots engines document limits = .ok high) :
    height.toNat ≤ high.toNat ∧
      ∃ bottom, Reaches engines document limits bottom ∧ bottom.toInt = high.toNat := by
  obtain ⟨bottom, looped, converted⟩ := (except_bind_eq_ok _ _ _).mp measured
  have rows : 1 ≤ (micrometresToDots document.media.height document.media.dpi).toInt := by
    rw [tall]
    have nonzero : height.toNat ≠ 0 := fun zero => positive (UInt32.toNat_inj.mp zero)
    omega
  have start : max (micrometresToDots document.media.height document.media.dpi) 1 =
      micrometresToDots document.media.height document.media.dpi := by
    rw [← Int64.toInt_inj, toInt_max64]
    exact max_eq_left rows
  rw [start] at looped
  have reached : Reaches engines document limits bottom ∧
      (micrometresToDots document.media.height document.media.dpi).toInt ≤ bottom.toInt := by
    apply foldlM_invariant (fun bottom => Reaches engines document limits bottom ∧
      (micrometresToDots document.media.height document.media.dpi).toInt ≤ bottom.toInt)
      ⟨.media, Int.le_refl _⟩ _ looped
    rintro state drawing next listed ⟨reaches, below⟩ stepped
    obtain ⟨candidate, found, stepped⟩ := (except_bind_eq_ok _ _ _).mp stepped
    have maximum : max state candidate = next := (except_pure_eq_ok _ _).mp stepped
    have unfolded : max state candidate = if state ≤ candidate then candidate else state := rfl
    rw [unfolded] at maximum
    split at maximum
    · next ordered =>
        subst maximum
        exact ⟨.drawing drawing listed _ found, below.trans (Int64.le_iff_toInt_le.mp ordered)⟩
    · next reversed =>
        subst maximum
        exact ⟨reaches, below⟩
  obtain ⟨reaches, below⟩ := reached
  have exact : (max bottom 1).toInt = bottom.toInt := by
    rw [toInt_max64]
    exact max_eq_left (rows.trans below)
  rw [okOr_eq_ok, dotsTryU32_eq_some, exact] at converted
  rw [tall, converted] at below
  exact ⟨Int.ofNat_le.mp below, bottom, reaches, converted⟩

/-- What a measurement that succeeds has done: every instance is drawn on a layer of its own,
and the bounds of those with ink are the elements of the measurement. -/
structure Measured (engines : Engines) (document : Document) (limits : ProcessingLimits)
    (width high : UInt32) (measurement : DocumentMeasurement) : Prop where
  layers : ∀ drawing ∈ instancesOf document (paintOrder document),
    ∃ alone, measuredLayer engines document limits width high drawing = .ok alone
  listed : ∀ element, element ∈ measurement.elements ↔
    ∃ drawing ∈ instancesOf document (paintOrder document),
      ∃ alone, measuredLayer engines document limits width high drawing = .ok alone ∧
        ∃ bounds, grayInkBounds alone.raster document.media.dpi = some bounds ∧
          element = instanceBounds drawing bounds
  content : measurement.contentBounds = contentBounds measurement.elements

theorem measured_of_ok {measurement : DocumentMeasurement} {width : UInt32}
    (wide : (micrometresToDots document.media.width document.media.dpi).toInt = width.toNat)
    (measured : measureWithLimits engines sha256 document limits = .ok measurement) :
    ∃ high, measurementHeightDots engines document limits = .ok high ∧
      Measured engines document limits width high measurement := by
  unfold measureWithLimits at measured
  split at measured
  · cases measured
  · obtain ⟨same, converted, measured⟩ := (except_bind_eq_ok _ _ _).mp measured
    obtain ⟨high, tall, measured⟩ := (except_bind_eq_ok _ _ _).mp measured
    obtain ⟨_, _, measured⟩ := (except_bind_eq_ok _ _ _).mp measured
    obtain ⟨_, _, measured⟩ := (except_bind_eq_ok _ _ _).mp measured
    obtain ⟨found, mapped, measured⟩ := (except_bind_eq_ok _ _ _).mp measured
    cases measured
    rw [okOr_eq_ok, dotsTryU32_eq_some, wide] at converted
    have width_eq : width = same := UInt32.toNat_inj.mp (Int.ofNat_inj.mp converted)
    subst width_eq
    rw [except_mapM_eq_ok] at mapped
    refine ⟨high, tall, ?_, ?_, rfl⟩
    case refine_1 =>
      intro drawing listed
      obtain ⟨value, -, measures⟩ := exists_left_of_mem mapped.flip listed
      obtain ⟨alone, laid, -⟩ := (except_bind_eq_ok _ _ _).mp measures
      exact ⟨alone, laid⟩
    case refine_2 =>
      intro element
      dsimp only
      rw [List.reduceOption_mem_iff]
      constructor
      · intro member
        obtain ⟨drawing, listed, measures⟩ := exists_left_of_mem mapped member
        obtain ⟨alone, laid, measures⟩ := (except_bind_eq_ok _ _ _).mp measures
        have bounded := (except_pure_eq_ok _ _).mp measures
        obtain ⟨bounds, found, named⟩ := Option.map_eq_some_iff.mp bounded
        exact ⟨drawing, listed, alone, laid, bounds, found, named.symm⟩
      · rintro ⟨drawing, listed, alone, laid, bounds, found, rfl⟩
        obtain ⟨value, member, measures⟩ := exists_left_of_mem mapped.flip listed
        obtain ⟨again, lays, measures⟩ := (except_bind_eq_ok _ _ _).mp measures
        have bounded := (except_pure_eq_ok _ _).mp measures
        rw [laid] at lays
        cases lays
        rw [found] at bounded
        rw [← bounded] at member
        exact member

/-- The resolution of a valid document is not zero. -/
theorem resolution_pos {base64 : Base64}
    (accepted : validateWithLimits base64 sha256 limits document = .ok ()) :
    0 < document.media.dpi.toNat := by
  have head := ((validateWithLimits_eq_ok _ _ _ _).mp accepted).head
  unfold headErrors at head
  rw [List.append_eq_nil_iff, failIf_eq_nil] at head
  apply Nat.pos_of_ne_zero
  intro zero
  exact head.2 (.inr (.inr (.inl (UInt16.toNat_inj.mp zero))))

/-! ## High canvases -/

/-- A new layer has no ink bounds. -/
theorem grayInkBounds_of_tryNew {width height : UInt32} {maxPixels : Nat} {raster : GrayRaster}
    (made : GrayRaster.tryNew width height 255 maxPixels = .ok raster) (dpi : UInt16) :
    grayInkBounds raster dpi = none := by
  have blank : ∀ pixel ∈ raster.pixels, pixel = 255 := by
    intro pixel member
    rw [(sized_of_tryNew made).2] at member
    exact List.eq_of_mem_replicate member
  rw [grayInkBounds, inkBox_blank blank]
  rfl

/-- An element that is turned is not measured on a canvas whose rows `i32` cannot count. -/
theorem not_measured_of_high {drawing : Drawing} {width high : UInt32} {alone : Canvas}
    (turned : ¬(placementOf document drawing).rotationMillidegrees = 0)
    (large : 2 ^ 31 ≤ high.toNat)
    (laid : measuredLayer engines document limits width high drawing = .ok alone) :
    grayInkBounds alone.raster document.media.dpi = none := by
  obtain ⟨layer, made, drawn⟩ := (except_bind_eq_ok _ _ _).mp laid
  have blank := orTooLarge_eq_ok.mp made
  have sized := (sized_of_tryNew blank).1
  cases draws_of_draw drawn with
  | group isGroup same =>
      rw [same]
      exact grayInkBounds_of_tryNew blank _
  | straight noGroup level => exact absurd level turned
  | turned noGroup level writes budget rest called copy fresh painted =>
      dsimp only at fresh painted
      rw [sized.wide, sized.high] at fresh
      have sizes := paint_sized (sized_of_tryNew fresh).1 writes
      rw [painted, rotateLayer_of_large (.inr (by rwa [sizes.high]))]
      exact grayInkBounds_of_tryNew blank _

theorem draw_straight {drawing : Drawing} {canvas : Canvas} {writes : List Write}
    {rest : RenderBudget} (single : ¬drawing.element.children.isSome = true)
    (level : (placementOf document drawing).rotationMillidegrees = 0)
    (drawn : drawAt engines drawing.element document.media.dpi document
      (placementOf document drawing) limits canvas.budget = .ok (writes, rest)) :
    draw engines document limits drawing canvas = .ok ⟨paint canvas.raster writes, rest⟩ := by
  rw [draw, if_neg single]
  dsimp only
  rw [if_pos level, drawn]
  rfl

theorem draw_turned {drawing : Drawing} {canvas : Canvas} {layer : GrayRaster}
    {writes : List Write} {budget rest : RenderBudget} {pixels : Nat}
    (single : ¬drawing.element.children.isSome = true)
    (turned : ¬(placementOf document drawing).rotationMillidegrees = 0)
    (counted : checkedMul canvas.raster.width.toNat canvas.raster.height.toNat = some pixels)
    (paid : canvas.budget.add pixels = .ok budget)
    (fresh : GrayRaster.tryNew canvas.raster.width canvas.raster.height 255
      limits.maxCanvasPixels = .ok layer)
    (drawn : drawAt engines drawing.element document.media.dpi document
      (placementOf document drawing) limits budget = .ok (writes, rest)) :
    draw engines document limits drawing canvas =
      .ok ⟨rotateLayer canvas.raster (paint layer writes) (placementOf document drawing), rest⟩ := by
  rw [draw, if_neg single]
  dsimp only
  rw [if_neg turned, counted, fresh]
  change (canvas.budget.add pixels >>= _) = _
  rw [paid]
  change (drawAt _ _ _ _ _ _ budget >>= _) = _
  rw [drawn]
  rfl

theorem measuredLayer_of_draw {drawing : Drawing} {width high : UInt32} {layer : GrayRaster}
    {alone : Canvas}
    (made : GrayRaster.tryNew width high 255 limits.maxCanvasPixels = .ok layer)
    (drawn : draw engines document limits drawing ⟨layer, { limit := limits.maxTotalPixels }⟩ =
      .ok alone) :
    measuredLayer engines document limits width high drawing = .ok alone :=
  (except_bind_eq_ok _ _ _).mpr ⟨layer, orTooLarge_eq_ok.mpr made, drawn⟩

theorem measuredDrawing_none {drawing : Drawing} {width high : UInt32} {alone : Canvas}
    (laid : measuredLayer engines document limits width high drawing = .ok alone)
    (blank : grayInkBounds alone.raster document.media.dpi = none) :
    measuredDrawing engines document limits width high drawing = .ok none := by
  rw [measuredDrawing, laid]
  change Except.ok (Option.map _ (grayInkBounds alone.raster document.media.dpi)) = _
  rw [blank]
  rfl

/-! ## The ink of rendering -/

/-- The ink that an instance leaves on its layer is covered. -/
theorem Measured.covered {width high : UInt32} {measurement : DocumentMeasurement}
    (measures : Measured engines document limits width high measurement)
    (resolution : 0 < document.media.dpi.toNat) (area : width.toNat * high.toNat ≤ 2 ^ 32)
    {drawing : Drawing} (member : drawing ∈ drawings document)
    (single : ¬drawing.element.children.isSome = true) {alone : Canvas}
    (laid : measuredLayer engines document limits width high drawing = .ok alone) {x y : Nat}
    (inside : Inside width high x y) (inked : alone.raster.dotAt x y < 255) :
    Covered document measurement x y := by
  obtain ⟨bounds, found, within⟩ :=
    grayInkBounds_within resolution (measuredLayer_sized laid) area inside inked
  have listed := (mem_instancesOf fun element => mem_paintOrder).mpr ⟨member, single⟩
  have element := (measures.listed (instanceBounds drawing bounds)).mpr
    ⟨drawing, listed, alone, laid, bounds, found, rfl⟩
  have moderate : ∀ element ∈ measurement.elements, Moderate element.bounds := by
    intro element known
    obtain ⟨drawing, -, layer, laid, bounds, found, rfl⟩ := (measures.listed element).mp known
    exact grayInkBounds_moderate resolution (measuredLayer_sized laid) area found
  constructor
  case measured => exact ⟨drawing, member, bounds, element, within⟩
  case content =>
    rw [measures.content]
    exact contentBounds_within moderate element within

/-- The sizes of the measuring canvas, where it can be counted. -/
theorem Countable.sizes (countable : Countable engines document limits)
    {width height high : UInt32}
    (wide : (micrometresToDots document.media.width document.media.dpi).toInt = width.toNat)
    (tall : (micrometresToDots document.media.height document.media.dpi).toInt = height.toNat)
    {bottom : Int64} (reaches : Reaches engines document limits bottom)
    (exact : bottom.toInt = high.toNat) :
    width.toNat * high.toNat ≤ 2 ^ 32 ∧
      ∀ drawing ∈ drawings document, ¬drawing.element.children.isSome = true →
        ¬(placementOf document drawing).rotationMillidegrees = 0 →
          high.toNat < 2 ^ 31 ∨ 2 ^ 31 ≤ height.toNat := by
  constructor
  · have pixels := countable.pixels bottom reaches
    rw [wide, exact] at pixels
    exact Int.ofNat_le.mp pixels
  · intro drawing member single turned
    by_cases low : height.toNat < 2 ^ 31
    · have shown := (mem_instancesOf fun element => Iff.rfl).mpr ⟨member, single⟩
      have rows : (micrometresToDots document.media.height document.media.dpi).toInt < 2 ^ 31 := by
        rw [tall]
        exact Int.ofNat_lt.mpr low
      have below := countable.rows drawing shown turned rows bottom reaches
      rw [exact] at below
      exact .inl (Int.ofNat_lt.mp below)
    · exact .inr (Nat.le_of_not_lt low)

/-- The canvas of a rendering is covered where the measuring canvas can be counted. -/
theorem covers_undithered (countable : Countable engines document limits)
    {measurement : DocumentMeasurement} {canvas : Canvas}
    (rendered : undithered engines sha256 document options limits = .ok canvas)
    (measured : measureWithLimits engines sha256 document limits = .ok measurement) :
    Covers document measurement canvas.raster := by
  unfold undithered at rendered
  split at rendered
  · cases rendered
  next accepted =>
    obtain ⟨start, blank, drawn⟩ := (except_bind_eq_ok _ _ _).mp rendered
    obtain ⟨width, height, wide, tall, -, made⟩ := canvasOf_eq_ok blank
    obtain ⟨high, highest, measures⟩ := measured_of_ok wide measured
    have sized := (sized_of_tryNew made).1
    have sizes := drawUntil_sized sized drawn
    intro x y across down inked
    rw [sizes.wide] at across
    rw [sizes.high] at down
    have positive : height ≠ 0 := fun zero => absurd down (by rw [zero]; exact Nat.not_lt_zero y)
    obtain ⟨shorter, bottom, reaches, exact⟩ := measurementHeightDots_spec positive tall highest
    obtain ⟨area, rows⟩ := countable.sizes wide tall reaches exact
    have alone : ∀ drawing ∈ drawings document, ¬drawing.element.children.isSome = true →
        ∃ alone, measuredLayer engines document limits width high drawing = .ok alone :=
      fun drawing member single => measures.layers drawing
        ((mem_instancesOf fun element => mem_paintOrder).mpr ⟨member, single⟩)
    rcases ink_of_drawUntil sized shorter area rows alone ⟨across, down⟩ drawn inked with
      before | ⟨drawing, member, single, layer, laid, dark⟩
    · rw [dotAt_of_tryNew made] at before
      exact absurd before (by decide)
    · exact measures.covered (resolution_pos accepted) area member single laid
        ⟨across, Nat.lt_of_lt_of_le down shorter⟩ dark

/-- Measuring covers rendering: what a rendering dithers has ink only within the measured
bounds of some element in some zone, and within the bounds of the content, where the
measuring canvas can be counted. -/
theorem measurement_covers_rendering (countable : Countable engines document limits)
    {dither : Dither → GrayRaster → Except RasterError MonoRaster} {raster : MonoRaster}
    {measurement : DocumentMeasurement}
    (rendered : (renderWithLimits engines.base64 sha256 (draw engines) dither document options
      limits).result = .ok raster)
    (measured : measureWithLimits engines sha256 document limits = .ok measurement) :
    ∃ canvas, undithered engines sha256 document options limits = .ok canvas ∧
      dither options.dither canvas.raster = .ok raster ∧
      Covers document measurement canvas.raster := by
  rw [renderWithLimits_result] at rendered
  obtain ⟨canvas, before, dithered⟩ := (except_bind_eq_ok _ _ _).mp rendered
  exact ⟨canvas, before, orTooLarge_eq_ok.mp dithered,
    covers_undithered countable before measured⟩

end

/-! ## Two labels -/

/-- Libraries that are not asked. -/
def plainEngines : Engines where
  base64 := fun _ => none
  decoders := {
    image := fun _ _ => .error .limits
    svg := fun _ => .error ""
    utf8Error := fun _ => "" }
  basicFont := fun _ => none
  woff1 := fun _ => none
  woff2 := fun _ => none
  face := fun _ => none
  font := fun _ => .error ""
  code128 := fun _ => .error ""
  qrCode := fun _ _ => none

/-- `GrayRaster::dither` by a threshold. -/
def thresholdDither (dither : Dither) (raster : GrayRaster) : Except RasterError MonoRaster :=
  match dither with
  | .threshold level =>
      .ok ⟨raster.width, raster.height, raster.pixels.map fun v => if v < level then 1 else 0⟩
  | _ => .error .dimensions

/-- A medium of one dot at a thousand dots per millimetre. -/
def dotMedia : Media where
  width := 1
  height := 1
  dpi := 25400
  orientation := .portrait
  printableBounds := ⟨0, 0, 1, 1⟩
  shape := .rectangle

/-- A filled square of four dots that is turned by one degree. -/
def tiltedSquare : Element :=
  .rectangle {
    id := "tilted"
    transform := { x := 0, y := 0, width := 2, height := 2, rotationMillidegrees := 1000 }
    zOrder := 0 } 1 true

/-- A text without letters, just above the last row that `i32` counts. -/
def deepText : Element :=
  .text {
    id := "deep"
    transform := { x := 0, y := 2147483147, width := 1, height := 1000 }
    zOrder := 0 } "" none 1 .left .top .noWrap

def tiltedDocument : Document where
  version := 4
  name := "Label"
  media := dotMedia
  elements := [tiltedSquare]

def deepDocument : Document where
  version := 4
  name := "Label"
  media := dotMedia
  elements := [tiltedSquare, deepText]

/-- Limits with room for a high canvas. -/
def highLimits : ProcessingLimits :=
  { maxCanvasPixels := 2 ^ 32, maxTotalPixels := 2 ^ 33 }

theorem reaches_tilted {bottom : Int64}
    (reaches : Reaches plainEngines tiltedDocument .default bottom) : bottom = 1 ∨ bottom = 6 := by
  cases reaches with
  | media => exact .inl (by decide)
  | drawing drawing shown _ below =>
      have single : instancesOf tiltedDocument tiltedDocument.elements =
          [⟨tiltedSquare, none⟩] := by decide +kernel
      rw [single, List.mem_singleton] at shown
      rw [shown] at below
      have row : bottomDots plainEngines tiltedDocument .default ⟨tiltedSquare, none⟩ = .ok 6 := by
        decide +kernel
      rw [row] at below
      cases below
      exact .inr rfl

theorem countable_tilted : Countable plainEngines tiltedDocument .default where
  pixels := by
    intro bottom reaches
    rcases reaches_tilted reaches with rfl | rfl
    · decide
    · decide
  rows := by
    intro drawing shown turned low bottom reaches
    rcases reaches_tilted reaches with rfl | rfl
    · decide
    · decide

theorem measurement_covers_rendering_tilted :
    ∃ canvas, undithered plainEngines logoSha256 tiltedDocument {} .default = .ok canvas ∧
      thresholdDither (.threshold 128) canvas.raster = .ok ⟨1, 1, [1]⟩ ∧
      Covers tiltedDocument
        { elements := [instanceBounds ⟨tiltedSquare, none⟩ ⟨0, 0, 1, 2⟩]
          contentBounds := some ⟨0, 0, 1, 2⟩ } canvas.raster :=
  measurement_covers_rendering countable_tilted (by decide +kernel) (by decide +kernel)

theorem tryNew_ok {width height : UInt32} {maxPixels : Nat} (wide : width ≠ 0) (high : height ≠ 0)
    (fits : width.toNat * height.toNat ≤ maxPixels) :
    ∃ raster, GrayRaster.tryNew width height 255 maxPixels = .ok raster := by
  have counted := checkedPixelLen_eq_ok.mpr ⟨wide, high, rfl, fits⟩
  refine ⟨⟨width, height, List.replicate (width.toNat * height.toNat) 255⟩, ?_⟩
  rw [GrayRaster.tryNew, counted]
  rfl

theorem deep_layer : ∃ layer, GrayRaster.tryNew 1 2147484149 255 highLimits.maxCanvasPixels =
    .ok layer := tryNew_ok (by decide) (by decide) (by decide)

/-- The square is drawn on a layer of the high canvas, and is not measured. -/
theorem deep_tilted :
    measuredDrawing plainEngines deepDocument highLimits 1 2147484149 ⟨tiltedSquare, none⟩ =
      .ok none := by
  obtain ⟨layer, made⟩ := deep_layer
  have sized := (sized_of_tryNew made).1
  have turned : ¬(placementOf deepDocument ⟨tiltedSquare, none⟩).rotationMillidegrees = 0 := by
    decide +kernel
  have counted : checkedMul layer.width.toNat layer.height.toNat = some 2147484149 := by
    rw [sized.wide, sized.high]
    decide +kernel
  have paid : ({ limit := highLimits.maxTotalPixels } : RenderBudget).add 2147484149 =
      .ok ⟨2147484149, highLimits.maxTotalPixels⟩ := by decide +kernel
  have fresh : GrayRaster.tryNew layer.width layer.height 255 highLimits.maxCanvasPixels =
      .ok layer := by
    rw [sized.wide, sized.high]
    exact made
  have laid := measuredLayer_of_draw made
    (@draw_turned plainEngines _ _ _ _ layer _ _ _ _ (by decide) turned counted paid fresh rfl)
  exact measuredDrawing_none laid (not_measured_of_high turned (by decide) laid)

/-- The text is drawn on a layer of the high canvas, and has no ink. -/
theorem deep_text :
    measuredDrawing plainEngines deepDocument highLimits 1 2147484149 ⟨deepText, none⟩ =
      .ok none := by
  obtain ⟨layer, made⟩ := deep_layer
  have level : (placementOf deepDocument ⟨deepText, none⟩).rotationMillidegrees = 0 := by
    decide +kernel
  have placed : placementOf deepDocument ⟨deepText, none⟩ = ⟨1, 2147483147, 1, 1000, 0⟩ := by
    decide +kernel
  have letters : text plainEngines.basicFont
      ⟨1, 2147483147, 1, 1000, 8, .left, .top, .noWrap⟩ [] = [] := by decide +kernel
  have drawn (budget : RenderBudget) : drawAt plainEngines deepText 25400 deepDocument
      (placementOf deepDocument ⟨deepText, none⟩) highLimits budget = .ok ([], budget) := by
    rw [placed]
    exact congrArg (fun writes => Except.ok (writes, budget)) letters
  have laid := measuredLayer_of_draw made (draw_straight (by decide) level (drawn _))
  apply measuredDrawing_none laid
  exact grayInkBounds_of_tryNew made _

/-- The square is turned, has ink on the label, and is not measured on the high canvas that
the text asks for. -/
theorem measurement_misses_turned :
    ∃ canvas measurement,
      undithered plainEngines logoSha256 deepDocument {} highLimits = .ok canvas ∧
      (renderWithLimits plainEngines.base64 logoSha256 (draw plainEngines) thresholdDither
        deepDocument {} highLimits).result = .ok ⟨1, 1, [1]⟩ ∧
      measureWithLimits plainEngines logoSha256 deepDocument highLimits = .ok measurement ∧
      ¬Covers deepDocument measurement canvas.raster := by
  have shown : instancesOf deepDocument (paintOrder deepDocument) =
      [⟨tiltedSquare, none⟩, ⟨deepText, none⟩] := by decide +kernel
  have height : measurementHeightDots plainEngines deepDocument highLimits =
      .ok 2147484149 := by decide +kernel
  have accepted : validateWithLimits plainEngines.base64 logoSha256 highLimits deepDocument =
      .ok () := by decide +kernel
  have measured : measureWithLimits plainEngines logoSha256 deepDocument highLimits =
      .ok { elements := [], contentBounds := none } := by
    have width : dotsTryU32 (micrometresToDots deepDocument.media.width
        deepDocument.media.dpi) = some 1 := by decide +kernel
    have counted : checkedMul (1 : UInt32).toNat (2147484149 : UInt32).toNat =
        some 2147484149 := by decide +kernel
    have fits : ¬2147484149 > highLimits.maxCanvasPixels := by decide
    have mapped : [⟨tiltedSquare, none⟩, ⟨deepText, none⟩].mapM
        (measuredDrawing plainEngines deepDocument highLimits 1 2147484149) =
          .ok [none, none] := by
      rw [except_mapM_eq_ok]
      exact .cons deep_tilted (.cons deep_text .nil)
    rw [measureWithLimits, accepted]
    apply (except_bind_eq_ok _ _ _).mpr
    refine ⟨1, (okOr_eq_ok _ _ _).mpr width, ?_⟩
    apply (except_bind_eq_ok _ _ _).mpr
    refine ⟨2147484149, height, ?_⟩
    apply (except_bind_eq_ok _ _ _).mpr
    refine ⟨2147484149, (okOr_eq_ok _ _ _).mpr counted, ?_⟩
    apply (except_bind_eq_ok _ _ _).mpr
    refine ⟨(), (refuseIf_eq_ok _ _ _).mpr fits, ?_⟩
    rw [shown]
    exact (except_bind_eq_ok _ _ _).mpr ⟨[none, none], mapped, rfl⟩
  refine ⟨⟨⟨1, 1, [0]⟩, ⟨3, highLimits.maxTotalPixels⟩⟩, _, by decide +kernel, by decide +kernel,
    measured, ?_⟩
  intro covers
  obtain ⟨drawing, -, bounds, member, -⟩ :=
    (covers 0 0 (by decide) (by decide) (by decide)).measured
  cases member

end PrinterSdk.Render
