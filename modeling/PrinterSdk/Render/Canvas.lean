import Mathlib.Data.List.Sort
import PrinterSdk.Label.Forest
import PrinterSdk.Render.Dots
import PrinterSdk.Render.Raster

/-!
# Rendering of documents

The elements of a document are drawn on a canvas in the order of `z_order`.  An element
with a zone is drawn once more in every clone of that zone.  What one drawing does and how
the canvas is dithered are parameters here: rendering is the sequence of the drawings,
until one of them fails.
-/

namespace PrinterSdk.Render

open PrinterSdk.Data PrinterSdk.Label

/-- `RenderOptions`. -/
structure RenderOptions where
  dither : Dither := .threshold 128
  maxPixels : Nat := 100000000
  deriving DecidableEq, Repr

/-- `RenderBudget`. -/
structure RenderBudget where
  pixels : Nat := 0
  limit : Nat
  deriving DecidableEq, Repr

/-- `RenderBudget::add`. -/
def RenderBudget.add (budget : RenderBudget) (pixels : Nat) :
    Except RenderError RenderBudget := do
  let sum ← okOr (checkedAdd budget.pixels pixels) .tooLarge
  refuseIf (sum > budget.limit) .tooLarge
  return { budget with pixels := sum }

/-- The canvas and the budget, which every drawing changes. -/
structure Canvas where
  raster : GrayRaster
  budget : RenderBudget
  deriving DecidableEq, Repr

/-- `map_err(|_| RenderError::TooLarge)`. -/
def orTooLarge {α : Type} (result : Except RasterError α) : Except RenderError α :=
  result.mapError fun _ => .tooLarge

/-- A computation all of whose errors are `RenderError::TooLarge`. -/
def tooLargeOrPanic {α : Type} (result : Outcome RasterError α) : Outcome RenderError α :=
  result.mapError fun fault =>
    match fault with
    | .error _ => .error .tooLarge
    | .panic => .panic

/-- The canvas of a document, with its pixels paid for twice. -/
def canvasOf (document : Document) (options : RenderOptions) (limits : ProcessingLimits) :
    Except RenderError Canvas := do
  let width ← okOr (dotsTryU32 (micrometresToDots document.media.width document.media.dpi))
    .tooLarge
  let height ← okOr (dotsTryU32 (micrometresToDots document.media.height document.media.dpi))
    .tooLarge
  let canvasPixels ← okOr (checkedMul width.toNat height.toNat) .tooLarge
  let budget ← ({ limit := limits.maxTotalPixels } : RenderBudget).add canvasPixels
  let budget ← budget.add canvasPixels
  let raster ← orTooLarge
    (GrayRaster.tryNew width height 255 (min options.maxPixels limits.maxCanvasPixels))
  return ⟨raster, budget⟩

/-! ## Drawings -/

/-- A call of `draw`: an element, and the zone that replaces its own. -/
structure Drawing where
  element : Element
  zone : Option String
  deriving DecidableEq, Repr

/-- The order of painting, `z_order`. -/
def paintsBefore (left right : Element) : Prop :=
  left.common.zOrder ≤ right.common.zOrder

instance : DecidableRel paintsBefore := fun left right =>
  inferInstanceAs (Decidable (left.common.zOrder ≤ right.common.zOrder))

instance : Std.Total paintsBefore := ⟨fun _ _ => Int32.le_total _ _⟩

instance : IsTrans Element paintsBefore := ⟨fun _ _ _ => Int32.le_trans⟩

/-- The elements in the order in which they are painted; the sort is stable. -/
def paintOrder (document : Document) : List Element :=
  document.elements.insertionSort paintsBefore

/-- The drawings of an element that is effectively visible. -/
def visibleDrawings (document : Document) (element : Element) : List Drawing :=
  ⟨element, effectiveZone element document⟩ ::
    match effectiveZone element document with
    | none => []
    | some source =>
        (document.media.zones.filter fun zone =>
          zone.id ≠ source ∧ zoneClones document.media.zones zone.id source = true).map
            fun zone => ⟨element, some zone.id⟩

/-- All drawings of a document, in their order. -/
def drawings (document : Document) : List Drawing :=
  ((paintOrder document).filter fun element => effectivelyVisible element document).flatMap
    (visibleDrawings document)

/-- What `draw` does to the canvas for an element of the document in a zone. -/
abbrev Painter :=
  Document → ProcessingLimits → Drawing → Canvas → Except RenderError Canvas

/-- A painter that leaves the canvas blank. -/
def blankPainter : Painter := fun _ _ _ canvas => .ok canvas

/-- The drawings that are made until one fails, and the canvas behind them. -/
def drawUntil (draw : Drawing → Canvas → Except RenderError Canvas) :
    Canvas → List Drawing → List Drawing × Except RenderError Canvas
  | canvas, [] => ([], .ok canvas)
  | canvas, drawing :: rest =>
      match draw drawing canvas with
      | .error error => ([drawing], .error error)
      | .ok next =>
          let later := drawUntil draw next rest
          (drawing :: later.1, later.2)

/-! ## Rendering -/

/-- What rendering does: the drawings it makes, and its result. -/
structure Rendering where
  performed : List Drawing
  result : Except RenderError MonoRaster

section

variable (base64 : Base64) (sha256 : Sha256) (draw : Painter)
variable (dither : Dither → GrayRaster → Except RasterError MonoRaster)

/-- `render_with_limits`. -/
def renderWithLimits (document : Document) (options : RenderOptions)
    (limits : ProcessingLimits) : Rendering :=
  match validateWithLimits base64 sha256 limits document with
  | .error errors =>
      ⟨[], .error (.validation ("; ".intercalate (errors.map ValidationError.text)))⟩
  | .ok () =>
      match canvasOf document options limits with
      | .error error => ⟨[], .error error⟩
      | .ok canvas =>
          let drawn := drawUntil (draw document limits) canvas (drawings document)
          ⟨drawn.1, drawn.2.bind fun canvas => orTooLarge (dither options.dither canvas.raster)⟩

end

/-! ## The drawings of a document -/

theorem mem_paintOrder {document : Document} {element : Element} :
    element ∈ paintOrder document ↔ element ∈ document.elements :=
  List.mem_insertionSort _

theorem element_of_visibleDrawings (document : Document) (element : Element) :
    ∀ drawing ∈ visibleDrawings document element, drawing.element = element := by
  intro drawing made
  rw [visibleDrawings] at made
  rcases List.mem_cons.mp made with rfl | clone
  · rfl
  · cases zone : effectiveZone element document with
    | none =>
        rw [zone] at clone
        cases clone
    | some source =>
        rw [zone] at clone
        obtain ⟨other, -, rfl⟩ := List.mem_map.mp clone
        rfl

/-- An element that is visible is drawn in its zone and in all clones of it. -/
theorem mem_drawings {document : Document} {drawing : Drawing} :
    drawing ∈ drawings document ↔
      drawing.element ∈ document.elements ∧
        effectivelyVisible drawing.element document = true ∧
        (drawing.zone = effectiveZone drawing.element document ∨
          ∃ source, effectiveZone drawing.element document = some source ∧
            ∃ zone ∈ document.media.zones, zone.id ≠ source ∧
              zoneClones document.media.zones zone.id source = true ∧
              drawing.zone = some zone.id) := by
  have own (element : Element) : drawing ∈ visibleDrawings document element ↔
      drawing.element = element ∧ (drawing.zone = effectiveZone element document ∨
        ∃ source, effectiveZone element document = some source ∧
          ∃ zone ∈ document.media.zones, zone.id ≠ source ∧
            zoneClones document.media.zones zone.id source = true ∧
            drawing.zone = some zone.id) := by
    obtain ⟨drawn, place⟩ := drawing
    rw [visibleDrawings]
    cases effectiveZone element document with
    | none => simp
    | some source =>
        simp only [List.mem_cons, Drawing.mk.injEq, List.mem_map, List.mem_filter,
          decide_eq_true_eq, Option.some.injEq]
        constructor
        · rintro (⟨rfl, rfl⟩ | ⟨zone, ⟨member, different, clones⟩, rfl, rfl⟩)
          · exact ⟨rfl, .inl rfl⟩
          · exact ⟨rfl, .inr ⟨source, rfl, zone, member, different, clones, rfl⟩⟩
        · rintro ⟨rfl, rfl | ⟨_, rfl, zone, member, different, clones, rfl⟩⟩
          · exact .inl ⟨rfl, rfl⟩
          · exact .inr ⟨zone, ⟨member, different, clones⟩, rfl, rfl⟩
  unfold drawings
  simp only [List.mem_flatMap, List.mem_filter, mem_paintOrder, own]
  constructor
  · rintro ⟨element, ⟨member, visible⟩, rfl, placed⟩
    exact ⟨member, visible, placed⟩
  · rintro ⟨member, visible, placed⟩
    exact ⟨_, ⟨member, visible⟩, rfl, placed⟩

/-! ## The drawings that are made -/

theorem drawUntil_begins (draw : Drawing → Canvas → Except RenderError Canvas)
    (canvas : Canvas) (list : List Drawing) : (drawUntil draw canvas list).1 <+: list := by
  induction list generalizing canvas with
  | nil => exact List.prefix_refl _
  | cons drawing rest ih =>
      rw [drawUntil]
      cases draw drawing canvas with
      | error error => exact ⟨rest, rfl⟩
      | ok next =>
          apply List.cons_prefix_cons.mpr
          exact ⟨rfl, ih next⟩

theorem drawUntil_of_ok {draw : Drawing → Canvas → Except RenderError Canvas}
    {canvas last : Canvas} {list : List Drawing}
    (drawn : (drawUntil draw canvas list).2 = .ok last) :
    (drawUntil draw canvas list).1 = list := by
  induction list generalizing canvas with
  | nil => rfl
  | cons drawing rest ih =>
      rw [drawUntil] at drawn ⊢
      cases step : draw drawing canvas with
      | error error =>
          rw [step] at drawn
          cases drawn
      | ok next =>
          rw [step] at drawn
          exact congrArg (drawing :: ·) (ih drawn)

/-- What every drawing keeps, drawing all of them keeps. -/
theorem drawUntil_invariant {draw : Drawing → Canvas → Except RenderError Canvas}
    (Holds : Canvas → Prop) {canvas last : Canvas} {list : List Drawing} (holds : Holds canvas)
    (keeps : ∀ canvas drawing next, drawing ∈ list → Holds canvas →
      draw drawing canvas = .ok next → Holds next)
    (drawn : (drawUntil draw canvas list).2 = .ok last) : Holds last := by
  induction list generalizing canvas with
  | nil =>
      cases drawn
      exact holds
  | cons drawing rest ih =>
      rw [drawUntil] at drawn
      cases step : draw drawing canvas with
      | error error =>
          rw [step] at drawn
          cases drawn
      | ok next =>
          rw [step] at drawn
          apply ih (keeps canvas drawing next (List.mem_cons_self ..) holds step) _ drawn
          intro canvas other next member
          exact keeps canvas other next (List.mem_cons_of_mem _ member)

/-- The painter draws the document without an error. -/
def Faultless (draw : Painter) (document : Document) : Prop :=
  ∀ limits canvas, ∀ drawing ∈ drawings document,
    ∃ next, draw document limits drawing canvas = .ok next

theorem blankPainter_faultless (document : Document) : Faultless blankPainter document :=
  fun _ canvas _ _ => ⟨canvas, rfl⟩

/-- Without an error everything is drawn. -/
theorem drawUntil_of_faultless {draw : Drawing → Canvas → Except RenderError Canvas}
    {list : List Drawing} (succeeds : ∀ canvas, ∀ drawing ∈ list, ∃ next,
      draw drawing canvas = .ok next) (canvas : Canvas) :
    (drawUntil draw canvas list).1 = list := by
  induction list generalizing canvas with
  | nil => rfl
  | cons drawing rest ih =>
      obtain ⟨next, drawn⟩ := succeeds canvas drawing List.mem_cons_self
      rw [drawUntil, drawn]
      dsimp only
      rw [ih fun canvas drawing member => succeeds canvas drawing (List.mem_cons_of_mem _ member)]

section

variable {base64 : Base64} {sha256 : Sha256} {draw : Painter}
variable {dither : Dither → GrayRaster → Except RasterError MonoRaster}
variable {document : Document} {options : RenderOptions} {limits : ProcessingLimits}

/-- The drawings that are made are the first of the document's drawings. -/
theorem performed_begins :
    (renderWithLimits base64 sha256 draw dither document options limits).performed <+:
      drawings document := by
  rw [renderWithLimits]
  cases validateWithLimits base64 sha256 limits document with
  | error errors => exact List.nil_prefix
  | ok value =>
      cases canvasOf document options limits with
      | error error => exact List.nil_prefix
      | ok canvas => exact drawUntil_begins ..

/-- A drawing that is made is one of the document's, which is valid and has a canvas. -/
theorem of_performed {drawing : Drawing}
    (made : drawing ∈
      (renderWithLimits base64 sha256 draw dither document options limits).performed) :
    drawing ∈ drawings document ∧
      validateWithLimits base64 sha256 limits document = .ok () ∧
      ∃ canvas, canvasOf document options limits = .ok canvas := by
  refine ⟨performed_begins.subset made, ?_⟩
  rw [renderWithLimits] at made
  cases accepted : validateWithLimits base64 sha256 limits document with
  | error errors =>
      rw [accepted] at made
      cases made
  | ok value =>
      rw [accepted] at made
      cases blank : canvasOf document options limits with
      | error error =>
          rw [blank] at made
          cases made
      | ok canvas => exact ⟨rfl, canvas, rfl⟩

/-- A rendering that succeeds has made all drawings. -/
theorem performed_of_ok {raster : MonoRaster}
    (rendered : (renderWithLimits base64 sha256 draw dither document options limits).result =
      .ok raster) :
    validateWithLimits base64 sha256 limits document = .ok () ∧
      (renderWithLimits base64 sha256 draw dither document options limits).performed =
        drawings document := by
  rw [renderWithLimits] at rendered ⊢
  cases accepted : validateWithLimits base64 sha256 limits document with
  | error errors =>
      rw [accepted] at rendered
      cases rendered
  | ok value =>
      rw [accepted] at rendered
      refine ⟨rfl, ?_⟩
      cases blank : canvasOf document options limits with
      | error error =>
          rw [blank] at rendered
          cases rendered
      | ok canvas =>
          rw [blank] at rendered
          cases drawn : (drawUntil (draw document limits) canvas (drawings document)).2 with
          | error error =>
              dsimp only at rendered
              rw [drawn] at rendered
              cases rendered
          | ok last => exact drawUntil_of_ok drawn

/-- All drawings are made on a canvas when none of them fails. -/
theorem performed_faultless {canvas : Canvas} (faultless : Faultless draw document)
    (accepted : validateWithLimits base64 sha256 limits document = .ok ())
    (blank : canvasOf document options limits = .ok canvas) :
    (renderWithLimits base64 sha256 draw dither document options limits).performed =
      drawings document := by
  rw [renderWithLimits, accepted, blank]
  exact drawUntil_of_faultless (faultless limits) canvas

end

/-! ## Canvases -/

/-- The canvas of a document fits the machine: a positive number of dots in both
directions, and twice the number of its pixels. -/
def Drawable (document : Document) : Prop :=
  ∃ width height : UInt32,
    (micrometresToDots document.media.width document.media.dpi).toInt = width.toNat ∧
    (micrometresToDots document.media.height document.media.dpi).toInt = height.toNat ∧
    width ≠ 0 ∧ height ≠ 0 ∧ 2 * (width.toNat * height.toNat) ≤ usizeMax

theorem budget_add_eq_ok {budget result : RenderBudget} {pixels : Nat} :
    budget.add pixels = .ok result ↔
      budget.pixels + pixels ≤ usizeMax ∧ budget.pixels + pixels ≤ budget.limit ∧
        result = { budget with pixels := budget.pixels + pixels } := by
  unfold RenderBudget.add
  simp only [except_bind_eq_ok, okOr_eq_ok, refuseIf_eq_ok, except_pure_eq_ok, checkedAdd_eq_some]
  constructor
  · rintro ⟨sum, ⟨fits, rfl⟩, _, within, rfl⟩
    exact ⟨fits, by omega, rfl⟩
  · rintro ⟨fits, within, rfl⟩
    exact ⟨_, ⟨fits, rfl⟩, (), by omega, rfl⟩

theorem orTooLarge_eq_ok {α : Type} {result : Except RasterError α} {value : α} :
    orTooLarge result = .ok value ↔ result = .ok value := by
  cases result <;> simp [orTooLarge, Except.mapError]

/-- The canvas of a document is new, of the size of its medium, and was paid for twice. -/
theorem canvasOf_eq_ok {document : Document} {options : RenderOptions}
    {limits : ProcessingLimits} {canvas : Canvas}
    (blank : canvasOf document options limits = .ok canvas) :
    ∃ width height : UInt32,
      (micrometresToDots document.media.width document.media.dpi).toInt = width.toNat ∧
      (micrometresToDots document.media.height document.media.dpi).toInt = height.toNat ∧
      2 * (width.toNat * height.toNat) ≤ usizeMax ∧
      GrayRaster.tryNew width height 255 (min options.maxPixels limits.maxCanvasPixels) =
        .ok canvas.raster := by
  obtain ⟨width, wide, blank⟩ := (except_bind_eq_ok _ _ _).mp blank
  obtain ⟨height, high, blank⟩ := (except_bind_eq_ok _ _ _).mp blank
  obtain ⟨canvasPixels, counted, blank⟩ := (except_bind_eq_ok _ _ _).mp blank
  obtain ⟨budget, once, blank⟩ := (except_bind_eq_ok _ _ _).mp blank
  obtain ⟨_, twice, blank⟩ := (except_bind_eq_ok _ _ _).mp blank
  obtain ⟨raster, made, blank⟩ := (except_bind_eq_ok _ _ _).mp blank
  cases blank
  rw [okOr_eq_ok, dotsTryU32_eq_some] at wide high
  rw [okOr_eq_ok, checkedMul_eq_some] at counted
  obtain ⟨-, -, rfl⟩ := budget_add_eq_ok.mp once
  obtain ⟨fits, -, -⟩ := budget_add_eq_ok.mp twice
  dsimp only at fits
  exact ⟨width, height, wide, high, by omega, orTooLarge_eq_ok.mp made⟩

/-- A canvas is made for drawable documents only. -/
theorem drawable_of_canvas {document : Document} {options : RenderOptions}
    {limits : ProcessingLimits} {canvas : Canvas}
    (blank : canvasOf document options limits = .ok canvas) : Drawable document := by
  obtain ⟨width, height, wide, high, fits, made⟩ := canvasOf_eq_ok blank
  obtain ⟨_, filled, -⟩ := (except_bind_eq_ok _ _ _).mp made
  obtain ⟨positive, tall, -, -⟩ := checkedPixelLen_eq_ok.mp filled
  exact ⟨width, height, wide, high, positive, tall, fits⟩

/-- The limits, with room for every canvas that fits the machine. -/
def roomyLimits (limits : ProcessingLimits) : ProcessingLimits :=
  { limits with maxCanvasPixels := usizeMax, maxTotalPixels := usizeMax }

/-- The options, with room for every canvas that fits the machine. -/
def roomyOptions : RenderOptions := { maxPixels := usizeMax }

theorem canvas_of_drawable {document : Document} (drawable : Drawable document)
    (limits : ProcessingLimits) :
    ∃ canvas, canvasOf document roomyOptions (roomyLimits limits) = .ok canvas := by
  obtain ⟨width, height, wide, high, positive, tall, fits⟩ := drawable
  have counted : checkedMul width.toNat height.toNat = some (width.toNat * height.toNat) :=
    checkedMul_eq_some.mpr ⟨by omega, rfl⟩
  have once : ({ limit := usizeMax } : RenderBudget).add (width.toNat * height.toNat) =
      .ok ⟨width.toNat * height.toNat, usizeMax⟩ :=
    budget_add_eq_ok.mpr ⟨by simp only; omega, by simp only; omega, by simp⟩
  have twice : (⟨width.toNat * height.toNat, usizeMax⟩ : RenderBudget).add
      (width.toNat * height.toNat) =
        .ok ⟨width.toNat * height.toNat + width.toNat * height.toNat, usizeMax⟩ :=
    budget_add_eq_ok.mpr ⟨by simp only; omega, by simp only; omega, rfl⟩
  have filled : checkedPixelLen width height usizeMax = .ok (width.toNat * height.toNat) :=
    checkedPixelLen_eq_ok.mpr ⟨positive, tall, rfl, by omega⟩
  refine ⟨⟨⟨width, height, List.replicate (width.toNat * height.toNat) 255⟩,
    ⟨width.toNat * height.toNat + width.toNat * height.toNat, usizeMax⟩⟩, ?_⟩
  rw [canvasOf, dotsTryU32_eq_some.mpr wide, dotsTryU32_eq_some.mpr high]
  simp only [okOr, bind, Except.bind, counted, roomyLimits, roomyOptions, once, twice,
    GrayRaster.tryNew, Nat.min_self, filled]
  rfl

end PrinterSdk.Render
