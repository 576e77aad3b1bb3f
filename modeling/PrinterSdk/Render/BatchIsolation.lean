import PrinterSdk.Label.BatchPage
import PrinterSdk.Render.Canvas

/-!
# Where the records of a batch are drawn

The pages of a batch keep the zones of the document with their clones, and rendering
draws an element once more in every clone of its zone.  So the records stay in their own
zones exactly when no zone is a clone of a zone that the plan gives to a record.
-/

namespace PrinterSdk.Render

open PrinterSdk.Data PrinterSdk.Label

/-- The placements of a plan on a page. -/
def onPage (plan : ZoneBatchPlan) (index : Nat) : List BatchPlacement :=
  plan.placements.filter fun placement => placement.page = index

/-- The drawings that are made for a page draw the elements of every record in the zone of
the record and in no other, and no two records in the same zone. -/
structure Isolated (document : Document) (placements : List BatchPlacement)
    (rendering : Rendering) : Prop where
  only : ∀ placement ∈ placements, ∀ template ∈ document.elements,
    ∀ drawing ∈ rendering.performed, drawing.element.id = rewriteId placement template.id →
      drawing.zone = some placement.zone
  drawn : ∀ raster, rendering.result = .ok raster →
    ∀ placement ∈ placements, ∀ template ∈ document.elements,
      effectivelyVisible template document = true →
      ∃ drawing ∈ rendering.performed, drawing.element.id = rewriteId placement template.id ∧
        drawing.zone = some placement.zone
  separate : ∀ left ∈ placements, ∀ right ∈ placements, left ≠ right →
    ∀ template ∈ document.elements, ∀ other ∈ document.elements,
      ∀ drawing ∈ rendering.performed, ∀ second ∈ rendering.performed,
        drawing.element.id = rewriteId left template.id →
        second.element.id = rewriteId right other.id → drawing.zone ≠ second.zone

/-- The copies on a page never get the same identifier, and none gets that of a
resource. -/
def ApartOn (document : Document) (placements : List BatchPlacement) : Prop :=
  (∀ left ∈ placements, ∀ right ∈ placements, left ≠ right →
    ∀ id ∈ elementIds document.elements, ∀ other ∈ elementIds document.elements,
      rewriteId left id ≠ rewriteId right other) ∧
  ∀ placement ∈ placements, ∀ id ∈ elementIds document.elements,
    rewriteId placement id ∉ document.resources.map Resource.id

/-- Something of the document can be drawn on a page with the placements. -/
structure Shows (document : Document) (placements : List BatchPlacement) : Prop where
  apart : ApartOn document placements
  drawable : Drawable document
  visible : ∃ element ∈ document.elements, effectivelyVisible element document = true

/-- No zone is a clone of a zone that the plan gives to a record, on any page on which
something can be drawn. -/
def Uncloned (document : Document) (plan : ZoneBatchPlan) : Prop :=
  ∀ placement ∈ plan.placements, Shows document (onPage plan placement.page) →
    ∀ zone ∈ document.media.zones,
      zoneClones document.media.zones zone.id placement.zone = false

/-! ## Pages -/

section

variable {base64 : Base64} {sha256 : Sha256} {limits : ProcessingLimits}
variable {document page : Document} {placements : List BatchPlacement} {index : Nat}

theorem drawable_page (made : PageOf document placements index page) :
    Drawable page ↔ Drawable document := by
  unfold Drawable
  rw [made.media]

/-- A drawing of a copy is in the zone of its placement or in a clone of that. -/
theorem zone_of_drawing (made : PageOf document placements index page)
    {placement : BatchPlacement} (placed : placement ∈ placements)
    {template : Element} (member : template ∈ document.elements) {drawing : Drawing}
    (listed : drawing ∈ drawings page)
    (named : drawing.element.id = rewriteId placement template.id) :
    drawing.zone = some placement.zone ∨
      ∃ zone ∈ document.media.zones,
        zoneClones document.media.zones zone.id placement.zone = true := by
  obtain ⟨inside, -, place⟩ := mem_drawings.mp listed
  obtain ⟨copy, also, copied, -⟩ := made.find placed member
  have same := made.copy_eq also copied inside named
  rw [same, copied.effectiveZone page, made.media] at place
  rcases place with own | ⟨source, own, zone, known, -, clones, -⟩
  · exact .inl own
  · rw [Option.some.inj own]
    exact .inr ⟨zone, known, clones⟩

variable (valid : Valid base64 sha256 .default document)

include valid

theorem visible_of_drawing (made : PageOf document placements index page) {drawing : Drawing}
    (listed : drawing ∈ drawings page) :
    ∃ element ∈ document.elements, effectivelyVisible element document = true := by
  obtain ⟨inside, visible, -⟩ := mem_drawings.mp listed
  obtain ⟨placement, placed, template, member, copied⟩ := made.copied.of_copy inside
  rw [made.effectivelyVisible_eq valid placed member copied] at visible
  exact ⟨template, member, visible⟩

/-- The copy of a visible element is drawn in the zone of its placement, and in all clones
of that zone. -/
theorem drawn_on_page (made : PageOf document placements index page)
    {placement : BatchPlacement} (placed : placement ∈ placements) {template : Element}
    (member : template ∈ document.elements)
    (visible : effectivelyVisible template document = true) {zone : String}
    (reached : zone = placement.zone ∨ ∃ clone ∈ document.media.zones, clone.id = zone ∧
      zone ≠ placement.zone ∧
      zoneClones document.media.zones zone placement.zone = true) :
    ∃ drawing ∈ drawings page, drawing.element.id = rewriteId placement template.id ∧
      drawing.zone = some zone := by
  obtain ⟨copy, inside, copied, -⟩ := made.find placed member
  refine ⟨⟨copy, some zone⟩, mem_drawings.mpr ⟨inside, ?_, ?_⟩, copied.id, rfl⟩
  · rw [made.effectivelyVisible_eq valid placed member copied]
    exact visible
  · rw [copied.effectiveZone page, made.media]
    rcases reached with rfl | ⟨clone, known, rfl, different, clones⟩
    · exact .inl rfl
    · exact .inr ⟨_, rfl, clone, known, different, clones, rfl⟩

end

/-! ## Isolation -/

section

variable {base64 : Base64} {sha256 : Sha256} {limits : ProcessingLimits}
variable {document page : Document} {placements : List BatchPlacement} {index : Nat}
variable {draw : Painter} {dither : Dither → GrayRaster → Except RasterError MonoRaster}
variable {options : RenderOptions} {renderLimits : ProcessingLimits}

/-- The drawings of a page are isolated when its zones have no clones. -/
theorem isolated_of_uncloned (valid : Valid base64 sha256 .default document)
    (made : UniqueIds page → PageOf document placements index page)
    (apart : UniqueIds page → ApartOn document placements)
    (distinct : ∀ left ∈ placements, ∀ right ∈ placements, left ≠ right →
      left.zone ≠ right.zone)
    (uncloned : Shows document placements → ∀ placement ∈ placements,
      ∀ zone ∈ document.media.zones,
        zoneClones document.media.zones zone.id placement.zone = false) :
    Isolated document placements
      (renderWithLimits base64 sha256 draw dither page options renderLimits) := by
  have only : ∀ placement ∈ placements, ∀ template ∈ document.elements,
      ∀ drawing ∈
        (renderWithLimits base64 sha256 draw dither page options renderLimits).performed,
      drawing.element.id = rewriteId placement template.id →
        drawing.zone = some placement.zone := by
    intro placement placed template member drawing performed named
    obtain ⟨listed, accepted, canvas, blank⟩ := of_performed performed
    have ids := ((validateWithLimits_eq_ok _ _ _ _).mp accepted).ids
    have own := made ids
    rcases zone_of_drawing own placed member listed named with zone | ⟨zone, known, clones⟩
    · exact zone
    · have shows : Shows document placements :=
        ⟨apart ids, (drawable_page own).mp (drawable_of_canvas blank),
          visible_of_drawing valid own listed⟩
      rw [uncloned shows placement placed zone known] at clones
      cases clones
  constructor
  case only => exact only
  case drawn =>
    intro raster rendered placement placed template member visible
    obtain ⟨accepted, performed⟩ := performed_of_ok rendered
    have ids := ((validateWithLimits_eq_ok _ _ _ _).mp accepted).ids
    rw [performed]
    exact drawn_on_page valid (made ids) placed member visible (.inl rfl)
  case separate =>
    intro left placed right also different template member other inside drawing performed second
      performs named renamed same
    have first := only left placed template member drawing performed named
    have later := only right also other inside second performs renamed
    rw [first, later] at same
    exact distinct left placed right also different (Option.some.inj same)

/-- A clone of a zone shows the record of that zone once more. -/
theorem uncloned_of_isolated (valid : Valid base64 sha256 .default document)
    (made : PageOf document placements index page) (shows : Shows document placements)
    (accepted : validateWithLimits base64 sha256 (roomyLimits limits) page = .ok ())
    (faultless : Faultless draw page)
    (isolated : Isolated document placements
      (renderWithLimits base64 sha256 draw dither page roomyOptions (roomyLimits limits)))
    {placement : BatchPlacement} (placed : placement ∈ placements) {zone : Zone}
    (known : zone ∈ document.media.zones) :
    zoneClones document.media.zones zone.id placement.zone = false := by
  obtain ⟨template, member, visible⟩ := shows.visible
  apply Bool.eq_false_iff.mpr
  intro clones
  have different : zone.id ≠ placement.zone := by
    intro same
    have cycle := (valid.zoneClones_iff zone.id placement.zone).mp clones
    rw [same] at cycle
    exact valid.forest.clonesAcyclic placement.zone cycle
  obtain ⟨canvas, blank⟩ :=
    canvas_of_drawable ((drawable_page made).mpr shows.drawable) limits
  obtain ⟨drawing, listed, named, place⟩ := drawn_on_page valid made placed member visible
    (.inr ⟨zone, known, rfl, different, clones⟩)
  have performed := isolated.only placement placed template member drawing
    (by rw [performed_faultless faultless accepted blank]; exact listed) named
  exact different (Option.some.inj (place.symm.trans performed))

end

section

variable {base64 : Base64} {sha256 : Sha256} {limits : ProcessingLimits}
variable {document : Document} {zoneIds : List String} {recordCount : Nat}
variable {plan : ZoneBatchPlan} {pages : List Document}

theorem onPage_eq (placements : plan.placements = plannedPlacements zoneIds recordCount)
    (index : Nat) : onPage plan index = placementsOn zoneIds recordCount index := by
  rw [onPage, placements]
  rfl

theorem onPage_zone_ne (planned : Planned base64 sha256 limits document zoneIds) {index : Nat} :
    ∀ left ∈ placementsOn zoneIds recordCount index,
      ∀ right ∈ placementsOn zoneIds recordCount index, left ≠ right → left.zone ≠ right.zone := by
  intro left placed right also different
  obtain ⟨record, -, here, rfl⟩ := mem_placementsOn.mp placed
  obtain ⟨other, -, there, rfl⟩ := mem_placementsOn.mp also
  apply plannedPlacement_zone_ne planned.distinct planned.filled (here.trans there.symm)
  intro same
  exact different (by rw [same])

/-- More room for the canvas makes no difference to what is accepted. -/
theorem accepted_roomy (accepted : Accepted base64 sha256 limits document) :
    Accepted base64 sha256 (roomyLimits limits) document where
  valid := accepted.valid
  resources := accepted.resources
  sized := fun resource member =>
    let sized := accepted.sized resource member
    ⟨sized.machine, sized.encoded, sized.decoded⟩
  machine := accepted.machine
  output := accepted.output

/-- A page whose identifiers stay apart is accepted. -/
theorem page_accepted (padded : Padded base64)
    (planned : Planned base64 sha256 limits document zoneIds)
    (batch : Batch limits document zoneIds recordCount pages) {index : Nat} {page : Document}
    (located : pages[index]? = some page)
    (apart : ApartOn document (placementsOn zoneIds recordCount index)) :
    PageOf document (placementsOn zoneIds recordCount index) index page ∧
      validateWithLimits base64 sha256 (roomyLimits limits) page = .ok () := by
  have made := batch.pageOf planned located ((batch.uniqueIds planned located).mpr apart)
  refine ⟨made, (validateWithLimits_eq_ok _ _ _ _).mpr ?_⟩
  exact made.isValid padded (accepted_roomy (accepted_of_checked planned.checked))
    (batch.page_fits planned located)

theorem mem_onPage {placement : BatchPlacement} {index : Nat} :
    placement ∈ onPage plan index ↔ placement ∈ plan.placements ∧ placement.page = index := by
  rw [onPage, List.mem_filter, decide_eq_true_iff]

/-- Every placement of a plan has its page, and that is accepted when its identifiers stay
apart. -/
theorem exists_page (padded : Padded base64)
    (planned : Planned base64 sha256 limits document zoneIds)
    (batch : Batch limits document zoneIds recordCount pages)
    (placements : plan.placements = plannedPlacements zoneIds recordCount)
    {placement : BatchPlacement} (member : placement ∈ plan.placements)
    (apart : ApartOn document (onPage plan placement.page)) :
    ∃ page, pages[placement.page]? = some page ∧
      PageOf document (onPage plan placement.page) placement.page page ∧
      validateWithLimits base64 sha256 (roomyLimits limits) page = .ok () := by
  rw [placements] at member
  obtain ⟨record, bound, rfl⟩ := List.mem_map.mp member
  obtain ⟨page, located, -⟩ := batch.page_exists planned (List.mem_range.mp bound)
  rw [onPage_eq placements] at apart ⊢
  exact ⟨page, located, page_accepted padded planned batch located apart⟩

end

/-- However the pages of a batch are rendered, the drawings that are made are isolated
exactly when no zone is a clone of a zone that the plan gives to a record; a painter that
draws the pages without an error is enough to tell. -/
theorem batch_isolated_iff (base64 : Base64) (sha256 : Sha256) (evaluate : Evaluate)
    (jsonLength : Document → Option Nat) (jsonLengths : List Document → Option Nat)
    (options : MaterializeOptions) (limits : ProcessingLimits) (document : Document)
    (records : List Record) (zoneIds : List String) (plan : ZoneBatchPlan)
    (pages : List Document) (padded : Padded base64)
    (planned : planZoneBatchWithLimits base64 sha256 limits document records.length zoneIds =
      .ok plan)
    (made : materializeZoneBatchWithLimits base64 sha256 evaluate jsonLength jsonLengths options
      limits document records zoneIds = .ok pages) :
    ((∀ (draw : Painter) (dither : Dither → GrayRaster → Except RasterError MonoRaster)
        (renderOptions : RenderOptions) (renderLimits : ProcessingLimits) (index : Nat)
        (page : Document), pages[index]? = some page →
      Isolated document (onPage plan index)
        (renderWithLimits base64 sha256 draw dither page renderOptions renderLimits)) ↔
      Uncloned document plan) ∧
    ∀ draw : Painter, (∀ page ∈ pages, Faultless draw page) →
      ((∀ (dither : Dither → GrayRaster → Except RasterError MonoRaster)
          (renderOptions : RenderOptions) (renderLimits : ProcessingLimits) (index : Nat)
          (page : Document), pages[index]? = some page →
        Isolated document (onPage plan index)
          (renderWithLimits base64 sha256 draw dither page renderOptions renderLimits)) ↔
        Uncloned document plan) := by
  obtain ⟨ready, batch⟩ := materializeZoneBatch_eq_ok made
  obtain ⟨-, -, placements⟩ := planZoneBatch_eq_ok planned
  have valid := (accepted_of_checked ready.checked).valid
  have necessary (draw : Painter) (faultless : ∀ page ∈ pages, Faultless draw page)
      (isolated : ∀ (dither : Dither → GrayRaster → Except RasterError MonoRaster)
        (renderOptions : RenderOptions) (renderLimits : ProcessingLimits) (index : Nat)
        (page : Document), pages[index]? = some page →
        Isolated document (onPage plan index)
          (renderWithLimits base64 sha256 draw dither page renderOptions renderLimits)) :
      Uncloned document plan := by
    intro placement member shows zone known
    obtain ⟨page, located, own, accepted⟩ :=
      exists_page padded ready batch placements member shows.apart
    exact uncloned_of_isolated valid own shows accepted
      (faultless page (List.mem_of_getElem? located))
      (isolated (fun _ _ => .error .length) _ _ _ page located)
      (mem_onPage.mpr ⟨member, rfl⟩) known
  have enough (uncloned : Uncloned document plan) (draw : Painter)
      (dither : Dither → GrayRaster → Except RasterError MonoRaster)
      (renderOptions : RenderOptions) (renderLimits : ProcessingLimits) (index : Nat)
      (page : Document) (located : pages[index]? = some page) :
      Isolated document (onPage plan index)
        (renderWithLimits base64 sha256 draw dither page renderOptions renderLimits) := by
    rw [onPage_eq placements]
    apply isolated_of_uncloned valid (batch.pageOf ready located)
      (batch.uniqueIds ready located).mp (onPage_zone_ne ready)
    intro shows placement placed
    rw [← onPage_eq placements] at shows placed
    obtain ⟨member, rfl⟩ := mem_onPage.mp placed
    exact uncloned placement member shows
  refine ⟨⟨fun isolated => ?_, enough⟩, fun draw faultless =>
    ⟨necessary draw faultless, fun uncloned => enough uncloned draw⟩⟩
  exact necessary blankPainter (fun page _ => blankPainter_faultless page)
    (isolated blankPainter)

/-- A document of one box, with a zone and a clone of that zone. -/
def clonedDocument : Document where
  version := 4
  name := "Label"
  media := twoZones
  elements := [.rectangle boxCommon 100 false]

/-- The plan of two records, for the zone and its clone. -/
def clonedPlan : Outcome MaterializeError ZoneBatchPlan :=
  planZoneBatchWithLimits logoBase64 logoSha256 .default clonedDocument 2 ["left", "right"]

/-- The batch of two records in the zone and its clone. -/
def clonedBatch : Outcome MaterializeError (List Document) :=
  materializeZoneBatchWithLimits logoBase64 logoSha256 plainText (fun _ => some 768)
    (fun _ => some 1101) {} .default clonedDocument [.empty, .empty] ["left", "right"]

theorem batch_isolated_iff_cloned :
    ∃ plan pages, clonedPlan = .ok plan ∧ clonedBatch = .ok pages ∧
      ((∀ (draw : Painter) (dither : Dither → GrayRaster → Except RasterError MonoRaster)
          (renderOptions : RenderOptions) (renderLimits : ProcessingLimits) (index : Nat)
          (page : Document), pages[index]? = some page →
        Isolated clonedDocument (onPage plan index)
          (renderWithLimits logoBase64 logoSha256 draw dither page renderOptions
            renderLimits)) ↔
        Uncloned clonedDocument plan) ∧
      ∀ draw : Painter, (∀ page ∈ pages, Faultless draw page) →
        ((∀ (dither : Dither → GrayRaster → Except RasterError MonoRaster)
            (renderOptions : RenderOptions) (renderLimits : ProcessingLimits) (index : Nat)
            (page : Document), pages[index]? = some page →
          Isolated clonedDocument (onPage plan index)
            (renderWithLimits logoBase64 logoSha256 draw dither page renderOptions
              renderLimits)) ↔
          Uncloned clonedDocument plan) := by
  have plans : clonedPlan.isOk = true := by decide +kernel
  have succeeded : clonedBatch.isOk = true := by decide +kernel
  obtain ⟨plan, planned⟩ := exists_of_isOk plans
  obtain ⟨pages, made⟩ := exists_of_isOk succeeded
  exact ⟨plan, pages, planned, made,
    batch_isolated_iff logoBase64 logoSha256 plainText _ _ {} .default clonedDocument
      [.empty, .empty] ["left", "right"] plan pages logoBase64_padded planned made⟩

/-- Whether the box of the first record is drawn in the zone on the right of the first
page of a batch, with the default options and limits. -/
def drawsOnTheRight (result : Outcome MaterializeError (List Document)) : Bool :=
  match result with
  | .ok (page :: _) =>
      (validateWithLimits logoBase64 logoSha256 .default page).isOk &&
        (canvasOf page {} .default).isOk &&
        (drawings page).any fun drawing =>
          drawing.element.id = "box:record:0:zone:left" ∧ drawing.zone = some "right"
  | _ => false

/-- The box of the first record is drawn in the zone of the second record too. -/
theorem clone_drawn_twice :
    ∃ pages page, clonedPlan = .ok ⟨1, [⟨0, 0, "left"⟩, ⟨1, 0, "right"⟩]⟩ ∧
      clonedBatch = .ok pages ∧ pages[0]? = some page ∧ ∀ dither,
        (∃ drawing ∈ (renderWithLimits logoBase64 logoSha256 blankPainter dither page {}
            .default).performed,
          drawing.element.id = rewriteId ⟨0, 0, "left"⟩ "box" ∧ drawing.zone = some "right") ∧
        ¬Isolated clonedDocument (onPage ⟨1, [⟨0, 0, "left"⟩, ⟨1, 0, "right"⟩]⟩ 0)
          (renderWithLimits logoBase64 logoSha256 blankPainter dither page {} .default) := by
  have plans : clonedPlan = .ok ⟨1, [⟨0, 0, "left"⟩, ⟨1, 0, "right"⟩]⟩ := by decide +kernel
  have draws : drawsOnTheRight clonedBatch = true := by decide +kernel
  cases made : clonedBatch with
  | error error =>
      rw [made] at draws
      cases draws
  | ok pages =>
      rw [made] at draws
      cases pages with
      | nil => cases draws
      | cons page rest =>
          rw [drawsOnTheRight, Bool.and_eq_true, Bool.and_eq_true] at draws
          obtain ⟨⟨checked, ready⟩, shown⟩ := draws
          obtain ⟨_, accepted⟩ := exists_of_isOk checked
          obtain ⟨canvas, blank⟩ := exists_of_isOk ready
          obtain ⟨drawing, listed, found⟩ := List.any_eq_true.mp shown
          obtain ⟨named, place⟩ := of_decide_eq_true found
          have renamed : drawing.element.id = rewriteId ⟨0, 0, "left"⟩ "box" :=
            named.trans (by decide)
          refine ⟨page :: rest, page, plans, rfl, rfl, ?_⟩
          intro dither
          have performed : drawing ∈ (renderWithLimits logoBase64 logoSha256 blankPainter dither
              page {} .default).performed := by
            rw [performed_faultless (blankPainter_faultless page) accepted blank]
            exact listed
          refine ⟨⟨drawing, performed, renamed, place⟩, ?_⟩
          intro isolated
          have own := isolated.only ⟨0, 0, "left"⟩ (by decide) (.rectangle boxCommon 100 false)
            (by decide) drawing performed renamed
          rw [place] at own
          exact absurd own (by decide)

end PrinterSdk.Render
