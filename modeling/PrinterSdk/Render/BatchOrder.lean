import PrinterSdk.Data.Pairs
import PrinterSdk.Render.BatchIsolation

/-!
# The order in which the records of a batch are painted

A batch numbers the copies on a page in the order of the list, whatever `z_order` the
elements of the document had.  So a page is painted in the order of the document exactly
when the document lists its visible elements in the order of their `z_order`.
-/

namespace PrinterSdk.Render

open PrinterSdk.Data PrinterSdk.Label

/-- Something of the element `first` is painted before something of the element `second`. -/
def PaintedBefore (rendering : Rendering) (first second : String) : Prop :=
  ∃ early late, [early, late].Sublist rendering.performed ∧
    early.element.id = first ∧ late.element.id = second

/-- The copies of elements are painted in the order in which the elements are painted: in
that order when the page is rendered, and never in the other. -/
structure KeepsOrder (document : Document) (placements : List BatchPlacement)
    (template page : Rendering) : Prop where
  kept : ∀ placement ∈ placements,
    ∀ first ∈ document.elements, ∀ second ∈ document.elements, first ≠ second →
      PaintedBefore template first.id second.id → (∃ raster, page.result = .ok raster) →
      PaintedBefore page (rewriteId placement first.id) (rewriteId placement second.id)
  never : ∀ placement ∈ placements,
    ∀ first ∈ document.elements, ∀ second ∈ document.elements, first ≠ second →
      PaintedBefore template first.id second.id →
      ¬PaintedBefore page (rewriteId placement second.id) (rewriteId placement first.id)

/-- The visible elements are listed in the order of their `z_order`, if something can be
painted for some record. -/
def ListedInOrder (document : Document) (plan : ZoneBatchPlan) : Prop :=
  ∀ placement ∈ plan.placements, Shows document (onPage plan placement.page) →
    ∀ first second, [first, second].Sublist document.elements →
      effectivelyVisible first document = true → effectivelyVisible second document = true →
      first.common.zOrder ≤ second.common.zOrder

/-! ## Paint orders -/

/-- The elements that are painted, in order. -/
def painted (document : Document) : List Element :=
  (paintOrder document).filter fun element => effectivelyVisible element document

section

variable {document : Document} {first second : Element}

theorem pair_painted_iff :
    [first, second].Sublist (painted document) ↔
      [first, second].Sublist (paintOrder document) ∧
        effectivelyVisible first document = true ∧
        effectivelyVisible second document = true := by
  unfold painted
  constructor
  · intro ordered
    have visible {element : Element} (listed : element ∈ [first, second]) :
        effectivelyVisible element document = true :=
      (List.mem_filter.mp (ordered.subset listed)).2
    exact ⟨ordered.trans List.filter_sublist, visible (by simp), visible (by simp)⟩
  · rintro ⟨ordered, early, late⟩
    have kept := ordered.filter fun element => effectivelyVisible element document
    have all : [first, second].filter (fun element => effectivelyVisible element document) =
        [first, second] := by
      simp [early, late]
    rw [all] at kept
    exact kept

/-- Elements are painted in order when their drawings are in order. -/
theorem exists_pair_of_painted (ordered : [first, second].Sublist (painted document)) :
    ∃ early late, [early, late].Sublist (drawings document) ∧ early.element = first ∧
      late.element = second :=
  ⟨_, _, flatMap_pair ordered (List.mem_cons_self ..) (List.mem_cons_self ..), rfl, rfl⟩

theorem painted_of_pair {early late : Drawing} (ordered : [early, late].Sublist (drawings document))
    (different : early.element ≠ late.element) :
    [early.element, late.element].Sublist (painted document) :=
  pair_of_flatMap (element_of_visibleDrawings document) ordered different

theorem nodup_painted (ids : UniqueIds document) : (painted document).Nodup := by
  have elements : document.elements.Nodup := ids.elements.of_map
  have sorted : (paintOrder document).Nodup :=
    (List.perm_insertionSort paintsBefore document.elements).nodup_iff.mpr elements
  exact sorted.filter _

theorem eq_of_id (ids : UniqueIds document) (member : first ∈ document.elements)
    (also : second ∈ document.elements) (same : first.id = second.id) : first = second := by
  have found := ids.find member
  rw [same, ids.find also] at found
  exact (Option.some.inj found).symm

end

section

variable {base64 : Base64} {sha256 : Sha256} {limits : ProcessingLimits} {draw : Painter}
variable {dither : Dither → GrayRaster → Except RasterError MonoRaster}
variable {document : Document} {options : RenderOptions} {first second : Element}

/-- What is painted before something else is before it in the order of painting. -/
theorem painted_of_before (ids : UniqueIds document) (member : first ∈ document.elements)
    (also : second ∈ document.elements) (different : first ≠ second)
    (before : PaintedBefore (renderWithLimits base64 sha256 draw dither document options limits)
      first.id second.id) :
    [first, second].Sublist (painted document) ∧ Drawable document := by
  obtain ⟨early, late, ordered, named, renamed⟩ := before
  obtain ⟨made, -, canvas, blank⟩ := of_performed (ordered.subset (List.mem_cons_self ..))
  obtain ⟨makes, -⟩ := of_performed
    (ordered.subset (List.mem_cons_of_mem _ (List.mem_singleton_self _)))
  have start := eq_of_id ids (mem_drawings.mp made).1 member named
  have finish := eq_of_id ids (mem_drawings.mp makes).1 also renamed
  refine ⟨?_, drawable_of_canvas blank⟩
  rw [← start, ← finish] at different ⊢
  exact painted_of_pair (ordered.trans performed_begins.sublist) different

theorem accepted_of_before {early late : String}
    (before : PaintedBefore (renderWithLimits base64 sha256 draw dither document options limits)
      early late) :
    validateWithLimits base64 sha256 limits document = .ok () := by
  obtain ⟨drawing, other, ordered, -⟩ := before
  exact (of_performed (ordered.subset (List.mem_cons_self ..))).2.1

/-- In a rendering that makes all drawings, the order can be read off the identifiers. -/
theorem before_of_ids {early late : String}
    (ordered : [early, late].Sublist ((drawings document).map fun drawing => drawing.element.id))
    (performed : (renderWithLimits base64 sha256 draw dither document options limits).performed =
      drawings document) :
    PaintedBefore (renderWithLimits base64 sha256 draw dither document options limits)
      early late := by
  obtain ⟨pair, sublist, same⟩ := List.sublist_map_iff.mp ordered
  obtain ⟨drawing, rest, rfl, rfl, other⟩ := List.map_eq_cons_iff.mp same.symm
  obtain ⟨second, rfl, rfl⟩ := List.map_eq_singleton_iff.mp other
  exact ⟨drawing, second, performed ▸ sublist, rfl, rfl⟩

/-- In a rendering that makes all drawings, everything is painted in its order. -/
theorem before_of_painted (ordered : [first, second].Sublist (painted document))
    (performed : (renderWithLimits base64 sha256 draw dither document options limits).performed =
      drawings document) :
    PaintedBefore (renderWithLimits base64 sha256 draw dither document options limits)
      first.id second.id := by
  obtain ⟨early, late, sublist, rfl, rfl⟩ := exists_pair_of_painted ordered
  exact ⟨early, late, performed ▸ sublist, rfl, rfl⟩

end

/-! ## Pages -/

/-- The order of the list is the order of painting when the elements are numbered by it. -/
theorem paintOrder_of_inOrder {document : Document} (ordered : InOrder document.elements) :
    paintOrder document = document.elements := by
  apply List.Pairwise.insertionSort_eq
  rw [List.pairwise_iff_getElem]
  intro index later bound within less
  obtain ⟨-, first⟩ := ordered index _ (List.getElem?_eq_getElem bound)
  obtain ⟨small, second⟩ := ordered later _ (List.getElem?_eq_getElem within)
  have machine : later < 2 ^ 31 := Nat.lt_of_le_of_lt small (by decide)
  rw [paintsBefore, first, second, Int32.le_iff_toInt_le, Int32.toInt_ofNat_of_lt machine,
    Int32.toInt_ofNat_of_lt (Nat.lt_trans less machine)]
  exact Int.ofNat_le.mpr (Nat.le_of_lt less)

section

variable {base64 : Base64} {sha256 : Sha256} {limits : ProcessingLimits}
variable {document page : Document} {placements : List BatchPlacement} {index : Nat}

/-- The copies of listed elements are listed in the same order. -/
theorem copies_in_order (made : PageOf document placements index page)
    {placement : BatchPlacement} (placed : placement ∈ placements) {first second : Element}
    (listed : [first, second].Sublist document.elements) :
    ∃ copy other, [copy, other].Sublist page.elements ∧
      CopyOf placement first copy ∧ CopyOf placement second other := by
  have own : [(placement, first), (placement, second)].Sublist
      (document.elements.map fun element => (placement, element)) :=
    listed.map fun element => (placement, element)
  have all : (document.elements.map fun element => (placement, element)).Sublist
      (placements.flatMap fun placement =>
        document.elements.map fun element => (placement, element)) := by
    have single := (List.singleton_sublist.mpr placed).flatMap fun placement =>
      document.elements.map fun element => (placement, element)
    rw [List.flatMap_singleton] at single
    exact single
  obtain ⟨copies, inside, related⟩ := exists_sublist_of_forall₂ made.copied (own.trans all)
  cases related with
  | cons copied related =>
      cases related with
      | cons also ended =>
          cases ended
          exact ⟨_, _, inside, copied, also⟩

/-- The copies of visible elements are painted in the order in which they are listed. -/
theorem copies_painted (valid : Valid base64 sha256 .default document)
    (made : PageOf document placements index page) (ordered : InOrder page.elements)
    {placement : BatchPlacement} (placed : placement ∈ placements) {first second : Element}
    (listed : [first, second].Sublist document.elements)
    (early : effectivelyVisible first document = true)
    (late : effectivelyVisible second document = true) :
    ∃ copy other, [copy, other].Sublist (painted page) ∧
      CopyOf placement first copy ∧ CopyOf placement second other := by
  obtain ⟨copy, other, inside, copied, also⟩ := copies_in_order made placed listed
  refine ⟨copy, other, pair_painted_iff.mpr ⟨?_, ?_, ?_⟩, copied, also⟩
  · rw [paintOrder_of_inOrder ordered]
    exact inside
  · rw [made.effectivelyVisible_eq valid placed (listed.subset (by simp)) copied]
    exact early
  · rw [made.effectivelyVisible_eq valid placed (listed.subset (by simp)) also]
    exact late

end

/-! ## The order on pages -/

section

variable {base64 : Base64} {sha256 : Sha256} {limits : ProcessingLimits}
variable {document page : Document} {placements : List BatchPlacement} {index : Nat}
variable {draw : Painter} {dither : Dither → GrayRaster → Except RasterError MonoRaster}
variable {options : RenderOptions} {renderLimits : ProcessingLimits}

/-- Elements that are painted in order have their copies painted in order, once the
elements are listed as they are painted. -/
theorem copies_painted_of_before (valid : Valid base64 sha256 .default document)
    (made : PageOf document placements index page) (apart : ApartOn document placements)
    (ordered : InOrder page.elements)
    (listed : Shows document placements → ∀ first second,
      [first, second].Sublist document.elements →
      effectivelyVisible first document = true → effectivelyVisible second document = true →
      first.common.zOrder ≤ second.common.zOrder)
    {placement : BatchPlacement} (placed : placement ∈ placements) {first second : Element}
    (member : first ∈ document.elements) (also : second ∈ document.elements)
    (different : first ≠ second)
    (before : PaintedBefore
      (renderWithLimits base64 sha256 draw dither document options renderLimits)
      first.id second.id) :
    ∃ copy other, [copy, other].Sublist (painted page) ∧
      CopyOf placement first copy ∧ CopyOf placement second other := by
  obtain ⟨order, drawable⟩ := painted_of_before valid.ids member also different before
  obtain ⟨sorted, early, late⟩ := pair_painted_iff.mp order
  apply copies_painted valid made ordered placed _ early late
  rcases pair_of_insertionSort valid.ids.elements.of_map sorted with kept | ⟨reversed, below⟩
  · exact kept
  · exact absurd (listed ⟨apart, drawable, first, member, early⟩ second first reversed late early)
      below

/-- Pages keep the order when the elements are listed as they are painted. -/
theorem keepsOrder_of_listed (valid : Valid base64 sha256 .default document)
    (made : UniqueIds page → PageOf document placements index page)
    (apart : UniqueIds page → ApartOn document placements)
    (ordered : InOrder page.elements)
    (listed : ∀ placement ∈ placements, Shows document placements → ∀ first second,
      [first, second].Sublist document.elements →
      effectivelyVisible first document = true → effectivelyVisible second document = true →
      first.common.zOrder ≤ second.common.zOrder) :
    KeepsOrder document placements
      (renderWithLimits base64 sha256 draw dither document options renderLimits)
      (renderWithLimits base64 sha256 draw dither page options renderLimits) := by
  constructor
  case kept =>
    intro placement placed first member second also different before rendered
    obtain ⟨raster, rendered⟩ := rendered
    obtain ⟨accepted, performed⟩ := performed_of_ok rendered
    have ids := ((validateWithLimits_eq_ok _ _ _ _).mp accepted).ids
    obtain ⟨copy, other, order, copied, copies⟩ := copies_painted_of_before valid (made ids)
      (apart ids) ordered (listed placement placed) placed member also different before
    rw [← copied.id, ← copies.id]
    exact before_of_painted order performed
  case never =>
    intro placement placed first member second also different before reversed
    have accepted := accepted_of_before reversed
    have ids := ((validateWithLimits_eq_ok _ _ _ _).mp accepted).ids
    obtain ⟨copy, other, order, copied, copies⟩ := copies_painted_of_before valid (made ids)
      (apart ids) ordered (listed placement placed) placed member also different before
    have inside {element : Element} (shown : element ∈ [copy, other]) : element ∈ page.elements :=
      mem_paintOrder.mp (List.mem_filter.mp (order.subset shown)).1
    have distinct := nodup_painted ids
    have apartCopies : other ≠ copy := by
      rintro rfl
      exact not_pair_of_nodup distinct order order
    rw [← copied.id, ← copies.id] at reversed
    obtain ⟨back, -⟩ := painted_of_before ids (inside (by simp)) (inside (by simp)) apartCopies
      reversed
    exact not_pair_of_nodup distinct order back

/-- An element that is listed before one of a smaller `z_order` is painted in another
order on the page. -/
theorem listed_of_keepsOrder (valid : Valid base64 sha256 .default document)
    (original : validateWithLimits base64 sha256 (roomyLimits limits) document = .ok ())
    (made : PageOf document placements index page) (ordered : InOrder page.elements)
    (drawable : Drawable document)
    (accepted : validateWithLimits base64 sha256 (roomyLimits limits) page = .ok ())
    (faultless : Faultless draw document) (onPage : Faultless draw page)
    (keeps : KeepsOrder document placements
      (renderWithLimits base64 sha256 draw dither document roomyOptions (roomyLimits limits))
      (renderWithLimits base64 sha256 draw dither page roomyOptions (roomyLimits limits)))
    {placement : BatchPlacement} (placed : placement ∈ placements) {first second : Element}
    (listed : [first, second].Sublist document.elements)
    (early : effectivelyVisible first document = true)
    (late : effectivelyVisible second document = true) :
    first.common.zOrder ≤ second.common.zOrder := by
  by_contra above
  have member : first ∈ document.elements := listed.subset (by simp)
  have also : second ∈ document.elements := listed.subset (by simp)
  have different : second ≠ first := by
    rintro rfl
    exact above (Int32.le_refl _)
  -- the document paints the second element first
  have order : [second, first].Sublist (painted document) := by
    apply pair_painted_iff.mpr
    exact ⟨insertionSort_pair also member above, late, early⟩
  obtain ⟨canvas, blank⟩ := canvas_of_drawable drawable limits
  have never := keeps.never placement placed second also first member different
    (before_of_painted order (performed_faultless faultless original blank))
  -- and the page paints its copy last
  obtain ⟨copy, other, pair, copied, copies⟩ :=
    copies_painted valid made ordered placed listed early late
  obtain ⟨sheet, clean⟩ := canvas_of_drawable ((drawable_page made).mpr drawable) limits
  rw [← copied.id, ← copies.id] at never
  exact never (before_of_painted pair (performed_faultless onPage accepted clean))

end

/-- A document that materialization accepts is valid under the limits of the batch. -/
theorem document_accepted {base64 : Base64} {sha256 : Sha256} {limits : ProcessingLimits}
    {document : Document} {zoneIds : List String} {recordCount : Nat} {pages : List Document}
    (padded : Padded base64) (planned : Planned base64 sha256 limits document zoneIds)
    (batch : Batch limits document zoneIds recordCount pages) (filled : pages ≠ []) :
    validateWithLimits base64 sha256 (roomyLimits limits) document = .ok () := by
  have accepted := accepted_roomy (accepted_of_checked planned.checked)
  have valid := accepted.valid
  have resources : document.resources.length ≤ (roomyLimits limits).maxResources :=
    accepted.resources
  have elements : document.elements.length ≤ (roomyLimits limits).maxElements :=
    Nat.le_trans (Nat.le_mul_of_pos_right _ planned.filled) (batch.fits filled)
  apply (validateWithLimits_eq_ok _ _ _ _).mpr
  constructor
  case counts =>
    simp only [countErrors, List.append_eq_nil_iff, failIf_eq_nil]
    omega
  case sizes => exact accepted.sizes padded rfl
  case head => exact valid.head
  case contents => exact accepted.contents padded
  case ids => exact valid.ids
  case zones => exact valid.zones
  case placed => exact valid.placed
  case clones => exact valid.clones
  case cloneChains => exact valid.cloneChains
  case transforms => exact valid.transforms
  case refers => exact valid.refers
  case properties => exact valid.properties
  case groupChains => exact valid.groupChains
  case extensions => exact valid.extensions

/-- However a document and the pages of its batch are rendered, the copies for every record
are painted in the order of the elements exactly when the document lists its visible
elements in the order of their `z_order`; a painter that draws them without an error is
enough to tell. -/
theorem batch_order_iff (base64 : Base64) (sha256 : Sha256) (evaluate : Evaluate)
    (jsonLength : Document → Option Nat) (jsonLengths : List Document → Option Nat)
    (options : MaterializeOptions) (limits : ProcessingLimits) (document : Document)
    (records : List Record) (zoneIds : List String) (plan : ZoneBatchPlan)
    (pages : List Document) (padded : Padded base64)
    (planned : planZoneBatchWithLimits base64 sha256 limits document records.length zoneIds =
      .ok plan)
    (made : materializeZoneBatchWithLimits base64 sha256 evaluate jsonLength jsonLengths options
      limits document records zoneIds = .ok pages) :
    ((∀ (draw : Painter) (dither : Dither → GrayRaster → Except RasterError MonoRaster)
        (renderOptions : RenderOptions) (renderLimits : ProcessingLimits) (index : Nat)
        (page : Document), pages[index]? = some page →
      KeepsOrder document (onPage plan index)
        (renderWithLimits base64 sha256 draw dither document renderOptions renderLimits)
        (renderWithLimits base64 sha256 draw dither page renderOptions renderLimits)) ↔
      ListedInOrder document plan) ∧
    ∀ draw : Painter, Faultless draw document → (∀ page ∈ pages, Faultless draw page) →
      ((∀ (dither : Dither → GrayRaster → Except RasterError MonoRaster)
          (renderOptions : RenderOptions) (renderLimits : ProcessingLimits) (index : Nat)
          (page : Document), pages[index]? = some page →
        KeepsOrder document (onPage plan index)
          (renderWithLimits base64 sha256 draw dither document renderOptions renderLimits)
          (renderWithLimits base64 sha256 draw dither page renderOptions renderLimits)) ↔
        ListedInOrder document plan) := by
  obtain ⟨ready, batch⟩ := materializeZoneBatch_eq_ok made
  obtain ⟨-, -, placements⟩ := planZoneBatch_eq_ok planned
  have valid := (accepted_of_checked ready.checked).valid
  have necessary (draw : Painter) (faultless : Faultless draw document)
      (onPages : ∀ page ∈ pages, Faultless draw page)
      (keeps : ∀ (dither : Dither → GrayRaster → Except RasterError MonoRaster)
        (renderOptions : RenderOptions) (renderLimits : ProcessingLimits) (index : Nat)
        (page : Document), pages[index]? = some page →
        KeepsOrder document (onPage plan index)
          (renderWithLimits base64 sha256 draw dither document renderOptions renderLimits)
          (renderWithLimits base64 sha256 draw dither page renderOptions renderLimits)) :
      ListedInOrder document plan := by
    intro placement member shows first second listed early late
    obtain ⟨page, located, own, accepted⟩ :=
      exists_page padded ready batch placements member shows.apart
    have inside := List.mem_of_getElem? located
    have original := document_accepted padded ready batch (List.ne_nil_of_mem inside)
    exact listed_of_keepsOrder valid original own (batch.ordered page inside) shows.drawable
      accepted faultless (onPages page inside)
      (keeps (fun _ _ => .error .length) _ _ _ page located)
      (mem_onPage.mpr ⟨member, rfl⟩) listed early late
  have enough (listed : ListedInOrder document plan) (draw : Painter)
      (dither : Dither → GrayRaster → Except RasterError MonoRaster)
      (renderOptions : RenderOptions) (renderLimits : ProcessingLimits) (index : Nat)
      (page : Document) (located : pages[index]? = some page) :
      KeepsOrder document (onPage plan index)
        (renderWithLimits base64 sha256 draw dither document renderOptions renderLimits)
        (renderWithLimits base64 sha256 draw dither page renderOptions renderLimits) := by
    have inside := List.mem_of_getElem? located
    rw [onPage_eq placements]
    apply keepsOrder_of_listed valid (batch.pageOf ready located)
      (batch.uniqueIds ready located).mp (batch.ordered page inside)
    intro placement placed shows
    rw [← onPage_eq placements] at placed shows
    obtain ⟨member, rfl⟩ := mem_onPage.mp placed
    exact listed placement member shows
  refine ⟨⟨fun keeps => ?_, enough⟩, fun draw faultless onPages =>
    ⟨necessary draw faultless onPages, fun listed => enough listed draw⟩⟩
  exact necessary blankPainter (blankPainter_faultless document)
    (fun page _ => blankPainter_faultless page) (keeps blankPainter)

/-- A document that lists a frame before the box that is painted below the frame. -/
def stackedDocument : Document where
  version := 4
  name := "Label"
  media := twoZones
  elements := [.rectangle { boxCommon with id := "top", zOrder := 1 } 100 false,
    .rectangle { boxCommon with id := "bottom" } 100 true]

/-- The plan of one record. -/
def stackedPlan : Outcome MaterializeError ZoneBatchPlan :=
  planZoneBatchWithLimits logoBase64 logoSha256 .default stackedDocument 1 ["left"]

theorem batch_order_iff_stacked :
    ∃ plan pages, stackedPlan = .ok plan ∧ oneRecord stackedDocument 986 1101 = .ok pages ∧
      ((∀ (draw : Painter) (dither : Dither → GrayRaster → Except RasterError MonoRaster)
          (renderOptions : RenderOptions) (renderLimits : ProcessingLimits) (index : Nat)
          (page : Document), pages[index]? = some page →
        KeepsOrder stackedDocument (onPage plan index)
          (renderWithLimits logoBase64 logoSha256 draw dither stackedDocument renderOptions
            renderLimits)
          (renderWithLimits logoBase64 logoSha256 draw dither page renderOptions
            renderLimits)) ↔
        ListedInOrder stackedDocument plan) ∧
      ∀ draw : Painter, Faultless draw stackedDocument → (∀ page ∈ pages, Faultless draw page) →
        ((∀ (dither : Dither → GrayRaster → Except RasterError MonoRaster)
            (renderOptions : RenderOptions) (renderLimits : ProcessingLimits) (index : Nat)
            (page : Document), pages[index]? = some page →
          KeepsOrder stackedDocument (onPage plan index)
            (renderWithLimits logoBase64 logoSha256 draw dither stackedDocument renderOptions
              renderLimits)
            (renderWithLimits logoBase64 logoSha256 draw dither page renderOptions
              renderLimits)) ↔
          ListedInOrder stackedDocument plan) := by
  have plans : stackedPlan.isOk = true := by decide +kernel
  have succeeded : (oneRecord stackedDocument 986 1101).isOk = true := by decide +kernel
  obtain ⟨plan, planned⟩ := exists_of_isOk plans
  obtain ⟨pages, made⟩ := exists_of_isOk succeeded
  exact ⟨plan, pages, planned, made,
    batch_order_iff logoBase64 logoSha256 plainText _ _ {} .default stackedDocument [.empty]
      ["left"] plan pages logoBase64_padded planned made⟩

/-- Whether a document is drawn with the default options and limits, and the identifiers of
its drawings have the pair in order. -/
def drawsInOrder (document : Document) (early late : String) : Bool :=
  (validateWithLimits logoBase64 logoSha256 .default document).isOk &&
    (canvasOf document {} .default).isOk &&
    [early, late].isSublist ((drawings document).map fun drawing => drawing.element.id)

theorem before_of_drawsInOrder {document : Document} {early late : String}
    (draws : drawsInOrder document early late = true)
    (dither : Dither → GrayRaster → Except RasterError MonoRaster) :
    PaintedBefore (renderWithLimits logoBase64 logoSha256 blankPainter dither document {} .default)
      early late := by
  rw [drawsInOrder, Bool.and_eq_true, Bool.and_eq_true] at draws
  obtain ⟨⟨checked, ready⟩, ordered⟩ := draws
  obtain ⟨_, accepted⟩ := exists_of_isOk checked
  obtain ⟨canvas, blank⟩ := exists_of_isOk ready
  exact before_of_ids (List.isSublist_iff_sublist.mp ordered)
    (performed_faultless (blankPainter_faultless document) accepted blank)

/-- Whether the first page of a batch has the pair in order. -/
def firstDrawsInOrder (result : Outcome MaterializeError (List Document)) (early late : String) :
    Bool :=
  match result with
  | .ok (page :: _) => drawsInOrder page early late
  | _ => false

/-- The box is painted before the frame, and its copy after the copy of the frame. -/
theorem stacked_reversed :
    ∃ pages page, stackedPlan = .ok ⟨1, [⟨0, 0, "left"⟩]⟩ ∧
      oneRecord stackedDocument 986 1101 = .ok pages ∧ pages[0]? = some page ∧ ∀ dither,
        PaintedBefore (renderWithLimits logoBase64 logoSha256 blankPainter dither
            stackedDocument {} .default) "bottom" "top" ∧
        PaintedBefore (renderWithLimits logoBase64 logoSha256 blankPainter dither page {}
            .default)
          (rewriteId ⟨0, 0, "left"⟩ "top") (rewriteId ⟨0, 0, "left"⟩ "bottom") ∧
        ¬KeepsOrder stackedDocument (onPage ⟨1, [⟨0, 0, "left"⟩]⟩ 0)
          (renderWithLimits logoBase64 logoSha256 blankPainter dither stackedDocument {} .default)
          (renderWithLimits logoBase64 logoSha256 blankPainter dither page {} .default) := by
  have plans : stackedPlan = .ok ⟨1, [⟨0, 0, "left"⟩]⟩ := by decide +kernel
  have original : drawsInOrder stackedDocument "bottom" "top" = true := by decide +kernel
  have draws : firstDrawsInOrder (oneRecord stackedDocument 986 1101)
      (rewriteId ⟨0, 0, "left"⟩ "top") (rewriteId ⟨0, 0, "left"⟩ "bottom") = true := by
    decide +kernel
  cases made : oneRecord stackedDocument 986 1101 with
  | error error =>
      rw [made] at draws
      cases draws
  | ok pages =>
      rw [made] at draws
      cases pages with
      | nil => cases draws
      | cons page rest =>
          refine ⟨page :: rest, page, plans, rfl, rfl, ?_⟩
          intro dither
          have before := before_of_drawsInOrder original dither
          have after := before_of_drawsInOrder draws dither
          refine ⟨before, after, ?_⟩
          intro keeps
          exact keeps.never ⟨0, 0, "left"⟩ (by decide)
            (.rectangle { boxCommon with id := "bottom" } 100 true) (by decide)
            (.rectangle { boxCommon with id := "top", zOrder := 1 } 100 false) (by decide)
            (by decide) before after

end PrinterSdk.Render
