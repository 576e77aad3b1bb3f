import PrinterSdk.LaPoste.Geometry

/-!
# Extraction of stamps

The slots of every page are cut out, and those with ink are returned in the order of the
pages and of their slots.
-/

namespace PrinterSdk.LaPoste

open PrinterSdk.Data PrinterSdk.Render

/-! ## Cutting out -/

section

variable {p : NormalizedPage} {fmt : Format}

theorem toNat_saturatingSub {left right : UInt32} (le : right.toNat ≤ left.toNat) :
    (saturatingSub left right).toNat = left.toNat - right.toNat := by
  rw [saturatingSub, if_pos (UInt32.le_iff_toNat_le.mpr le),
    UInt32.toNat_sub_of_le _ _ (UInt32.le_iff_toNat_le.mpr le)]

/-- A slot is cut out of its page without a panic. -/
theorem crop_eq (accepted : Accepted p) (fmt : Format) (slot : Nat) :
    crop p.raster (windowOf fmt p slot) = .ok (cut p.raster (windowOf fmt p slot)) := by
  obtain ⟨right, bottom⟩ := windowOf_inside accepted fmt slot
  obtain ⟨across, down⟩ := windowOf_ordered accepted fmt slot
  obtain ⟨-, valid, -⟩ := checkPage_eq_ok.mp accepted.checked
  have area := area_windowOf accepted fmt slot
  generalize windowOf fmt p slot = window at *
  have width : (saturatingSub window.x1 window.x0).toNat = window.box.width :=
    toNat_saturatingSub across
  have height : (saturatingSub window.y1 window.y0).toNat = window.box.height :=
    toNat_saturatingSub down
  have nonempty : 0 < p.raster.height.toNat :=
    MonoRaster.toNat_pos (GrayRaster.validate_iff.mp valid).2.1
  have small := accepted.small
  have lastRow : (window.y0.toNat + window.box.height - 1) * p.raster.width.toNat +
      window.x0.toNat < 2 ^ 32 := by
    have leftmost : window.x0.toNat + window.box.width ≤ p.raster.width.toNat := right
    have below : window.y0.toNat + window.box.height ≤ p.raster.height.toNat := bottom
    calc (window.y0.toNat + window.box.height - 1) * p.raster.width.toNat + window.x0.toNat
        ≤ (p.raster.height.toNat - 1) * p.raster.width.toNat + p.raster.width.toNat :=
          Nat.add_le_add (Nat.mul_le_mul_right _ (by omega)) (by omega)
      _ = p.raster.width.toNat * p.raster.height.toNat := by
          rw [← Nat.succ_mul, Nat.succ_eq_add_one, Nat.sub_add_cancel nonempty, Nat.mul_comm]
      _ < 2 ^ 32 := small
  have rows := @cropRows_eq_ok p.raster window.x0 window.y0
    (saturatingSub window.x1 window.x0) (saturatingSub window.y1 window.y0) valid
    (by rw [width]; exact right) (by rw [height]; exact bottom) (by rw [height]; exact lastRow)
  rw [width, height] at rows
  have made : newGray (saturatingSub window.x1 window.x0) (saturatingSub window.y1 window.y0) 255 =
      .ok ⟨saturatingSub window.x1 window.x0, saturatingSub window.y1 window.y0,
        List.replicate (window.box.width * window.box.height) 255⟩ := by
    rw [newGray, width, height]
    exact orPanic_eq_ok.mpr ⟨Nat.le_trans area (by unfold isizeMax; omega), rfl⟩
  simp only [crop, except_bind_eq_ok, except_pure_eq_ok]
  refine ⟨_, made, _, by rw [height]; exact rows, ?_⟩
  have wide : .ofNat window.box.width = saturatingSub window.x1 window.x0 := by
    rw [← width, UInt32.ofNat_toNat]
  have high : .ofNat window.box.height = saturatingSub window.y1 window.y0 := by
    rw [← height, UInt32.ofNat_toNat]
  rw [cut, wide, high]
  rfl

/-- Whether a raster has ink is decided without a panic. -/
theorem hasInk_total {r : GrayRaster} (filled : r.pixels.length = r.height.toNat * r.width.toNat)
    (small : r.pixels.length < 2 ^ 32) : ∃ occupied, hasInk r = .ok occupied := by
  have machine := r.width.toNat_lt
  have twice : u32OrPanic (2 * inkInset r) = .ok (2 * inkInset r) := by
    refine u32OrPanic_eq_ok.mpr ⟨?_, rfl⟩
    unfold inkInset
    omega
  rw [hasInk, twice]
  by_cases narrow : r.width.toNat ≤ 2 * inkInset r ∨ r.height.toNat ≤ 2 * inkInset r
  · exact ⟨false, if_pos narrow⟩
  · have loop : ∃ n, gridLoop (r.width.toNat - 2 * inkInset r) (r.height.toNat - 2 * inkInset r)
        (inkTurn r (inkInset r)) 0 = .ok n ∧ True :=
      gridLoop_total _ _ _ (fun _ _ => True) trivial (by
        intro x y n left top _
        have place : (inkInset r + y) * r.width.toNat + (inkInset r + x) < r.pixels.length := by
          rw [filled]
          exact cell_lt (by omega) (by omega)
        have index := indexOrPanic_of_lt (Nat.lt_trans place small)
        have pixel := readAt_eq_ok.mpr (List.getElem?_eq_getElem place)
        simp only [inkTurn, except_bind_eq_ok, except_pure_eq_ok]
        exact ⟨_, ⟨_, index, _, pixel, rfl⟩, trivial⟩)
    obtain ⟨n, counted, -⟩ := loop
    let area := (r.width.toNat - 2 * inkInset r) * (r.height.toNat - 2 * inkInset r)
    refine ⟨n ≥ max 8 ((area + 500) / 1000), (if_neg narrow).trans ?_⟩
    rw [counted]
    rfl

/-- The pixels of a slot are some of its page. -/
theorem cut_filled (accepted : Accepted p) (fmt : Format) (slot : Nat) :
    let stamp := cut p.raster (windowOf fmt p slot)
    stamp.pixels.length = stamp.height.toNat * stamp.width.toNat ∧
      stamp.pixels.length < 2 ^ 32 := by
  obtain ⟨right, bottom⟩ := windowOf_inside accepted fmt slot
  have wide := p.raster.width.toNat_lt
  have high := p.raster.height.toNat_lt
  have small := accepted.small
  have area := area_windowOf accepted fmt slot
  generalize windowOf fmt p slot = window at *
  simp only [cut, length_tabulate, UInt32.toNat_ofNat']
  rw [Nat.mod_eq_of_lt (by omega), Nat.mod_eq_of_lt (by omega), Nat.mul_comm]
  exact ⟨rfl, Nat.lt_of_le_of_lt area small⟩

/-- The occupied slots of a page. -/
def occupiedSlots (fmt : Format) (p : NormalizedPage) : List Nat :=
  (List.range fmt.slots).filter fun slot => hasInk (cut p.raster (windowOf fmt p slot)) = .ok true

/-- The stamp in a slot of a page. -/
def stampAt (fmt : Format) (p : NormalizedPage) (slot : Nat) : Stamp :=
  ⟨p.page, slot + 1, stampWidthUm, stampHeightUm, cut p.raster (windowOf fmt p slot)⟩

/-- A turn of the loop over the slots appends the stamp, if there is one. -/
theorem extractSlot_eq (spaced : fmt.Spaced) (accepted : Accepted p) (out : List Stamp)
    {slot : Nat} (inside : slot < fmt.slots) :
    extractSlot fmt p out slot = .ok (out ++
      if hasInk (cut p.raster (windowOf fmt p slot)) = .ok true then [stampAt fmt p slot] else []) := by
  obtain ⟨filled, small⟩ := cut_filled accepted fmt slot
  obtain ⟨occupied, decided⟩ := hasInk_total filled small
  rw [extractSlot, rasterOrPanic_eq_ok, slotWindow_eq spaced accepted inside]
  simp only [except_bind_eq_ok, except_pure_eq_ok]
  refine ⟨_, rfl, _, crop_eq accepted fmt slot, _, decided, ?_⟩
  rw [decided]
  cases occupied with
  | true => rfl
  | false => exact (List.append_nil out).symm

/-- The loop over the slots appends the stamps of the occupied ones. -/
theorem extractPage_eq (spaced : fmt.Spaced) (accepted : Accepted p) (out : List Stamp) :
    extractPage fmt out p = .ok (out ++ (occupiedSlots fmt p).map (stampAt fmt p)) := by
  have loop := @foldlM_collects _ _ _ (extractSlot fmt p)
    (fun slot => if hasInk (cut p.raster (windowOf fmt p slot)) = .ok true then
      [stampAt fmt p slot] else []) _
    (fun out slot member => extractSlot_eq spaced accepted out (List.mem_range.mp member)) out
  rw [flatMap_ite] at loop
  rw [extractPage, except_bind_eq_ok]
  exact ⟨(), accepted.checked, loop⟩

end

/-! ## Places of stamps -/

/-- A slot of an entry of the list of pages. -/
structure Place where
  entry : Nat
  page : NormalizedPage
  slot : Nat

/-- The occupied slots of all pages. -/
def places (fmt : Format) (pages : List NormalizedPage) : List Place :=
  pages.zipIdx.flatMap fun page =>
    (occupiedSlots fmt page.1).map fun slot => ⟨page.2, page.1, slot⟩

/-- The places are the occupied slots of the pages that are in the list. -/
theorem mem_places {fmt : Format} {pages : List NormalizedPage} {place : Place} :
    place ∈ places fmt pages ↔
      pages[place.entry]? = some place.page ∧ place.slot < fmt.slots ∧
        hasInk (cut place.page.raster (windowOf fmt place.page place.slot)) = .ok true := by
  simp only [places, occupiedSlots, List.mem_flatMap, List.mem_map, List.mem_filter,
    List.mem_range, decide_eq_true_eq]
  constructor
  · intro member
    obtain ⟨page, listed, slot, occupied, rfl⟩ := member
    exact ⟨List.mk_mem_zipIdx_iff_getElem?.mp listed, occupied⟩
  · intro occupied
    exact ⟨(place.page, place.entry), List.mk_mem_zipIdx_iff_getElem?.mpr occupied.1, place.slot,
      occupied.2, rfl⟩

/-- The places are in the order of the pages and of their slots. -/
theorem places_ordered (fmt : Format) (pages : List NormalizedPage) :
    ((places fmt pages).map fun place => (place.entry, place.slot)).Pairwise
      (Prod.Lex (· < ·) (· < ·)) := by
  have slots (p : NormalizedPage) : (occupiedSlots fmt p).Pairwise (· < ·) :=
    List.pairwise_lt_range.filter _
  have ordered := @pairwise_zipIdx_flatMap _ pages _ slots
  rw [places, List.map_flatMap]
  simpa only [List.map_map, Function.comp_def] using ordered

/-- The stamps at the places of all pages, page by page. -/
theorem map_stampAt_places (fmt : Format) (pages : List NormalizedPage) :
    (places fmt pages).map (fun place => stampAt fmt place.page place.slot) =
      pages.flatMap fun p => (occupiedSlots fmt p).map (stampAt fmt p) := by
  have entries : pages.zipIdx.map Prod.fst = pages := List.zipIdx_map_fst 0 pages
  conv_rhs => rw [← entries, List.flatMap_map]
  rw [places, List.map_flatMap]
  simp only [List.map_map, Function.comp_def]

/-- For every list of accepted pages and every known format, all slots of a page are cut out of
the page, no pixel of a page is in two of them, and the stamps that are returned are those of
the occupied slots, each at one place and in the order of the places. -/
theorem extract_geometry {code : Characters} {fmt : Format} (known : format code = some fmt)
    {pages : List NormalizedPage} (accepted : ∀ p ∈ pages, Accepted p) :
    (∀ p ∈ pages, ∀ slot < fmt.slots,
      slotWindow fmt p slot = .ok (windowOf fmt p slot) ∧
        (windowOf fmt p slot).x0 ≤ (windowOf fmt p slot).x1 ∧
        (windowOf fmt p slot).x1 ≤ p.raster.width ∧
        (windowOf fmt p slot).y0 ≤ (windowOf fmt p slot).y1 ∧
        (windowOf fmt p slot).y1 ≤ p.raster.height ∧
        crop p.raster (windowOf fmt p slot) = .ok (cut p.raster (windowOf fmt p slot))) ∧
    (∀ p ∈ pages, ∀ slot < fmt.slots, ∀ other < fmt.slots, slot ≠ other →
      (windowOf fmt p slot).box.Disjoint (windowOf fmt p other).box) ∧
    ∃ places : List Place,
      (places.map fun place => (place.entry, place.slot)).Pairwise (Prod.Lex (· < ·) (· < ·)) ∧
      (∀ place, place ∈ places ↔
        pages[place.entry]? = some place.page ∧ place.slot < fmt.slots ∧
          hasInk (cut place.page.raster (windowOf fmt place.page place.slot)) = .ok true) ∧
      extract pages code =
        if places = [] then fail .empty
        else .ok (places.map fun place => stampAt fmt place.page place.slot) := by
  have spaced := spaced_of_format known
  refine ⟨?_, ?_, places fmt pages, places_ordered fmt pages, fun place => mem_places, ?_⟩
  · intro p member slot inside
    obtain ⟨across, down⟩ := windowOf_ordered (accepted p member) fmt slot
    simp only [UInt32.le_iff_toNat_le]
    exact ⟨slotWindow_eq spaced (accepted p member) inside, across, edge_le, down, edge_le,
      crop_eq (accepted p member) fmt slot⟩
  · intro p member slot _ other _ different
    exact windowOf_disjoint spaced (accepted p member) different
  · have loop := @foldlM_collects _ _ _ (extractPage fmt) _ pages
      (fun out p member => extractPage_eq spaced (accepted p member) out) []
    rw [List.nil_append, ← map_stampAt_places] at loop
    have known : okOr (format code) (Fault.error (ExtractError.format code)) = .ok fmt :=
      (okOr_eq_ok _ _ _).mpr known
    rw [extract, known]
    change (pages.foldlM (extractPage fmt) [] >>= _) = _
    rw [loop]
    by_cases none : places fmt pages = []
    · rw [if_pos none, none]
      rfl
    · rw [if_neg none]
      exact if_neg (mt List.map_eq_nil_iff.mp none)

/-- Two slots of a small page that touch on paper and are next to each other in its raster. -/
theorem extract_geometry_touching :
    let fmt : Format := ⟨3, 8, 7200, 13100, 66000, 33900⟩
    let p : NormalizedPage := ⟨1, 210700, 296200, ⟨21, 30, List.replicate 630 0⟩⟩
    format "sheet".toList = some fmt ∧ (windowOf fmt p 0).box = ⟨1, 1, 6, 4⟩ ∧
      (windowOf fmt p 3).box = ⟨1, 5, 6, 3⟩ ∧
      (windowOf fmt p 0).box.Disjoint (windowOf fmt p 3).box := by
  intro fmt p
  have known : format "sheet".toList = some fmt := by decide
  have accepted : ∀ page ∈ [p], Accepted page := by
    intro page member
    rw [List.mem_singleton.mp member]
    refine ⟨checkPage_eq_ok.mpr ⟨by decide, ?_, by decide, by decide⟩, by decide⟩
    exact GrayRaster.validate_iff.mpr ⟨by decide, by decide, List.length_replicate⟩
  exact ⟨known, by decide, by decide, (extract_geometry known accepted).2.1 p (by simp) 0 (by decide)
    3 (by decide) (by decide)⟩

end PrinterSdk.LaPoste
