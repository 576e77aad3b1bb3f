import PrinterSdk.Label.Materialize
import PrinterSdk.Label.Valid

/-!
# What a batch is made of

A batch that is materialized consists of pages, and a page of the copies of the
elements for the records that are placed on it, in the order of the records.
-/

namespace PrinterSdk.Label

open PrinterSdk.Data

/-! ## Outcomes -/

@[simp] theorem limitIf_eq_ok (exceeded : Prop) [Decidable exceeded] (result : Unit) :
    limitIf exceeded = .ok result ↔ ¬exceeded :=
  refuseIf_eq_ok exceeded _ result

@[simp] theorem orLimit_eq_ok {α : Type} (value : Option α) (result : α) :
    orLimit value = .ok result ↔ value = some result :=
  okOr_eq_ok value _ result

@[simp] theorem entryAt_eq_ok {α : Type} (list : List α) (index : Nat) (result : α) :
    entryAt list index = .ok result ↔ list[index]? = some result :=
  okOr_eq_ok _ _ result

/-! ## Copies -/

/-- `copy` is a copy of the element `template` for the placement. -/
structure CopyOf (placement : BatchPlacement) (template copy : Element) : Prop where
  id : copy.id = rewriteId placement template.id
  group : copy.common.groupId = template.common.groupId.map (rewriteId placement)
  zone : copy.zone = some placement.zone
  visible : copy.common.visible = template.common.visible
  children : copy.children = template.children.map (List.map (rewriteId placement))
  transform : copy.common.transform = template.common.transform
  resources : copy.resourceIds = template.resourceIds
  properties : template.children = none → ∀ document,
    propertyErrors document copy = [] ↔ propertyErrors document template = []

/-- The place of an element in the order of drawing. -/
def Element.withOrder (order : Nat) (element : Element) : Element :=
  element.withCommon { element.common with zOrder := Int32.ofNat order }

theorem children_withCommon (common : Common) (element : Element) :
    (element.withCommon common).children = element.children := by
  cases element <;> rfl

theorem resourceIds_withCommon (common : Common) (element : Element) :
    (element.withCommon common).resourceIds = element.resourceIds := by
  cases element <;> rfl

/-- The properties of an element that is not a group are not its common ones. -/
theorem propertyErrors_withCommon (document : Document) (common : Common) {element : Element}
    (single : element.children = none) :
    propertyErrors document (element.withCommon common) = [] ↔
      propertyErrors document element = [] := by
  cases element with
  | group own children => cases single
  | _ => simp [propertyErrors, Element.withCommon]

theorem CopyOf.withOrder {placement : BatchPlacement} {template copy : Element}
    (copied : CopyOf placement template copy) (order : Nat) :
    CopyOf placement template (copy.withOrder order) := by
  unfold Element.withOrder
  constructor
  case id => rw [← copied.id]; simp [Element.id]
  case group => rw [← copied.group]; simp
  case zone => rw [← copied.zone]; simp [Element.zone]
  case visible => rw [← copied.visible]; simp
  case children => rw [children_withCommon, copied.children]
  case transform => rw [← copied.transform]; simp
  case resources => rw [resourceIds_withCommon, copied.resources]
  case properties =>
    intro single document
    have alone : copy.children = none := by rw [copied.children, single]; rfl
    rw [propertyErrors_withCommon document _ alone, copied.properties single]

theorem filled_common (value : String) (element : Element) :
    (element.filled value).common = element.common := by
  cases element <;> rfl

/-- Filling in a template keeps all that is validated. -/
theorem CopyOf.of_filled {placement : BatchPlacement} {template copy : Element} {value : String}
    (copied : CopyOf placement (template.filled value) copy) :
    CopyOf placement template copy := by
  have common := filled_common value template
  constructor
  case id => rw [copied.id]; simp [Element.id, common]
  case group => rw [copied.group, common]
  case zone => exact copied.zone
  case visible => rw [copied.visible, common]
  case children => rw [copied.children]; cases template <;> rfl
  case transform => rw [copied.transform, common]
  case resources => rw [copied.resources]; cases template <;> rfl
  case properties =>
    intro single document
    have alone : (template.filled value).children = none := by
      cases template with
      | group own children => cases single
      | _ => rfl
    rw [copied.properties alone]
    cases template <;> simp [Element.filled, propertyErrors]

theorem rewritten_eq_ok {placement : BatchPlacement} {ids : List String} {id result : String} :
    rewritten placement ids id = .ok result ↔ id ∈ ids ∧ result = rewriteId placement id := by
  unfold rewritten
  rw [orLimit_eq_ok]
  by_cases known : id ∈ ids
  · simp [known, eq_comm]
  · simp [known]

theorem rewriteGroup_eq_ok {placement : BatchPlacement} {ids : List String}
    {group result : Option String} (renamed : rewriteGroup placement ids group = .ok result) :
    result = group.map (rewriteId placement) := by
  cases group with
  | none => exact ((except_pure_eq_ok _ _).mp renamed).symm
  | some id =>
      obtain ⟨found, rewrites, joined⟩ := (except_bind_eq_ok _ _ _).mp renamed
      rw [← (except_pure_eq_ok _ _).mp joined, (rewritten_eq_ok.mp rewrites).2]
      rfl

theorem mapM_rewritten {placement : BatchPlacement} {ids list result : List String}
    (renamed : list.mapM (rewritten placement ids) = .ok result) :
    result = list.map (rewriteId placement) := by
  rw [except_mapM_eq_ok] at renamed
  induction renamed with
  | nil => rfl
  | cons first _ ih => rw [List.map_cons, (rewritten_eq_ok.mp first).2, ih]

/-- Rewriting the children of a group changes nothing else. -/
theorem rewriteChildren_eq_ok {placement : BatchPlacement} {ids : List String}
    {element result : Element} (renamed : rewriteChildren placement ids element = .ok result) :
    result.common = element.common ∧
      result.children = element.children.map (List.map (rewriteId placement)) ∧
      result.resourceIds = element.resourceIds ∧ (element.children = none → result = element) := by
  cases element with
  | group common children =>
      obtain ⟨found, rewrites, joined⟩ := (except_bind_eq_ok _ _ _).mp renamed
      rw [← (except_pure_eq_ok _ _).mp joined, mapM_rewritten rewrites]
      refine ⟨rfl, rfl, rfl, ?_⟩
      intro single
      cases single
  | _ =>
      rw [← (except_pure_eq_ok _ _).mp renamed]
      exact ⟨rfl, rfl, rfl, fun _ => rfl⟩

/-- A rewritten element is a copy. -/
theorem copyOf_rewriteElement {placement : BatchPlacement} {ids : List String}
    {element result : Element} (rewrites : rewriteElement placement ids element = .ok result) :
    CopyOf placement element result := by
  obtain ⟨id, named, rewrites⟩ := (except_bind_eq_ok _ _ _).mp rewrites
  obtain ⟨groupId, grouped, rewrites⟩ := (except_bind_eq_ok _ _ _).mp rewrites
  obtain ⟨common, children, resources, single⟩ := rewriteChildren_eq_ok rewrites
  rw [Element.common_withCommon] at common
  rw [children_withCommon] at children single
  rw [resourceIds_withCommon] at resources
  constructor
  case id => rw [Element.id, common]; exact (rewritten_eq_ok.mp named).2
  case group => rw [common]; exact rewriteGroup_eq_ok grouped
  case zone => rw [Element.zone, common]; rfl
  case visible => rw [common]
  case children => exact children
  case transform => rw [common]
  case resources => exact resources
  case properties =>
    intro alone document
    rw [single alone, propertyErrors_withCommon document _ alone]

section

variable {evaluate : Evaluate} {options : MaterializeOptions} {limits : ProcessingLimits}

/-- A filled element is the element, or the element with its template filled in. -/
def FilledFrom (template filled : Element) : Prop :=
  filled = template ∨ ∃ value, filled = template.filled value

theorem fillElements_eq_ok {record : Record} {index written : Nat}
    {elements result : List Element}
    (filled : fillElements evaluate options limits record index written elements = .ok result) :
    List.Forall₂ FilledFrom elements result := by
  induction elements generalizing index written result with
  | nil =>
      rw [← (except_pure_eq_ok _ _).mp filled]
      exact .nil
  | cons element rest ih =>
      unfold fillElements at filled
      cases template : element.template with
      | none =>
          rw [template] at filled
          obtain ⟨later, others, joined⟩ := (except_bind_eq_ok _ _ _).mp filled
          rw [← (except_pure_eq_ok _ _).mp joined]
          exact .cons (.inl rfl) (ih others)
      | some text =>
          rw [template] at filled
          dsimp only at filled
          cases evaluated : evaluate text record options with
          | error source =>
              rw [evaluated] at filled
              cases filled
          | ok value =>
              rw [evaluated] at filled
              obtain ⟨sum, -, filled⟩ := (except_bind_eq_ok _ _ _).mp filled
              obtain ⟨_, -, filled⟩ := (except_bind_eq_ok _ _ _).mp filled
              obtain ⟨later, others, joined⟩ := (except_bind_eq_ok _ _ _).mp filled
              rw [← (except_pure_eq_ok _ _).mp joined]
              exact .cons (.inr ⟨value, rfl⟩) (ih others)

theorem CopyOf.of_filledFrom {placement : BatchPlacement} {template filled copy : Element}
    (origin : FilledFrom template filled) (copied : CopyOf placement filled copy) :
    CopyOf placement template copy := by
  rcases origin with rfl | ⟨value, rfl⟩
  · exact copied
  · exact copied.of_filled

theorem copies_of_rewrites {placement : BatchPlacement} {ids : List String}
    {templates filled copies : List Element} (origins : List.Forall₂ FilledFrom templates filled)
    (rewrites : List.Forall₂
      (fun element copy => rewriteElement placement ids element = .ok copy) filled copies) :
    List.Forall₂ (CopyOf placement) templates copies := by
  induction origins generalizing copies with
  | nil =>
      cases rewrites
      exact .nil
  | cons origin _ ih =>
      cases rewrites with
      | cons first later =>
          exact .cons ((copyOf_rewriteElement first).of_filledFrom origin) (ih later)

/-- The elements placed for a record are copies of the elements of the document. -/
theorem placedElements_eq_ok {document : Document} {records : List Record}
    {placement : BatchPlacement} {copies : List Element}
    (placed : placedElements evaluate options limits document records placement = .ok copies) :
    List.Forall₂ (CopyOf placement) document.elements copies := by
  obtain ⟨record, -, placed⟩ := (except_bind_eq_ok _ _ _).mp placed
  obtain ⟨_, -, placed⟩ := (except_bind_eq_ok _ _ _).mp placed
  obtain ⟨materialized, made, placed⟩ := (except_bind_eq_ok _ _ _).mp placed
  obtain ⟨elements, filled, joined⟩ := (except_bind_eq_ok _ _ _).mp made
  have same := (except_pure_eq_ok _ _).mp joined
  subst same
  obtain ⟨_, -, placed⟩ := (except_bind_eq_ok _ _ _).mp placed
  exact copies_of_rewrites (fillElements_eq_ok filled) ((except_mapM_eq_ok _ _ _).mp placed)

end

/-! ## Pages -/

theorem pushElements_eq_ok {page copies result : List Element}
    (pushed : pushElements page copies = .ok result) :
    result = page ++ copies.mapIdx fun index copy => copy.withOrder (page.length + index) := by
  induction copies generalizing page with
  | nil =>
      rw [← (except_pure_eq_ok _ _).mp pushed]
      simp
  | cons copy rest ih =>
      obtain ⟨_, -, later⟩ := (except_bind_eq_ok _ _ _).mp pushed
      rw [ih later, List.mapIdx_cons, List.append_assoc]
      simp only [List.length_append, List.length_singleton, Nat.add_assoc, Nat.add_comm 1]
      rfl

section

variable {evaluate : Evaluate} {options : MaterializeOptions} {limits : ProcessingLimits}
variable {document : Document} {records : List Record}

/-- The copies that a page has got from placements: one for every element and every
placement on that page. -/
def CopiesOn (document : Document) (placements : List BatchPlacement)
    (copies : List Element) : Prop :=
  List.Forall₂ (fun pair copy => CopyOf pair.1 pair.2 copy)
    (placements.flatMap fun placement =>
      document.elements.map fun element => (placement, element)) copies

theorem copiesOn_single {placement : BatchPlacement} {copies : List Element}
    (copied : List.Forall₂ (CopyOf placement) document.elements copies) (offset : Nat) :
    CopiesOn document [placement]
      (copies.mapIdx fun index copy => copy.withOrder (offset + index)) := by
  unfold CopiesOn
  rw [List.flatMap_cons, List.flatMap_nil, List.append_nil, List.forall₂_map_left_iff]
  generalize document.elements = templates at copied
  induction copied generalizing offset with
  | nil => exact .nil
  | cons first _ ih =>
      rw [List.mapIdx_cons]
      refine .cons (first.withOrder _) ?_
      simpa only [Nat.add_assoc, Nat.add_comm 1] using ih (offset + 1)

theorem CopiesOn.append {placements later : List BatchPlacement} {copies others : List Element}
    (first : CopiesOn document placements copies) (second : CopiesOn document later others) :
    CopiesOn document (placements ++ later) (copies ++ others) := by
  unfold CopiesOn
  rw [List.flatMap_append]
  exact List.rel_append first second

/-- The loop over the placements adds to every page the copies of its placements. -/
theorem placeAll_eq_ok {pages result : List Document} {placements : List BatchPlacement}
    (placed : placeAll evaluate options limits document records pages placements = .ok result)
    {index : Nat} {page : Document} (located : pages[index]? = some page) :
    ∃ copies, result[index]? = some { page with elements := page.elements ++ copies } ∧
      CopiesOn document (placements.filter fun placement => placement.page = index) copies := by
  induction placements generalizing pages page with
  | nil =>
      rw [← (except_pure_eq_ok _ _).mp placed]
      exact ⟨[], by simpa using located, .nil⟩
  | cons placement rest ih =>
      obtain ⟨copies, copied, placed⟩ := (except_bind_eq_ok _ _ _).mp placed
      obtain ⟨own, found, placed⟩ := (except_bind_eq_ok _ _ _).mp placed
      obtain ⟨elements, pushed, placed⟩ := (except_bind_eq_ok _ _ _).mp placed
      rw [entryAt_eq_ok] at found
      by_cases here : placement.page = index
      · subst here
        have same : own = page := Option.some.inj (found.symm.trans located)
        subst same
        have bound := (List.getElem?_eq_some_iff.mp located).1
        obtain ⟨others, ends, more⟩ := ih placed (List.getElem?_set_self bound)
        have first := copiesOn_single (placedElements_eq_ok copied) own.elements.length
        refine ⟨(copies.mapIdx fun index copy => copy.withOrder (own.elements.length + index)) ++
          others, ?_, ?_⟩
        · rw [ends, pushElements_eq_ok pushed, List.append_assoc]
        · rw [List.filter_cons_of_pos (by simp), ← List.singleton_append]
          exact first.append more
      · have kept : (pages.set placement.page { own with elements })[index]? = some page := by
          rw [List.getElem?_set_ne here, located]
        obtain ⟨others, ends, more⟩ := ih placed kept
        refine ⟨others, ends, ?_⟩
        rw [List.filter_cons_of_neg (by simpa using here)]
        exact more

/-- The order of drawing of the elements of a page is their order in the list. -/
def InOrder (elements : List Element) : Prop :=
  ∀ index element, elements[index]? = some element →
    index ≤ i32Max ∧ element.common.zOrder = Int32.ofNat index

theorem inOrder_nil : InOrder [] := by
  intro index element located
  cases located

theorem InOrder.push {elements : List Element} (ordered : InOrder elements)
    (short : elements.length ≤ i32Max) (element : Element) :
    InOrder (elements ++ [element.withOrder elements.length]) := by
  intro index found located
  by_cases inside : index < elements.length
  · rw [List.getElem?_append_left inside] at located
    exact ordered index found located
  · rw [List.getElem?_append_right (by omega), List.getElem?_singleton] at located
    split at located
    · next last =>
        have same : index = elements.length := by omega
        rw [← Option.some.inj located, same]
        exact ⟨short, by simp [Element.withOrder]⟩
    · cases located

theorem pushElements_inOrder {page copies result : List Element} (ordered : InOrder page)
    (pushed : pushElements page copies = .ok result) : InOrder result := by
  induction copies generalizing page with
  | nil =>
      rw [← (except_pure_eq_ok _ _).mp pushed]
      exact ordered
  | cons copy rest ih =>
      obtain ⟨_, short, later⟩ := (except_bind_eq_ok _ _ _).mp pushed
      rw [limitIf_eq_ok] at short
      exact ih (ordered.push (by omega) copy) later

/-- The loop over the placements keeps every page in order. -/
theorem placeAll_inOrder {pages result : List Document} {placements : List BatchPlacement}
    (placed : placeAll evaluate options limits document records pages placements = .ok result)
    (ordered : ∀ page ∈ pages, InOrder page.elements) :
    ∀ page ∈ result, InOrder page.elements := by
  induction placements generalizing pages with
  | nil =>
      rw [← (except_pure_eq_ok _ _).mp placed]
      exact ordered
  | cons placement rest ih =>
      obtain ⟨copies, -, placed⟩ := (except_bind_eq_ok _ _ _).mp placed
      obtain ⟨own, found, placed⟩ := (except_bind_eq_ok _ _ _).mp placed
      obtain ⟨elements, pushed, placed⟩ := (except_bind_eq_ok _ _ _).mp placed
      rw [entryAt_eq_ok] at found
      apply ih placed
      intro page member
      rcases List.mem_or_eq_of_mem_set member with kept | rfl
      · exact ordered page kept
      · exact pushElements_inOrder (ordered own (List.mem_of_getElem? found)) pushed

theorem placeAll_length {pages result : List Document} {placements : List BatchPlacement}
    (placed : placeAll evaluate options limits document records pages placements = .ok result) :
    result.length = pages.length := by
  induction placements generalizing pages with
  | nil => rw [← (except_pure_eq_ok _ _).mp placed]
  | cons placement rest ih =>
      obtain ⟨copies, -, placed⟩ := (except_bind_eq_ok _ _ _).mp placed
      obtain ⟨page, -, placed⟩ := (except_bind_eq_ok _ _ _).mp placed
      obtain ⟨elements, -, placed⟩ := (except_bind_eq_ok _ _ _).mp placed
      rw [ih placed, List.length_set]

end

/-! ## Plans -/

/-- Where a record is placed. -/
def plannedPlacement (zoneIds : List String) (record : Nat) : BatchPlacement where
  record
  page := record / zoneIds.length
  zone := zoneIds.getD (record % zoneIds.length) ""

/-- The placements of a number of records. -/
def plannedPlacements (zoneIds : List String) (recordCount : Nat) : List BatchPlacement :=
  (List.range recordCount).map (plannedPlacement zoneIds)

theorem selectedZones_eq_ok {zones selected : List Zone} {index : Nat} {seen ids : List String}
    (select : selectedZones zones index seen ids = .ok selected) :
    selected.map Zone.id = ids ∧ ∀ zone ∈ selected, zone ∈ zones := by
  induction ids generalizing index seen selected with
  | nil =>
      rw [← (except_pure_eq_ok _ _).mp select]
      simp
  | cons id rest ih =>
      obtain ⟨_, -, select⟩ := (except_bind_eq_ok _ _ _).mp select
      obtain ⟨zone, found, select⟩ := (except_bind_eq_ok _ _ _).mp select
      obtain ⟨later, others, joined⟩ := (except_bind_eq_ok _ _ _).mp select
      rw [okOr_eq_ok] at found
      have named : zone.id = id := by simpa using List.find?_some found
      obtain ⟨ids, members⟩ := ih others
      rw [← (except_pure_eq_ok _ _).mp joined]
      refine ⟨by rw [List.map_cons, named, ids], ?_⟩
      exact List.forall_mem_cons.mpr ⟨List.mem_of_find?_eq_some found, members⟩

/-- A zone that was selected before is not selected again. -/
theorem selectedZones_distinct {zones selected : List Zone} {index : Nat}
    {seen ids : List String} (select : selectedZones zones index seen ids = .ok selected) :
    ids.Nodup ∧ ∀ id ∈ ids, id ∉ seen := by
  induction ids generalizing index seen selected with
  | nil => simp
  | cons id rest ih =>
      obtain ⟨_, fresh, select⟩ := (except_bind_eq_ok _ _ _).mp select
      obtain ⟨zone, -, select⟩ := (except_bind_eq_ok _ _ _).mp select
      obtain ⟨later, others, -⟩ := (except_bind_eq_ok _ _ _).mp select
      rw [refuseIf_eq_ok] at fresh
      obtain ⟨distinct, new⟩ := ih others
      constructor
      · apply List.nodup_cons.mpr
        exact ⟨fun again => new id again (List.mem_cons_self ..), distinct⟩
      · intro other listed known
        rcases List.mem_cons.mp listed with rfl | later
        · exact fresh known
        · exact new other later (List.mem_cons_of_mem _ known)

theorem placementOf_eq_ok {zones : List Zone} {record : Nat} {placement : BatchPlacement}
    (placed : placementOf zones zones.length record = .ok placement) :
    placement = plannedPlacement (zones.map Zone.id) record := by
  obtain ⟨zone, found, joined⟩ := (except_bind_eq_ok _ _ _).mp placed
  rw [entryAt_eq_ok] at found
  rw [← (except_pure_eq_ok _ _).mp joined]
  simp [plannedPlacement, List.getD, found]

theorem placements_eq_ok {zones : List Zone} {list : List Nat}
    {placements : List BatchPlacement}
    (placed : list.mapM (placementOf zones zones.length) = .ok placements) :
    placements = list.map (plannedPlacement (zones.map Zone.id)) := by
  rw [except_mapM_eq_ok] at placed
  induction placed with
  | nil => rfl
  | cons first _ ih => rw [List.map_cons, placementOf_eq_ok first, ih]

theorem batchPages_eq_some {recordCount slots pages : Nat} (filled : 0 < slots)
    (counted : batchPages recordCount slots = some pages) :
    pages = (recordCount + (slots - 1)) / slots := by
  unfold batchPages at counted
  split at counted
  · next none =>
      rw [← Option.some.inj counted, none, Nat.zero_add, Nat.div_eq_of_lt (by omega)]
  · split at counted
    · exact (Option.some.inj counted).symm
    · cases counted

section

variable {base64 : Base64} {sha256 : Sha256} {limits : ProcessingLimits} {document : Document}

/-- What a plan says of the document and the zones. -/
structure Planned (base64 : Base64) (sha256 : Sha256) (limits : ProcessingLimits)
    (document : Document) (zoneIds : List String) : Prop where
  checked : validateDocument base64 sha256 limits document = .ok ()
  filled : 0 < zoneIds.length
  distinct : zoneIds.Nodup
  known : ∀ id ∈ zoneIds, id ∈ document.media.zones.map Zone.id

theorem planZoneBatch_eq_ok {recordCount : Nat} {zoneIds : List String} {plan : ZoneBatchPlan}
    (planned : planZoneBatchWithLimits base64 sha256 limits document recordCount zoneIds =
      .ok plan) :
    Planned base64 sha256 limits document zoneIds ∧
      plan.pageCount = (recordCount + (zoneIds.length - 1)) / zoneIds.length ∧
      plan.placements = plannedPlacements zoneIds recordCount := by
  obtain ⟨_, filled, planned⟩ := (except_bind_eq_ok _ _ _).mp planned
  obtain ⟨_, checked, planned⟩ := (except_bind_eq_ok _ _ _).mp planned
  obtain ⟨_, -, planned⟩ := (except_bind_eq_ok _ _ _).mp planned
  obtain ⟨zones, select, planned⟩ := (except_bind_eq_ok _ _ _).mp planned
  obtain ⟨_, -, planned⟩ := (except_bind_eq_ok _ _ _).mp planned
  obtain ⟨pageCount, counted, planned⟩ := (except_bind_eq_ok _ _ _).mp planned
  obtain ⟨_, -, planned⟩ := (except_bind_eq_ok _ _ _).mp planned
  obtain ⟨placements, placed, joined⟩ := (except_bind_eq_ok _ _ _).mp planned
  rw [refuseIf_eq_ok] at filled
  rw [orLimit_eq_ok] at counted
  obtain ⟨ids, members⟩ := selectedZones_eq_ok select
  have length : zones.length = zoneIds.length := by rw [← ids, List.length_map]
  have positive : 0 < zoneIds.length := List.length_pos_iff.mpr filled
  rw [length] at counted
  rw [← (except_pure_eq_ok _ _).mp joined]
  refine ⟨⟨checked, positive, (selectedZones_distinct select).1, ?_⟩, batchPages_eq_some positive counted, ?_⟩
  · intro id member
    rw [← ids] at member
    obtain ⟨zone, inside, rfl⟩ := List.mem_map.mp member
    exact List.mem_map_of_mem (members zone inside)
  · rw [placements_eq_ok placed, ids]
    rfl

end

/-! ## Batches -/

section

variable {base64 : Base64} {sha256 : Sha256} {evaluate : Evaluate}
variable {jsonLength : Document → Option Nat} {jsonLengths : List Document → Option Nat}
variable {options : MaterializeOptions} {limits : ProcessingLimits}
variable {document : Document} {records : List Record} {zoneIds : List String}

/-- What a batch of pages is made of. -/
structure Batch (limits : ProcessingLimits) (document : Document) (zoneIds : List String)
    (recordCount : Nat) (pages : List Document) : Prop where
  length : pages.length = (recordCount + (zoneIds.length - 1)) / zoneIds.length
  fits : pages ≠ [] → document.elements.length * zoneIds.length ≤ limits.maxElements
  ordered : ∀ page ∈ pages, InOrder page.elements
  pages : ∀ index page, pages[index]? = some page → ∃ copies,
    page = { emptyPage document index with elements := copies } ∧
      CopiesOn document ((plannedPlacements zoneIds recordCount).filter fun placement =>
        placement.page = index) copies

theorem materializeZoneBatch_eq_ok {pages : List Document}
    (made : materializeZoneBatchWithLimits base64 sha256 evaluate jsonLength jsonLengths options
      limits document records zoneIds = .ok pages) :
    Planned base64 sha256 limits document zoneIds ∧
      Batch limits document zoneIds records.length pages := by
  obtain ⟨_, -, made⟩ := (except_bind_eq_ok _ _ _).mp made
  obtain ⟨plan, planned, made⟩ := (except_bind_eq_ok _ _ _).mp made
  obtain ⟨ready, count, placements⟩ := planZoneBatch_eq_ok planned
  refine ⟨ready, ?_⟩
  by_cases empty : plan.pageCount = 0
  · rw [if_pos empty] at made
    rw [← (except_pure_eq_ok _ _).mp made]
    constructor
    case length => rw [← count, empty]; rfl
    case fits => intro filled; exact absurd rfl filled
    case ordered => intro page member; cases member
    case pages => intro index page located; simp at located
  · rw [if_neg empty] at made
    obtain ⟨pageElements, multiplied, made⟩ := (except_bind_eq_ok _ _ _).mp made
    obtain ⟨_, within, made⟩ := (except_bind_eq_ok _ _ _).mp made
    obtain ⟨_, -, made⟩ := (except_bind_eq_ok _ _ _).mp made
    obtain ⟨_, -, made⟩ := (except_bind_eq_ok _ _ _).mp made
    obtain ⟨placed, places, made⟩ := (except_bind_eq_ok _ _ _).mp made
    obtain ⟨_, -, made⟩ := (except_bind_eq_ok _ _ _).mp made
    obtain ⟨_, -, joined⟩ := (except_bind_eq_ok _ _ _).mp made
    have same := (except_pure_eq_ok _ _).mp joined
    subst same
    rw [orLimit_eq_ok, checkedMul_eq_some] at multiplied
    rw [limitIf_eq_ok] at within
    constructor
    case length => rw [placeAll_length places]; simp [count]
    case fits => intro _; omega
    case ordered =>
      apply placeAll_inOrder places
      intro page member
      obtain ⟨index, -, rfl⟩ := List.mem_map.mp member
      exact inOrder_nil
    case pages =>
      intro index page located
      have bound : index < plan.pageCount := by
        have short := (List.getElem?_eq_some_iff.mp located).1
        rw [placeAll_length places] at short
        simpa using short
      have start : ((List.range plan.pageCount).map (emptyPage document))[index]? =
          some (emptyPage document index) := by
        simp [bound]
      obtain ⟨copies, ends, copied⟩ := placeAll_eq_ok places start
      refine ⟨copies, Option.some.inj (located.symm.trans ends), ?_⟩
      rw [← placements]
      exact copied

end

end PrinterSdk.Label
