import PrinterSdk.Label.BatchValid
import PrinterSdk.Label.TemplateExpansion

/-!
# The elements of a batch

A page of a batch holds, one record after the other, the elements of the template as they are
materialized with that record.  Every one of them is in the zone of the record and refers to
the elements of the same record, and their order of drawing is their order in the list.
-/

namespace PrinterSdk.Label

open PrinterSdk.Data

/-- `template::evaluate_with_context`, on strings. -/
def evaluateTemplate (casing : Casing) : Evaluate := fun template record options =>
  (evaluateWithContext casing ⟨record, options.locale.toList, options.currentDate.toList⟩
    template.toList).map String.ofList

/-! ## Instances -/

/-- The element with the identifiers of its children renamed. -/
def Element.withRenamedChildren (rename : String → String) : Element → Element
  | .group common children => .group common (children.map rename)
  | element => element

/-- The instance of an element for a placement. -/
def instanceOf (placement : BatchPlacement) (element : Element) : Element :=
  (element.withCommon
    { element.common with
      id := rewriteId placement element.id
      groupId := element.common.groupId.map (rewriteId placement)
      constraints := some (constrainedTo placement.zone element.common.constraints)
    }).withRenamedChildren (rewriteId placement)

@[simp] theorem common_withRenamedChildren (rename : String → String) (element : Element) :
    (element.withRenamedChildren rename).common = element.common := by
  cases element <;> rfl

theorem children_withRenamedChildren (rename : String → String) (element : Element) :
    (element.withRenamedChildren rename).children = element.children.map (List.map rename) := by
  cases element <;> rfl

section

variable (placement : BatchPlacement) (element : Element)

@[simp] theorem instanceOf_id : (instanceOf placement element).id = rewriteId placement element.id := by
  simp [instanceOf, Element.id]

@[simp] theorem instanceOf_groupId : (instanceOf placement element).common.groupId =
    element.common.groupId.map (rewriteId placement) := by
  simp [instanceOf]

@[simp] theorem instanceOf_zone : (instanceOf placement element).zone = some placement.zone := by
  simp [instanceOf, Element.zone, constrainedTo]

@[simp] theorem instanceOf_children : (instanceOf placement element).children =
    element.children.map (List.map (rewriteId placement)) := by
  rw [instanceOf, children_withRenamedChildren, children_withCommon]

end

/-- The element refers to elements of the list only. -/
structure RefersTo (ids : List String) (element : Element) : Prop where
  group : ∀ group, element.common.groupId = some group → group ∈ ids
  children : ∀ children, element.children = some children → ∀ child ∈ children, child ∈ ids

theorem instanceOf_eq_of_rewriteElement {placement : BatchPlacement} {ids : List String}
    {element result : Element} (rewrites : rewriteElement placement ids element = .ok result) :
    result = instanceOf placement element ∧ RefersTo ids element := by
  obtain ⟨id, named, rewrites⟩ := (except_bind_eq_ok _ _ _).mp rewrites
  obtain ⟨groupId, grouped, rewrites⟩ := (except_bind_eq_ok _ _ _).mp rewrites
  have group_eq := rewriteGroup_eq_ok grouped
  have group_known : ∀ group, element.common.groupId = some group → group ∈ ids := by
    intro group own
    rw [own] at grouped
    obtain ⟨_, found, _⟩ := (except_bind_eq_ok _ _ _).mp grouped
    exact (rewritten_eq_ok.mp found).1
  rw [(rewritten_eq_ok.mp named).2, group_eq] at rewrites
  cases element with
  | group common children =>
      obtain ⟨renamed, mapped, joined⟩ := (except_bind_eq_ok _ _ _).mp rewrites
      rw [← (except_pure_eq_ok _ _).mp joined, mapM_rewritten mapped]
      refine ⟨rfl, group_known, ?_⟩
      intro own same child member
      cases same
      have related := (except_mapM_eq_ok _ _ _).mp mapped
      have known : ∀ child ∈ children, child ∈ ids := by
        intro child listed
        obtain ⟨index, inside, same⟩ := List.getElem_of_mem listed
        have step := related.get inside (related.length_eq ▸ inside)
        rw [← same]
        exact (rewritten_eq_ok.mp step).1
      exact known child member
  | _ =>
      rw [← (except_pure_eq_ok _ _).mp rewrites]
      exact ⟨rfl, group_known, nofun⟩

theorem instances_of_rewrites {placement : BatchPlacement} {ids : List String}
    {elements copies : List Element}
    (rewrites : List.Forall₂
      (fun element copy => rewriteElement placement ids element = .ok copy) elements copies) :
    copies = elements.map (instanceOf placement) ∧ ∀ element ∈ elements, RefersTo ids element := by
  induction rewrites with
  | nil => exact ⟨rfl, List.forall_mem_nil _⟩
  | cons first _ ih =>
      have here := instanceOf_eq_of_rewriteElement first
      rw [List.map_cons, here.1, List.forall_mem_cons, ih.1]
      exact ⟨rfl, here.2, ih.2⟩

section

variable {evaluate : Evaluate} {options : MaterializeOptions} {limits : ProcessingLimits}
variable {document : Document} {records : List Record}

/-- The elements of a record are the instances of the elements that are materialized with it,
and those refer to each other only. -/
structure RecordOn (evaluate : Evaluate) (options : MaterializeOptions)
    (limits : ProcessingLimits) (document : Document) (records : List Record)
    (placement : BatchPlacement) (copies : List Element) : Prop where
  made : ∃ record filled, records[placement.record]? = some record ∧
    materializeUnchecked evaluate options limits document record = .ok filled ∧
    copies = filled.elements.map (instanceOf placement)
  zone : ∀ copy ∈ copies, copy.zone = some placement.zone
  group : ∀ copy ∈ copies, ∀ group, copy.common.groupId = some group →
    ∃ other ∈ copies, other.id = group
  children : ∀ copy ∈ copies, ∀ children, copy.children = some children →
    ∀ child ∈ children, ∃ other ∈ copies, other.id = child

theorem recordOn_of_placedElements {placement : BatchPlacement} {copies : List Element}
    (placed : placedElements evaluate options limits document records placement = .ok copies) :
    RecordOn evaluate options limits document records placement copies := by
  obtain ⟨record, found, placed⟩ := (except_bind_eq_ok _ _ _).mp placed
  obtain ⟨_, -, placed⟩ := (except_bind_eq_ok _ _ _).mp placed
  obtain ⟨filled, made, placed⟩ := (except_bind_eq_ok _ _ _).mp placed
  obtain ⟨_, -, rewrites⟩ := (except_bind_eq_ok _ _ _).mp placed
  obtain ⟨copies_eq, refers⟩ := instances_of_rewrites ((except_mapM_eq_ok _ _ _).mp rewrites)
  have resolves (id : String) (known : id ∈ elementIds filled.elements) :
      ∃ other ∈ copies, other.id = rewriteId placement id := by
    obtain ⟨element, member, same⟩ := List.mem_map.mp known
    rw [copies_eq, ← same]
    exact ⟨_, List.mem_map_of_mem member, instanceOf_id placement element⟩
  constructor
  case made => exact ⟨record, filled, (entryAt_eq_ok _ _ _).mp found, made, copies_eq⟩
  case zone =>
    intro copy member
    rw [copies_eq] at member
    obtain ⟨element, _, same⟩ := List.mem_map.mp member
    rw [← same, instanceOf_zone]
  case group =>
    intro copy member group named
    rw [copies_eq] at member
    obtain ⟨element, inside, same⟩ := List.mem_map.mp member
    rw [← same, instanceOf_groupId] at named
    obtain ⟨id, own, renamed⟩ := Option.map_eq_some_iff.mp named
    rw [← renamed]
    exact resolves id ((refers element inside).group id own)
  case children =>
    intro copy member children named child listed
    rw [copies_eq] at member
    obtain ⟨element, inside, same⟩ := List.mem_map.mp member
    rw [← same, instanceOf_children] at named
    obtain ⟨ids, own, renamed⟩ := Option.map_eq_some_iff.mp named
    rw [← renamed] at listed
    obtain ⟨id, among, same⟩ := List.mem_map.mp listed
    rw [← same]
    exact resolves id ((refers element inside).children ids own id among)

/-! ## Pages -/

/-- Elements in the order of drawing, behind some others. -/
def drawnFrom (offset : Nat) (elements : List Element) : List Element :=
  elements.mapIdx fun index element => element.withOrder (offset + index)

theorem drawnFrom_append (offset : Nat) (first second : List Element) :
    drawnFrom offset (first ++ second) =
      drawnFrom offset first ++ drawnFrom (offset + first.length) second := by
  unfold drawnFrom
  rw [List.mapIdx_append]
  congr 2
  funext index element
  rw [Nat.add_assoc, Nat.add_comm first.length]

/-- The loop over the placements adds to a page the elements of its records, in order. -/
theorem placeAll_exact {pages result : List Document} {placements : List BatchPlacement}
    (placed : placeAll evaluate options limits document records pages placements = .ok result)
    {index : Nat} {page : Document} (located : pages[index]? = some page) :
    ∃ groups,
      List.Forall₂ (RecordOn evaluate options limits document records)
        (placements.filter fun placement => placement.page = index) groups ∧
      result[index]? = some { page with
        elements := page.elements ++ drawnFrom page.elements.length groups.flatten } := by
  induction placements generalizing pages page with
  | nil =>
      rw [← (except_pure_eq_ok _ _).mp placed]
      refine ⟨[], .nil, ?_⟩
      rw [located]
      exact congrArg some (by simp [drawnFrom])
  | cons placement rest ih =>
      obtain ⟨copies, copied, placed⟩ := (except_bind_eq_ok _ _ _).mp placed
      obtain ⟨own, found, placed⟩ := (except_bind_eq_ok _ _ _).mp placed
      obtain ⟨elements, pushed, placed⟩ := (except_bind_eq_ok _ _ _).mp placed
      rw [entryAt_eq_ok] at found
      by_cases here : placement.page = index
      · rw [here] at found placed
        have same : own = page := Option.some.inj (found.symm.trans located)
        have bound := (List.getElem?_eq_some_iff.mp located).1
        obtain ⟨groups, related, ends⟩ := ih placed (List.getElem?_set_self bound)
        have pushed_eq : elements = page.elements ++ drawnFrom page.elements.length copies := by
          rw [← same]
          exact pushElements_eq_ok pushed
        refine ⟨copies :: groups, ?_, ?_⟩
        · rw [List.filter_cons_of_pos (by simpa using here)]
          exact .cons (recordOn_of_placedElements copied) related
        · have length : (drawnFrom page.elements.length copies).length = copies.length := by
            rw [drawnFrom, List.length_mapIdx]
          rw [ends, pushed_eq, same, List.flatten_cons, drawnFrom_append, List.length_append,
            length, List.append_assoc]
      · have kept : (pages.set placement.page { own with elements })[index]? = some page := by
          rw [List.getElem?_set_ne here, located]
        obtain ⟨groups, related, ends⟩ := ih placed kept
        refine ⟨groups, ?_, ends⟩
        rw [List.filter_cons_of_neg (by simpa using here)]
        exact related

end

/-! ## Records of a page -/

/-- The records of a page are a stretch of all records. -/
theorem filter_range_div {size : Nat} (positive : 0 < size) (count page : Nat) :
    (List.range count).filter (fun record => record / size = page) =
      List.range' (page * size) (min count ((page + 1) * size) - page * size) := by
  have next : (page + 1) * size = page * size + size := Nat.succ_mul page size
  induction count with
  | zero => simp
  | succ count ih =>
      have inside : count / size = page ↔ page * size ≤ count ∧ count < page * size + size := by
        rw [Nat.div_eq_iff positive]
        omega
      rw [List.range_succ, List.filter_append, ih]
      by_cases here : count / size = page
      · obtain ⟨begins, ends⟩ := inside.mp here
        have now : min count ((page + 1) * size) - page * size = count - page * size := by omega
        have after : min (count + 1) ((page + 1) * size) - page * size =
            count - page * size + 1 := by omega
        have last : page * size + 1 * (count - page * size) = count := by omega
        rw [List.filter_cons_of_pos (by simpa using here), List.filter_nil, now, after,
          List.range'_concat, last]
      · have same : min (count + 1) ((page + 1) * size) - page * size =
            min count ((page + 1) * size) - page * size := by
          have outside := inside.not.mp here
          omega
        rw [List.filter_cons_of_neg (by simpa using here), List.filter_nil, List.append_nil, same]

/-- The records from a page's first to its last. -/
def recordsOf (slots count page : Nat) : List Nat :=
  List.range' (page * slots) (min count ((page + 1) * slots) - page * slots)

theorem placementsOn_eq {zoneIds : List String} (filled : 0 < zoneIds.length) (count page : Nat) :
    placementsOn zoneIds count page =
      (recordsOf zoneIds.length count page).map (plannedPlacement zoneIds) := by
  rw [recordsOf, ← filter_range_div filled, placementsOn, plannedPlacements, List.filter_map]
  rfl

/-! ## Batches -/

/-- The pages of a batch: the elements of a page are, one record after the other from the
page's first to its last, those of the template as they are materialized with the record. -/
structure BatchPages (evaluate : Evaluate) (options : MaterializeOptions)
    (limits : ProcessingLimits) (document : Document) (records : List Record)
    (zoneIds : List String) (pages : List Document) : Prop where
  filled : 0 < zoneIds.length
  zones : ∀ record, zoneIds[record % zoneIds.length]? = some (plannedPlacement zoneIds record).zone
  length : pages.length = (records.length + (zoneIds.length - 1)) / zoneIds.length
  made : ∀ index page, pages[index]? = some page → ∃ groups,
    List.Forall₂ (fun record copies => RecordOn evaluate options limits document records
      (plannedPlacement zoneIds record) copies)
      (recordsOf zoneIds.length records.length index) groups ∧
    page = { emptyPage document index with elements := drawnFrom 0 groups.flatten }
  ordered : ∀ page ∈ pages, ∀ (index : Nat) (element : Element),
    page.elements[index]? = some element → element.common.zOrder.toInt = index

section

variable {base64 : Base64} {sha256 : Sha256} {evaluate : Evaluate}
variable {jsonLength : Document → Option Nat} {jsonLengths : List Document → Option Nat}
variable {options : MaterializeOptions} {limits : ProcessingLimits}
variable {document : Document} {records : List Record} {zoneIds : List String}
variable {pages : List Document}

/-- A batch that has a page comes from the loop over the placements. -/
theorem placeAll_of_made
    (made : materializeZoneBatchWithLimits base64 sha256 evaluate jsonLength jsonLengths options
      limits document records zoneIds = .ok pages) (some : pages ≠ []) :
    placeAll evaluate options limits document records
      ((List.range pages.length).map (emptyPage document))
      (plannedPlacements zoneIds records.length) = .ok pages := by
  obtain ⟨_, -, made⟩ := (except_bind_eq_ok _ _ _).mp made
  obtain ⟨plan, planned, made⟩ := (except_bind_eq_ok _ _ _).mp made
  obtain ⟨_, -, placements⟩ := planZoneBatch_eq_ok planned
  by_cases empty : plan.pageCount = 0
  · rw [if_pos empty] at made
    exact absurd ((except_pure_eq_ok _ _).mp made).symm some
  · rw [if_neg empty] at made
    obtain ⟨pageElements, -, made⟩ := (except_bind_eq_ok _ _ _).mp made
    obtain ⟨_, -, made⟩ := (except_bind_eq_ok _ _ _).mp made
    obtain ⟨_, -, made⟩ := (except_bind_eq_ok _ _ _).mp made
    obtain ⟨_, -, made⟩ := (except_bind_eq_ok _ _ _).mp made
    obtain ⟨placed, places, made⟩ := (except_bind_eq_ok _ _ _).mp made
    obtain ⟨_, -, made⟩ := (except_bind_eq_ok _ _ _).mp made
    obtain ⟨_, -, joined⟩ := (except_bind_eq_ok _ _ _).mp made
    have same := (except_pure_eq_ok _ _).mp joined
    rw [← same, placeAll_length places, List.length_map, List.length_range, ← placements]
    exact places

end

/-- A zone batch loses no record, duplicates none and swaps none. -/
theorem materializeZoneBatch_pages (base64 : Base64) (sha256 : Sha256) (evaluate : Evaluate)
    (jsonLength : Document → Option Nat) (jsonLengths : List Document → Option Nat)
    (options : MaterializeOptions) (limits : ProcessingLimits) (document : Document)
    (records : List Record) (zoneIds : List String) (pages : List Document)
    (made : materializeZoneBatchWithLimits base64 sha256 evaluate jsonLength jsonLengths options
      limits document records zoneIds = .ok pages) :
    BatchPages evaluate options limits document records zoneIds pages := by
  obtain ⟨planned, batch⟩ := materializeZoneBatch_eq_ok made
  refine ⟨planned.filled, ?_, batch.length, ?_, ?_⟩
  · intro record
    have inside := Nat.mod_lt record planned.filled
    rw [plannedPlacement, List.getD_eq_getElem?_getD, List.getElem?_eq_getElem inside,
      Option.getD_some]
  · intro index page located
    have bound := (List.getElem?_eq_some_iff.mp located).1
    have places := placeAll_of_made made (List.ne_nil_of_length_pos (Nat.zero_lt_of_lt bound))
    have start : ((List.range pages.length).map (emptyPage document))[index]? =
        some (emptyPage document index) := by
      rw [List.getElem?_map, List.getElem?_range bound]
      rfl
    obtain ⟨groups, related, ends⟩ := placeAll_exact places start
    change List.Forall₂ _ (placementsOn zoneIds records.length index) groups at related
    rw [placementsOn_eq planned.filled, List.forall₂_map_left_iff] at related
    exact ⟨groups, related, Option.some.inj (located.symm.trans ends)⟩
  · intro page member index element located
    obtain ⟨short, order⟩ := batch.ordered page member index element located
    rw [order]
    exact Int32.toInt_ofNat_of_lt (Nat.lt_of_le_of_lt short (by decide))

/-- A frame with the name of a record in it. -/
def namedDocument : Document where
  version := 4
  name := "Label"
  media := twoZones
  elements := [.group frameCommon ["caption"],
    .text captionCommon "\x7b\x7bname\x7d\x7d" none 3000 .left .top .noWrap]

/-- Records of three names. -/
def namedRecords : List Record :=
  ["Ada", "Ben", "Cy"].map fun name => OrderedMap.empty.insert "name" name

/-- The batch of the three records over two zones. -/
def namedBatch : Outcome MaterializeError (List Document) :=
  materializeZoneBatchWithLimits logoBase64 logoSha256 (evaluateTemplate plainCasing)
    (fun _ => some 1101) (fun _ => some 3088) {} .default namedDocument namedRecords
    ["left", "right"]

theorem materializeZoneBatch_pages_named :
    ∃ pages, namedBatch = .ok pages ∧
      pages.map (fun page => page.elements.map (·.id)) =
        [["frame:record:0:zone:left", "caption:record:0:zone:left",
          "frame:record:1:zone:right", "caption:record:1:zone:right"],
          ["frame:record:2:zone:left", "caption:record:2:zone:left"]] ∧
      BatchPages (evaluateTemplate plainCasing) {} .default namedDocument namedRecords
        ["left", "right"] pages := by
  have succeeded : (namedBatch.map fun pages => pages.map fun page => page.elements.map (·.id)) =
      .ok [["frame:record:0:zone:left", "caption:record:0:zone:left",
        "frame:record:1:zone:right", "caption:record:1:zone:right"],
        ["frame:record:2:zone:left", "caption:record:2:zone:left"]] := by decide +kernel
  cases made : namedBatch with
  | error fault =>
      rw [made] at succeeded
      cases succeeded
  | ok pages =>
      rw [made] at succeeded
      exact ⟨pages, rfl, Except.ok.inj succeeded,
        materializeZoneBatch_pages _ _ _ _ _ _ _ _ _ _ _ made⟩

end PrinterSdk.Label
