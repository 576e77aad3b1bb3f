import PrinterSdk.Label.Validate

/-!
# Valid documents

Validation accepts a document exactly when it is valid: identifiers are unique, groups
and children agree, references resolve and no chain of groups or clones is endless.
-/

namespace PrinterSdk.Label

open PrinterSdk.Data

@[simp] theorem failIf_eq_nil (failed : Prop) [Decidable failed] (error : ValidationError) :
    failIf failed error = [] ↔ ¬failed := by
  unfold failIf
  by_cases fails : failed <;> simp [fails]

/-! ## Identifiers -/

/-- The identifiers can be registered one after the other. -/
structure Fresh (ids list : List String) : Prop where
  filled : "" ∉ list
  unused : ∀ id ∈ list, id ∉ ids
  distinct : list.Nodup

theorem fresh_cons {ids : List String} {id : String} {list : List String} :
    Fresh ids (id :: list) ↔ ¬unusable ids id ∧ Fresh (register ids id) list := by
  unfold register
  by_cases refused : unusable ids id
  · rw [if_pos refused]
    constructor
    · intro fresh
      rcases refused with empty | used
      · exact absurd (empty ▸ List.mem_cons_self ..) fresh.filled
      · exact absurd used (fresh.unused id (List.mem_cons_self ..))
    · intro split
      exact absurd refused split.1
  · rw [if_neg refused]
    have usable := not_or.mp refused
    constructor
    · intro fresh
      have distinct := List.nodup_cons.mp fresh.distinct
      refine ⟨refused, ?_, ?_, distinct.2⟩
      · exact fun empty => fresh.filled (List.mem_cons_of_mem _ empty)
      · intro other member used
        rcases List.mem_cons.mp used with rfl | used
        · exact distinct.1 member
        · exact fresh.unused other (List.mem_cons_of_mem _ member) used
    · rintro ⟨-, fresh⟩
      refine ⟨?_, ?_, ?_⟩
      · intro empty
        rcases List.mem_cons.mp empty with same | later
        · exact usable.1 same.symm
        · exact fresh.filled later
      · intro other member used
        rcases List.mem_cons.mp member with rfl | later
        · exact usable.2 used
        · exact fresh.unused other later (List.mem_cons_of_mem _ used)
      · apply List.nodup_cons.mpr
        exact ⟨fun member => fresh.unused id member (List.mem_cons_self ..), fresh.distinct⟩

/-- A loop over items finds no error exactly when their identifiers are fresh and no
item has an error of its own. -/
theorem scan_eq_nil {α : Type} {idOf : α → String} {duplicate : String → ValidationError}
    {own : α → List ValidationError} {ids : List String} {list : List α} :
    scan idOf duplicate own ids list = [] ↔
      Fresh ids (list.map idOf) ∧ ∀ item ∈ list, own item = [] := by
  induction list generalizing ids with
  | nil =>
      simp only [scan, List.map_nil, List.not_mem_nil, false_implies, implies_true, and_true,
        true_iff]
      exact ⟨List.not_mem_nil, by simp, List.nodup_nil⟩
  | cons item rest ih =>
      rw [scan, List.append_eq_nil_iff, List.append_eq_nil_iff, failIf_eq_nil, ih, List.map_cons,
        fresh_cons, List.forall_mem_cons]
      constructor
      · rintro ⟨⟨usable, clean⟩, fresh, later⟩
        exact ⟨⟨usable, fresh⟩, clean, later⟩
      · rintro ⟨⟨usable, fresh⟩, clean, later⟩
        exact ⟨⟨usable, clean⟩, fresh, later⟩

theorem mem_register {ids : List String} {id registers : String} :
    id ∈ register ids registers ↔ id ∈ ids ∨ (id ≠ "" ∧ id = registers) := by
  unfold register
  by_cases refused : unusable ids registers
  · rw [if_pos refused]
    rcases refused with empty | used
    · rw [empty]
      simp
    · constructor
      · exact Or.inl
      · rintro (old | ⟨-, rfl⟩)
        · exact old
        · exact used
  · rw [if_neg refused, List.mem_cons]
    have usable := not_or.mp refused
    constructor
    · rintro (rfl | old)
      · exact .inr ⟨usable.1, rfl⟩
      · exact .inl old
    · rintro (old | ⟨-, same⟩)
      · exact .inr old
      · exact .inl same

theorem mem_foldl_register {resources : List Resource} {id : String} (ids : List String) :
    id ∈ resources.foldl (fun ids resource => register ids resource.id) ids ↔
      id ∈ ids ∨ (id ≠ "" ∧ id ∈ resources.map Resource.id) := by
  induction resources generalizing ids with
  | nil => simp
  | cons resource rest ih =>
      rw [List.foldl_cons, ih, mem_register, List.map_cons, List.mem_cons, or_assoc, ← and_or_left]

theorem mem_registered {resources : List Resource} {id : String} :
    id ∈ registered resources ↔ id ≠ "" ∧ id ∈ resources.map Resource.id := by
  rw [registered, mem_foldl_register, or_iff_right List.not_mem_nil]

/-- The identifiers of resources and elements are distinct and not empty. -/
def UniqueIds (document : Document) : Prop :=
  "" ∉ document.resources.map Resource.id ++ elementIds document.elements ∧
    (document.resources.map Resource.id ++ elementIds document.elements).Nodup

theorem uniqueIds_iff {document : Document} :
    Fresh [] (document.resources.map Resource.id) ∧
        Fresh (registered document.resources) (elementIds document.elements) ↔
      UniqueIds document := by
  unfold UniqueIds
  rw [List.mem_append, not_or, List.nodup_append']
  constructor
  · rintro ⟨first, second⟩
    refine ⟨⟨first.filled, second.filled⟩, first.distinct, second.distinct, ?_⟩
    intro id resource element
    refine second.unused id element (mem_registered.mpr ⟨?_, resource⟩)
    rintro rfl
    exact first.filled resource
  · rintro ⟨⟨filled, refilled⟩, distinct, redistinct, disjoint⟩
    refine ⟨⟨filled, by simp, distinct⟩, refilled, ?_, redistinct⟩
    intro id element used
    exact disjoint (mem_registered.mp used).2 element

/-! ## Chains -/

theorem cloneOf_support {zones : List Zone} {id next : String}
    (clone : cloneOf zones id = some next) : id ∈ zones.map Zone.id := by
  obtain ⟨zone, found, -⟩ := Option.bind_eq_some_iff.mp clone
  have named : zone.id = id := by simpa using List.find?_some found
  exact named ▸ List.mem_map_of_mem (List.mem_of_find?_eq_some found)

theorem groupOf_support {elements : List Element} {id next : String}
    (group : groupOf elements id = some next) : id ∈ elementIds elements := by
  obtain ⟨element, found, -⟩ := Option.bind_eq_some_iff.mp group
  have named : element.id = id := by simpa using List.find?_some found
  exact named ▸ List.mem_map_of_mem (List.mem_of_find?_eq_some found)

/-- The search for a cycle of clones stops. -/
theorem searches_zone (zones : List Zone) (id : String) :
    Chain.Searches (cloneOf zones) [] (some id)
      (Chain.findRepeat (cloneOf zones) (zones.length + 2) [] (some id)) := by
  rw [← zones.length_map Zone.id]
  exact Chain.searches_keys (fun _ _ => cloneOf_support) _

/-- The search for a cycle of groups stops. -/
theorem searches_group (elements : List Element) (id : String) :
    Chain.Searches (groupOf elements) [] (some id)
      (Chain.findRepeat (groupOf elements) (elements.length + 2) [] (some id)) := by
  rw [← elements.length_map Element.id]
  exact Chain.searches_keys (fun _ _ => groupOf_support) _

theorem zoneCycleErrors_eq_nil {zones : List Zone} :
    zoneCycleErrors zones = [] ↔
      ∀ zone ∈ zones, Chain.Ends (cloneOf zones) (some zone.id) := by
  unfold zoneCycleErrors
  rw [List.flatMap_eq_nil_iff]
  apply forall₂_congr
  intro zone _
  rw [← (searches_zone zones zone.id).eq_none_iff]
  cases Chain.findRepeat (cloneOf zones) (zones.length + 2) [] (some zone.id) <;> simp

theorem groupCycleErrors_eq_nil {elements : List Element} :
    groupCycleErrors elements = [] ↔
      ∀ element ∈ elements, Chain.Ends (groupOf elements) (some element.id) := by
  unfold groupCycleErrors
  rw [List.flatMap_eq_nil_iff]
  apply forall₂_congr
  intro element _
  rw [← (searches_group elements element.id).eq_none_iff]
  cases Chain.findRepeat (groupOf elements) (elements.length + 2) [] (some element.id) <;> simp

/-! ## References -/

theorem mem_zoneIds {zones : List Zone} (filled : "" ∉ zones.map Zone.id) {id : String} :
    id ∈ zoneIds zones ↔ id ∈ zones.map Zone.id := by
  unfold zoneIds
  rw [List.mem_filter]
  constructor
  · exact And.left
  · intro member
    refine ⟨member, ?_⟩
    simp only [decide_eq_true_eq]
    rintro rfl
    exact filled member

theorem cloneErrors_eq_nil {zones : List Zone} (filled : "" ∉ zones.map Zone.id) :
    cloneErrors zones = [] ↔
      ∀ zone ∈ zones, ∀ parent, zone.cloneOf = some parent → parent ∈ zones.map Zone.id := by
  unfold cloneErrors
  rw [List.flatMap_eq_nil_iff]
  apply forall₂_congr
  intro zone _
  cases zone.cloneOf with
  | none => simp
  | some parent => simp [mem_zoneIds filled]

/-- The references of an element resolve, and its group lists it. -/
structure Refers (document : Document) (element : Element) : Prop where
  resources : ∀ id ∈ element.resourceIds, id ∈ document.resources.map Resource.id
  group : ∀ group, element.common.groupId = some group → group ∈ groupIds document.elements
  listed : ∀ group, element.common.groupId = some group → ∀ children,
    (findElement document.elements group).bind Element.children = some children →
    element.id ∈ children
  zone : ∀ zone, element.zone = some zone → zone ∈ document.media.zones.map Zone.id

theorem missingResourceErrors_eq_nil {document : Document} {element : Element} :
    missingResourceErrors document element = [] ↔
      ∀ id ∈ element.resourceIds, id ∈ document.resources.map Resource.id := by
  unfold missingResourceErrors
  rw [List.flatMap_eq_nil_iff]
  apply forall₂_congr
  intro id _
  rw [failIf_eq_nil, not_not]

theorem parentErrors_eq_nil {document : Document} {element : Element} :
    parentErrors document element = [] ↔
      ∀ group, element.common.groupId = some group →
        group ∈ groupIds document.elements ∧ ∀ children,
          (findElement document.elements group).bind Element.children = some children →
          element.id ∈ children := by
  unfold parentErrors
  cases element.common.groupId with
  | none => simp
  | some group =>
      rw [List.append_eq_nil_iff, failIf_eq_nil, not_not]
      cases found : (findElement document.elements group).bind Element.children <;> simp [found]

theorem zoneUseErrors_eq_nil {document : Document} {element : Element}
    (filled : "" ∉ document.media.zones.map Zone.id) :
    zoneUseErrors document element = [] ↔
      ∀ zone, element.zone = some zone → zone ∈ document.media.zones.map Zone.id := by
  unfold zoneUseErrors
  cases element.zone with
  | none => simp
  | some zone => simp [mem_zoneIds filled]

theorem referenceErrors_eq_nil {document : Document} {element : Element}
    (filled : "" ∉ document.media.zones.map Zone.id) :
    referenceErrors document element = [] ↔ Refers document element := by
  unfold referenceErrors
  rw [List.append_eq_nil_iff, List.append_eq_nil_iff, missingResourceErrors_eq_nil,
    parentErrors_eq_nil, zoneUseErrors_eq_nil filled]
  constructor
  · rintro ⟨⟨resources, parent⟩, zone⟩
    exact ⟨resources, fun group named => (parent group named).1,
      fun group named => (parent group named).2, zone⟩
  · intro refers
    exact ⟨⟨refers.resources, fun group named =>
      ⟨refers.group group named, refers.listed group named⟩⟩, refers.zone⟩

/-! ## Children -/

/-- The children of a group are different elements that name it. -/
structure Children (elements : List Element) (group : String) (children : List String) :
    Prop where
  different : ∀ child ∈ children, child ≠ group
  distinct : children.Nodup
  agree : ∀ child ∈ children, child ∈ elementIds elements ∧ groupOf elements child = some group

theorem childErrors_eq_nil {elements : List Element} {group : String}
    {unique children : List String} :
    childErrors elements group unique children = [] ↔
      Children elements group children ∧ ∀ child ∈ children, child ∉ unique := by
  induction children generalizing unique with
  | nil =>
      simp only [childErrors, List.not_mem_nil, false_implies, implies_true, and_true, true_iff]
      exact ⟨by simp, List.nodup_nil, by simp⟩
  | cons child rest ih =>
      rw [childErrors]
      by_cases refused : child = group ∨ child ∉ elementIds elements ∨ child ∈ unique
      · rw [if_pos refused]
        constructor
        · intro none
          cases none
        · rintro ⟨valid, fresh⟩
          rcases refused with same | missing | repeated
          · exact absurd same (valid.different child (List.mem_cons_self ..))
          · exact absurd (valid.agree child (List.mem_cons_self ..)).1 missing
          · exact absurd repeated (fresh child (List.mem_cons_self ..))
      · have kept := not_or.mp refused
        have known := not_or.mp kept.2
        rw [if_neg refused, List.append_eq_nil_iff, failIf_eq_nil, not_not, ih]
        constructor
        · rintro ⟨agrees, valid, fresh⟩
          refine ⟨⟨?_, ?_, ?_⟩, ?_⟩
          · exact List.forall_mem_cons.mpr ⟨kept.1, valid.different⟩
          · exact List.nodup_cons.mpr
              ⟨fun member => fresh child member (List.mem_cons_self ..), valid.distinct⟩
          · exact List.forall_mem_cons.mpr ⟨⟨not_not.mp known.1, agrees⟩, valid.agree⟩
          · exact List.forall_mem_cons.mpr ⟨known.2, fun other member used =>
              fresh other member (List.mem_cons_of_mem _ used)⟩
        · rintro ⟨valid, fresh⟩
          have distinct := List.nodup_cons.mp valid.distinct
          refine ⟨(valid.agree child (List.mem_cons_self ..)).2, ⟨?_, distinct.2, ?_⟩, ?_⟩
          · exact fun other member => valid.different other (List.mem_cons_of_mem _ member)
          · exact fun other member => valid.agree other (List.mem_cons_of_mem _ member)
          · intro other member used
            rcases List.mem_cons.mp used with rfl | used
            · exact distinct.1 member
            · exact fresh other (List.mem_cons_of_mem _ member) used

/-! ## Validity -/

section

variable (base64 : Base64) (sha256 : Sha256)

/-- What validation accepts. -/
structure Valid (limits : ProcessingLimits) (document : Document) : Prop where
  counts : countErrors limits document = []
  sizes : sizeErrors limits document = []
  head : headErrors document = []
  contents : ∀ resource ∈ document.resources, contentErrors base64 sha256 limits resource = []
  ids : UniqueIds document
  zones : Fresh [] (document.media.zones.map Zone.id)
  placed : ∀ zone ∈ document.media.zones, ¬misplaced zone.bounds document.media
  clones : ∀ zone ∈ document.media.zones, ∀ parent, zone.cloneOf = some parent →
    parent ∈ document.media.zones.map Zone.id
  cloneChains : ∀ zone ∈ document.media.zones,
    Chain.Ends (cloneOf document.media.zones) (some zone.id)
  transforms : ∀ element ∈ document.elements, transformErrors element = []
  refers : ∀ element ∈ document.elements, Refers document element
  properties : ∀ element ∈ document.elements, propertyErrors document element = []
  groupChains : ∀ element ∈ document.elements,
    Chain.Ends (groupOf document.elements) (some element.id)
  extensions : extensionErrors document = []

theorem collectedErrors_eq_nil (limits : ProcessingLimits) (document : Document) :
    collectedErrors base64 sha256 limits document = [] ↔
      headErrors document = [] ∧
        (∀ resource ∈ document.resources, contentErrors base64 sha256 limits resource = []) ∧
        UniqueIds document ∧ Fresh [] (document.media.zones.map Zone.id) ∧
        (∀ zone ∈ document.media.zones, ¬misplaced zone.bounds document.media) ∧
        cloneErrors document.media.zones = [] ∧ zoneCycleErrors document.media.zones = [] ∧
        (∀ element ∈ document.elements, (transformErrors element = [] ∧
          referenceErrors document element = []) ∧ propertyErrors document element = []) ∧
        groupCycleErrors document.elements = [] ∧ extensionErrors document = [] := by
  rw [← uniqueIds_iff]
  simp only [collectedErrors, resourceErrors, zoneErrors, elementErrors, List.append_eq_nil_iff,
    scan_eq_nil, failIf_eq_nil, elementIds]
  tauto

/-- Validation accepts the valid documents. -/
theorem validateWithLimits_eq_ok (limits : ProcessingLimits) (document : Document) :
    validateWithLimits base64 sha256 limits document = .ok () ↔
      Valid base64 sha256 limits document := by
  have accepted : validateWithLimits base64 sha256 limits document = .ok () ↔
      countErrors limits document = [] ∧ sizeErrors limits document = [] ∧
        collectedErrors base64 sha256 limits document = [] := by
    unfold validateWithLimits
    by_cases counts : countErrors limits document = []
    · by_cases sizes : sizeErrors limits document = []
      · by_cases rest : collectedErrors base64 sha256 limits document = [] <;>
          simp [counts, sizes, rest]
      · simp [counts, sizes]
    · simp [counts]
  rw [accepted, collectedErrors_eq_nil]
  constructor
  · rintro ⟨counts, sizes, head, contents, ids, zones, placed, clones, cycles, elements, groups,
      extensions⟩
    exact {
      counts, sizes, head, contents, ids, zones, placed, extensions
      clones := (cloneErrors_eq_nil zones.filled).mp clones
      cloneChains := zoneCycleErrors_eq_nil.mp cycles
      transforms := fun element member => (elements element member).1.1
      refers := fun element member =>
        (referenceErrors_eq_nil zones.filled).mp (elements element member).1.2
      properties := fun element member => (elements element member).2
      groupChains := groupCycleErrors_eq_nil.mp groups }
  · intro valid
    have zones := valid.zones.filled
    exact ⟨valid.counts, valid.sizes, valid.head, valid.contents, valid.ids, valid.zones,
      valid.placed, (cloneErrors_eq_nil zones).mpr valid.clones,
      zoneCycleErrors_eq_nil.mpr valid.cloneChains,
      fun element member => ⟨⟨valid.transforms element member,
        (referenceErrors_eq_nil zones).mpr (valid.refers element member)⟩,
        valid.properties element member⟩,
      groupCycleErrors_eq_nil.mpr valid.groupChains, valid.extensions⟩

end

end PrinterSdk.Label
