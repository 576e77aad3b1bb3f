import PrinterSdk.Label.Valid

/-!
# The forest of a valid document

The elements of a valid document form a forest under their groups, and so do its zones
under what they are clones of.  Rendering walks these forests with a bounded number of
rounds, which is enough to see all ancestors of an element or a zone.
-/

namespace PrinterSdk.Label

open PrinterSdk.Data

/-! ## Walks -/

/-- The loop of `effectively_visible`. -/
def visibleAbove (elements : List Element) : Nat → Option String → Bool
  | 0, group => group.isNone
  | rounds + 1, group =>
      match group.bind (findElement elements) with
      | none => group.isNone
      | some parent =>
          if !parent.common.visible then false
          else visibleAbove elements rounds parent.common.groupId

/-- `effectively_visible`. -/
def effectivelyVisible (element : Element) (document : Document) : Bool :=
  if !element.common.visible then false
  else visibleAbove document.elements document.elements.length element.common.groupId

/-- The loop of `effective_zone`. -/
def zoneAbove (elements : List Element) : Nat → Option Element → Option String
  | 0, _ => none
  | _ + 1, none => none
  | rounds + 1, some item =>
      match item.zone with
      | some zone => some zone
      | none => zoneAbove elements rounds (item.common.groupId.bind (findElement elements))

/-- `effective_zone`. -/
def effectiveZone (element : Element) (document : Document) : Option String :=
  zoneAbove document.elements (document.elements.length + 1) (some element)

/-- The loop of `zone_clones`. -/
def clonesTo (zones : List Zone) (source : String) : Nat → Option String → Bool
  | 0, _ => false
  | _ + 1, none => false
  | rounds + 1, some id =>
      if id = source then true else clonesTo zones source rounds (cloneOf zones id)

/-- `zone_clones`. -/
def zoneClones (zones : List Zone) (candidate source : String) : Bool :=
  clonesTo zones source zones.length (cloneOf zones candidate)

/-! ## What the walks are for -/

/-- The element `parent` of the document is the group that `child` names. -/
def Parent (document : Document) (child parent : Element) : Prop :=
  parent ∈ document.elements ∧ child.common.groupId = some parent.id

/-- A zone `clone` is a clone of `source`. -/
def Clone (zones : List Zone) (clone source : String) : Prop :=
  ∃ zone ∈ zones, zone.id = clone ∧ zone.cloneOf = some source

/-- The element and all groups above it are visible. -/
def Visible (document : Document) (element : Element) : Prop :=
  element.common.visible = true ∧ ∀ ancestor,
    Relation.TransGen (Parent document) element ancestor → ancestor.common.visible = true

/-- The zone of the nearest of the element and the groups above it that has one. -/
def NearestZone (document : Document) (element : Element) (zone : String) : Prop :=
  ∃ holder, Relation.ReflTransGen (Parent document) element holder ∧ holder.zone = some zone ∧
    ∀ between, Relation.ReflTransGen (Parent document) element between →
      Relation.TransGen (Parent document) between holder → between.zone = none

/-- The references of a document form forests. -/
structure Forest (document : Document) : Prop where
  distinct : (document.resources.map Resource.id ++ elementIds document.elements).Nodup
  children : ∀ element ∈ document.elements, ∀ group ∈ document.elements, ∀ children,
    group.children = some children →
    (element.id ∈ children ↔ element.common.groupId = some group.id)
  groupsAcyclic : ∀ element, ¬Relation.TransGen (Parent document) element element
  clonesAcyclic : ∀ id, ¬Relation.TransGen (Clone document.media.zones) id id
  groupsResolve : ∀ element ∈ document.elements, ∀ id, element.common.groupId = some id →
    ∃ group ∈ document.elements, group.id = id ∧ group.children.isSome = true
  childrenResolve : ∀ group ∈ document.elements, ∀ children, group.children = some children →
    ∀ child ∈ children, ∃ element ∈ document.elements, element.id = child
  resourcesResolve : ∀ element ∈ document.elements, ∀ id ∈ element.resourceIds,
    ∃ resource ∈ document.resources, resource.id = id
  zonesResolve : ∀ element ∈ document.elements, ∀ id, element.zone = some id →
    ∃ zone ∈ document.media.zones, zone.id = id
  clonesResolve : ∀ zone ∈ document.media.zones, ∀ id, zone.cloneOf = some id →
    ∃ source ∈ document.media.zones, source.id = id

/-! ## Looking up by identifier -/

theorem find_of_distinct {α : Type} {idOf : α → String} {list : List α}
    (distinct : (list.map idOf).Nodup) {item : α} (member : item ∈ list) :
    list.find? (fun other => idOf other = idOf item) = some item := by
  induction list with
  | nil => cases member
  | cons first rest ih =>
      rw [List.map_cons, List.nodup_cons] at distinct
      rcases List.mem_cons.mp member with rfl | later
      · simp
      · have different : idOf first ≠ idOf item := fun same =>
          distinct.1 (same ▸ List.mem_map_of_mem later)
        rw [List.find?_cons_of_neg (by simpa using different)]
        exact ih distinct.2 later

section

variable {document : Document}

theorem UniqueIds.elements (ids : UniqueIds document) :
    (document.elements.map Element.id).Nodup :=
  (List.nodup_append'.mp ids.2).2.1

theorem UniqueIds.find (ids : UniqueIds document) {element : Element}
    (member : element ∈ document.elements) :
    findElement document.elements element.id = some element :=
  find_of_distinct ids.elements member

theorem mem_of_findElement {elements : List Element} {id : String} {element : Element}
    (found : findElement elements id = some element) : element ∈ elements ∧ element.id = id :=
  ⟨List.mem_of_find?_eq_some found, by simpa using List.find?_some found⟩

/-- The element found under an identifier is the only one that has it. -/
theorem UniqueIds.find_iff (ids : UniqueIds document) {id : String} {element : Element} :
    findElement document.elements id = some element ↔
      element ∈ document.elements ∧ element.id = id := by
  constructor
  · exact mem_of_findElement
  · rintro ⟨member, rfl⟩
    exact ids.find member

theorem UniqueIds.groupOf (ids : UniqueIds document) {element : Element}
    (member : element ∈ document.elements) :
    groupOf document.elements element.id = element.common.groupId := by
  unfold Label.groupOf
  rw [ids.find member]
  rfl

theorem mem_groupIds {elements : List Element} {id : String} :
    id ∈ groupIds elements ↔
      ∃ group ∈ elements, group.id = id ∧ group.children.isSome = true := by
  unfold groupIds
  rw [List.mem_map]
  constructor
  · rintro ⟨group, member, named⟩
    have split := List.mem_filter.mp member
    exact ⟨group, split.1, named, split.2⟩
  · rintro ⟨group, member, named, grouped⟩
    exact ⟨group, List.mem_filter.mpr ⟨member, grouped⟩, named⟩

end

/-! ## Ancestors -/

/-- The group of an element, as the walks find it. -/
def parentOf (elements : List Element) (element : Element) : Option Element :=
  element.common.groupId.bind (findElement elements)

section

variable {base64 : Base64} {sha256 : Sha256} {limits : ProcessingLimits} {document : Document}

theorem mem_of_parentOf {elements : List Element} {element parent : Element}
    (above : parentOf elements element = some parent) : parent ∈ elements := by
  obtain ⟨id, -, found⟩ := Option.bind_eq_some_iff.mp above
  exact (mem_of_findElement found).1

theorem UniqueIds.parent_iff (ids : UniqueIds document) {element parent : Element} :
    Parent document element parent ↔ Chain.Step (parentOf document.elements) element parent := by
  unfold Parent Chain.Step parentOf
  rw [Option.bind_eq_some_iff]
  constructor
  · rintro ⟨member, named⟩
    exact ⟨parent.id, named, ids.find member⟩
  · rintro ⟨id, named, found⟩
    obtain ⟨member, rfl⟩ := mem_of_findElement found
    exact ⟨member, named⟩

theorem UniqueIds.parent_eq (ids : UniqueIds document) :
    Parent document = Chain.Step (parentOf document.elements) := by
  funext element parent
  exact propext ids.parent_iff

variable (valid : Valid base64 sha256 limits document)

include valid

/-- A group that is named is found. -/
theorem Valid.parentOf_map {element : Element} (member : element ∈ document.elements) :
    (parentOf document.elements element).map Element.id =
      groupOf document.elements element.id := by
  rw [valid.ids.groupOf member]
  unfold parentOf
  cases named : element.common.groupId with
  | none => rfl
  | some id =>
      obtain ⟨group, inside, same, -⟩ :=
        mem_groupIds.mp ((valid.refers element member).group id named)
      have found := valid.ids.find_iff.mpr ⟨inside, same⟩
      rw [Option.bind_some, found, Option.map_some, same]

theorem Valid.parentOf_eq_none {element : Element} (member : element ∈ document.elements) :
    parentOf document.elements element = none ↔ element.common.groupId = none := by
  have agree := valid.parentOf_map member
  rw [valid.ids.groupOf member] at agree
  rw [← agree, Option.map_eq_none_iff]

theorem Valid.ends {element : Element} (member : element ∈ document.elements) :
    Chain.Ends (parentOf document.elements) (some element) := by
  obtain ⟨count, ended⟩ := valid.groupChains element member
  refine ⟨count, ?_⟩
  have same := Chain.follow_map Element.id
    (fun inner inside => valid.parentOf_map inside)
    (fun _ _ _ above => mem_of_parentOf above) count
    (fun value start => (Option.some.inj start) ▸ member)
  rw [Option.map_some, ended, Option.map_eq_none_iff] at same
  exact same

theorem Valid.acyclic : Chain.Acyclic (parentOf document.elements) := by
  apply Chain.acyclic_of_ends
  intro element parent above
  obtain ⟨count, ended⟩ := valid.ends (mem_of_parentOf above)
  refine ⟨count + 1, ?_⟩
  rw [Chain.follow, Option.bind_some, above, ended]

/-- As many rounds as there are elements see all ancestors. -/
theorem Valid.follow_parentOf (element : Element) :
    Chain.follow (parentOf document.elements) document.elements.length
      (parentOf document.elements element) = none := by
  have inside : ∀ inner parent, parentOf document.elements inner = some parent →
      parent ∈ document.elements.toFinset :=
    fun _ _ above => List.mem_toFinset.mpr (mem_of_parentOf above)
  exact Chain.follow_eq_none valid.acyclic (inside element) inside (List.toFinset_card_le _)

/-! ## Visibility -/

theorem Valid.visibleAbove_iff {rounds : Nat} {element : Element}
    (member : element ∈ document.elements)
    (enough : Chain.follow (parentOf document.elements) rounds
      (parentOf document.elements element) = none) :
    visibleAbove document.elements rounds element.common.groupId = true ↔
      ∀ ancestor, Relation.TransGen (Chain.Step (parentOf document.elements)) element ancestor →
        ancestor.common.visible = true := by
  induction rounds generalizing element with
  | zero =>
      have top : parentOf document.elements element = none := enough
      rw [visibleAbove, (valid.parentOf_eq_none member).mp top]
      simp [Chain.transGen_iff_follow, top]
  | succ rounds ih =>
      rw [visibleAbove]
      cases above : parentOf document.elements element with
      | none =>
          have found : element.common.groupId.bind (findElement document.elements) = none := above
          rw [found, (valid.parentOf_eq_none member).mp above]
          simp [Chain.transGen_iff_follow, above]
      | some parent =>
          have found : element.common.groupId.bind (findElement document.elements) =
            some parent := above
          rw [above] at enough
          have later := ih (mem_of_parentOf above) enough
          rw [found]
          simp only [Chain.transGen_head above, forall_eq_or_imp, ← later]
          cases parent.common.visible <;> simp

/-- `effectively_visible` looks at the element and all its ancestors. -/
theorem Valid.effectivelyVisible_iff {element : Element}
    (member : element ∈ document.elements) :
    effectivelyVisible element document = true ↔ Visible document element := by
  unfold effectivelyVisible Visible
  rw [valid.ids.parent_eq,
    ← valid.visibleAbove_iff member (valid.follow_parentOf element)]
  cases element.common.visible <;> simp

/-! ## Zones -/

theorem Valid.nearestZone_own {element : Element} {own : String}
    (constrained : element.zone = some own) (zone : String) :
    NearestZone document element zone ↔ own = zone := by
  constructor
  · rintro ⟨holder, path, held, between⟩
    rcases Relation.reflTransGen_iff_eq_or_transGen.mp path with same | above
    · rw [same, constrained] at held
      exact Option.some.inj held
    · have none := between element .refl above
      rw [constrained] at none
      cases none
  · rintro rfl
    refine ⟨element, .refl, constrained, ?_⟩
    intro between below above
    have cycle : Relation.TransGen (Parent document) element element := by
      rcases Relation.reflTransGen_iff_eq_or_transGen.mp below with rfl | up
      · exact above
      · exact up.trans above
    rw [valid.ids.parent_eq] at cycle
    exact absurd cycle (valid.acyclic element)

theorem Valid.nearestZone_parent {element parent : Element} (free : element.zone = none)
    (above : parentOf document.elements element = some parent) (zone : String) :
    NearestZone document element zone ↔ NearestZone document parent zone := by
  have step : Parent document element parent := valid.ids.parent_iff.mpr above
  have climbs {ancestor : Element} (path : Relation.TransGen (Parent document) element ancestor) :
      Relation.ReflTransGen (Parent document) parent ancestor := by
    rw [valid.ids.parent_eq] at path ⊢
    exact Relation.reflTransGen_iff_eq_or_transGen.mpr ((Chain.transGen_head above).mp path)
  constructor
  · rintro ⟨holder, path, held, between⟩
    rcases Relation.reflTransGen_iff_eq_or_transGen.mp path with same | up
    · rw [same, free] at held
      cases held
    · exact ⟨holder, climbs up, held, fun middle below => between middle (below.head step)⟩
  · rintro ⟨holder, path, held, between⟩
    refine ⟨holder, path.head step, held, ?_⟩
    intro middle below higher
    rcases Relation.reflTransGen_iff_eq_or_transGen.mp below with rfl | up
    · exact free
    · exact between middle (climbs up) higher

theorem Valid.nearestZone_top {element : Element} (free : element.zone = none)
    (top : parentOf document.elements element = none) (zone : String) :
    ¬NearestZone document element zone := by
  rintro ⟨holder, path, held, -⟩
  rcases Relation.reflTransGen_iff_eq_or_transGen.mp path with same | up
  · rw [same, free] at held
    cases held
  · rw [valid.ids.parent_eq, Chain.transGen_iff_follow, top] at up
    simp at up

theorem Valid.zoneAbove_iff {rounds : Nat} {element : Element}
    (enough : Chain.follow (parentOf document.elements) rounds (some element) = none)
    (zone : String) :
    zoneAbove document.elements rounds (some element) = some zone ↔
      NearestZone document element zone := by
  induction rounds generalizing element with
  | zero => cases enough
  | succ rounds ih =>
      rw [zoneAbove]
      cases constrained : element.zone with
      | some own =>
          rw [valid.nearestZone_own constrained]
          simp
      | none =>
          dsimp only
          change zoneAbove document.elements rounds (parentOf document.elements element) =
            some zone ↔ _
          cases above : parentOf document.elements element with
          | none =>
              have none := valid.nearestZone_top constrained above zone
              cases rounds <;> simp [zoneAbove, none]
          | some parent =>
              rw [Chain.follow, Option.bind_some, above] at enough
              rw [valid.nearestZone_parent constrained above, ih enough]

/-- `effective_zone` finds the nearest zone. -/
theorem Valid.effectiveZone_iff (element : Element) (zone : String) :
    effectiveZone element document = some zone ↔ NearestZone document element zone :=
  valid.zoneAbove_iff (valid.follow_parentOf element) zone

/-! ## Clones -/

theorem Valid.clone_iff {clone source : String} :
    Clone document.media.zones clone source ↔
      Chain.Step (cloneOf document.media.zones) clone source := by
  unfold Clone Chain.Step cloneOf
  rw [Option.bind_eq_some_iff]
  constructor
  · rintro ⟨zone, member, rfl, cloned⟩
    exact ⟨zone, find_of_distinct valid.zones.distinct member, cloned⟩
  · rintro ⟨zone, found, cloned⟩
    exact ⟨zone, List.mem_of_find?_eq_some found, by simpa using List.find?_some found, cloned⟩

theorem Valid.clone_eq :
    Clone document.media.zones = Chain.Step (cloneOf document.media.zones) := by
  funext clone source
  exact propext valid.clone_iff

theorem Valid.cloneOf_known {id next : String}
    (cloned : cloneOf document.media.zones id = some next) :
    next ∈ document.media.zones.map Zone.id := by
  obtain ⟨zone, found, own⟩ := Option.bind_eq_some_iff.mp cloned
  exact valid.clones zone (List.mem_of_find?_eq_some found) next own

theorem Valid.clonesAcyclic : Chain.Acyclic (cloneOf document.media.zones) := by
  apply Chain.acyclic_of_ends
  intro id next cloned
  obtain ⟨zone, member, rfl⟩ := List.mem_map.mp (cloneOf_support cloned)
  exact valid.cloneChains zone member

omit valid in
theorem clonesTo_iff {zones : List Zone} {source : String} {rounds : Nat}
    {position : Option String} (enough : Chain.follow (cloneOf zones) rounds position = none) :
    clonesTo zones source rounds position = true ↔
      ∃ count, Chain.follow (cloneOf zones) count position = some source := by
  induction rounds generalizing position with
  | zero =>
      have ended : position = none := enough
      simp [clonesTo, ended]
  | succ rounds ih =>
      cases position with
      | none => simp [clonesTo]
      | some id =>
          rw [clonesTo]
          by_cases same : id = source
          · rw [if_pos same]
            exact ⟨fun _ => ⟨0, congrArg some same⟩, fun _ => rfl⟩
          · rw [Chain.follow, Option.bind_some] at enough
            rw [if_neg same, ih enough]
            constructor
            · rintro ⟨count, reached⟩
              exact ⟨count + 1, reached⟩
            · rintro ⟨count, reached⟩
              cases count with
              | zero => exact absurd (Option.some.inj reached) same
              | succ count => exact ⟨count, reached⟩

/-- `zone_clones` follows clones for as long as there are any. -/
theorem Valid.zoneClones_iff (candidate source : String) :
    zoneClones document.media.zones candidate source = true ↔
      Relation.TransGen (Clone document.media.zones) candidate source := by
  have known : ∀ id next, cloneOf document.media.zones id = some next →
      next ∈ (document.media.zones.map Zone.id).toFinset :=
    fun _ _ cloned => List.mem_toFinset.mpr (valid.cloneOf_known cloned)
  have bound : (document.media.zones.map Zone.id).toFinset.card ≤ document.media.zones.length := by
    rw [← document.media.zones.length_map Zone.id]
    exact List.toFinset_card_le _
  unfold zoneClones
  rw [valid.clone_eq, Chain.transGen_iff_follow]
  exact clonesTo_iff (Chain.follow_eq_none valid.clonesAcyclic (known candidate) known bound)

/-! ## The forest -/

theorem Valid.children {group : Element} (member : group ∈ document.elements)
    {children : List String} (grouped : group.children = some children) :
    Children document.elements group.id children := by
  have clean := valid.properties group member
  cases group with
  | group common own =>
      cases grouped
      exact (childErrors_eq_nil.mp clean).1
  | _ => cases grouped

/-- The references of a valid document form forests. -/
theorem Valid.forest : Forest document where
  distinct := valid.ids.2
  children := by
    intro element member group inside children grouped
    constructor
    · intro listed
      rw [← valid.ids.groupOf member]
      exact ((valid.children inside grouped).agree element.id listed).2
    · intro named
      apply (valid.refers element member).listed group.id named
      rw [valid.ids.find inside]
      exact grouped
  groupsAcyclic := by
    intro element
    rw [valid.ids.parent_eq]
    exact valid.acyclic element
  clonesAcyclic := by
    intro id
    rw [valid.clone_eq]
    exact valid.clonesAcyclic id
  groupsResolve := by
    intro element member id named
    exact mem_groupIds.mp ((valid.refers element member).group id named)
  childrenResolve := by
    intro group member children grouped child listed
    have known := ((valid.children member grouped).agree child listed).1
    exact List.mem_map.mp known
  resourcesResolve := by
    intro element member id used
    exact List.mem_map.mp ((valid.refers element member).resources id used)
  zonesResolve := by
    intro element member id used
    exact List.mem_map.mp ((valid.refers element member).zone id used)
  clonesResolve := by
    intro zone member id cloned
    exact List.mem_map.mp (valid.clones zone member id cloned)

end

/-- The loops of validation that look for cycles stop, with the result that validation
uses.  A document that is accepted is a forest, and the bounded walks of rendering see
all of it. -/
theorem validated_forest (base64 : Base64) (sha256 : Sha256) (limits : ProcessingLimits)
    (document : Document) :
    (∀ id, Chain.Searches (cloneOf document.media.zones) [] (some id)
        (Chain.findRepeat (cloneOf document.media.zones) (document.media.zones.length + 2) []
          (some id))) ∧
      (∀ id, Chain.Searches (groupOf document.elements) [] (some id)
        (Chain.findRepeat (groupOf document.elements) (document.elements.length + 2) []
          (some id))) ∧
      (validateWithLimits base64 sha256 limits document = .ok () →
        Forest document ∧
          (∀ element ∈ document.elements,
            (effectivelyVisible element document = true ↔ Visible document element) ∧
            ∀ zone, effectiveZone element document = some zone ↔
              NearestZone document element zone) ∧
          ∀ candidate source, zoneClones document.media.zones candidate source = true ↔
            Relation.TransGen (Clone document.media.zones) candidate source) := by
  refine ⟨searches_zone document.media.zones, searches_group document.elements, ?_⟩
  intro accepted
  have valid := (validateWithLimits_eq_ok base64 sha256 limits document).mp accepted
  refine ⟨valid.forest, ?_, valid.zoneClones_iff⟩
  intro element member
  exact ⟨valid.effectivelyVisible_iff member, valid.effectiveZone_iff element⟩

def twoZones : Media where
  width := 50000
  height := 30000
  dpi := 203
  orientation := .landscape
  printableBounds := ⟨0, 0, 50000, 30000⟩
  shape := .rectangle
  zones := [⟨"left", ⟨0, 0, 25000, 30000⟩, none⟩,
    ⟨"right", ⟨25000, 0, 25000, 30000⟩, some "left"⟩]

/-- A square of one millimetre. -/
def square : Transform := ⟨0, 0, 1000, 1000, 0⟩

def frameCommon : Common where
  id := "frame"
  transform := square
  zOrder := 0
  constraints := some ⟨false, some "left"⟩

def captionCommon : Common where
  id := "caption"
  transform := square
  zOrder := 1
  groupId := some "frame"

def logoCommon : Common where
  id := "picture"
  transform := square
  zOrder := 2
  groupId := some "frame"

/-- A resource of three zero octets. -/
def logo : Resource where
  id := "logo"
  mediaType := "image/png"
  sha256 := "709e80c88487a2411e1ee4dfb9f22a861492d20c4765150c0c794abd70f8147c"
  dataBase64 := "AAAA"

/-- A frame with a caption and a picture. -/
def framedDocument : Document where
  version := 4
  name := "Label"
  media := twoZones
  elements := [.group frameCommon ["caption", "picture"],
    .text captionCommon "Hello" none 3000 .left .top .noWrap, .image logoCommon "logo" none]
  resources := [logo]

/-- A base64 decoder for that resource. -/
def logoBase64 : Base64 := fun payload =>
  if payload = asBytes "AAAA" then some [0, 0, 0] else none

/-- The SHA-256 digest of three zero octets. -/
def logoSha256 : Sha256 := fun _ => ⟨[0x70, 0x9e, 0x80, 0xc8, 0x84, 0x87, 0xa2, 0x41, 0x1e, 0x1e, 0xe4, 0xdf, 0xb9, 0xf2, 0x2a, 0x86,
  0x14, 0x92, 0xd2, 0x0c, 0x47, 0x65, 0x15, 0x0c, 0x0c, 0x79, 0x4a, 0xbd, 0x70, 0xf8, 0x14, 0x7c], rfl⟩

theorem validated_forest_framed :
    validateWithLimits logoBase64 logoSha256 .default framedDocument = .ok () ∧
      Forest framedDocument := by
  have accepted : validateWithLimits logoBase64 logoSha256 .default framedDocument = .ok () := by
    decide +kernel
  exact ⟨accepted, ((validated_forest _ _ _ _).2.2 accepted).1⟩

end PrinterSdk.Label
