import PrinterSdk.Importer.Carried
import PrinterSdk.Importer.LegacyIds

/-!
# Legacy resources

Imported elements refer to resources with their own bytes.  The media type of a resource is that
of the first element with its bytes, so every element finds its own media type exactly when
elements with the same bytes have the same one and the first of them names it.
-/

namespace PrinterSdk.Importer

open PrinterSdk.Data PrinterSdk.Label PrinterSdk.Label.Entries

section

variable (x : Externals)

/-- What a node carries. -/
def Node.carried (node : Node) : Option Carried := Importer.carried x (.object node.entries)

/-- The resource that a node makes. -/
def Node.load (node : Node) : Option Resource := Importer.load x (.object node.entries)

/-- A node carries a data URL that names no media type. -/
def Node.NamesNoMedia (node : Node) : Prop :=
  ∃ embed payload, embedded x (.object node.entries) = some embed ∧
    splitData embed.data embed.fallback = some ("", payload)

variable (v out : Json)

/-- A node of the document has the bytes. -/
def Node.Has (node : Node) (bytes : Bytes) : Prop :=
  NodeOf readMembers v node ∧ ∃ own, node.carried x = some own ∧ own.bytes = some bytes

/-- The bytes of the document are decoded as they were encoded. -/
def RoundTrip : Prop :=
  ∀ (node : Node) (bytes : Bytes), node.Has x v bytes →
    x.base64 (asBytes (x.encode bytes)) = some bytes

/-- No two payloads have digests with the same first 64 bits. -/
def NoCollision : Prop :=
  ∀ (first second : Node) (one two : Bytes), first.Has x v one → second.Has x v two →
    (x.sha256 one).1.take 8 = (x.sha256 two).1.take 8 → one = two

/-- The resources of an imported document. -/
def importedResources : List Json := ((out.get "resources").bind Json.asArray).getD []

/-- An element refers to a resource with the bytes and the media type of its node. -/
def RefersToOwn (node : Node) (e : Json) : Prop :=
  ∀ own, node.carried x = some own → ∃ id bytes, ∃ resource ∈ importedResources out,
    e.get own.key = some (.string id) ∧ resource.get "id" = some (.string id) ∧
      own.bytes = some bytes ∧
        (((resource.get "dataBase64").bind Json.asStr).bind fun text => x.base64 (asBytes text)) =
          some bytes ∧
        resource.get "mediaType" = some (.string own.media)

/-- All imported elements refer to resources with their own bytes and media types. -/
def ResourcesKept : Prop :=
  ∃ nodes, Enumerates Node.path (NodeOf readMembers v) nodes ∧
    List.Forall₂ (RefersToOwn x out) nodes (importedElements out)

/-- Nodes with the same bytes have the same media type. -/
def MediaAlike : Prop :=
  ∀ first second one two bytes, NodeOf readMembers v first → NodeOf readMembers v second →
    first.carried x = some one → second.carried x = some two → one.bytes = some bytes →
      two.bytes = some bytes → one.media = two.media

/-- A node whose data URL names no media type is not the first one with its bytes. -/
def FirstNamed : Prop :=
  ∀ (node : Node) (bytes : Bytes), node.Has x v bytes → node.NamesNoMedia x →
    ∃ earlier : Node, Before earlier.path node.path ∧ earlier.Has x v bytes

end

/-! ## What nodes carry -/

section

variable {x : Externals}

theorem splitData_svg (payload fallback : String) :
    splitData ("data:image/svg+xml;base64," ++ payload) fallback =
      some ("image/svg+xml", payload) := by
  have rest : ("data:image/svg+xml;base64," ++ payload).toList.dropPrefix? "data:".toList =
      some ("image/svg+xml;base64".toList ++ ',' :: payload.toList) := by
    rw [String.toList_append]
    rfl
  rw [splitData, rest]
  change (splitOnce ',' _).map _ = _
  rw [splitOnce_append (by decide), Option.map_some, String.ofList_toList]
  rfl

/-- The text of a vector image is carried as its bytes. -/
theorem carriedData_svg {data : String} (vector : (trimStart data.toList).head? = some '<')
    (roundTrip : x.base64 (asBytes (x.encode (asBytes data))) = some (asBytes data)) :
    carriedData x "resource" "image/svg+xml" (svgEncoded x data) =
      ⟨"resource", some (asBytes data), "image/svg+xml"⟩ := by
  have encoded : svgEncoded x data = "data:image/svg+xml;base64," ++ x.encode (asBytes data) :=
    if_pos vector
  rw [encoded, carriedData, ownBytes, ownMedia, splitData_svg, Option.bind_some, roundTrip]
  rfl

/-- What an element carries is what its embedded data says. -/
theorem carried_eq {e : Json}
    (roundTrip : ∀ own bytes, carried x e = some own → own.bytes = some bytes →
      x.base64 (asBytes (x.encode bytes)) = some bytes) :
    carried x e = (embedded x e).map fun embed =>
      carriedData x embed.key embed.fallback embed.data := by
  rw [carried] at roundTrip ⊢
  rw [embedded]
  split
  · rw [Option.map_map]
    rfl
  · next text =>
      rw [if_neg text] at roundTrip
      split
      · rw [Option.map_map]
        rfl
      · next image =>
          rw [if_neg image] at roundTrip
          split
          · next svg =>
              rw [if_pos svg] at roundTrip
              cases found : svgData e with
              | none => rfl
              | some data =>
                  rw [found] at roundTrip
                  by_cases vector : (trimStart data.toList).head? = some '<'
                  · have own := roundTrip _ (asBytes data) rfl (by simp only [if_pos vector])
                    simp only [Option.map_some, if_pos vector, carriedData_svg vector own]
                  · have encoded : svgEncoded x data = data := if_neg vector
                    simp only [Option.map_some, if_neg vector, encoded]
          · rfl

theorem embedded_fallback {e : Json} {embed : Embedded} (found : embedded x e = some embed) :
    embed.fallback ≠ "" := by
  rw [embedded] at found
  split_ifs at found
  all_goals
    obtain ⟨data, -, rfl⟩ := Option.map_eq_some_iff.mp found
    simp

theorem embedded_key {e : Json} {embed : Embedded} (found : embedded x e = some embed) :
    embed.key ≠ "groupId" := by
  rw [embedded] at found
  split_ifs at found
  all_goals
    obtain ⟨data, -, rfl⟩ := Option.map_eq_some_iff.mp found
    simp

theorem Node.embedded_flattened (node : Node) :
    embedded x node.flattened = embedded x (.object node.entries) := by
  have same (key : String) (notId : key ≠ "id") (notChildren : key ≠ "children")
      (notElements : key ≠ "elements") :
      node.flattened.get key = (Json.object node.entries).get key :=
    node.flattened_get notId notChildren notElements
  have type : elementType node.flattened = elementType (.object node.entries) := by
    rw [elementType, elementType, same "type" (by decide) (by decide) (by decide)]
  have image : imageData node.flattened = imageData (.object node.entries) := by
    rw [imageData, imageData, same "imageData" (by decide) (by decide) (by decide),
      same "src" (by decide) (by decide) (by decide)]
  have svg : svgData node.flattened = svgData (.object node.entries) := by
    rw [svgData, svgData, same "svgData" (by decide) (by decide) (by decide),
      same "svg" (by decide) (by decide) (by decide)]
  rw [embedded, embedded, type, image, svg, same "fontData" (by decide) (by decide) (by decide)]

/-- What a node carries makes a resource of its bytes, with the media type that its data names. -/
structure Loads (x : Externals) (node : Node) (own : Carried) (media : String) (bytes : Bytes) :
    Prop where
  carries : node.carried x = some own
  content : own.bytes = some bytes
  load : node.load x = some (resourceOf x media bytes)
  either : own.media = media ∨ media = ""
  unnamed : node.NamesNoMedia x ↔ media = ""
  named : own.media ≠ ""

/-- Ids of resources are the first 64 bits of digests. -/
theorem digest_of_id {media other : String} {one two : Bytes}
    (same : (resourceOf x media one).id = (resourceOf x other two).id) :
    (x.sha256 one).1.take 8 = (x.sha256 two).1.take 8 := by
  have texts := congrArg String.toList same
  simp only [resourceOf, resourceId, String.toList_append, String.toList_ofList] at texts
  exact take_of_hexBytes (List.append_cancel_left texts)

end

section

variable {x : Externals} {v out : Json}

theorem Node.carried_eq (roundTrip : RoundTrip x v) {node : Node}
    (isNode : NodeOf readMembers v node) :
    node.carried x = (embedded x (.object node.entries)).map fun embed =>
      carriedData x embed.key embed.fallback embed.data :=
  Importer.carried_eq fun own bytes carries content =>
    roundTrip node bytes ⟨isNode, own, carries, content⟩

theorem exists_loads (roundTrip : RoundTrip x v) {node : Node} {resource : Resource}
    (isNode : NodeOf readMembers v node) (isLoad : node.load x = some resource) :
    ∃ own media bytes, Loads x node own media bytes ∧ resource = resourceOf x media bytes := by
  obtain ⟨embed, found, loads⟩ := Option.bind_eq_some_iff.mp isLoad
  obtain ⟨⟨media, payload⟩, split, made⟩ := Option.bind_eq_some_iff.mp loads
  obtain ⟨bytes, decoded, rfl⟩ := Option.map_eq_some_iff.mp made
  have isMedia : ownMedia embed.data embed.fallback = mediaOr media embed.fallback := by
    rw [ownMedia, split]
    rfl
  refine ⟨carriedData x embed.key embed.fallback embed.data, media, bytes, ?_, rfl⟩
  constructor
  · rw [node.carried_eq roundTrip isNode, found]
    rfl
  · rw [carriedData, ownBytes, split]
    exact decoded
  · exact isLoad
  · rw [carriedData, isMedia, mediaOr]
    split
    · next empty => exact .inr empty
    · exact .inl rfl
  · constructor
    · rintro ⟨other, rest, isOther, splits⟩
      rw [found] at isOther
      cases isOther
      rw [split] at splits
      exact congrArg Prod.fst (Option.some.inj splits)
    · rintro rfl
      exact ⟨embed, payload, found, split⟩
  · rw [carriedData, isMedia, mediaOr]
    split
    · exact embedded_fallback found
    · next filled => exact filled

/-- A document is imported with a resource for each content. -/
theorem ImportSteps.resources_eq (steps : ImportSteps x v out) :
    steps.resources = appendFresh Resource.sha256 [] (steps.nodes.filterMap (Node.load x)) := by
  have loads := (convertFrom_loads (by simp [Named]) steps.conversion).2
  have same : Importer.load x ∘ Node.flattened = Node.load x := by
    funext node
    rw [Function.comp_apply, Importer.load, node.embedded_flattened]
    rfl
  rw [loads, List.filterMap_map, same]

/-- A node's element refers to the resource that the node makes. -/
theorem ImportSteps.refers (steps : ImportSteps x v out) (roundTrip : RoundTrip x v) :
    List.Forall₂ (fun node e => NodeOf readMembers v node ∧ ∀ own, node.carried x = some own →
      ∃ media bytes, Loads x node own media bytes ∧
        e.get own.key = some (.string (resourceOf x media bytes).id)) steps.nodes
      (importedElements out) := by
  obtain ⟨converted, isConverted, refers⟩ :=
    (convertFrom_loads (by simp [Named]) steps.conversion).1
  rw [List.nil_append] at isConverted
  rw [steps.elements, isConverted]
  have joined := regrouped_joinGroups converted (memberships converted)
  have members := (List.forall₂_and_left _ _).mpr
    ⟨fun node => (steps.enumerates.exact node).mp,
      forall₂_comp (List.forall₂_map_left_iff.mp refers) joined⟩
  apply members.imp
  rintro node e ⟨isNode, between, refers, regrouped⟩
  refine ⟨isNode, ?_⟩
  intro own carries
  rw [node.carried_eq roundTrip isNode] at carries
  obtain ⟨embed, found, rfl⟩ := Option.map_eq_some_iff.mp carries
  obtain ⟨resource, loads, isId⟩ := refers embed (node.embedded_flattened.trans found)
  have isLoad : node.load x = some resource := by
    rw [Node.load, Importer.load, found, Option.bind_some, loads]
  obtain ⟨own, media, bytes, all, rfl⟩ := exists_loads roundTrip isNode isLoad
  have same := all.carries
  rw [node.carried_eq roundTrip isNode, found] at same
  cases same
  exact ⟨media, bytes, all, (regrouped _ (embedded_key found)).trans isId⟩

/-- A resource is that of the first node with its hash. -/
theorem ImportSteps.mem_resources (steps : ImportSteps x v out) {resource : Resource} :
    resource ∈ steps.resources ↔ ∃ node, NodeOf readMembers v node ∧
      node.load x = some resource ∧ ∀ earlier, NodeOf readMembers v earlier →
        Before earlier.path node.path → ∀ made, earlier.load x = some made →
          made.sha256 ≠ resource.sha256 := by
  have all := steps.enumerates
  rw [steps.resources_eq, mem_appendFresh_filterMap]
  constructor
  · rintro ⟨before, node, after, split, isLoad, first⟩
    rw [split] at all
    have member : node ∈ before ++ node :: after := List.mem_append_right _ List.mem_cons_self
    refine ⟨node, (all.exact node).mp member, isLoad, ?_⟩
    intro earlier isNode comes
    exact first earlier (all.mem_before.mpr ⟨isNode, comes⟩)
  · rintro ⟨node, isNode, isLoad, first⟩
    obtain ⟨before, after, split⟩ := List.append_of_mem ((all.exact node).mpr isNode)
    rw [split] at all
    refine ⟨before, node, after, split, isLoad, ?_⟩
    intro other member
    obtain ⟨isOther, comes⟩ := all.mem_before.mp member
    exact first other isOther comes

theorem Loads.has {node : Node} {own : Carried} {media : String} {bytes : Bytes}
    (loads : Loads x node own media bytes) (isNode : NodeOf readMembers v node) :
    node.Has x v bytes := ⟨isNode, own, loads.carries, loads.content⟩

/-- A node with some bytes makes a resource of them. -/
theorem ImportSteps.loads (steps : ImportSteps x v out) (roundTrip : RoundTrip x v) {node : Node}
    {bytes : Bytes} (has : node.Has x v bytes) : ∃ own media, Loads x node own media bytes := by
  obtain ⟨isNode, own, carries, content⟩ := has
  have member := (steps.enumerates.exact node).mpr isNode
  obtain ⟨e, -, -, refers⟩ := exists_left_of_mem (steps.refers roundTrip).flip member
  obtain ⟨media, found, loads, -⟩ := refers own carries
  rw [loads.content] at content
  cases content
  exact ⟨own, media, loads⟩

/-- A resource is made of the bytes of a node, and no node with these bytes comes before it. -/
theorem ImportSteps.first_loads (steps : ImportSteps x v out) (roundTrip : RoundTrip x v)
    {resource : Resource} (member : resource ∈ steps.resources) :
    ∃ node own media bytes, NodeOf readMembers v node ∧ Loads x node own media bytes ∧
      resource = resourceOf x media bytes ∧
        ∀ earlier : Node, earlier.Has x v bytes → ¬Before earlier.path node.path := by
  obtain ⟨node, isNode, isLoad, first⟩ := steps.mem_resources.mp member
  obtain ⟨own, media, bytes, loads, rfl⟩ := exists_loads roundTrip isNode isLoad
  refine ⟨node, own, media, bytes, isNode, loads, rfl, ?_⟩
  intro earlier has comes
  obtain ⟨other, named, also⟩ := steps.loads roundTrip has
  exact first earlier has.1 comes _ also.load rfl

/-- There is one resource for each content. -/
theorem ImportSteps.resource_unique (steps : ImportSteps x v out) {media other : String}
    {bytes : Bytes} (isFirst : resourceOf x media bytes ∈ steps.resources)
    (isSecond : resourceOf x other bytes ∈ steps.resources) : media = other := by
  have distinct : (steps.resources.map Resource.sha256).Nodup := by
    rw [steps.resources_eq]
    exact nodup_appendFresh (by simp) _
  exact congrArg Resource.mediaType (List.inj_on_of_nodup_map distinct isFirst isSecond rfl)

/-- Nodes whose resources have the same id have the same bytes. -/
theorem NoCollision.eq_of_id (apart : NoCollision x v) {first second : Node} {one two : Bytes}
    {media other : String} (isFirst : first.Has x v one) (isSecond : second.Has x v two)
    (same : (resourceOf x media one).id = (resourceOf x other two).id) : one = two :=
  apart first second one two isFirst isSecond (digest_of_id same)

theorem NoCollision.eq_of_sha256 (apart : NoCollision x v) {first second : Node} {one two : Bytes}
    {media other : String} (isFirst : first.Has x v one) (isSecond : second.Has x v two)
    (same : (resourceOf x media one).sha256 = (resourceOf x other two).sha256) : one = two := by
  have ids : (resourceOf x media one).id = (resourceOf x other two).id := congrArg resourceId same
  exact apart.eq_of_id isFirst isSecond ids

/-- Every node has a resource of its bytes with its own media type. -/
def ImportSteps.StoresOwn (steps : ImportSteps x v out) : Prop :=
  ∀ node own media bytes, NodeOf readMembers v node → Loads x node own media bytes →
    resourceOf x own.media bytes ∈ steps.resources

theorem ImportSteps.importedResources_eq (steps : ImportSteps x v out) :
    importedResources out = steps.resources.map resourceJson := by
  rw [importedResources, steps.stored]
  rfl

/-- An element that refers to a resource with its own media type refers to one of its bytes. -/
theorem ImportSteps.storesOwn_of_kept (steps : ImportSteps x v out) (roundTrip : RoundTrip x v)
    (apart : NoCollision x v) (kept : ResourcesKept x v out) : steps.StoresOwn := by
  obtain ⟨nodes, enumerates, kept⟩ := kept
  intro node own media bytes isNode loads
  rw [enumerates.unique steps.enumerates] at kept
  have both := kept.mp (fun _ _ one two => And.intro one two) (steps.refers roundTrip)
  obtain ⟨e, -, refersToOwn, -, refers⟩ :=
    exists_left_of_mem both.flip ((steps.enumerates.exact node).mpr isNode)
  obtain ⟨id, own', json, member, isId, jsonId, -, -, isMedia⟩ := refersToOwn own loads.carries
  obtain ⟨media', bytes', loads', isOwnId⟩ := refers own loads.carries
  rw [steps.importedResources_eq] at member
  obtain ⟨resource, inside, rfl⟩ := List.mem_map.mp member
  obtain ⟨other, _, name, content, isOther, otherLoads, rfl, -⟩ :=
    steps.first_loads roundTrip inside
  have sameId : (resourceOf x media' bytes').id = (resourceOf x name content).id := by
    have ids := isOwnId.symm.trans (isId.trans jsonId.symm)
    exact Json.string.inj (Option.some.inj ids)
  cases loads.content.symm.trans loads'.content
  have contents := apart.eq_of_id (loads.has isNode) (otherLoads.has isOther) sameId
  have names : name = own.media := Json.string.inj (Option.some.inj isMedia)
  rw [contents, ← names]
  exact inside

/-- Elements refer to resources with their own media types when there are such resources. -/
theorem ImportSteps.kept_iff (steps : ImportSteps x v out) (roundTrip : RoundTrip x v)
    (apart : NoCollision x v) : ResourcesKept x v out ↔ steps.StoresOwn := by
  constructor
  · exact steps.storesOwn_of_kept roundTrip apart
  · intro all
    refine ⟨steps.nodes, steps.enumerates, ?_⟩
    apply (steps.refers roundTrip).imp
    rintro node e ⟨isNode, refers⟩ own carries
    obtain ⟨media, bytes, loads, isId⟩ := refers own carries
    have inside := all node own media bytes isNode loads
    refine ⟨_, bytes, resourceJson (resourceOf x own.media bytes), ?_, isId, rfl, loads.content,
      roundTrip node bytes (loads.has isNode), rfl⟩
    rw [steps.importedResources_eq]
    exact List.mem_map_of_mem inside

/-- The first node with some bytes makes the resource of them. -/
theorem ImportSteps.exists_first (steps : ImportSteps x v out) (roundTrip : RoundTrip x v)
    (apart : NoCollision x v) {node : Node} {own : Carried} {media : String} {bytes : Bytes}
    (isNode : NodeOf readMembers v node) (loads : Loads x node own media bytes) :
    ∃ first own media, NodeOf readMembers v first ∧ Loads x first own media bytes ∧
      resourceOf x media bytes ∈ steps.resources ∧
        ∀ earlier : Node, earlier.Has x v bytes → ¬Before earlier.path first.path := by
  have listed : HasKey Resource.sha256 steps.resources (resourceOf x media bytes).sha256 := by
    rw [steps.resources_eq, hasKey_appendFresh]
    refine .inr ⟨_, List.mem_filterMap.mpr ⟨node, ?_, loads.load⟩, rfl⟩
    exact (steps.enumerates.exact node).mpr isNode
  obtain ⟨resource, member, same⟩ := listed
  obtain ⟨first, own', media', bytes', isFirst, firstLoads, rfl, none⟩ :=
    steps.first_loads roundTrip member
  cases apart.eq_of_sha256 (firstLoads.has isFirst) (loads.has isNode) same
  exact ⟨first, own', media', isFirst, firstLoads, member, none⟩

/-- A node that no node with the same bytes comes before makes a resource. -/
theorem ImportSteps.stored_of_first (steps : ImportSteps x v out) (roundTrip : RoundTrip x v)
    (apart : NoCollision x v) {node : Node} {own : Carried} {media : String} {bytes : Bytes}
    (isNode : NodeOf readMembers v node) (loads : Loads x node own media bytes)
    (first : ∀ earlier : Node, earlier.Has x v bytes → ¬Before earlier.path node.path) :
    resourceOf x media bytes ∈ steps.resources := by
  refine steps.mem_resources.mpr ⟨node, isNode, loads.load, ?_⟩
  intro earlier isEarlier comes made isLoad same
  obtain ⟨own', media', bytes', loads', rfl⟩ := exists_loads roundTrip isEarlier isLoad
  cases apart.eq_of_sha256 (loads'.has isEarlier) (loads.has isNode) same
  exact first earlier (loads'.has isEarlier) comes

theorem ImportSteps.StoresOwn.alike {steps : ImportSteps x v out} (stores : steps.StoresOwn)
    (roundTrip : RoundTrip x v) : MediaAlike x v := by
  intro first second one two bytes isFirst isSecond carries also content same
  obtain ⟨own, media, loads⟩ := steps.loads roundTrip ⟨isFirst, one, carries, content⟩
  obtain ⟨own', media', loads'⟩ := steps.loads roundTrip ⟨isSecond, two, also, same⟩
  cases loads.carries.symm.trans carries
  cases loads'.carries.symm.trans also
  exact steps.resource_unique (stores first _ _ _ isFirst loads)
    (stores second _ _ _ isSecond loads')

theorem ImportSteps.StoresOwn.firstNamed {steps : ImportSteps x v out} (stores : steps.StoresOwn)
    (roundTrip : RoundTrip x v) (apart : NoCollision x v) : FirstNamed x v := by
  intro node bytes has unnamed
  by_contra none
  obtain ⟨own, media, loads⟩ := steps.loads roundTrip has
  have first : ∀ earlier : Node, earlier.Has x v bytes → ¬Before earlier.path node.path := by
    intro earlier hasToo comes
    exact none ⟨earlier, comes, hasToo⟩
  have stored := steps.stored_of_first roundTrip apart has.1 loads first
  have same := steps.resource_unique (stores node _ _ _ has.1 loads) stored
  exact loads.named (same.trans (loads.unnamed.mp unnamed))

/-- Elements keep their bytes and media types exactly when elements with the same bytes have the
same media type and the first of them names it. -/
theorem import_resources_iff {input : String} (parsed : x.fromStr input = .ok v)
    (imported : importV3 x input = .ok out) (roundTrip : RoundTrip x v) (apart : NoCollision x v) :
    ResourcesKept x v out ↔ MediaAlike x v ∧ FirstNamed x v := by
  obtain ⟨steps⟩ := importSteps (importDocument_of_importV3 parsed imported)
  rw [steps.kept_iff roundTrip apart]
  constructor
  · intro stores
    exact ⟨stores.alike roundTrip, stores.firstNamed roundTrip apart⟩
  · rintro ⟨alike, firstNamed⟩ node own media bytes isNode loads
    obtain ⟨first, own', media', isFirst, firstLoads, stored, none⟩ :=
      steps.exists_first roundTrip apart isNode loads
    have same := alike first node own' own bytes isFirst isNode firstLoads.carries loads.carries
      firstLoads.content loads.content
    rcases firstLoads.either with named | empty
    · rw [← same, named]
      exact stored
    · obtain ⟨earlier, comes, has⟩ :=
        firstNamed first bytes (firstLoads.has isFirst) (firstLoads.unnamed.mpr empty)
      exact absurd comes (none earlier has)

end

/-! A document of two images whose data is three zero octets. -/

def pngImage : Entries :=
  [("type", .string "image"), ("src", .string "data:image/png;base64,AAAA")]

theorem pngImage_leaf : rawType pngImage ≠ "group" := by decide

/-- The same bytes under another media type. -/
def jpegImage : Entries :=
  [("type", .string "image"), ("src", .string "data:image/jpeg;base64,AAAA")]

theorem jpegImage_leaf : rawType jpegImage ≠ "group" := by decide

/-- The same bytes without a media type. -/
def bareImage : Entries := [("type", .string "image"), ("src", .string "AAAA")]

theorem bareImage_leaf : rawType bareImage ≠ "group" := by decide

def copied : List Json := [.object pngImage, .object bareImage]

def copiedInput : String :=
  "\x7b\"version\":3,\"widthMm\":3,\"heightMm\":3,\"elements\":[" ++
    "\x7b\"type\":\"image\",\"src\":\"data:image/png;base64,AAAA\"\x7d," ++
    "\x7b\"type\":\"image\",\"src\":\"AAAA\"\x7d]\x7d"

def mixed : List Json := [.object pngImage, .object jpegImage]

def mixedInput : String :=
  "\x7b\"version\":3,\"widthMm\":3,\"heightMm\":3,\"elements\":[" ++
    "\x7b\"type\":\"image\",\"src\":\"data:image/png;base64,AAAA\"\x7d," ++
    "\x7b\"type\":\"image\",\"src\":\"data:image/jpeg;base64,AAAA\"\x7d]\x7d"

theorem splitData_png :
    splitData "data:image/png;base64,AAAA" "image/png" = some ("image/png", "AAAA") := by decide

theorem splitData_jpeg :
    splitData "data:image/jpeg;base64,AAAA" "image/png" = some ("image/jpeg", "AAAA") := by decide

theorem splitData_bare : splitData "AAAA" "image/png" = some ("image/png", "AAAA") := by decide

section

variable {input : String} {elements : List Json}

theorem carried_sample {entries : Entries} {source media : String}
    (type : elementType (.object entries) = "image")
    (data : imageData (.object entries) = some source)
    (split : splitData source "image/png" = some (media, "AAAA")) :
    carried (sampleExternals input elements) (.object entries) =
      some ⟨"resource", some [0, 0, 0], mediaOr media "image/png"⟩ := by
  rw [carried, type, data, if_neg (by decide), if_pos rfl, Option.map_some, carriedData, ownBytes,
    ownMedia, split]
  rfl

theorem carried_pngImage :
    carried (sampleExternals input elements) (.object pngImage) =
      some ⟨"resource", some [0, 0, 0], "image/png"⟩ :=
  carried_sample rfl rfl splitData_png

theorem carried_jpegImage :
    carried (sampleExternals input elements) (.object jpegImage) =
      some ⟨"resource", some [0, 0, 0], "image/jpeg"⟩ :=
  carried_sample rfl rfl splitData_jpeg

theorem carried_bareImage :
    carried (sampleExternals input elements) (.object bareImage) =
      some ⟨"resource", some [0, 0, 0], "image/png"⟩ :=
  carried_sample rfl rfl splitData_bare

/-- All bytes of such a document are three zero octets. -/
theorem has_images {second : Entries} {media : String} (leaf : rawType second ≠ "group")
    (carries : carried (sampleExternals input elements) (.object second) =
      some ⟨"resource", some [0, 0, 0], media⟩) {node : Node} {bytes : Bytes}
    (has : node.Has (sampleExternals input elements)
      (sampleDocument [.object pngImage, .object second]) bytes) : bytes = [0, 0, 0] := by
  obtain ⟨isNode, own, isOwn, content⟩ := has
  rcases (nodeOf_leaves pngImage_leaf leaf).mp isNode with rfl | rfl
  · cases carried_pngImage.symm.trans isOwn
    exact (Option.some.inj content).symm
  · cases carries.symm.trans isOwn
    exact (Option.some.inj content).symm

theorem roundTrip_of_zeros {v : Json}
    (zeros : ∀ (node : Node) (bytes : Bytes),
      node.Has (sampleExternals input elements) v bytes → bytes = [0, 0, 0]) :
    RoundTrip (sampleExternals input elements) v := by
  intro node bytes has
  rw [zeros node bytes has]
  rfl

theorem noCollision_of_zeros {v : Json}
    (zeros : ∀ (node : Node) (bytes : Bytes),
      node.Has (sampleExternals input elements) v bytes → bytes = [0, 0, 0]) :
    NoCollision (sampleExternals input elements) v := by
  intro first second one two isFirst isSecond _
  rw [zeros first one isFirst, zeros second two isSecond]

end

theorem import_resources_iff_copied :
    ∃ out, importV3 (sampleExternals copiedInput copied) copiedInput = .ok out ∧
      ResourcesKept (sampleExternals copiedInput copied) (sampleDocument copied) out := by
  have zeros (node : Node) (bytes : Bytes) := @has_images copiedInput copied bareImage _
    bareImage_leaf carried_bareImage node bytes
  obtain ⟨out, imported⟩ := importV3_sample (flattenFrom_leaves pngImage_leaf bareImage_leaf)
    (show (convertFrom (sampleExternals copiedInput copied) _ _ _ _ _).isOk = true by decide +kernel)
  refine ⟨out, imported, (import_resources_iff (fromStr_sample _ _) imported
    (roundTrip_of_zeros zeros) (noCollision_of_zeros zeros)).mpr ⟨?_, ?_⟩⟩
  · intro first second one two bytes isFirst isSecond carries also content same
    have png {node : Node} {own : Carried} (isNode : NodeOf readMembers (sampleDocument copied) node)
        (carries : node.carried (sampleExternals copiedInput copied) = some own) :
        own.media = "image/png" := by
      rcases (nodeOf_leaves pngImage_leaf bareImage_leaf).mp isNode with rfl | rfl
      · cases carried_pngImage.symm.trans carries
        rfl
      · cases carried_bareImage.symm.trans carries
        rfl
    rw [png isFirst carries, png isSecond also]
  · intro node bytes has unnamed
    obtain ⟨embed, payload, found, split⟩ := unnamed
    rcases (nodeOf_leaves pngImage_leaf bareImage_leaf).mp has.1 with rfl | rfl
    · cases found
      have names : "image/png" = "" :=
        congrArg Prod.fst (Option.some.inj (splitData_png.symm.trans split))
      exact absurd names (by decide)
    · cases found
      have names : "image/png" = "" :=
        congrArg Prod.fst (Option.some.inj (splitData_bare.symm.trans split))
      exact absurd names (by decide)

/-- The second image refers to a resource with the media type of the first one. -/
theorem mixed_media_lost :
    ∃ out, importV3 (sampleExternals mixedInput mixed) mixedInput = .ok out ∧
      RoundTrip (sampleExternals mixedInput mixed) (sampleDocument mixed) ∧
      NoCollision (sampleExternals mixedInput mixed) (sampleDocument mixed) ∧
      ¬ResourcesKept (sampleExternals mixedInput mixed) (sampleDocument mixed) out := by
  have zeros (node : Node) (bytes : Bytes) := @has_images mixedInput mixed jpegImage _
    jpegImage_leaf carried_jpegImage node bytes
  have roundTrip := roundTrip_of_zeros zeros
  have apart := noCollision_of_zeros zeros
  obtain ⟨out, imported⟩ := importV3_sample (flattenFrom_leaves pngImage_leaf jpegImage_leaf)
    (show (convertFrom (sampleExternals mixedInput mixed) _ _ _ _ _).isOk = true by decide +kernel)
  refine ⟨out, imported, roundTrip, apart, ?_⟩
  obtain ⟨steps⟩ := importSteps (importDocument_of_importV3 (fromStr_sample _ _) imported)
  intro kept
  have all := (steps.kept_iff roundTrip apart).mp kept
  have isFirst := (@nodeOf_leaves _ _ pngImage_leaf jpegImage_leaf readMembers _).mpr (.inl rfl)
  have isSecond := (@nodeOf_leaves _ _ pngImage_leaf jpegImage_leaf readMembers _).mpr (.inr rfl)
  have same := all.alike roundTrip _ _ _ _ _ isFirst isSecond carried_pngImage carried_jpegImage
    rfl rfl
  exact absurd same (by decide)

end PrinterSdk.Importer
