import Mathlib.Order.Interval.Finset.Nat
import PrinterSdk.Label.Batch
import PrinterSdk.Label.Forest

/-!
# Validity of batches

The pages of a batch are valid exactly when the rewritten identifiers stay apart: from
each other on a page, and from the identifiers of the resources, which are not
rewritten.
-/

namespace PrinterSdk.Label

open PrinterSdk.Data

/-! ## Resources under other limits -/

/-- The base64 decoder only accepts padded text, and yields three octets or less for
four characters. -/
def Padded (base64 : Base64) : Prop :=
  ∀ payload bytes, base64 payload = some bytes →
    payload.length % 4 = 0 ∧ bytes.length ≤ payload.length / 4 * 3

theorem estimatedDecodedLen_eq_some {length estimate : Nat} :
    estimatedDecodedLen length = some estimate ↔
      length + 3 ≤ usizeMax ∧ estimate = (length + 3) / 4 * 3 := by
  unfold estimatedDecodedLen
  rw [Option.bind_eq_some_iff]
  constructor
  · rintro ⟨padded, added, multiplied⟩
    obtain ⟨fits, rfl⟩ := checkedAdd_eq_some.mp added
    exact ⟨fits, (checkedMul_eq_some.mp multiplied).2.symm⟩
  · rintro ⟨fits, rfl⟩
    refine ⟨length + 3, checkedAdd_eq_some.mpr ⟨fits, rfl⟩, checkedMul_eq_some.mpr ⟨?_, rfl⟩⟩
    omega

theorem base64Payload_length (data : String) :
    (base64Payload data).length ≤ (asBytes data).length := by
  unfold base64Payload
  split
  · cases split : splitOnce 0x2c ((asBytes data).drop 5) with
    | none => exact Nat.le_refl _
    | some parts =>
        obtain ⟨head, payload⟩ := parts
        have joined := congrArg List.length (splitOnce_eq_some.mp split).2
        rw [List.length_drop, List.length_append, List.length_cons] at joined
        dsimp only
        omega
  · exact Nat.le_refl _

section

variable {base64 : Base64} {sha256 : Sha256} {limits : ProcessingLimits}

theorem decodedBytesWithLimits_eq_ok {resource : Resource} {bytes : Bytes} :
    decodedBytesWithLimits base64 limits resource = .ok bytes ↔
      (asBytes resource.dataBase64).length ≤ limits.maxResourceBytes ∧
        (base64Payload resource.dataBase64).length + 3 ≤ usizeMax ∧
        ((base64Payload resource.dataBase64).length + 3) / 4 * 3 ≤
          limits.maxDecodedResourceBytes ∧
        base64 (base64Payload resource.dataBase64) = some bytes ∧
        bytes.length ≤ limits.maxDecodedResourceBytes := by
  unfold decodedBytesWithLimits
  by_cases large : (asBytes resource.dataBase64).length > limits.maxResourceBytes
  · rw [if_pos large]
    simp [Nat.not_le_of_lt large]
  rw [if_neg large]
  cases estimate : estimatedDecodedLen (base64Payload resource.dataBase64).length with
  | none =>
      have overlong : ¬(base64Payload resource.dataBase64).length + 3 ≤ usizeMax := by
        intro fits
        rw [estimatedDecodedLen_eq_some.mpr ⟨fits, rfl⟩] at estimate
        cases estimate
      simp [overlong]
  | some estimated =>
      obtain ⟨fits, rfl⟩ := estimatedDecodedLen_eq_some.mp estimate
      dsimp only
      cases decoded : base64 (base64Payload resource.dataBase64) with
      | none => split <;> simp
      | some found =>
          simp only [Option.some.injEq]
          constructor
          · intro accepted
            split at accepted
            · cases accepted
            · split at accepted
              · cases accepted
              · cases accepted
                exact ⟨by omega, fits, by omega, rfl, by omega⟩
          · rintro ⟨-, -, small, rfl, short⟩
            rw [if_neg (by omega), if_neg (by omega)]

theorem contentErrors_eq_nil {resource : Resource} :
    contentErrors base64 sha256 limits resource = [] ↔
      ((asBytes resource.sha256).length = 64 ∧
        (asBytes resource.sha256).all isHexDigit = true) ∧
        ∃ bytes, decodedBytesWithLimits base64 limits resource = .ok bytes ∧
          hexBytes (sha256 bytes).1 = resource.sha256 := by
  unfold contentErrors
  rw [List.append_eq_nil_iff, failIf_eq_nil, not_or]
  cases decodedBytesWithLimits base64 limits resource with
  | ok bytes => simp
  | error error => cases error <;> simp

/-- Resources that were accepted are accepted under other limits that their sizes
respect. -/
theorem contentErrors_of_within {other : ProcessingLimits} (padded : Padded base64)
    {resource : Resource} (clean : contentErrors base64 sha256 other resource = [])
    (encoded : (asBytes resource.dataBase64).length ≤ limits.maxResourceBytes)
    (decoded : ((asBytes resource.dataBase64).length + 3) / 4 * 3 ≤
      limits.maxDecodedResourceBytes) :
    contentErrors base64 sha256 limits resource = [] := by
  obtain ⟨form, bytes, accepted, hash⟩ := contentErrors_eq_nil.mp clean
  obtain ⟨-, fits, -, decodes, -⟩ := decodedBytesWithLimits_eq_ok.mp accepted
  have shorter := base64Payload_length resource.dataBase64
  obtain ⟨-, few⟩ := padded _ _ decodes
  refine contentErrors_eq_nil.mpr ⟨form, bytes, ?_, hash⟩
  exact decodedBytesWithLimits_eq_ok.mpr ⟨encoded, fits, by omega, decodes, by omega⟩

/-- The encoded bytes of all resources. -/
def encodedBytes (resources : List Resource) : Nat :=
  (resources.map fun resource => (asBytes resource.dataBase64).length).sum

@[simp] theorem encodedBytes_nil : encodedBytes [] = 0 := rfl

theorem encodedBytes_cons (resource : Resource) (rest : List Resource) :
    encodedBytes (resource :: rest) =
      (asBytes resource.dataBase64).length + encodedBytes rest := by
  simp [encodedBytes]

/-- The sizes of a resource are within the limits. -/
structure Sized (limits : ProcessingLimits) (resource : Resource) : Prop where
  machine : (asBytes resource.dataBase64).length + 3 ≤ usizeMax
  encoded : (asBytes resource.dataBase64).length ≤ limits.maxResourceBytes
  decoded : ((asBytes resource.dataBase64).length + 3) / 4 * 3 ≤ limits.maxDecodedResourceBytes

theorem resourcesWithin_eq_ok {total : Nat} {resources : List Resource}
    (within : resourcesWithin limits total resources = .ok ()) (machine : total ≤ usizeMax)
    (output : total ≤ limits.maxOutputBytes) :
    (∀ resource ∈ resources, Sized limits resource) ∧
      total + encodedBytes resources ≤ usizeMax ∧
      total + encodedBytes resources ≤ limits.maxOutputBytes := by
  induction resources generalizing total with
  | nil => simp [machine, output]
  | cons resource rest ih =>
      obtain ⟨sum, first, later⟩ := (except_bind_eq_ok _ _ _).mp within
      obtain ⟨decoded, estimate, first⟩ := (except_bind_eq_ok _ _ _).mp first
      obtain ⟨_, small, first⟩ := (except_bind_eq_ok _ _ _).mp first
      obtain ⟨added, adds, first⟩ := (except_bind_eq_ok _ _ _).mp first
      obtain ⟨_, fits, joined⟩ := (except_bind_eq_ok _ _ _).mp first
      rw [orLimit_eq_ok] at estimate adds
      rw [limitIf_eq_ok] at small fits
      obtain ⟨bound, rfl⟩ := estimatedDecodedLen_eq_some.mp estimate
      obtain ⟨room, rfl⟩ := checkedAdd_eq_some.mp adds
      have same := (except_pure_eq_ok _ _).mp joined
      subst same
      obtain ⟨sized, wide, short⟩ := ih later room (by omega)
      rw [encodedBytes_cons, ← Nat.add_assoc]
      exact ⟨List.forall_mem_cons.mpr ⟨⟨bound, by omega, by omega⟩, sized⟩, wide, short⟩

/-- One turn of the loop over the sizes, for a resource within the limits. -/
theorem sizeLoop_cons {totalEncoded totalDecoded : Nat} {resource : Resource}
    {rest : List Resource} (sized : Sized limits resource)
    (encodes : totalEncoded + (asBytes resource.dataBase64).length ≤ usizeMax)
    (decodes : totalDecoded + ((base64Payload resource.dataBase64).length + 3) / 4 * 3 ≤
      usizeMax) :
    sizeLoop limits totalEncoded totalDecoded (resource :: rest) =
      sizeLoop limits (totalEncoded + (asBytes resource.dataBase64).length)
        (totalDecoded + ((base64Payload resource.dataBase64).length + 3) / 4 * 3) rest := by
  have shorter := base64Payload_length resource.dataBase64
  have machine := sized.machine
  have encoded := sized.encoded
  have decoded := sized.decoded
  have estimate : estimatedDecodedLen (base64Payload resource.dataBase64).length =
      some (((base64Payload resource.dataBase64).length + 3) / 4 * 3) :=
    estimatedDecodedLen_eq_some.mpr ⟨by omega, rfl⟩
  have small : failIf ((asBytes resource.dataBase64).length > limits.maxResourceBytes)
      (.limit "encoded resource bytes") = [] := (failIf_eq_nil _ _).mpr (by omega)
  have brief : failIf (((base64Payload resource.dataBase64).length + 3) / 4 * 3 >
      limits.maxDecodedResourceBytes) (.limit "decoded resource bytes") = [] :=
    (failIf_eq_nil _ _).mpr (by omega)
  rw [sizeLoop, checkedAdd_eq_some.mpr ⟨encodes, rfl⟩]
  dsimp only
  rw [estimate]
  dsimp only
  rw [checkedAdd_eq_some.mpr ⟨decodes, rfl⟩]
  dsimp only
  rw [small, brief]
  rfl

/-- Totals that are within the limits raise no error in the loop over the sizes. -/
theorem sizeLoop_eq {totalEncoded totalDecoded : Nat} {resources : List Resource}
    (sized : ∀ resource ∈ resources, Sized limits resource)
    (padded : ∀ resource ∈ resources, (base64Payload resource.dataBase64).length % 4 = 0)
    (less : totalDecoded ≤ totalEncoded)
    (machine : totalEncoded + encodedBytes resources ≤ usizeMax) :
    ∃ decoded, decoded ≤ totalEncoded + encodedBytes resources ∧
      sizeLoop limits totalEncoded totalDecoded resources =
        (totalEncoded + encodedBytes resources, decoded, []) := by
  induction resources generalizing totalEncoded totalDecoded with
  | nil => exact ⟨totalDecoded, less, rfl⟩
  | cons resource rest ih =>
      obtain ⟨own, others⟩ := List.forall_mem_cons.mp sized
      obtain ⟨multiple, multiples⟩ := List.forall_mem_cons.mp padded
      have shorter := base64Payload_length resource.dataBase64
      rw [encodedBytes_cons, ← Nat.add_assoc] at machine ⊢
      -- The estimate of a padded text is not above its length, so it never runs ahead.
      have behind : totalDecoded + ((base64Payload resource.dataBase64).length + 3) / 4 * 3 ≤
          totalEncoded + (asBytes resource.dataBase64).length := by omega
      rw [sizeLoop_cons own (by omega) (by omega)]
      exact ih others multiples behind machine

/-- A document that materialization accepts, under its limits. -/
structure Accepted (base64 : Base64) (sha256 : Sha256) (limits : ProcessingLimits)
    (document : Document) : Prop where
  valid : Valid base64 sha256 .default document
  resources : document.resources.length ≤ limits.maxResources
  sized : ∀ resource ∈ document.resources, Sized limits resource
  machine : encodedBytes document.resources ≤ usizeMax
  output : encodedBytes document.resources ≤ limits.maxOutputBytes

theorem accepted_of_checked {document : Document}
    (checked : validateDocument base64 sha256 limits document = .ok ()) :
    Accepted base64 sha256 limits document := by
  obtain ⟨_, few, checked⟩ := (except_bind_eq_ok _ _ _).mp checked
  obtain ⟨_, within, checked⟩ := (except_bind_eq_ok _ _ _).mp checked
  rw [limitIf_eq_ok, not_or] at few
  obtain ⟨sized, machine, output⟩ := resourcesWithin_eq_ok within (Nat.zero_le _) (Nat.zero_le _)
  rw [Nat.zero_add] at machine output
  refine ⟨?_, by omega, sized, machine, output⟩
  apply (validateWithLimits_eq_ok base64 sha256 .default document).mp
  cases result : validate base64 sha256 document with
  | ok value => exact result
  | error errors =>
      rw [result] at checked
      cases checked

/-- The sizes of the resources of an accepted document are accepted. -/
theorem Accepted.sizes (padded : Padded base64) {document page : Document}
    (accepted : Accepted base64 sha256 limits document)
    (same : page.resources = document.resources) : sizeErrors limits page = [] := by
  have multiple : ∀ resource ∈ document.resources,
      (base64Payload resource.dataBase64).length % 4 = 0 := by
    intro resource member
    obtain ⟨-, bytes, decoded, -⟩ :=
      contentErrors_eq_nil.mp (accepted.valid.contents resource member)
    exact (padded _ _ (decodedBytesWithLimits_eq_ok.mp decoded).2.2.2.1).1
  have machine : 0 + encodedBytes document.resources ≤ usizeMax := by
    rw [Nat.zero_add]
    exact accepted.machine
  obtain ⟨decoded, bound, loop⟩ := sizeLoop_eq accepted.sized multiple (Nat.le_refl 0) machine
  have output := accepted.output
  unfold sizeErrors
  rw [same, loop]
  simp only [List.nil_append, List.append_eq_nil_iff, failIf_eq_nil]
  omega

theorem Accepted.contents (padded : Padded base64) {document : Document}
    (accepted : Accepted base64 sha256 limits document) :
    ∀ resource ∈ document.resources, contentErrors base64 sha256 limits resource = [] := by
  intro resource member
  have sized := accepted.sized resource member
  exact contentErrors_of_within padded (accepted.valid.contents resource member) sized.encoded
    sized.decoded

end

/-! ## Rewritten identifiers -/

theorem rewriteId_injective (placement : BatchPlacement) :
    Function.Injective (rewriteId placement) := by
  intro left right same
  exact (String.append_left_inj _).mp same

theorem rewriteId_ne_empty (placement : BatchPlacement) (id : String) :
    rewriteId placement id ≠ "" := by
  intro empty
  have length := congrArg String.length empty
  simp [rewriteId] at length

section

variable {document : Document} {placements : List BatchPlacement} {copies : List Element}

theorem CopiesOn.of_copy (copied : CopiesOn document placements copies) {copy : Element}
    (member : copy ∈ copies) :
    ∃ placement ∈ placements, ∃ template ∈ document.elements, CopyOf placement template copy := by
  obtain ⟨pair, inside, copies⟩ := exists_left_of_mem copied member
  obtain ⟨placement, placed, listed⟩ := List.mem_flatMap.mp inside
  obtain ⟨template, own, rfl⟩ := List.mem_map.mp listed
  exact ⟨placement, placed, template, own, copies⟩

theorem CopiesOn.of_template (copied : CopiesOn document placements copies)
    {placement : BatchPlacement} (placed : placement ∈ placements) {template : Element}
    (member : template ∈ document.elements) :
    ∃ copy ∈ copies, CopyOf placement template copy := by
  have pair : (placement, template) ∈ placements.flatMap fun placement =>
      document.elements.map fun element => (placement, element) :=
    List.mem_flatMap.mpr ⟨placement, placed, List.mem_map_of_mem member⟩
  exact exists_left_of_mem copied.flip pair

/-- The identifiers of the copies. -/
theorem CopiesOn.ids (copied : CopiesOn document placements copies) :
    elementIds copies = placements.flatMap fun placement =>
      (elementIds document.elements).map (rewriteId placement) := by
  have named {pairs : List (BatchPlacement × Element)} {made : List Element}
      (related : List.Forall₂ (fun pair copy => CopyOf pair.1 pair.2 copy) pairs made) :
      elementIds made = pairs.map fun pair => rewriteId pair.1 pair.2.id := by
    unfold elementIds
    induction related with
    | nil => rfl
    | cons first _ ih => rw [List.map_cons, List.map_cons, first.id, ih]
  rw [named copied, List.map_flatMap]
  simp only [elementIds, List.map_map, Function.comp_def]

end

/-! ## Pages -/

section

variable {base64 : Base64} {sha256 : Sha256} {limits : ProcessingLimits}
variable {document page : Document} {placements : List BatchPlacement} {index : Nat}

/-- A page of copies whose identifiers are unique. -/
structure PageOf (document : Document) (placements : List BatchPlacement) (index : Nat)
    (page : Document) : Prop where
  eq : ∃ copies, page = { emptyPage document index with elements := copies }
  copied : CopiesOn document placements page.elements
  zones : ∀ placement ∈ placements, placement.zone ∈ document.media.zones.map Zone.id
  ids : UniqueIds page

theorem PageOf.media (made : PageOf document placements index page) :
    page.media = document.media := by
  obtain ⟨copies, rfl⟩ := made.eq
  rfl

theorem PageOf.resources (made : PageOf document placements index page) :
    page.resources = document.resources := by
  obtain ⟨copies, rfl⟩ := made.eq
  rfl

variable (made : PageOf document placements index page)

include made

/-- The copy that has the rewritten identifier of an element. -/
theorem PageOf.find {placement : BatchPlacement} (placed : placement ∈ placements)
    {template : Element} (member : template ∈ document.elements) :
    ∃ copy ∈ page.elements, CopyOf placement template copy ∧
      findElement page.elements (rewriteId placement template.id) = some copy := by
  obtain ⟨copy, inside, copies⟩ := made.copied.of_template placed member
  refine ⟨copy, inside, copies, ?_⟩
  rw [← copies.id]
  exact made.ids.find inside

variable (valid : Valid base64 sha256 .default document)

include valid

/-- The groups of copies are the copies of the groups. -/
theorem PageOf.groupOf {placement : BatchPlacement} (placed : placement ∈ placements)
    {id : String} (known : id ∈ elementIds document.elements) :
    (groupOf document.elements id).map (rewriteId placement) =
      Label.groupOf page.elements (rewriteId placement id) := by
  obtain ⟨template, member, rfl⟩ := List.mem_map.mp known
  obtain ⟨copy, -, copies, found⟩ := made.find placed member
  rw [valid.ids.groupOf member]
  unfold Label.groupOf
  rw [found, Option.bind_some, copies.group]

theorem PageOf.groupChains {placement : BatchPlacement} (placed : placement ∈ placements)
    {template : Element} (member : template ∈ document.elements) :
    Chain.Ends (Label.groupOf page.elements) (some (rewriteId placement template.id)) := by
  obtain ⟨count, ended⟩ := valid.groupChains template member
  refine ⟨count, ?_⟩
  have closed : ∀ id next, id ∈ elementIds document.elements →
      Label.groupOf document.elements id = some next → next ∈ elementIds document.elements := by
    intro id next known group
    obtain ⟨child, inside, rfl⟩ := List.mem_map.mp known
    rw [valid.ids.groupOf inside] at group
    obtain ⟨parent, found, rfl, -⟩ := mem_groupIds.mp ((valid.refers child inside).group _ group)
    exact List.mem_map_of_mem found
  have same := Chain.follow_map (rewriteId placement)
    (fun id known => made.groupOf valid placed known) closed count
    (fun id start => (Option.some.inj start) ▸ List.mem_map_of_mem member)
  rw [ended] at same
  exact same.symm

theorem PageOf.refers {copy : Element} (inside : copy ∈ page.elements) : Refers page copy := by
  obtain ⟨placement, placed, template, member, copies⟩ := made.copied.of_copy inside
  have refers := valid.refers template member
  -- the group of the copy is the copy of the group
  have above {group : String} (named : copy.common.groupId = some group) :
      ∃ own parent child, template.common.groupId = some own ∧
        findElement document.elements own = some parent ∧ parent.children.isSome = true ∧
        child ∈ page.elements ∧ CopyOf placement parent child ∧ child.id = group ∧
        findElement page.elements group = some child := by
    rw [copies.group] at named
    obtain ⟨own, names, rfl⟩ := Option.map_eq_some_iff.mp named
    obtain ⟨parent, found, rfl, grouped⟩ := mem_groupIds.mp (refers.group own names)
    obtain ⟨child, listed, copied, finds⟩ := made.find placed found
    exact ⟨_, parent, child, names, valid.ids.find found, grouped, listed, copied, copied.id, finds⟩
  constructor
  case resources =>
    rw [copies.resources, made.resources]
    exact refers.resources
  case group =>
    intro group named
    obtain ⟨own, parent, child, -, -, grouped, listed, copied, same, -⟩ := above named
    refine mem_groupIds.mpr ⟨child, listed, same, ?_⟩
    rw [copied.children, Option.isSome_map]
    exact grouped
  case listed =>
    intro group named children found
    obtain ⟨own, parent, child, names, finds, -, -, copied, -, locates⟩ := above named
    rw [locates, Option.bind_some, copied.children] at found
    obtain ⟨originals, lists, rfl⟩ := Option.map_eq_some_iff.mp found
    rw [copies.id]
    apply List.mem_map_of_mem
    apply refers.listed own names
    rw [finds]
    exact lists
  case zone =>
    intro zone constrained
    rw [copies.zone] at constrained
    rw [made.media, ← Option.some.inj constrained]
    exact made.zones placement placed

theorem PageOf.children {placement : BatchPlacement} (placed : placement ∈ placements)
    {template : Element} (member : template ∈ document.elements) {children : List String}
    (grouped : template.children = some children) :
    Children page.elements (rewriteId placement template.id)
      (children.map (rewriteId placement)) := by
  have original := valid.children member grouped
  constructor
  case different =>
    intro renamed listed
    obtain ⟨child, inside, rfl⟩ := List.mem_map.mp listed
    intro same
    exact original.different child inside (rewriteId_injective placement same)
  case distinct => exact original.distinct.map (rewriteId_injective placement)
  case agree =>
    intro renamed listed
    obtain ⟨child, inside, rfl⟩ := List.mem_map.mp listed
    obtain ⟨known, group⟩ := original.agree child inside
    constructor
    · obtain ⟨element, found, rfl⟩ := List.mem_map.mp known
      obtain ⟨copy, place, copies, -⟩ := made.find placed found
      exact List.mem_map.mpr ⟨copy, place, copies.id⟩
    · rw [← made.groupOf valid placed known, group]
      rfl

omit made valid in
theorem propertyErrors_of_children {element : Element} {children : List String}
    (grouped : element.children = some children) :
    propertyErrors document element = childErrors document.elements element.id [] children := by
  cases element with
  | group common own =>
      cases grouped
      rfl
  | _ => cases grouped

omit made valid in
theorem propertyErrors_congr {element : Element} (single : element.children = none)
    (same : page.resources = document.resources) :
    propertyErrors page element = propertyErrors document element := by
  cases element with
  | group common own => cases single
  | _ => simp [propertyErrors, mediaTypeErrors, same]

theorem PageOf.properties {copy : Element} (inside : copy ∈ page.elements) :
    propertyErrors page copy = [] := by
  obtain ⟨placement, placed, template, member, copies⟩ := made.copied.of_copy inside
  cases grouped : template.children with
  | none =>
      rw [copies.properties grouped, propertyErrors_congr grouped made.resources]
      exact valid.properties template member
  | some children =>
      have lists : copy.children = some (children.map (rewriteId placement)) := by
        rw [copies.children, grouped]
        rfl
      rw [propertyErrors_of_children lists, childErrors_eq_nil, copies.id]
      exact ⟨made.children valid placed member grouped, by simp⟩

omit valid in
theorem PageOf.head (clean : headErrors document = []) : headErrors page = [] := by
  obtain ⟨copies, rfl⟩ := made.eq
  have named : document.name ++ " page " ++ toString (index + 1) ≠ "" := by
    intro empty
    have length := congrArg String.length empty
    simp at length
  simp only [headErrors, List.append_eq_nil_iff, failIf_eq_nil] at clean ⊢
  exact ⟨⟨clean.1.1, named⟩, clean.2⟩

omit valid in
theorem PageOf.extensions (clean : extensionErrors document = []) :
    extensionErrors page = [] := by
  obtain ⟨copies, rfl⟩ := made.eq
  exact clean

omit valid in
/-- A page with unique identifiers is valid when it is not too long. -/
theorem PageOf.isValid (padded : Padded base64) (accepted : Accepted base64 sha256 limits document)
    (short : page.elements.length ≤ limits.maxElements) :
    Valid base64 sha256 limits page := by
  have original := accepted.valid
  have media := made.media
  have resources := made.resources
  constructor
  case counts =>
    have few := accepted.resources
    rw [← resources] at few
    simp only [countErrors, List.append_eq_nil_iff, failIf_eq_nil]
    omega
  case sizes => exact accepted.sizes padded resources
  case head => exact made.head original.head
  case contents => rw [resources]; exact accepted.contents padded
  case ids => exact made.ids
  case zones => rw [media]; exact original.zones
  case placed => rw [media]; exact original.placed
  case clones => rw [media]; exact original.clones
  case cloneChains => rw [media]; exact original.cloneChains
  case transforms =>
    intro copy inside
    obtain ⟨placement, placed, template, member, copies⟩ := made.copied.of_copy inside
    have clean := original.transforms template member
    simp only [transformErrors, List.append_eq_nil_iff, failIf_eq_nil] at clean ⊢
    rw [copies.transform]
    exact clean
  case refers => exact fun copy inside => made.refers original inside
  case properties => exact fun copy inside => made.properties original inside
  case groupChains =>
    intro copy inside
    obtain ⟨placement, placed, template, member, copies⟩ := made.copied.of_copy inside
    rw [copies.id]
    exact made.groupChains original placed member
  case extensions => exact made.extensions original.extensions

end

/-! ## Identifiers that stay apart -/

/-- The copies for two records on a page never get the same identifier, and no copy
gets that of a resource. -/
structure Apart (document : Document) (zoneIds : List String) (recordCount : Nat) : Prop where
  copies : ∀ left < recordCount, ∀ right < recordCount,
    left / zoneIds.length = right / zoneIds.length → left ≠ right →
    ∀ id ∈ elementIds document.elements, ∀ other ∈ elementIds document.elements,
      rewriteId (plannedPlacement zoneIds left) id ≠ rewriteId (plannedPlacement zoneIds right) other
  resources : ∀ record < recordCount, ∀ id ∈ elementIds document.elements,
    rewriteId (plannedPlacement zoneIds record) id ∉ document.resources.map Resource.id

/-- The placements on a page. -/
def placementsOn (zoneIds : List String) (recordCount index : Nat) : List BatchPlacement :=
  (plannedPlacements zoneIds recordCount).filter fun placement => placement.page = index

theorem mem_placementsOn {zoneIds : List String} {recordCount index : Nat}
    {placement : BatchPlacement} :
    placement ∈ placementsOn zoneIds recordCount index ↔
      ∃ record < recordCount, record / zoneIds.length = index ∧
        placement = plannedPlacement zoneIds record := by
  unfold placementsOn plannedPlacements
  rw [List.mem_filter, List.mem_map]
  constructor
  · rintro ⟨⟨record, member, rfl⟩, here⟩
    exact ⟨record, List.mem_range.mp member, by simpa [plannedPlacement] using here, rfl⟩
  · rintro ⟨record, bound, here, rfl⟩
    exact ⟨⟨record, List.mem_range.mpr bound, rfl⟩, by simpa [plannedPlacement] using here⟩

theorem placementsOn_nodup (zoneIds : List String) (recordCount index : Nat) :
    (placementsOn zoneIds recordCount index).Nodup := by
  have injective : Function.Injective (plannedPlacement zoneIds) :=
    fun _ _ same => congrArg BatchPlacement.record same
  exact (List.nodup_range.map injective).filter _

/-- A page has a placement for every zone at most. -/
theorem placementsOn_length {zoneIds : List String} (filled : 0 < zoneIds.length)
    (recordCount index : Nat) :
    (placementsOn zoneIds recordCount index).length ≤ zoneIds.length := by
  have distinct : ((placementsOn zoneIds recordCount index).map BatchPlacement.record).Nodup := by
    apply List.Nodup.map_on _ (placementsOn_nodup zoneIds recordCount index)
    intro left member right also same
    obtain ⟨record, -, -, rfl⟩ := mem_placementsOn.mp member
    obtain ⟨other, -, -, rfl⟩ := mem_placementsOn.mp also
    have equal : record = other := same
    rw [equal]
  have inside : ((placementsOn zoneIds recordCount index).map BatchPlacement.record).toFinset ⊆
      Finset.Ico (index * zoneIds.length) (index * zoneIds.length + zoneIds.length) := by
    intro record member
    obtain ⟨placement, listed, rfl⟩ := List.mem_map.mp (List.mem_toFinset.mp member)
    obtain ⟨own, -, here, rfl⟩ := mem_placementsOn.mp listed
    have split := Nat.div_add_mod own zoneIds.length
    have rest := Nat.mod_lt own filled
    have product := Nat.mul_comm zoneIds.length index
    rw [here] at split
    rw [Finset.mem_Ico]
    dsimp only [plannedPlacement]
    omega
  have count := Finset.card_le_card inside
  rw [List.toFinset_card_of_nodup distinct, List.length_map, Nat.card_Ico] at count
  omega

theorem CopiesOn.length {document : Document} {placements : List BatchPlacement}
    {copies : List Element} (copied : CopiesOn document placements copies) :
    copies.length = placements.length * document.elements.length := by
  have same := copied.length_eq
  rw [← same, List.length_flatMap]
  simp

section

variable {document page : Document} {placements : List BatchPlacement}

/-- The identifiers of a page are unique when the rewritten ones stay apart. -/
theorem uniqueIds_page (ids : UniqueIds document) (distinct : placements.Nodup)
    (copied : CopiesOn document placements page.elements)
    (same : page.resources = document.resources) :
    UniqueIds page ↔
      (∀ left ∈ placements, ∀ right ∈ placements, left ≠ right →
        ∀ id ∈ elementIds document.elements, ∀ other ∈ elementIds document.elements,
          rewriteId left id ≠ rewriteId right other) ∧
      ∀ placement ∈ placements, ∀ id ∈ elementIds document.elements,
        rewriteId placement id ∉ document.resources.map Resource.id := by
  have filled : "" ∉ document.resources.map Resource.id ++ elementIds page.elements := by
    rw [List.mem_append, not_or, copied.ids]
    refine ⟨fun empty => ids.1 (List.mem_append_left _ empty), ?_⟩
    intro empty
    obtain ⟨placement, -, listed⟩ := List.mem_flatMap.mp empty
    obtain ⟨id, -, renamed⟩ := List.mem_map.mp listed
    exact rewriteId_ne_empty placement id renamed
  have resources := (List.nodup_append'.mp ids.2).1
  let renamed := fun placement => (elementIds document.elements).map (rewriteId placement)
  have symmetric : Std.Symm (Function.onFun List.Disjoint renamed) :=
    ⟨fun _ _ disjoint => disjoint.symm⟩
  unfold UniqueIds
  rw [same, List.nodup_append', copied.ids, List.nodup_flatMap]
  rw [copied.ids] at filled
  constructor
  · rintro ⟨-, -, ⟨-, disjoint⟩, separate⟩
    constructor
    · intro left member right also different id known other listed clash
      have apart : List.Disjoint (renamed left) (renamed right) :=
        disjoint.forall member also different
      exact apart (List.mem_map_of_mem known) (List.mem_map.mpr ⟨other, listed, clash.symm⟩)
    · intro placement member id known resource
      exact separate resource (List.mem_flatMap.mpr ⟨placement, member, List.mem_map_of_mem known⟩)
  · rintro ⟨apart, free⟩
    refine ⟨filled, resources, ⟨?_, ?_⟩, ?_⟩
    · exact fun placement _ => ids.elements.map (rewriteId_injective placement)
    · apply distinct.pairwise_of_forall_ne
      intro left member right also different both inLeft inRight
      obtain ⟨id, known, rfl⟩ := List.mem_map.mp inLeft
      obtain ⟨other, listed, clash⟩ := List.mem_map.mp inRight
      exact apart left member right also different id known other listed clash.symm
    · intro both resource copy
      obtain ⟨placement, member, listed⟩ := List.mem_flatMap.mp copy
      obtain ⟨id, known, rfl⟩ := List.mem_map.mp listed
      exact free placement member id known resource

end

/-! ## Validity -/

section

variable {base64 : Base64} {sha256 : Sha256} {limits : ProcessingLimits}
variable {document : Document} {zoneIds : List String} {recordCount : Nat}
variable {pages : List Document}

theorem Planned.zone_known (planned : Planned base64 sha256 limits document zoneIds)
    (record : Nat) :
    (plannedPlacement zoneIds record).zone ∈ document.media.zones.map Zone.id := by
  have bound := Nat.mod_lt record planned.filled
  apply planned.known
  dsimp only [plannedPlacement]
  rw [List.getD_eq_getElem?_getD, List.getElem?_eq_getElem bound]
  exact List.getElem_mem bound

variable (planned : Planned base64 sha256 limits document zoneIds)
variable (batch : Batch limits document zoneIds recordCount pages)

include planned batch

theorem Batch.page_exists {record : Nat} (bound : record < recordCount) :
    ∃ page, pages[record / zoneIds.length]? = some page ∧ page ∈ pages := by
  have filled := planned.filled
  have short : record / zoneIds.length < pages.length := by
    rw [batch.length, Nat.div_lt_iff_lt_mul filled]
    have split := Nat.div_add_mod (recordCount + (zoneIds.length - 1)) zoneIds.length
    have rest := Nat.mod_lt (recordCount + (zoneIds.length - 1)) filled
    have product := Nat.mul_comm zoneIds.length
      ((recordCount + (zoneIds.length - 1)) / zoneIds.length)
    omega
  exact ⟨pages[record / zoneIds.length], List.getElem?_eq_getElem short, List.getElem_mem short⟩

theorem Batch.uniqueIds {index : Nat} {page : Document} (located : pages[index]? = some page) :
    UniqueIds page ↔
      (∀ left ∈ placementsOn zoneIds recordCount index,
        ∀ right ∈ placementsOn zoneIds recordCount index, left ≠ right →
          ∀ id ∈ elementIds document.elements, ∀ other ∈ elementIds document.elements,
            rewriteId left id ≠ rewriteId right other) ∧
      ∀ placement ∈ placementsOn zoneIds recordCount index,
        ∀ id ∈ elementIds document.elements,
          rewriteId placement id ∉ document.resources.map Resource.id := by
  obtain ⟨copies, rfl, copied⟩ := batch.pages index page located
  exact uniqueIds_page (accepted_of_checked planned.checked).valid.ids
    (placementsOn_nodup zoneIds recordCount index) copied rfl

theorem Batch.pageOf {index : Nat} {page : Document} (located : pages[index]? = some page)
    (ids : UniqueIds page) :
    PageOf document (placementsOn zoneIds recordCount index) index page := by
  obtain ⟨copies, rfl, copied⟩ := batch.pages index page located
  refine ⟨⟨copies, rfl⟩, copied, ?_, ids⟩
  intro placement member
  obtain ⟨record, -, -, rfl⟩ := mem_placementsOn.mp member
  exact planned.zone_known record

theorem Batch.page_fits {index : Nat} {page : Document} (located : pages[index]? = some page) :
    page.elements.length ≤ limits.maxElements := by
  obtain ⟨copies, rfl, copied⟩ := batch.pages index page located
  have fits := batch.fits (List.ne_nil_of_mem (List.mem_of_getElem? located))
  have count := placementsOn_length planned.filled recordCount index
  calc copies.length
      = (placementsOn zoneIds recordCount index).length * document.elements.length :=
        copied.length
    _ ≤ zoneIds.length * document.elements.length := Nat.mul_le_mul_right _ count
    _ = document.elements.length * zoneIds.length := Nat.mul_comm ..
    _ ≤ limits.maxElements := fits

/-- The pages of a batch are valid when the rewritten identifiers stay apart. -/
theorem Batch.valid_iff (padded : Padded base64) :
    (∀ page ∈ pages, validateWithLimits base64 sha256 limits page = .ok ()) ↔
      Apart document zoneIds recordCount := by
  constructor
  · intro accepted
    have unique {record : Nat} (bound : record < recordCount) :=
      let ⟨page, located, member⟩ := batch.page_exists planned bound
      (batch.uniqueIds planned located).mp
        ((validateWithLimits_eq_ok _ _ _ _).mp (accepted page member)).ids
    constructor
    case copies =>
      intro left bound right within samePage different id known other listed
      apply (unique bound).1 _ (mem_placementsOn.mpr ⟨left, bound, rfl, rfl⟩) _
        (mem_placementsOn.mpr ⟨right, within, samePage.symm, rfl⟩) _ id known other listed
      exact fun same => different (congrArg BatchPlacement.record same)
    case resources =>
      intro record bound id known
      exact (unique bound).2 _ (mem_placementsOn.mpr ⟨record, bound, rfl, rfl⟩) id known
  · intro apart page member
    obtain ⟨index, bound, rfl⟩ := List.getElem_of_mem member
    have located : pages[index]? = some pages[index] := List.getElem?_eq_getElem bound
    have ids : UniqueIds pages[index] := by
      rw [batch.uniqueIds planned located]
      constructor
      · intro left member right also different id known other listed
        obtain ⟨record, within, here, rfl⟩ := mem_placementsOn.mp member
        obtain ⟨second, inside, there, rfl⟩ := mem_placementsOn.mp also
        exact apart.copies record within second inside (here.trans there.symm)
          (fun same => different (by rw [same])) id known other listed
      · intro placement member id known
        obtain ⟨record, within, -, rfl⟩ := mem_placementsOn.mp member
        exact apart.resources record within id known
    exact (validateWithLimits_eq_ok _ _ _ _).mpr ((batch.pageOf planned located ids).isValid padded
      (accepted_of_checked planned.checked) (batch.page_fits planned located))

end

/-- The pages of a batch that is materialized are valid under the same limits exactly
when the rewritten identifiers stay apart. -/
theorem materialized_valid_iff (base64 : Base64) (sha256 : Sha256) (evaluate : Evaluate)
    (jsonLength : Document → Option Nat) (jsonLengths : List Document → Option Nat)
    (options : MaterializeOptions) (limits : ProcessingLimits) (document : Document)
    (records : List Record) (zoneIds : List String) (pages : List Document)
    (padded : Padded base64)
    (made : materializeZoneBatchWithLimits base64 sha256 evaluate jsonLength jsonLengths options
      limits document records zoneIds = .ok pages) :
    (∀ page ∈ pages, validateWithLimits base64 sha256 limits page = .ok ()) ↔
      Apart document zoneIds records.length := by
  obtain ⟨planned, batch⟩ := materializeZoneBatch_eq_ok made
  exact batch.valid_iff planned padded

theorem logoBase64_padded : Padded logoBase64 := by
  intro payload bytes decoded
  unfold logoBase64 at decoded
  split at decoded
  · next same =>
      cases decoded
      rw [same]
      decide +kernel
  · cases decoded

/-- The evaluation of a text without expressions. -/
def plainText : Evaluate := fun template _ _ => .ok template

/-- The batch of one record in the left zone. -/
def oneRecord (document : Document) (documentBytes outputBytes : Nat) :
    Outcome MaterializeError (List Document) :=
  materializeZoneBatchWithLimits logoBase64 logoSha256 plainText (fun _ => some documentBytes)
    (fun _ => some outputBytes) {} .default document [.empty] ["left"]

theorem materialized_valid_framed :
    ∃ pages, oneRecord framedDocument 1459 1669 = .ok pages ∧
      ((∀ page ∈ pages, validateWithLimits logoBase64 logoSha256 .default page = .ok ()) ↔
        Apart framedDocument ["left"] 1) := by
  have succeeded : (oneRecord framedDocument 1459 1669).isOk = true := by decide +kernel
  obtain ⟨pages, made⟩ := exists_of_isOk succeeded
  exact ⟨pages, made, materialized_valid_iff _ _ _ _ _ _ _ _ _ _ _ logoBase64_padded made⟩

def boxCommon : Common where
  id := "box"
  transform := square
  zOrder := 0

/-- A document with a resource that is named like the copy of an element. -/
def boxDocument : Document where
  version := 4
  name := "Label"
  media := twoZones
  elements := [.rectangle boxCommon 100 false]
  resources := [{ logo with id := "box:record:0:zone:left" }]

/-- Whether some page of a batch is refused by validation. -/
def refusesPage (result : Outcome MaterializeError (List Document)) : Bool :=
  match result with
  | .ok pages => pages.any fun page =>
      !(validateWithLimits logoBase64 logoSha256 .default page).isOk
  | .error _ => false

/-- The document is valid, and the page of its batch is not. -/
theorem copy_named_like_resource :
    validateWithLimits logoBase64 logoSha256 .default boxDocument = .ok () ∧
      ∃ pages, oneRecord boxDocument 919 981 = .ok pages ∧
        ∃ page ∈ pages, validateWithLimits logoBase64 logoSha256 .default page ≠ .ok () := by
  refine ⟨by decide +kernel, ?_⟩
  have refuses : refusesPage (oneRecord boxDocument 919 981) = true := by decide +kernel
  cases made : oneRecord boxDocument 919 981 with
  | error error =>
      rw [made] at refuses
      cases refuses
  | ok pages =>
      rw [made] at refuses
      obtain ⟨page, member, refused⟩ := List.any_eq_true.mp refuses
      refine ⟨pages, rfl, page, member, ?_⟩
      intro accepted
      rw [accepted] at refused
      cases refused

end PrinterSdk.Label
