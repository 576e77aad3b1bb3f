import Mathlib.Data.List.Forall2
import PrinterSdk.Discovery.Normalize
import PrinterSdk.Discovery.Output
import PrinterSdk.Ipp.DecodeMessage

/-!
# What redacted output depends on

The raw redacted output of a response is a function of its public surface, in which
the values of secret attributes are blank and collections are empty, and of the bytes
of the response, which are kept when no attribute has a sensitive name.  Secrets that
only occur inside the collections of other attributes are therefore kept with them.
-/

namespace PrinterSdk.Discovery

open PrinterSdk.Data PrinterSdk.Ipp

/-! ## Responses that differ in secrets -/

/-- The identifiers that redacted output shows as hashes. -/
def hashedNames : List String := ["printer-uuid", "printer-serial-number", "printer-device-id"]

/-- A sensitive name whose value redacted output may not show in any form. -/
def isSecretName (name : Bytes) : Bool :=
  isSensitiveIppAttribute name && !hashedNames.any fun hashed => asBytes hashed == name

mutual

/-- The values have the same tags, names, counts and lengths, and agree but for what
stands under a secret name. -/
def likeValue (secret : Bool) : Value → Value → Bool
  | .mk tag data, .mk otherTag otherData => tag == otherTag && likeData secret data otherData

def likeData (secret : Bool) : ValueData → ValueData → Bool
  | .collection members, .collection others => likeMembers secret members others
  | .collection _, _ => false
  | _, .collection _ => false
  | data, other =>
      if secret then (scalarBytes data).length == (scalarBytes other).length
      else data.same other

def likeMember (secret : Bool) : CollectionMember → CollectionMember → Bool
  | .mk name values, .mk otherName others =>
      name == otherName && likeValues (secret || isSecretName name) values others

def likeValues (secret : Bool) : List Value → List Value → Bool
  | [], [] => true
  | value :: values, other :: others =>
      likeValue secret value other && likeValues secret values others
  | _, _ => false

def likeMembers (secret : Bool) : List CollectionMember → List CollectionMember → Bool
  | [], [] => true
  | member :: members, other :: others =>
      likeMember secret member other && likeMembers secret members others
  | _, _ => false

end

/-- Attributes that differ in secrets only. -/
def LikeAttribute (attr other : Attribute) : Prop :=
  attr.name = other.name ∧ likeValues (isSecretName attr.name) attr.values other.values = true

/-- Groups that differ in secrets only. -/
def LikeGroup (group other : AttributeGroup) : Prop :=
  group.tag = other.tag ∧ List.Forall₂ LikeAttribute group.attributes other.attributes

/-- Messages of one shape that differ in secrets only. -/
structure LikeMessage (message other : Message) : Prop where
  version : message.version = other.version
  code : message.code = other.code
  requestId : message.requestId = other.requestId
  groups : List.Forall₂ LikeGroup message.groups other.groups

/-! ## The public surface -/

/-- The value without the members of a collection. -/
def flat : Value → Value
  | .mk tag (.collection _) => .mk tag (.collection [])
  | value => value

/-- Only the tag of the value. -/
def blank (value : Value) : Value := .mk value.tag .outOfBand

/-- What redacted output shows of an attribute. -/
def surface (attr : Attribute) : Attribute :=
  { attr with values := attr.values.map (if isSecretName attr.name then blank else flat) }

@[simp] theorem surface_name (attr : Attribute) : (surface attr).name = attr.name := rfl

theorem surface_of_public {attr : Attribute} (shown : isSecretName attr.name = false) :
    surface attr = { attr with values := attr.values.map flat } := by
  simp [surface, shown]

theorem tag_of_likeValue {secret : Bool} {value other : Value}
    (like : likeValue secret value other = true) : value.tag = other.tag := by
  cases value
  cases other
  simp only [likeValue, Bool.and_eq_true, beq_iff_eq] at like
  exact like.1

/-- Outside of secrets values agree but for the members of collections. -/
theorem flat_of_likeValue {value other : Value} (like : likeValue false value other = true) :
    flat value = flat other := by
  have tags := tag_of_likeValue like
  obtain ⟨tag, data⟩ := value
  obtain ⟨otherTag, otherData⟩ := other
  cases tags
  simp only [likeValue, beq_self_eq_true, Bool.true_and] at like
  unfold likeData at like
  split at like
  · rfl
  · cases like
  · cases like
  · rw [(ValueData.same_iff _ _).mp like]

theorem surfaces_of_likeValues {secret : Bool} {values others : List Value}
    (like : likeValues secret values others = true) :
    values.map (if secret then blank else flat) = others.map (if secret then blank else flat) := by
  induction values generalizing others with
  | nil =>
      cases others with
      | nil => rfl
      | cons => simp [likeValues] at like
  | cons value values ih =>
      cases others with
      | nil => simp [likeValues] at like
      | cons other others =>
          simp only [likeValues, Bool.and_eq_true] at like
          rw [List.map_cons, List.map_cons, ih like.2]
          cases secret with
          | true => simp [blank, tag_of_likeValue like.1]
          | false => simp [flat_of_likeValue like.1]

theorem surface_of_like {attr other : Attribute} (like : LikeAttribute attr other) :
    surface attr = surface other := by
  obtain ⟨name, values⟩ := attr
  obtain ⟨otherName, others⟩ := other
  obtain ⟨rfl, like⟩ := like
  simp only [surface, Attribute.mk.injEq, true_and]
  exact surfaces_of_likeValues like

theorem surfaces_of_like {attributes others : List Attribute}
    (like : List.Forall₂ LikeAttribute attributes others) :
    attributes.map surface = others.map surface := by
  induction like with
  | nil => rfl
  | cons first _ ih => rw [List.map_cons, List.map_cons, surface_of_like first, ih]

theorem groupSurfaces_of_like {groups others : List AttributeGroup}
    (like : List.Forall₂ LikeGroup groups others) :
    (groups.flatMap AttributeGroup.attributes).map surface =
      (others.flatMap AttributeGroup.attributes).map surface := by
  induction like with
  | nil => rfl
  | cons first _ ih =>
      simp only [List.flatMap_cons, List.map_append]
      rw [surfaces_of_like first.2, ih]

/-- Messages that differ in secrets have one public surface. -/
theorem messageSurface_of_like {message other : Message} (like : LikeMessage message other) :
    (messageAttributes message).map surface = (messageAttributes other).map surface :=
  groupSurfaces_of_like like.groups

/-! ## The normalizer reads a public view -/

/-- A reading of values that does not look into collections. -/
def Flat {α : Type} (read : Value → α) : Prop := ∀ value, read (flat value) = read value

theorem flat_tag : Flat Value.tag := by
  rintro ⟨tag, data⟩
  cases data <;> rfl

theorem flat_valueText : Flat valueText := by
  rintro ⟨tag, data⟩
  cases data <;> rfl

theorem flat_valueI64 : Flat valueI64 := by
  rintro ⟨tag, data⟩
  cases data <;> rfl

theorem flat_settingValue : Flat settingValue := by
  rintro ⟨tag, data⟩
  cases data <;> rfl

theorem flat_ippPrinterState : Flat ippPrinterState := by
  rintro ⟨tag, data⟩
  cases data <;> rfl

theorem flat_settableKeyword : Flat settableKeyword := by
  intro value
  simp only [settableKeyword, flat_tag value, flat_valueText value]

theorem flat_scalarWireBytes : Flat scalarWireBytes := by
  rintro ⟨tag, data⟩
  cases data <;> rfl

/-- A view of attributes that keeps their names and shows the values of public
names up to the members of collections. -/
structure PublicView (view : Attribute → Attribute) : Prop where
  name : ∀ attr, (view attr).name = attr.name
  values : ∀ attr, isSecretName attr.name = false → (view attr).values = attr.values.map flat

theorem publicView_surface : PublicView surface where
  name := surface_name
  values := by
    intro attr shown
    rw [surface_of_public shown]

section

variable {attributes : List Attribute} {name : Bytes} {view : Attribute → Attribute}

theorem PublicView.find (shows : PublicView view) (attributes : List Attribute)
    (name : Bytes) :
    (attributes.map view).find? (fun attr => attr.name == name) =
      (attributes.find? fun attr => attr.name == name).map view := by
  rw [List.find?_map]
  congr 2
  funext attr
  simp only [Function.comp_apply, shows.name]

/-- The attribute found under a public name shows its values. -/
theorem PublicView.values_of_found (shows : PublicView view) {attr : Attribute}
    (shown : isSecretName name = false)
    (found : attributes.find? (fun attr => attr.name == name) = some attr) :
    (view attr).values = attr.values.map flat := by
  have named : attr.name = name := by simpa using List.find?_some found
  exact shows.values attr (named ▸ shown)

theorem values_view (shows : PublicView view) (shown : isSecretName name = false) :
    values (attributes.map view) name = (values attributes name).map flat := by
  induction attributes with
  | nil => rfl
  | cons attr rest ih =>
      unfold values at ih ⊢
      by_cases named : attr.name = name
      · have own := shows.values attr (named ▸ shown)
        simp only [List.map_cons, List.filter_cons, shows.name, named, beq_self_eq_true, if_true,
          List.flatMap_cons, List.map_append, ih, own]
      · simp only [List.map_cons, List.filter_cons, shows.name, beq_eq_false_iff_ne.mpr named,
          Bool.false_eq_true, if_false, ih]

theorem firstValue_view (shows : PublicView view) (shown : isSecretName name = false) :
    firstValue (attributes.map view) name = (firstValue attributes name).map flat := by
  unfold firstValue
  rw [shows.find]
  cases found : attributes.find? fun attr => attr.name == name with
  | none => rfl
  | some attr =>
      simp only [Option.map_some, Option.bind_some, shows.values_of_found shown found,
        List.head?_map]

theorem filterMap_view {α : Type} {read : Value → Option α} (shows : PublicView view)
    (reads : Flat read) (shown : isSecretName name = false) :
    (values (attributes.map view) name).filterMap read =
      (values attributes name).filterMap read := by
  rw [values_view shows shown, List.filterMap_map]
  congr 1
  funext value
  exact reads value

theorem bind_firstValue_view {α : Type} {read : Value → Option α} (shows : PublicView view)
    (reads : Flat read) (shown : isSecretName name = false) :
    (firstValue (attributes.map view) name).bind read =
      (firstValue attributes name).bind read := by
  rw [firstValue_view shows shown]
  cases firstValue attributes name with
  | none => rfl
  | some value => exact reads value

end

/-- The single attributes the normalizer reads. -/
def singleNames : List String :=
  ["printer-uuid", "printer-serial-number", "printer-device-id", "printer-make-and-model",
    "printer-state", "printer-state-reasons", "marker-names", "marker-levels",
    "operations-supported", "media-ready", "printer-settable-attributes-supported"]

theorem singleNames_public : ∀ name ∈ singleNames, isSecretName (asBytes name) = false := by
  decide +kernel

theorem jobBases_public : ∀ base ∈ jobBases,
    isSecretName (asBytes (base ++ "-default")) = false ∧
      isSecretName (asBytes (base ++ "-supported")) = false := by
  decide +kernel

theorem settings_public : ∀ name ∈ namedSettings ++ reportedSettings,
    isSecretName (asBytes name) = false := by
  decide +kernel

section

variable {view : Attribute → Attribute} (shows : PublicView view)
variable (attributes : List Attribute) (origin : ObservationOrigin)

include shows

theorem identity_view :
    normalizedIdentity (attributes.map view) origin = normalizedIdentity attributes origin := by
  have text (name : String) (single : name ∈ singleNames) :
      firstText (attributes.map view) (asBytes name) = firstText attributes (asBytes name) :=
    bind_firstValue_view shows flat_valueText (singleNames_public name single)
  unfold normalizedIdentity
  rw [text "printer-uuid" (by simp [singleNames]),
    text "printer-serial-number" (by simp [singleNames]),
    text "printer-device-id" (by simp [singleNames]),
    text "printer-make-and-model" (by simp [singleNames])]

theorem state_view :
    normalizedState (attributes.map view) = normalizedState attributes := by
  unfold normalizedState
  rw [bind_firstValue_view shows flat_ippPrinterState
      (singleNames_public "printer-state" (by simp [singleNames])),
    filterMap_view shows flat_valueText
      (singleNames_public "printer-state-reasons" (by simp [singleNames]))]

theorem supplies_view :
    normalizedSupplies (attributes.map view) origin = normalizedSupplies attributes origin := by
  have levels : (values (attributes.map view) (asBytes "marker-levels")).map
      (fun value => (valueI64 value).bind level8) =
      (values attributes (asBytes "marker-levels")).map
        (fun value => (valueI64 value).bind level8) := by
    rw [values_view shows (singleNames_public "marker-levels" (by simp [singleNames])),
      List.map_map]
    congr 1
    funext value
    simp only [Function.comp_apply, flat_valueI64 value]
  unfold normalizedSupplies
  rw [levels, filterMap_view shows flat_valueText
    (singleNames_public "marker-names" (by simp [singleNames]))]

theorem operationValues_view :
    operationValues (attributes.map view) = operationValues attributes := by
  unfold operationValues
  rw [filterMap_view shows flat_valueI64
    (singleNames_public "operations-supported" (by simp [singleNames]))]

theorem operations_view :
    normalizedOperations (attributes.map view) origin =
      normalizedOperations attributes origin := by
  unfold normalizedOperations
  rw [operationValues_view shows]

theorem settingsOf_view {name : String} (shown : isSecretName (asBytes name) = false) :
    settingsOf (attributes.map view) name = settingsOf attributes name :=
  filterMap_view shows flat_settingValue shown

theorem capabilities_view (format : Option String) :
    normalizedCapabilities (attributes.map view) origin format =
      normalizedCapabilities attributes origin format := by
  have jobs : jobBases.filterMap (jobCapability (attributes.map view) origin format) =
      jobBases.filterMap (jobCapability attributes origin format) := by
    apply List.filterMap_congr
    intro base member
    have shown := jobBases_public base member
    unfold jobCapability
    rw [bind_firstValue_view shows flat_settingValue shown.1, settingsOf_view shows _ shown.2]
  unfold normalizedCapabilities mediaReady
  rw [jobs, settingsOf_view shows _ (singleNames_public "media-ready" (by simp [singleNames]))]

theorem namedValue_view {name : String} (named : name ∈ namedSettings) :
    namedValue (attributes.map view) name = namedValue attributes name :=
  bind_firstValue_view shows flat_settingValue
    (settings_public name (List.mem_append_left _ named))

theorem reportedValue_view {name : String} (reported : name ∈ reportedSettings) :
    reportedValue (attributes.map view) name = reportedValue attributes name := by
  unfold reportedValue
  rw [settingsOf_view shows _ (settings_public name (List.mem_append_right _ reported))]

theorem settings_view :
    normalizedSettings (attributes.map view) origin = normalizedSettings attributes origin := by
  unfold normalizedSettings
  congr 1
  · apply List.filterMap_congr
    intro name named
    rw [namedValue_view shows attributes named]
  · apply List.filterMap_congr
    intro name reported
    rw [reportedValue_view shows attributes reported]

theorem validSettable_view :
    validSettableAttributes (attributes.map view) = validSettableAttributes attributes := by
  have shown := singleNames_public "printer-settable-attributes-supported"
    (by simp [singleNames])
  unfold validSettableAttributes
  rw [shows.find]
  cases found : attributes.find? fun attr =>
      attr.name == asBytes "printer-settable-attributes-supported" with
  | none => rfl
  | some attr =>
      have keywords : (settableKeyword ∘ flat) = settableKeyword := by
        funext value
        exact flat_settableKeyword value
      simp only [Option.map_some, Option.bind_eq_bind, Option.bind_some,
        shows.values_of_found shown found, List.mapM_map, keywords]

theorem mutations_view :
    normalizedMutations (attributes.map view) origin =
      normalizedMutations attributes origin := by
  have settable (name : String) : attributeIsSettable (attributes.map view) name =
      attributeIsSettable attributes name := by
    unfold attributeIsSettable
    rw [operationValues_view shows, validSettable_view shows]
  unfold normalizedMutations
  congr 1
  · apply List.filterMap_congr
    intro name named
    rw [namedValue_view shows attributes named, settable]
  · apply List.filterMap_congr
    intro name reported
    rw [reportedValue_view shows attributes reported]

end

/-! ## Redacted observations -/

/-- Whether an attribute with a value has a sensitive name. -/
def responseSensitive (attributes : List Attribute) : Bool :=
  attributes.any fun attr => !attr.values.isEmpty && isSensitiveIppAttribute attr.name

/-- The observation of one attribute as redacted output shows it. -/
def shownObservation (sha256 : Sha256) (origin : ObservationOrigin) (sensitive : Bool)
    (originalBytes : Option Bytes) (attr : Attribute) : ProtocolObservation :=
  let own := observation origin originalBytes attr
  redactObservation sensitive { own with evidence := redactEvidence sha256 own.evidence }

/-- The observations as redacted output shows them. -/
def shownObservations (sha256 : Sha256) (origin : ObservationOrigin) (originalBytes : Bytes)
    (attributes : List Attribute) : List ProtocolObservation :=
  attributes.mapIdx fun index attr =>
    shownObservation sha256 origin (responseSensitive attributes)
      (if index = 0 then some originalBytes else none) attr

/-- The redacted snapshot of a response. -/
def shownSnapshot (sha256 : Sha256) (origin : ObservationOrigin) (format : Option String)
    (originalBytes : Bytes) (attributes : List Attribute) : DeviceSnapshot :=
  { redactSensitiveSnapshot sha256
      { identity := normalizedIdentity attributes origin
        state := normalizedState attributes
        supplies := normalizedSupplies attributes origin
        jobCapabilities := normalizedCapabilities attributes origin format
        deviceSettings := normalizedSettings attributes origin
        mutationSupport := normalizedMutations attributes origin
        operations := normalizedOperations attributes origin
        observations := [] } with
    observations := shownObservations sha256 origin originalBytes attributes }

theorem any_mapIdx {α β : Type} {convert : Nat → α → β} {test : β → Bool} {check : α → Bool}
    (same : ∀ index value, test (convert index value) = check value) (list : List α) :
    (list.mapIdx convert).any test = list.any check := by
  induction list generalizing convert with
  | nil => rfl
  | cons first rest ih =>
      rw [List.mapIdx_cons, List.any_cons, List.any_cons, same]
      rw [ih fun index value => same (index + 1) value]

theorem map_mapIdx {α β γ : Type} (convert : Nat → α → β) (again : β → γ) (list : List α) :
    (list.mapIdx convert).map again = list.mapIdx fun index value => again (convert index value) := by
  induction list generalizing convert with
  | nil => rfl
  | cons first rest ih => rw [List.mapIdx_cons, List.map_cons, ih, List.mapIdx_cons]

theorem mapIdx_map {α β γ : Type} (convert : α → β) (index : Nat → β → γ) (list : List α) :
    (list.map convert).mapIdx index = list.mapIdx fun position value =>
      index position (convert value) := by
  induction list generalizing index with
  | nil => rfl
  | cons first rest ih => rw [List.map_cons, List.mapIdx_cons, ih, List.mapIdx_cons]

section

variable (sha256 : Sha256) (origin : ObservationOrigin)

theorem sensitive_observation (originalBytes : Option Bytes) (attr : Attribute) :
    (observation origin originalBytes attr).values.any (fun value => value.sensitive) =
      (!attr.values.isEmpty && isSensitiveIppAttribute attr.name) := by
  cases attr with
  | mk name values =>
      cases values with
      | nil => rfl
      | cons first rest =>
          cases known : isSensitiveIppAttribute name <;> simp [observation, known]

theorem containsSensitive_observations (originalBytes : Bytes) (attributes : List Attribute) :
    containsSensitive ((observations attributes origin originalBytes).map fun observation =>
      { observation with evidence := redactEvidence sha256 observation.evidence }) =
      responseSensitive attributes := by
  unfold containsSensitive observations responseSensitive
  rw [map_mapIdx]
  apply any_mapIdx
  intro index attr
  exact sensitive_observation origin (if index = 0 then some originalBytes else none) attr

theorem output_eq (message : Message) (format : Option String)
    (authorization : OutputAuthorization) (authorized : authorization.rawLocal = true) :
    prepareSnapshotOutput sha256 (normalizeIpp message origin format) .localRawRedacted
        authorization =
      .ok ⟨shownSnapshot sha256 origin format message.originalBytes (messageAttributes message),
        .localRawRedacted, ⟨true, false, true⟩⟩ := by
  have shown : ((observations (messageAttributes message) origin message.originalBytes).map
      fun observation =>
        { observation with evidence := redactEvidence sha256 observation.evidence }).map
      (redactObservation (responseSensitive (messageAttributes message))) =
      shownObservations sha256 origin message.originalBytes (messageAttributes message) := by
    unfold observations
    rw [map_mapIdx, map_mapIdx]
    rfl
  unfold prepareSnapshotOutput
  dsimp only
  rw [authorized, Bool.not_true, if_neg Bool.false_ne_true]
  unfold redactSensitiveSnapshot normalizeIpp
  dsimp only
  rw [containsSensitive_observations, shown]
  rfl

/-- Redacted output shows an attribute as it shows its public surface. -/
theorem shownObservation_surface (sensitive : Bool) (originalBytes : Option Bytes)
    (attr : Attribute) :
    shownObservation sha256 origin sensitive originalBytes (surface attr) =
      shownObservation sha256 origin sensitive originalBytes attr := by
  have values : (observation origin originalBytes (surface attr)).values.map redactValue =
      (observation origin originalBytes attr).values.map redactValue := by
    simp only [observation, surface, List.map_map]
    congr 1
    funext value
    simp only [Function.comp_apply]
    cases sensitive : isSensitiveIppAttribute attr.name with
    | true =>
        -- a sensitive value is replaced, and only its tag is left of it
        cases isSecretName attr.name <;> simp [redactValue, blank, flat_tag value]
    | false =>
        have shown : isSecretName attr.name = false := by simp [isSecretName, sensitive]
        simp [shown, flat_tag value, flat_scalarWireBytes value]
  unfold shownObservation redactObservation
  dsimp only
  rw [values]
  rfl

theorem responseSensitive_surface (attributes : List Attribute) :
    responseSensitive (attributes.map surface) = responseSensitive attributes := by
  unfold responseSensitive
  rw [List.any_map]
  congr 1
  funext attr
  simp [surface]

theorem shownSnapshot_surface (format : Option String) (originalBytes : Bytes)
    (attributes : List Attribute) :
    shownSnapshot sha256 origin format originalBytes (attributes.map surface) =
      shownSnapshot sha256 origin format originalBytes attributes := by
  have observed : shownObservations sha256 origin originalBytes (attributes.map surface) =
      shownObservations sha256 origin originalBytes attributes := by
    unfold shownObservations
    rw [responseSensitive_surface, mapIdx_map]
    simp only [shownObservation_surface]
  unfold shownSnapshot
  rw [identity_view publicView_surface, state_view publicView_surface,
    supplies_view publicView_surface, capabilities_view publicView_surface,
    settings_view publicView_surface, mutations_view publicView_surface,
    operations_view publicView_surface, observed]

/-- The bytes of the response are shown unless some name is sensitive. -/
theorem shownSnapshot_originalBytes (format : Option String) (left right : Bytes)
    (attributes : List Attribute) :
    shownSnapshot sha256 origin format left attributes =
        shownSnapshot sha256 origin format right attributes ↔
      responseSensitive attributes = true ∨ attributes = [] ∨ left = right := by
  constructor
  · intro same
    have observed := congrArg DeviceSnapshot.observations same
    cases attributes with
    | nil => exact .inr (.inl rfl)
    | cons first rest =>
        cases sensitive : responseSensitive (first :: rest) with
        | true => exact .inl rfl
        | false =>
            have head := congrArg List.head? observed
            simp only [shownSnapshot, shownObservations, List.mapIdx_cons, List.head?_cons,
              Option.some.injEq] at head
            have bytes := congrArg ProtocolObservation.originalBytes head
            simp only [shownObservation, redactObservation, observation, sensitive,
              Bool.false_eq_true, if_false, if_true, Option.some.injEq] at bytes
            exact .inr (.inr bytes)
  · intro hidden
    rcases hidden with sensitive | rfl | rfl
    · have observed : shownObservations sha256 origin left attributes =
          shownObservations sha256 origin right attributes := by
        simp only [shownObservations, shownObservation, redactObservation, observation,
          sensitive, if_true]
      unfold shownSnapshot
      rw [observed]
    · rfl
    · rfl

end

/-! ## Noninterference -/

/-- Without attributes there is nothing to differ in. -/
theorem groups_eq_of_like {groups others : List AttributeGroup}
    (like : List.Forall₂ LikeGroup groups others)
    (none : groups.flatMap AttributeGroup.attributes = []) : groups = others := by
  induction like with
  | nil => rfl
  | @cons group other groups others first _ ih =>
      rw [List.flatMap_cons, List.append_eq_nil_iff] at none
      have empty := first.2
      rw [none.1, List.forall₂_nil_left_iff] at empty
      have same : group = other := by
        cases group
        cases other
        simp_all [LikeGroup]
      rw [same, ih none.2]

theorem wire_eq_of_like {message other : Message} (like : LikeMessage message other)
    (none : messageAttributes message = []) : message.wire = other.wire := by
  unfold Message.wire Message.header
  rw [like.version, like.code, like.requestId, groups_eq_of_like like.groups none]

/-- A decoded attribute has a value, so its name alone makes a response sensitive. -/
theorem responseSensitive_iff {input : Bytes} {limits : Limits} {message : Message}
    (decoded : decode input limits = .ok message) :
    responseSensitive (messageAttributes message) = true ↔
      ∃ attr ∈ messageAttributes message, isSensitiveIppAttribute attr.name = true := by
  have formed := ((decode_eq_ok _ _ _).mp decoded).1
  simp only [responseSensitive, List.any_eq_true, Bool.and_eq_true]
  constructor
  · rintro ⟨attr, member, -, sensitive⟩
    exact ⟨attr, member, sensitive⟩
  · rintro ⟨attr, member, sensitive⟩
    obtain ⟨group, inside, own⟩ := List.mem_flatMap.mp member
    have filled := ((formed group inside).attributes attr own).filled
    exact ⟨attr, member, by simpa using filled, sensitive⟩

/-- Two responses that differ in secrets only have the same raw redacted output exactly
when a top-level attribute has a sensitive name, or the responses are the same. -/
theorem localRaw_noninterference_iff (sha256 : Sha256) (left right : Bytes)
    (leftLimits rightLimits : Limits) (message other : Message) (origin : ObservationOrigin)
    (format : Option String) (authorization : OutputAuthorization)
    (decoded : decode left leftLimits = .ok message)
    (redecoded : decode right rightLimits = .ok other) (like : LikeMessage message other)
    (authorized : authorization.rawLocal = true) :
    prepareSnapshotOutput sha256 (normalizeIpp message origin format) .localRawRedacted
          authorization =
        prepareSnapshotOutput sha256 (normalizeIpp other origin format) .localRawRedacted
          authorization ↔
      (∃ attr ∈ messageAttributes message, isSensitiveIppAttribute attr.name = true) ∨
        left = right := by
  obtain ⟨-, -, wire, original⟩ := (decode_eq_ok _ _ _).mp decoded
  obtain ⟨-, -, rewire, reoriginal⟩ := (decode_eq_ok _ _ _).mp redecoded
  have empty : messageAttributes message = [] → left = right := by
    intro none
    rw [← wire, ← rewire, wire_eq_of_like like none]
  rw [output_eq sha256 origin message format authorization authorized,
    output_eq sha256 origin other format authorization authorized, original, reoriginal,
    ← shownSnapshot_surface sha256 origin format left,
    ← shownSnapshot_surface sha256 origin format right, ← messageSurface_of_like like,
    ← responseSensitive_iff decoded, ← responseSensitive_surface]
  simp only [Except.ok.injEq, PreparedSnapshot.mk.injEq, and_true,
    shownSnapshot_originalBytes, List.map_eq_nil_iff]
  constructor
  · rintro (sensitive | none | same)
    · exact .inl sensitive
    · exact .inr (empty none)
    · exact .inr same
  · rintro (sensitive | same)
    · exact .inl sensitive
    · exact .inr (.inr same)

/-- A response with one collection that holds a password. -/
def profileMessage (password : Bytes) (originalBytes : Bytes) : Message where
  version := ⟨2, 0⟩
  code := 0
  requestId := 1
  groups := [⟨4, [⟨asBytes "network-profile", [⟨.begCollection, .collection
    [⟨asBytes "wifi-password", [⟨.textWithoutLanguage, .bytes password⟩]⟩]⟩]⟩]⟩]
  originalBytes

/-- The bytes of the response, for a password of three octets. -/
def profileBytes (password : Bytes) : Bytes :=
  [2, 0, 0, 0, 0, 0, 0, 1, 4, 0x34, 0, 15] ++ asBytes "network-profile" ++
    [0, 0, 0x4a, 0, 0, 0, 13] ++ asBytes "wifi-password" ++ [0x41, 0, 0, 0, 3] ++ password ++
    [0x37, 0, 0, 0, 0, 3]

def profileOrigin : ObservationOrigin where
  agentId := none
  printerId := "printer"
  endpoint := "ipp://printer.local/ipp/print"
  endpointGeneration := 1
  transport := .ipp
  protocol := .ipp
  requestId := "request"
  probeId := none
  observedAt := "2026-01-01T00:00:00Z"
  qualification := none

/-- The SHA-256 digest of the endpoint. -/
def profileSha256 : Sha256 := fun _ => ⟨[0xd8, 0xc1, 0x29, 0x43, 0x61, 0xd5, 0xbc, 0xc2, 0x6d, 0x73, 0x29,
  0x68, 0x24, 0x21, 0xd9, 0xf4, 0xfc, 0x7b, 0x92, 0x9a, 0xf7, 0xe8,
  0xf2, 0x59, 0xdc, 0xd9, 0xb8, 0xe8, 0x23, 0x3e, 0x59, 0x6a], rfl⟩

/-- The raw redacted output of the response. -/
def profileOutput (password : Bytes) : Except OutputPolicyError PreparedSnapshot :=
  prepareSnapshotOutput profileSha256
    (normalizeIpp (profileMessage password (profileBytes password)) profileOrigin none)
    .localRawRedacted { rawLocal := true }

theorem profile_like (password other : Bytes) (same : password.length = other.length) :
    LikeMessage (profileMessage password (profileBytes password))
      (profileMessage other (profileBytes other)) where
  version := rfl
  code := rfl
  requestId := rfl
  groups := by
    have secret : isSecretName (asBytes "wifi-password") = true := by decide +kernel
    simp [profileMessage, LikeGroup, LikeAttribute, likeValues, likeValue, likeData,
      likeMembers, likeMember, secret, scalarBytes, same]

theorem localRaw_noninterference_profile :
    decode (profileBytes [0x61, 0x62, 0x63]) .default =
        .ok (profileMessage [0x61, 0x62, 0x63] (profileBytes [0x61, 0x62, 0x63])) ∧
      decode (profileBytes [0x78, 0x79, 0x7a]) .default =
        .ok (profileMessage [0x78, 0x79, 0x7a] (profileBytes [0x78, 0x79, 0x7a])) ∧
      (profileOutput [0x61, 0x62, 0x63] = profileOutput [0x78, 0x79, 0x7a] ↔
        (∃ attr ∈ messageAttributes
            (profileMessage [0x61, 0x62, 0x63] (profileBytes [0x61, 0x62, 0x63])),
          isSensitiveIppAttribute attr.name = true) ∨
        profileBytes [0x61, 0x62, 0x63] = profileBytes [0x78, 0x79, 0x7a]) := by
  have left : decode (profileBytes [0x61, 0x62, 0x63]) .default =
      .ok (profileMessage [0x61, 0x62, 0x63] (profileBytes [0x61, 0x62, 0x63])) := by
    decide +kernel
  have right : decode (profileBytes [0x78, 0x79, 0x7a]) .default =
      .ok (profileMessage [0x78, 0x79, 0x7a] (profileBytes [0x78, 0x79, 0x7a])) := by
    decide +kernel
  exact ⟨left, right, localRaw_noninterference_iff _ _ _ _ _ _ _ _ _ _ left right
    (profile_like _ _ rfl) rfl⟩

/-- The passwords of two responses that are otherwise the same reach the redacted
output, inside the bytes that the observation keeps. -/
theorem nested_password_exposed :
    decode (profileBytes [0x61, 0x62, 0x63]) .default =
        .ok (profileMessage [0x61, 0x62, 0x63] (profileBytes [0x61, 0x62, 0x63])) ∧
      decode (profileBytes [0x78, 0x79, 0x7a]) .default =
        .ok (profileMessage [0x78, 0x79, 0x7a] (profileBytes [0x78, 0x79, 0x7a])) ∧
      LikeMessage (profileMessage [0x61, 0x62, 0x63] (profileBytes [0x61, 0x62, 0x63]))
        (profileMessage [0x78, 0x79, 0x7a] (profileBytes [0x78, 0x79, 0x7a])) ∧
      (profileOutput [0x61, 0x62, 0x63]).map
          (·.snapshot.observations.map ProtocolObservation.originalBytes) =
        .ok [some (profileBytes [0x61, 0x62, 0x63])] ∧
      (profileOutput [0x78, 0x79, 0x7a]).map
          (·.snapshot.observations.map ProtocolObservation.originalBytes) =
        .ok [some (profileBytes [0x78, 0x79, 0x7a])] ∧
      profileOutput [0x61, 0x62, 0x63] ≠ profileOutput [0x78, 0x79, 0x7a] := by
  have left : (profileOutput [0x61, 0x62, 0x63]).map
      (·.snapshot.observations.map ProtocolObservation.originalBytes) =
      .ok [some (profileBytes [0x61, 0x62, 0x63])] := by decide +kernel
  have right : (profileOutput [0x78, 0x79, 0x7a]).map
      (·.snapshot.observations.map ProtocolObservation.originalBytes) =
      .ok [some (profileBytes [0x78, 0x79, 0x7a])] := by decide +kernel
  refine ⟨by decide +kernel, by decide +kernel, profile_like _ _ rfl, left, right, ?_⟩
  intro same
  rw [same, right] at left
  revert left
  decide +kernel

end PrinterSdk.Discovery
