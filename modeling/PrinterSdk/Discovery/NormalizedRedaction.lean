import PrinterSdk.Discovery.Redaction

/-!
# Noninterference of normalized output

The normalized output of a response is a function of the names of its attributes and
of the values of the public ones, up to what stands inside collections.  Identifiers
and the endpoints of evidence leave it as pseudonyms.
-/

namespace PrinterSdk.Discovery

open PrinterSdk.Data PrinterSdk.Ipp

/-! ## Responses that agree in public -/

/-- Attributes of one name that agree in public: the values of a secret name are
free, and any other values agree up to what stands inside collections. -/
def AgreesAttribute (attr other : Attribute) : Prop :=
  attr.name = other.name ∧
    (isSecretName attr.name = false → attr.values.map flat = other.values.map flat)

/-- Groups of one tag whose attributes agree in public. -/
def AgreesGroup (group other : AttributeGroup) : Prop :=
  group.tag = other.tag ∧ List.Forall₂ AgreesAttribute group.attributes other.attributes

/-- Messages that agree in public. -/
def AgreesMessage (message other : Message) : Prop :=
  List.Forall₂ AgreesGroup message.groups other.groups

/-- What normalized output reads of an attribute. -/
def bare (attr : Attribute) : Attribute :=
  { attr with values := if isSecretName attr.name then [] else attr.values.map flat }

theorem publicView_bare : PublicView bare where
  name := fun _ => rfl
  values := by
    intro attr shown
    simp [bare, shown]

theorem bare_of_agrees {attr other : Attribute} (agrees : AgreesAttribute attr other) :
    bare attr = bare other := by
  obtain ⟨name, values⟩ := attr
  obtain ⟨otherName, others⟩ := other
  obtain ⟨rfl, agrees⟩ := agrees
  unfold bare
  cases secret : isSecretName name with
  | true => simp
  | false => simpa [secret] using agrees secret

theorem bareAttributes_of_agrees {attributes others : List Attribute}
    (agrees : List.Forall₂ AgreesAttribute attributes others) :
    attributes.map bare = others.map bare := by
  induction agrees with
  | nil => rfl
  | cons first _ ih => rw [List.map_cons, List.map_cons, bare_of_agrees first, ih]

theorem bareGroups_of_agrees {groups others : List AttributeGroup}
    (agrees : List.Forall₂ AgreesGroup groups others) :
    (groups.flatMap AttributeGroup.attributes).map bare =
      (others.flatMap AttributeGroup.attributes).map bare := by
  induction agrees with
  | nil => rfl
  | cons first _ ih =>
      rw [List.flatMap_cons, List.flatMap_cons, List.map_append, List.map_append,
        bareAttributes_of_agrees first.2, ih]

/-- Messages that agree in public are read alike. -/
theorem bareMessage_of_agrees {message other : Message}
    (agrees : AgreesMessage message other) :
    (messageAttributes message).map bare = (messageAttributes other).map bare :=
  bareGroups_of_agrees agrees

/-! ## The output -/

section

variable (sha256 : Sha256) (origin : ObservationOrigin)

/-- What normalized output keeps of an observation. -/
def clearedObservation (attr : Attribute) : ProtocolObservation where
  source := .ippAttribute (fromUtf8Lossy attr.name)
  values := []
  originalBytes := none
  evidence := redactEvidence sha256
    (evidence origin (.ippAttribute (fromUtf8Lossy attr.name)))

/-- The normalized snapshot of a response. -/
def clearedSnapshot (format : Option String) (attributes : List Attribute) :
    DeviceSnapshot :=
  { redactSensitiveSnapshot sha256
      { identity := normalizedIdentity attributes origin
        state := normalizedState attributes
        supplies := normalizedSupplies attributes origin
        jobCapabilities := normalizedCapabilities attributes origin format
        deviceSettings := normalizedSettings attributes origin
        mutationSupport := normalizedMutations attributes origin
        operations := normalizedOperations attributes origin
        observations := [] } with
    observations := attributes.map (clearedObservation sha256 origin) }

theorem mapIdx_const {α β : Type} (convert : α → β) (list : List α) :
    (list.mapIdx fun _ value => convert value) = list.map convert := by
  induction list with
  | nil => rfl
  | cons first rest ih => rw [List.mapIdx_cons, List.map_cons, ih]

theorem normalizedOutput_eq (message : Message) (format : Option String)
    (authorization : OutputAuthorization) :
    prepareSnapshotOutput sha256 (normalizeIpp message origin format) .normalizedRedacted
        authorization =
      .ok ⟨clearedSnapshot sha256 origin format (messageAttributes message),
        .normalizedRedacted, ⟨true, true, false⟩⟩ := by
  have cleared : ((observations (messageAttributes message) origin
      message.originalBytes).map fun observation =>
        { observation with evidence := redactEvidence sha256 observation.evidence }).map
      (fun observation => { observation with values := [], originalBytes := none }) =
      (messageAttributes message).map (clearedObservation sha256 origin) := by
    unfold observations
    rw [map_mapIdx, map_mapIdx]
    exact mapIdx_const (clearedObservation sha256 origin) (messageAttributes message)
  unfold prepareSnapshotOutput redactSensitiveSnapshot normalizeIpp
  dsimp only
  rw [cleared]
  rfl

theorem clearedSnapshot_bare (format : Option String) (attributes : List Attribute) :
    clearedSnapshot sha256 origin format (attributes.map bare) =
      clearedSnapshot sha256 origin format attributes := by
  have observed : (attributes.map bare).map (clearedObservation sha256 origin) =
      attributes.map (clearedObservation sha256 origin) := by
    rw [List.map_map]
    rfl
  unfold clearedSnapshot
  rw [identity_view publicView_bare, state_view publicView_bare, supplies_view publicView_bare,
    capabilities_view publicView_bare, settings_view publicView_bare,
    mutations_view publicView_bare, operations_view publicView_bare, observed]

end

/-! ## Pseudonyms -/

/-- All evidence of a snapshot, in its six collections: what `all_evidence_mut`
visits. -/
def allEvidence (snapshot : DeviceSnapshot) : List Evidence :=
  snapshot.supplies.flatMap Supply.evidence ++
    snapshot.jobCapabilities.flatMap JobCapability.evidence ++
    snapshot.deviceSettings.flatMap DeviceSetting.evidence ++
    snapshot.mutationSupport.flatMap MutationSupport.evidence ++
    snapshot.operations.flatMap OperationCapability.evidence ++
    snapshot.observations.map ProtocolObservation.evidence

/-- Redaction visits every piece of evidence once and in place. -/
theorem allEvidence_redacted (sha256 : Sha256) (snapshot : DeviceSnapshot) :
    allEvidence (redactSensitiveSnapshot sha256 snapshot) =
      (allEvidence snapshot).map (redactEvidence sha256) := by
  simp only [allEvidence, redactSensitiveSnapshot, redactSetting, List.map_append,
    List.map_flatMap, List.flatMap_map, List.map_map, Function.comp_def]

/-- All of the evidence was read from one origin. -/
def ReadFrom (origin : ObservationOrigin) (pieces : List Evidence) : Prop :=
  ∀ piece ∈ pieces, piece.origin = origin

theorem readFrom_attributeEvidence (origin : ObservationOrigin) (name : String) :
    ReadFrom origin (attributeEvidence origin name) := by
  simp [ReadFrom, attributeEvidence, evidence]

theorem readFrom_flatMap {α : Type} {origin : ObservationOrigin} {items : List α}
    {evidenceOf : α → List Evidence} (each : ∀ item ∈ items, ReadFrom origin (evidenceOf item)) :
    ReadFrom origin (items.flatMap evidenceOf) := by
  intro piece member
  obtain ⟨item, listed, own⟩ := List.mem_flatMap.mp member
  exact each item listed piece own

theorem ReadFrom.append {origin : ObservationOrigin} {left right : List Evidence}
    (first : ReadFrom origin left) (second : ReadFrom origin right) :
    ReadFrom origin (left ++ right) := by
  intro piece member
  rcases List.mem_append.mp member with own | own
  · exact first piece own
  · exact second piece own

theorem readFrom_supplies (message : Message) (origin : ObservationOrigin)
    (format : Option String) :
    ReadFrom origin ((normalizeIpp message origin format).supplies.flatMap Supply.evidence) := by
  apply readFrom_flatMap
  intro supply listed
  obtain ⟨index, bound, rfl⟩ := List.mem_mapIdx.mp listed
  exact readFrom_attributeEvidence origin _

theorem readFrom_jobCapabilities (message : Message) (origin : ObservationOrigin)
    (format : Option String) :
    ReadFrom origin ((normalizeIpp message origin format).jobCapabilities.flatMap
      JobCapability.evidence) := by
  have attributed (name : String) := readFrom_attributeEvidence origin name
  unfold ReadFrom at attributed
  apply readFrom_flatMap
  intro capability listed piece own
  rcases List.mem_append.mp listed with job | ready
  · obtain ⟨base, -, read⟩ := List.mem_filterMap.mp job
    unfold jobCapability at read
    grind
  · rw [Option.mem_toList] at ready
    unfold mediaReady at ready
    grind

theorem readFrom_deviceSettings (message : Message) (origin : ObservationOrigin)
    (format : Option String) :
    ReadFrom origin ((normalizeIpp message origin format).deviceSettings.flatMap
      DeviceSetting.evidence) := by
  apply readFrom_flatMap
  intro setting listed
  rcases List.mem_append.mp listed with listed | listed <;>
  · obtain ⟨name, -, read⟩ := List.mem_filterMap.mp listed
    obtain ⟨value, -, rfl⟩ := Option.map_eq_some_iff.mp read
    exact readFrom_attributeEvidence origin name

theorem readFrom_mutationSupport (message : Message) (origin : ObservationOrigin)
    (format : Option String) :
    ReadFrom origin ((normalizeIpp message origin format).mutationSupport.flatMap
      MutationSupport.evidence) := by
  apply readFrom_flatMap
  intro mutation listed
  rcases List.mem_append.mp listed with listed | listed <;>
  · obtain ⟨name, -, read⟩ := List.mem_filterMap.mp listed
    obtain ⟨value, -, rfl⟩ := Option.map_eq_some_iff.mp read
    exact readFrom_attributeEvidence origin name

theorem readFrom_operations (message : Message) (origin : ObservationOrigin)
    (format : Option String) :
    ReadFrom origin ((normalizeIpp message origin format).operations.flatMap
      OperationCapability.evidence) := by
  apply readFrom_flatMap
  intro operation listed
  obtain ⟨value, -, rfl⟩ := List.mem_map.mp listed
  exact readFrom_attributeEvidence origin _

theorem readFrom_observations (message : Message) (origin : ObservationOrigin)
    (format : Option String) :
    ReadFrom origin ((normalizeIpp message origin format).observations.map
      ProtocolObservation.evidence) := by
  intro piece member
  obtain ⟨seen, listed, rfl⟩ := List.mem_map.mp member
  obtain ⟨index, -, rfl⟩ := List.mem_mapIdx.mp listed
  rfl

/-- All evidence of a normalized response names the origin it was read from. -/
theorem allEvidence_origin (message : Message) (origin : ObservationOrigin)
    (format : Option String) :
    ReadFrom origin (allEvidence (normalizeIpp message origin format)) := by
  unfold allEvidence
  apply ReadFrom.append
  · apply ReadFrom.append
    · apply ReadFrom.append
      · apply ReadFrom.append
        · apply ReadFrom.append
          · exact readFrom_supplies message origin format
          · exact readFrom_jobCapabilities message origin format
        · exact readFrom_deviceSettings message origin format
      · exact readFrom_mutationSupport message origin format
    · exact readFrom_operations message origin format
  · exact readFrom_observations message origin format

/-- Clearing the observations keeps their evidence. -/
theorem allEvidence_cleared (snapshot : DeviceSnapshot) :
    allEvidence { snapshot with observations := snapshot.observations.map fun observation =>
      { observation with values := [], originalBytes := none } } = allEvidence snapshot := by
  simp only [allEvidence, List.map_map, Function.comp_def]

/-- The identifiers and the evidence of a snapshot are the pseudonyms of those of
the original. -/
structure Pseudonymous (sha256 : Sha256) (original redacted : DeviceSnapshot) : Prop where
  uuid : redacted.identity.uuid = original.identity.uuid.map (redactIdentifier sha256)
  serialNumber : redacted.identity.serialNumber =
    original.identity.serialNumber.map (redactIdentifier sha256)
  deviceId : redacted.identity.deviceId =
    original.identity.deviceId.map (redactIdentifier sha256)
  evidence : allEvidence redacted = (allEvidence original).map (redactEvidence sha256)

theorem normalizedOutput_pseudonymous (sha256 : Sha256) (snapshot : DeviceSnapshot)
    (authorization : OutputAuthorization) :
    ∃ prepared, prepareSnapshotOutput sha256 snapshot .normalizedRedacted authorization =
      .ok prepared ∧ Pseudonymous sha256 snapshot prepared.snapshot := by
  refine ⟨_, rfl, ?_⟩
  constructor
  case uuid => rfl
  case serialNumber => rfl
  case deviceId => rfl
  case evidence => rw [allEvidence_cleared, allEvidence_redacted]

/-! ## Noninterference -/

/-- Responses that agree in public have one normalized output, and it shows endpoints
and identifiers as pseudonyms only. -/
theorem normalized_noninterference (sha256 : Sha256) (message other : Message)
    (origin : ObservationOrigin) (format : Option String)
    (authorization otherwise : OutputAuthorization) (agrees : AgreesMessage message other) :
    prepareSnapshotOutput sha256 (normalizeIpp message origin format) .normalizedRedacted
          authorization =
        prepareSnapshotOutput sha256 (normalizeIpp other origin format) .normalizedRedacted
          otherwise ∧
      ∃ prepared, prepareSnapshotOutput sha256 (normalizeIpp message origin format)
          .normalizedRedacted authorization = .ok prepared ∧
        Pseudonymous sha256 (normalizeIpp message origin format) prepared.snapshot ∧
        ∀ piece ∈ allEvidence prepared.snapshot,
          piece.origin.endpoint = redactIdentifier sha256 origin.endpoint := by
  constructor
  · rw [normalizedOutput_eq, normalizedOutput_eq,
      ← clearedSnapshot_bare sha256 origin format (messageAttributes message),
      bareMessage_of_agrees agrees, clearedSnapshot_bare]
  · obtain ⟨prepared, output, hidden⟩ := normalizedOutput_pseudonymous sha256
      (normalizeIpp message origin format) authorization
    refine ⟨prepared, output, hidden, ?_⟩
    intro piece member
    rw [hidden.evidence] at member
    obtain ⟨original, inside, rfl⟩ := List.mem_map.mp member
    rw [← allEvidence_origin message origin format original inside]
    rfl

/-- A response with a serial number, a network name and a collection. -/
def labelledMessage (ssid password : Bytes) : Message where
  version := ⟨2, 0⟩
  code := 0
  requestId := 1
  groups := [⟨4, [
    ⟨asBytes "printer-serial-number", [⟨.textWithoutLanguage, .bytes (asBytes "A-17")⟩]⟩,
    ⟨asBytes "printer-wifi-ssid", [⟨.textWithoutLanguage, .bytes ssid⟩]⟩,
    ⟨asBytes "network-profile", [⟨.begCollection, .collection
      [⟨asBytes "wifi-password", [⟨.textWithoutLanguage, .bytes password⟩]⟩]⟩]⟩]⟩]
  originalBytes := []

/-- The SHA-256 digests of the serial number and of the endpoint. -/
def labelledSha256 : Sha256 := fun input =>
  if input = asBytes "A-17" then ⟨[0x73, 0xdf, 0x67, 0x6f, 0x27, 0x52, 0x5e, 0x21, 0xf3, 0x13, 0xb1, 0xdb, 0xac, 0x18, 0x2d, 0x22,
    0xe4, 0x68, 0x09, 0x5d, 0xaf, 0x6a, 0x63, 0x1d, 0xac, 0xd8, 0x27, 0x6c, 0xe3, 0x68, 0x6f, 0x1f], rfl⟩
  else profileSha256 input

theorem labelled_agrees (ssid password otherSsid otherPassword : Bytes) :
    AgreesMessage (labelledMessage ssid password) (labelledMessage otherSsid otherPassword) := by
  have secret : isSecretName (asBytes "printer-wifi-ssid") = true := by decide +kernel
  simp [AgreesMessage, AgreesGroup, AgreesAttribute, labelledMessage, flat, secret]

theorem normalized_noninterference_labelled :
    prepareSnapshotOutput labelledSha256
        (normalizeIpp (labelledMessage [0x61] [0x62]) profileOrigin none) .normalizedRedacted {} =
      prepareSnapshotOutput labelledSha256
        (normalizeIpp (labelledMessage [0x78, 0x79] []) profileOrigin none)
        .normalizedRedacted {} :=
  (normalized_noninterference labelledSha256 _ _ profileOrigin none {} {}
    (labelled_agrees [0x61] [0x62] [0x78, 0x79] [])).1

end PrinterSdk.Discovery
