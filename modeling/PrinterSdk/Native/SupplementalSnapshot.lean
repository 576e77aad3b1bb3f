import PrinterSdk.Data.KeyedMerge
import PrinterSdk.Discovery.Snapshot

/-!
# Supplemental snapshots

An inspection asks a printer for focused sets of attributes and merges the answers into the
snapshot of the first answer.  Supplements add what is missing and change nothing else.
-/

namespace PrinterSdk.Native

open PrinterSdk.Data PrinterSdk.Discovery

/-! ## Merging -/

/-- `merge_unique_by`. -/
def mergeUniqueBy {α κ : Type} [DecidableEq κ] (target supplemental : List α) (key : α → κ) :
    List α :=
  appendFresh key target supplemental

/-- `if target.is_none() { target = supplemental }`. -/
def fillIn {α : Type} (target supplemental : Option α) : Option α :=
  if target.isNone then supplemental else target

/-- The key of a job capability. -/
def capabilityKey (capability : JobCapability) : String × Option String :=
  (capability.id, capability.formatScope)

/-- The loop over the reasons of a supplement. -/
def mergeReasons (target : List String) : List String → List String
  | [] => target
  | reason :: rest =>
      if target.contains reason then mergeReasons target rest
      else mergeReasons (target ++ [reason]) rest

/-- `merge_supplemental_snapshot`. -/
def mergeSupplementalSnapshot (target supplemental : DeviceSnapshot) : DeviceSnapshot where
  identity := {
    target.identity with
    uuid := fillIn target.identity.uuid supplemental.identity.uuid
    serialNumber := fillIn target.identity.serialNumber supplemental.identity.serialNumber
    deviceId := fillIn target.identity.deviceId supplemental.identity.deviceId
    manufacturer := fillIn target.identity.manufacturer supplemental.identity.manufacturer
    model := fillIn target.identity.model supplemental.identity.model }
  state := {
    state := fillIn target.state.state supplemental.state.state
    reasons := mergeReasons target.state.reasons supplemental.state.reasons }
  supplies := mergeUniqueBy target.supplies supplemental.supplies (·.id)
  jobCapabilities :=
    mergeUniqueBy target.jobCapabilities supplemental.jobCapabilities capabilityKey
  deviceSettings := mergeUniqueBy target.deviceSettings supplemental.deviceSettings (·.id)
  mutationSupport :=
    mergeUniqueBy target.mutationSupport supplemental.mutationSupport (·.setting)
  operations := mergeUniqueBy target.operations supplemental.operations (·.operation)
  observations := target.observations ++ supplemental.observations

/-- Every supplement is merged in turn. -/
def mergeSupplements (base : DeviceSnapshot) (supplements : List DeviceSnapshot) :
    DeviceSnapshot :=
  supplements.foldl mergeSupplementalSnapshot base

/-! ## One merge -/

theorem mergeReasons_eq (target reasons : List String) :
    mergeReasons target reasons = mergeUniqueBy target reasons id := by
  induction reasons generalizing target with
  | nil => rfl
  | cons reason rest ih =>
      have same : target.contains reason = target.any fun existing => id existing = id reason := by
        rw [Bool.eq_iff_iff, List.contains_iff_mem, List.any_eq_true]
        simp
      rw [mergeReasons, same, mergeUniqueBy, appendFresh]
      split
      · exact ih target
      · exact ih (target ++ [reason])

/-! ## Sequences of supplements -/

section

variable {α κ : Type} [DecidableEq κ]

/-- A list that every merge extends is extended by the entries of all supplements. -/
theorem mergeSupplements_list (field : DeviceSnapshot → List α) (key : α → κ)
    (merges : ∀ target supplemental, field (mergeSupplementalSnapshot target supplemental) =
      mergeUniqueBy (field target) (field supplemental) key)
    (base : DeviceSnapshot) (supplements : List DeviceSnapshot) :
    field (mergeSupplements base supplements) =
      appendFresh key (field base) (supplements.flatMap field) := by
  induction supplements generalizing base with
  | nil => rfl
  | cons supplement rest ih =>
      rw [List.flatMap_cons, appendFresh_append]
      exact (ih _).trans (congrArg (appendFresh key · _) (merges base supplement))

/-- A value that every merge fills in is the first one that is present. -/
theorem mergeSupplements_value (field : DeviceSnapshot → Option α)
    (merges : ∀ target supplemental, field (mergeSupplementalSnapshot target supplemental) =
      fillIn (field target) (field supplemental))
    (base : DeviceSnapshot) (supplements : List DeviceSnapshot) :
    field (mergeSupplements base supplements) = (base :: supplements).findSome? field := by
  induction supplements generalizing base with
  | nil =>
      rw [List.findSome?_cons]
      cases present : field base with
      | none => exact present
      | some value => exact present
  | cons supplement rest ih =>
      have merged := ih (mergeSupplementalSnapshot base supplement)
      rw [List.findSome?_cons, merges] at merged
      rw [List.findSome?_cons, List.findSome?_cons]
      refine merged.trans ?_
      cases field base with
      | none => rfl
      | some value => rfl

/-- A list does not change when a supplement is merged again. -/
theorem mergeSupplements_list_again (field : DeviceSnapshot → List α) (key : α → κ)
    (merges : ∀ target supplemental, field (mergeSupplementalSnapshot target supplemental) =
      mergeUniqueBy (field target) (field supplemental) key)
    (base : DeviceSnapshot) (before after : List DeviceSnapshot) (supplement : DeviceSnapshot) :
    mergeUniqueBy (field (mergeSupplements base (before ++ supplement :: after)))
        (field supplement) key =
      field (mergeSupplements base (before ++ supplement :: after)) := by
  apply appendFresh_of_present
  intro entry member
  rw [mergeSupplements_list field key merges, hasKey_appendFresh]
  refine .inr ⟨entry, ?_, rfl⟩
  exact List.mem_flatMap.mpr ⟨supplement, List.mem_append_right _ List.mem_cons_self, member⟩

/-- A value does not change when a supplement is merged again. -/
theorem mergeSupplements_value_again (field : DeviceSnapshot → Option α)
    (merges : ∀ target supplemental, field (mergeSupplementalSnapshot target supplemental) =
      fillIn (field target) (field supplemental))
    (base : DeviceSnapshot) (before after : List DeviceSnapshot) (supplement : DeviceSnapshot) :
    fillIn (field (mergeSupplements base (before ++ supplement :: after))) (field supplement) =
      field (mergeSupplements base (before ++ supplement :: after)) := by
  have first := mergeSupplements_value field merges base (before ++ supplement :: after)
  cases present : field (mergeSupplements base (before ++ supplement :: after)) with
  | some value => rfl
  | none =>
      rw [present] at first
      have listed : supplement ∈ base :: (before ++ supplement :: after) :=
        List.mem_cons_of_mem _ (List.mem_append_right _ List.mem_cons_self)
      exact List.findSome?_eq_none_iff.mp first.symm supplement listed

end

/-- What a snapshot has become by merging supplements.  A value that was present is still the
same, and one that was missing is the first one of a supplement. -/
structure OnlyAdds (base : DeviceSnapshot) (supplements : List DeviceSnapshot)
    (merged : DeviceSnapshot) : Prop where
  printerId : merged.identity.printerId = base.identity.printerId
  uuid : merged.identity.uuid = (base :: supplements).findSome? (·.identity.uuid)
  serialNumber :
    merged.identity.serialNumber = (base :: supplements).findSome? (·.identity.serialNumber)
  deviceId : merged.identity.deviceId = (base :: supplements).findSome? (·.identity.deviceId)
  manufacturer :
    merged.identity.manufacturer = (base :: supplements).findSome? (·.identity.manufacturer)
  model : merged.identity.model = (base :: supplements).findSome? (·.identity.model)
  state : merged.state.state = (base :: supplements).findSome? (·.state.state)
  reasons :
    Grown id base.state.reasons (supplements.flatMap (·.state.reasons)) merged.state.reasons
  supplies : Grown (·.id) base.supplies (supplements.flatMap (·.supplies)) merged.supplies
  jobCapabilities : Grown capabilityKey base.jobCapabilities
    (supplements.flatMap (·.jobCapabilities)) merged.jobCapabilities
  deviceSettings : Grown (·.id) base.deviceSettings (supplements.flatMap (·.deviceSettings))
    merged.deviceSettings
  mutationSupport : Grown (·.setting) base.mutationSupport
    (supplements.flatMap (·.mutationSupport)) merged.mutationSupport
  operations : Grown (·.operation) base.operations (supplements.flatMap (·.operations))
    merged.operations
  observations :
    merged.observations = base.observations ++ supplements.flatMap (·.observations)

/-- A list that every merge extends has grown by the entries of all supplements. -/
theorem mergeSupplements_grown {α κ : Type} [DecidableEq κ] (field : DeviceSnapshot → List α)
    (key : α → κ)
    (merges : ∀ target supplemental, field (mergeSupplementalSnapshot target supplemental) =
      mergeUniqueBy (field target) (field supplemental) key)
    (base : DeviceSnapshot) (supplements : List DeviceSnapshot) :
    Grown key (field base) (supplements.flatMap field)
      (field (mergeSupplements base supplements)) := by
  rw [mergeSupplements_list field key merges]
  exact grown_appendFresh _ _

theorem mergeSupplements_printerId (base : DeviceSnapshot) (supplements : List DeviceSnapshot) :
    (mergeSupplements base supplements).identity.printerId = base.identity.printerId := by
  induction supplements generalizing base with
  | nil => rfl
  | cons supplement rest ih => exact ih (mergeSupplementalSnapshot base supplement)

theorem mergeSupplements_observations (base : DeviceSnapshot)
    (supplements : List DeviceSnapshot) :
    (mergeSupplements base supplements).observations =
      base.observations ++ supplements.flatMap (·.observations) := by
  induction supplements generalizing base with
  | nil => exact (List.append_nil _).symm
  | cons supplement rest ih =>
      rw [List.flatMap_cons, ← List.append_assoc]
      exact ih (mergeSupplementalSnapshot base supplement)

theorem onlyAdds (base : DeviceSnapshot) (supplements : List DeviceSnapshot) :
    OnlyAdds base supplements (mergeSupplements base supplements) where
  printerId := mergeSupplements_printerId base supplements
  uuid := mergeSupplements_value (·.identity.uuid) (fun _ _ => rfl) base supplements
  serialNumber :=
    mergeSupplements_value (·.identity.serialNumber) (fun _ _ => rfl) base supplements
  deviceId := mergeSupplements_value (·.identity.deviceId) (fun _ _ => rfl) base supplements
  manufacturer :=
    mergeSupplements_value (·.identity.manufacturer) (fun _ _ => rfl) base supplements
  model := mergeSupplements_value (·.identity.model) (fun _ _ => rfl) base supplements
  state := mergeSupplements_value (·.state.state) (fun _ _ => rfl) base supplements
  reasons := mergeSupplements_grown (·.state.reasons) id (fun _ _ => mergeReasons_eq _ _) base
    supplements
  supplies := mergeSupplements_grown (·.supplies) (·.id) (fun _ _ => rfl) base supplements
  jobCapabilities :=
    mergeSupplements_grown (·.jobCapabilities) capabilityKey (fun _ _ => rfl) base supplements
  deviceSettings :=
    mergeSupplements_grown (·.deviceSettings) (·.id) (fun _ _ => rfl) base supplements
  mutationSupport :=
    mergeSupplements_grown (·.mutationSupport) (·.setting) (fun _ _ => rfl) base supplements
  operations :=
    mergeSupplements_grown (·.operations) (·.operation) (fun _ _ => rfl) base supplements
  observations := mergeSupplements_observations base supplements

/-- Merging a supplement again only appends its observations again. -/
theorem mergeSupplements_again (base : DeviceSnapshot) (before after : List DeviceSnapshot)
    (supplement : DeviceSnapshot) :
    let merged := mergeSupplements base (before ++ supplement :: after)
    mergeSupplementalSnapshot merged supplement =
      { merged with observations := merged.observations ++ supplement.observations } := by
  have values {α : Type} (field : DeviceSnapshot → Option α) merges :=
    mergeSupplements_value_again field merges base before after supplement
  have lists {α κ : Type} [DecidableEq κ] (field : DeviceSnapshot → List α) (key : α → κ) merges :=
    mergeSupplements_list_again field key merges base before after supplement
  intro merged
  simp only [mergeSupplementalSnapshot, mergeReasons_eq]
  rw [values (·.identity.uuid) fun _ _ => rfl, values (·.identity.serialNumber) fun _ _ => rfl,
    values (·.identity.deviceId) fun _ _ => rfl, values (·.identity.manufacturer) fun _ _ => rfl,
    values (·.identity.model) fun _ _ => rfl, values (·.state.state) fun _ _ => rfl,
    lists (·.state.reasons) id fun _ _ => mergeReasons_eq _ _,
    lists (·.supplies) (·.id) fun _ _ => rfl,
    lists (·.jobCapabilities) capabilityKey fun _ _ => rfl,
    lists (·.deviceSettings) (·.id) fun _ _ => rfl,
    lists (·.mutationSupport) (·.setting) fun _ _ => rfl,
    lists (·.operations) (·.operation) fun _ _ => rfl]

/-- Any sequence of supplements only adds to a snapshot, and merging one of them a second time
only appends its observations again. -/
theorem supplements_only_add (base : DeviceSnapshot) :
    (∀ supplements, OnlyAdds base supplements (mergeSupplements base supplements)) ∧
      ∀ before supplement after,
        let merged := mergeSupplements base (before ++ supplement :: after)
        mergeSupplementalSnapshot merged supplement =
          { merged with observations := merged.observations ++ supplement.observations } :=
  ⟨onlyAdds base, fun before supplement after =>
    mergeSupplements_again base before after supplement⟩

end PrinterSdk.Native
