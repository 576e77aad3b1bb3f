import Mathlib.Data.String.Basic
import PrinterSdk.Data.OrderedMap
import PrinterSdk.Snmp.ObjectId

/-!
# The registry of objects and definitions

A registry has two maps.  Objects are found by their identifier and are what a reader may
ask for; definitions are found by their key and say what an object means.  An object may be
registered alone or by its definition.  `Consistent` is what holds of the two maps in every
order of registrations.
-/

namespace PrinterSdk.Snmp

open PrinterSdk.Data

/-- `ObjectKey`, which `serde` reads from any text. -/
structure ObjectKey where
  text : String
  deriving DecidableEq, Repr

namespace ObjectKey

theorem text_injective : Function.Injective text := by
  intro left right same
  cases left
  cases right
  cases same
  rfl

instance : LinearOrder ObjectKey := LinearOrder.lift' text text_injective

end ObjectKey

/-- `Sensitivity`. -/
inductive Sensitivity where
  | publicValue
  | identifier
  | secret
  deriving DecidableEq, Repr

/-- `Sensitivity::is_sensitive`. -/
def Sensitivity.isSensitive (sensitivity : Sensitivity) : Bool := sensitivity ≠ .publicValue

/-- `ObjectDefinition`.  The registry does not read its syntax, access and qualification. -/
structure ObjectDefinition (δ : Type) where
  key : ObjectKey
  oid : ObjectId
  sensitivity : Sensitivity
  details : δ
  deriving DecidableEq, Repr

/-- The object that a definition registers. -/
def ObjectDefinition.object {δ : Type} (definition : ObjectDefinition δ) : RegisteredObject where
  oid := definition.oid
  semanticId := definition.key.text
  sensitive := definition.sensitivity.isSensitive

/-- `ObjectRegistry` with its definitions. -/
structure DefinitionRegistry (δ : Type) where
  objects : OrderedMap ObjectId RegisteredObject
  definitions : OrderedMap ObjectKey (ObjectDefinition δ)

/-- A change of the registry. -/
inductive Registration (δ : Type) where
  | object (object : RegisteredObject)
  | definition (definition : ObjectDefinition δ)
  deriving DecidableEq, Repr

namespace DefinitionRegistry

variable {δ : Type}

/-- `ObjectRegistry::default`. -/
def default : DefinitionRegistry δ := ⟨.empty, .empty⟩

/-- `ObjectRegistry::get`. -/
def get (registry : DefinitionRegistry δ) (oid : ObjectId) : Option RegisteredObject :=
  registry.objects.get oid

/-- `ObjectRegistry::register`. -/
def register (registry : DefinitionRegistry δ) (object : RegisteredObject) :
    DefinitionRegistry δ × Except SnmpError Unit :=
  if object.semanticId = "" ∨ object.oid ∈ registry.objects.keys then
    (registry, .error .unregisteredObject)
  else
    ({ registry with objects := registry.objects.insert object.oid object }, .ok ())

/-- `ObjectRegistry::register_definition`. -/
def registerDefinition (registry : DefinitionRegistry δ) (definition : ObjectDefinition δ) :
    DefinitionRegistry δ × Except SnmpError Unit :=
  if definition.oid ∈ registry.objects.keys ∨ definition.key ∈ registry.definitions.keys then
    (registry, .error .duplicateObject)
  else
    ({ objects := registry.objects.insert definition.oid definition.object
       definitions := registry.definitions.insert definition.key definition }, .ok ())

/-- `ObjectRegistry::definition`. -/
def definition (registry : DefinitionRegistry δ) (key : ObjectKey) :
    Option (ObjectDefinition δ) :=
  registry.definitions.get key

/-- `ObjectRegistry::definition_for_oid`. -/
def definitionForOid (registry : DefinitionRegistry δ) (oid : ObjectId) :
    Option (ObjectDefinition δ) :=
  registry.definitions.values.find? fun definition => definition.oid = oid

/-- `ObjectRegistry::permits_root`. -/
def permitsRoot (registry : DefinitionRegistry δ) (root : ObjectId) : Bool :=
  registry.objects.keys.any fun oid => oid.isWithin root

/-- One registration, with what it returns. -/
def perform (registry : DefinitionRegistry δ) :
    Registration δ → DefinitionRegistry δ × Except SnmpError Unit
  | .object object => registry.register object
  | .definition definition => registry.registerDefinition definition

/-- The registry after a sequence of registrations, each of which may fail. -/
def performAll (registry : DefinitionRegistry δ) (registrations : List (Registration δ)) :
    DefinitionRegistry δ :=
  registrations.foldl (fun registry registration => (registry.perform registration).1) registry

/-! ## What one registration does -/

/-- A registration fails and changes nothing, or it puts an object under a new identifier and
either no definition or, under a new key, the definition of that object. -/
theorem perform_cases (registry : DefinitionRegistry δ) (registration : Registration δ) :
    (∃ error, registry.perform registration = (registry, .error error)) ∨
    (∃ object, object.oid ∉ registry.objects.keys ∧
      registry.perform registration =
        (⟨registry.objects.insert object.oid object, registry.definitions⟩, .ok ())) ∨
    ∃ definition, definition.oid ∉ registry.objects.keys ∧
      definition.key ∉ registry.definitions.keys ∧
      registry.perform registration =
        (⟨registry.objects.insert definition.oid definition.object,
          registry.definitions.insert definition.key definition⟩, .ok ()) := by
  cases registration with
  | object object =>
      rw [perform, register]
      split
      · exact .inl ⟨_, rfl⟩
      · next accepted => exact .inr (.inl ⟨object, (not_or.mp accepted).2, rfl⟩)
  | definition definition =>
      rw [perform, registerDefinition]
      split
      · exact .inl ⟨_, rfl⟩
      · next accepted =>
          obtain ⟨newOid, newKey⟩ := not_or.mp accepted
          exact .inr (.inr ⟨definition, newOid, newKey, rfl⟩)

/-- A registration that fails changes nothing. -/
theorem perform_error {registry : DefinitionRegistry δ} {registration : Registration δ}
    {error : SnmpError} (failed : (registry.perform registration).2 = .error error) :
    (registry.perform registration).1 = registry := by
  rcases registry.perform_cases registration with
    ⟨error, performed⟩ | ⟨object, _, performed⟩ | ⟨definition, _, _, performed⟩
  · rw [performed]
  · rw [performed] at failed
    cases failed
  · rw [performed] at failed
    cases failed

/-! ## The invariant -/

/-- What holds of the two maps in every order of registrations. -/
structure Consistent (registry : DefinitionRegistry δ) : Prop where
  keyed : ∀ {oid object}, (oid, object) ∈ registry.objects.entries → object.oid = oid
  named : ∀ {key definition}, (key, definition) ∈ registry.definitions.entries →
    definition.key = key
  described : ∀ {key definition}, (key, definition) ∈ registry.definitions.entries →
    (definition.oid, definition.object) ∈ registry.objects.entries
  apart : ∀ {key other definition another}, (key, definition) ∈ registry.definitions.entries →
    (other, another) ∈ registry.definitions.entries → definition.oid = another.oid → key = other

theorem consistent_default : (default : DefinitionRegistry δ).Consistent where
  keyed := nofun
  named := nofun
  described := nofun
  apart := nofun

namespace Consistent

variable {registry : DefinitionRegistry δ}

/-- A definition's identifier is one of the objects'. -/
theorem mem_keys (consistent : registry.Consistent) {key : ObjectKey}
    {definition : ObjectDefinition δ}
    (member : (key, definition) ∈ registry.definitions.entries) :
    definition.oid ∈ registry.objects.keys :=
  OrderedMap.mem_keys.mpr ⟨_, consistent.described member⟩

theorem keyed_insert (consistent : registry.Consistent) {object : RegisteredObject}
    (absent : object.oid ∉ registry.objects.keys) {oid : ObjectId} {found : RegisteredObject}
    (member : (oid, found) ∈ (registry.objects.insert object.oid object).entries) :
    found.oid = oid := by
  cases (OrderedMap.mem_insert_of_absent absent).mp member with
  | inl new =>
      cases new
      rfl
  | inr old => exact consistent.keyed old

/-- A new object keeps the invariant. -/
theorem insert_object (consistent : registry.Consistent) {object : RegisteredObject}
    (absent : object.oid ∉ registry.objects.keys) :
    Consistent ⟨registry.objects.insert object.oid object, registry.definitions⟩ where
  keyed := consistent.keyed_insert absent
  named := consistent.named
  described := fun member =>
    (OrderedMap.mem_insert_of_absent absent).mpr (.inr (consistent.described member))
  apart := consistent.apart

/-- A new definition keeps the invariant, since its identifier is new among the objects. -/
theorem insert_definition (consistent : registry.Consistent) {definition : ObjectDefinition δ}
    (absent : definition.oid ∉ registry.objects.keys)
    (unnamed : definition.key ∉ registry.definitions.keys) :
    Consistent ⟨registry.objects.insert definition.oid definition.object,
      registry.definitions.insert definition.key definition⟩ where
  keyed := @keyed_insert _ _ consistent definition.object absent
  named := by
    intro key found member
    cases (OrderedMap.mem_insert_of_absent unnamed).mp member with
    | inl new =>
        cases new
        rfl
    | inr old => exact consistent.named old
  described := by
    intro key found member
    apply (OrderedMap.mem_insert_of_absent absent).mpr
    cases (OrderedMap.mem_insert_of_absent unnamed).mp member with
    | inl new =>
        cases new
        exact .inl rfl
    | inr old => exact .inr (consistent.described old)
  apart := by
    intro key other found another member remember same
    cases (OrderedMap.mem_insert_of_absent unnamed).mp member with
    | inl new =>
        cases (OrderedMap.mem_insert_of_absent unnamed).mp remember with
        | inl renew =>
            cases new
            cases renew
            rfl
        | inr old =>
            cases new
            exact absurd (same ▸ consistent.mem_keys old) absent
    | inr old =>
        cases (OrderedMap.mem_insert_of_absent unnamed).mp remember with
        | inl new =>
            cases new
            exact absurd (same ▸ consistent.mem_keys old) absent
        | inr reold => exact consistent.apart old reold same

theorem perform (consistent : registry.Consistent) (registration : Registration δ) :
    (registry.perform registration).1.Consistent := by
  rcases registry.perform_cases registration with
    ⟨error, performed⟩ | ⟨object, absent, performed⟩ | ⟨definition, absent, unnamed, performed⟩
  · rw [performed]
    exact consistent
  · rw [performed]
    exact consistent.insert_object absent
  · rw [performed]
    exact consistent.insert_definition absent unnamed

theorem performAll (consistent : registry.Consistent) (registrations : List (Registration δ)) :
    (registry.performAll registrations).Consistent := by
  induction registrations generalizing registry with
  | nil => exact consistent
  | cons registration rest ih => exact ih (consistent.perform registration)

/-! ### What the invariant says of the queries -/

/-- No two objects have one identifier. -/
theorem object_unique (consistent : registry.Consistent) {object other : RegisteredObject}
    (member : object ∈ registry.objects.values) (remember : other ∈ registry.objects.values)
    (same : object.oid = other.oid) : object = other := by
  obtain ⟨oid, inside⟩ := OrderedMap.mem_values.mp member
  obtain ⟨another, reinside⟩ := OrderedMap.mem_values.mp remember
  have keys : oid = another := by
    rw [← consistent.keyed inside, same, consistent.keyed reinside]
  rw [keys] at inside
  exact OrderedMap.value_unique inside reinside

/-- No two definitions have one identifier. -/
theorem definition_unique (consistent : registry.Consistent) {definition other : ObjectDefinition δ}
    (member : definition ∈ registry.definitions.values)
    (remember : other ∈ registry.definitions.values) (same : definition.oid = other.oid) :
    definition = other := by
  obtain ⟨key, inside⟩ := OrderedMap.mem_values.mp member
  obtain ⟨another, reinside⟩ := OrderedMap.mem_values.mp remember
  have keys : key = another := consistent.apart inside reinside same
  rw [keys] at inside
  exact OrderedMap.value_unique inside reinside

/-- A definition's object is found under its identifier. -/
theorem get_definition (consistent : registry.Consistent) {definition : ObjectDefinition δ}
    (member : definition ∈ registry.definitions.values) :
    registry.get definition.oid = some definition.object := by
  obtain ⟨key, inside⟩ := OrderedMap.mem_values.mp member
  exact OrderedMap.get_eq_some.mpr (consistent.described inside)

/-- The search for an identifier finds the only definition that has it. -/
theorem definitionForOid_iff (consistent : registry.Consistent) (oid : ObjectId)
    (definition : ObjectDefinition δ) :
    registry.definitionForOid oid = some definition ↔
      definition ∈ registry.definitions.values ∧ definition.oid = oid := by
  apply find?_key_eq_some
  intro found member other remember same
  exact consistent.definition_unique member remember same

/-- The objects alone, as a registry without definitions. -/
def objectRegistry (consistent : registry.Consistent) : ObjectRegistry where
  objects := registry.objects.values
  distinct := by
    have keys : registry.objects.values.map RegisteredObject.oid = registry.objects.keys := by
      rw [OrderedMap.values, OrderedMap.keys, List.map_map]
      apply List.map_congr_left
      intro entry member
      exact consistent.keyed member
    rw [keys]
    exact registry.objects.nodup_keys

/-- The two registries have the same objects. -/
theorem get_objectRegistry (consistent : registry.Consistent) (oid : ObjectId) :
    consistent.objectRegistry.get oid = registry.get oid := by
  apply Option.ext
  intro object
  have unique : ∀ object ∈ registry.objects.values, ∀ other ∈ registry.objects.values,
      object.oid = other.oid → object = other :=
    fun _ member _ remember same => consistent.object_unique member remember same
  rw [get, OrderedMap.get_eq_some]
  apply (find?_key_eq_some unique).trans
  constructor
  · rintro ⟨member, rfl⟩
    obtain ⟨key, inside⟩ := OrderedMap.mem_values.mp member
    rw [consistent.keyed inside]
    exact inside
  · intro inside
    exact ⟨OrderedMap.mem_values.mpr ⟨oid, inside⟩, consistent.keyed inside⟩

end Consistent

/-! ## The registry over its life -/

/-- An object stays as it was registered. -/
theorem get_perform {registry : DefinitionRegistry δ} {oid : ObjectId} {object : RegisteredObject}
    (registered : registry.get oid = some object) (registration : Registration δ) :
    (registry.perform registration).1.get oid = some object := by
  have inside := OrderedMap.get_eq_some.mp registered
  apply OrderedMap.get_eq_some.mpr
  rcases registry.perform_cases registration with
    ⟨error, performed⟩ | ⟨new, absent, performed⟩ | ⟨definition, absent, unnamed, performed⟩
  · rw [performed]
    exact inside
  · rw [performed]
    exact (OrderedMap.mem_insert_of_absent absent).mpr (.inr inside)
  · rw [performed]
    exact (OrderedMap.mem_insert_of_absent absent).mpr (.inr inside)

/-- No later registration changes an object, its sensitivity included. -/
theorem get_performAll {registry : DefinitionRegistry δ} {oid : ObjectId}
    {object : RegisteredObject} (registered : registry.get oid = some object)
    (registrations : List (Registration δ)) :
    (registry.performAll registrations).get oid = some object := by
  induction registrations generalizing registry with
  | nil => exact registered
  | cons registration rest ih => exact ih (get_perform registered registration)

/-- Whatever is registered in whatever order, the two maps agree: an identifier has one object,
a definition has an object with its key and its sensitivity, definitions have different
identifiers, and a registration that fails changes nothing. -/
theorem registrations_consistent (registrations : List (Registration δ)) :
    let registry := performAll default registrations
    (∀ object ∈ registry.objects.values, ∀ other ∈ registry.objects.values,
      object.oid = other.oid → object = other) ∧
    (∀ definition ∈ registry.definitions.values,
      ∃ object, registry.get definition.oid = some object ∧ object.oid = definition.oid ∧
        object.semanticId = definition.key.text ∧
        object.sensitive = definition.sensitivity.isSensitive) ∧
    (∀ definition ∈ registry.definitions.values, ∀ other ∈ registry.definitions.values,
      definition ≠ other → definition.oid ≠ other.oid) ∧
    (∀ oid definition, registry.definitionForOid oid = some definition ↔
      definition ∈ registry.definitions.values ∧ definition.oid = oid) ∧
    ∀ registration error, (registry.perform registration).2 = .error error →
      (registry.perform registration).1 = registry := by
  have consistent := consistent_default.performAll registrations
  refine ⟨?_, ?_, ?_, consistent.definitionForOid_iff, ?_⟩
  · intro object member other remember same
    exact consistent.object_unique member remember same
  · intro definition member
    exact ⟨definition.object, consistent.get_definition member, rfl, rfl, rfl⟩
  · intro definition member other remember differ same
    exact differ (consistent.definition_unique member remember same)
  · intro registration error failed
    exact perform_error failed

end DefinitionRegistry

end PrinterSdk.Snmp
