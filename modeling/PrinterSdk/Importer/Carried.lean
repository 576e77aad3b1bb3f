import PrinterSdk.Data.HexText
import PrinterSdk.Data.KeyedMerge
import PrinterSdk.Importer.Imported

/-!
# Embedded data

What an element carries, as bytes and a media type, and the resource that the importer makes of
it.  Resources are kept by their hashes: the first element with some bytes makes the resource,
and later ones refer to it.
-/

namespace PrinterSdk.Importer

open PrinterSdk.Data PrinterSdk.Label PrinterSdk.Label.Entries

/-- Data of an element: the key of its resource, the bytes and their media type. -/
structure Carried where
  key : String
  bytes : Option Bytes
  media : String

/-- A media type, unless it is empty. -/
def mediaOr (media fallback : String) : String := if media = "" then fallback else media

section

variable (x : Externals)

/-- The bytes of data, which is the payload of a data URL or a payload by itself. -/
def ownBytes (data fallback : String) : Option Bytes :=
  (splitData data fallback).bind fun parts => x.base64 (asBytes parts.2)

/-- The media type that data declares, or that of the kind of element. -/
def ownMedia (data fallback : String) : String :=
  mediaOr (((splitData data fallback).map Prod.fst).getD "") fallback

/-- What an element carries in a field. -/
def carriedData (key fallback data : String) : Carried :=
  ⟨key, ownBytes x data fallback, ownMedia data fallback⟩

/-- What an element carries. -/
def carried (e : Json) : Option Carried :=
  if elementType e = "text" then
    ((e.get "fontData").bind Json.asStr).map (carriedData x "fontResource" "font/ttf")
  else if elementType e = "image" then
    (imageData e).map (carriedData x "resource" "image/png")
  else if elementType e = "svg" then
    (svgData e).map fun data =>
      if (trimStart data.toList).head? = some '<' then
        ⟨"resource", some (asBytes data), "image/svg+xml"⟩
      else carriedData x "resource" "image/svg+xml" data
  else none

/-! ## Resources -/

/-- The id of a resource with a hash. -/
def resourceId (hash : String) : String := "res-" ++ String.ofList (hash.toList.take 16)

/-- A resource of some bytes. -/
def resourceOf (media : String) (bytes : Bytes) : Resource :=
  let hash := hexBytes (x.sha256 bytes).1
  ⟨resourceId hash, media, hash, x.encode bytes⟩

/-- The resource that embedded data makes. -/
def loaded (embed : Embedded) : Option Resource :=
  (splitData embed.data embed.fallback).bind fun parts =>
    (x.base64 (asBytes parts.2)).map (resourceOf x parts.1)

/-- The resource that an element makes. -/
def load (e : Json) : Option Resource := (embedded x e).bind (loaded x)

end

/-- Resources have their ids from their hashes. -/
def Named (resources : List Resource) : Prop :=
  ∀ resource ∈ resources, resource.id = resourceId resource.sha256

variable {x : Externals}

theorem addResource_loaded {embed : Embedded} {id : String} {before after : List Resource}
    (named : Named before)
    (added : addResource x before embed.data embed.fallback = .ok (id, after)) :
    ∃ resource, loaded x embed = some resource ∧ id = resource.id ∧
      after = appendFresh Resource.sha256 before [resource] := by
  simp only [addResource, except_bind_eq_ok, okOr_eq_ok] at added
  obtain ⟨⟨media, payload⟩, split, bytes, decoded, pushed⟩ := added
  refine ⟨resourceOf x media bytes, ?_, ?_⟩
  · rw [loaded, split, Option.bind_some, decoded]
    rfl
  · split at pushed
    · next existing found =>
        cases pushed
        have member := List.mem_of_find?_eq_some found
        have same : existing.sha256 = hexBytes (x.sha256 bytes).1 := by
          simpa using List.find?_some found
        refine ⟨(named existing member).trans (congrArg resourceId same), ?_⟩
        exact (appendFresh_of_hasKey ⟨existing, member, same⟩).symm
    · next absent =>
        cases pushed
        refine ⟨rfl, (appendFresh_of_not_hasKey ?_).symm⟩
        rintro ⟨existing, member, same⟩
        exact List.find?_eq_none.mp absent existing member (decide_eq_true same)

theorem named_append {before : List Resource} (named : Named before) {e : Json} {resource : Resource}
    (isLoad : load x e = some resource) :
    Named (appendFresh Resource.sha256 before [resource]) := by
  obtain ⟨embed, -, loads⟩ := Option.bind_eq_some_iff.mp isLoad
  obtain ⟨parts, -, made⟩ := Option.bind_eq_some_iff.mp loads
  obtain ⟨bytes, -, rfl⟩ := Option.map_eq_some_iff.mp made
  rw [appendFresh_eq]
  intro other member
  rcases List.mem_append.mp member with inside | new
  · exact named other inside
  · rw [List.mem_singleton.mp ((freshEntries_sublist _ _).subset new)]
    rfl

/-- A converted element refers to the resource that the element makes. -/
def Refers (x : Externals) (e converted : Json) : Prop :=
  ∀ embed, embedded x e = some embed → ∃ resource, loaded x embed = some resource ∧
    converted.get embed.key = some (.string resource.id)

/-- One conversion adds the resource of its element. -/
theorem element_loads {e converted : Json} {z : Nat} {d : Float} {before after : List Resource}
    (named : Named before) (made : element x e z d before = .ok (converted, after)) :
    Refers x e converted ∧ Named after ∧
      after = appendFresh Resource.sha256 before (load x e).toList := by
  rw [element, except_bind_eq_ok] at made
  obtain ⟨⟨fields, resources⟩, typed, isConverted⟩ := made
  cases isConverted
  have inserted := typeFields_typed typed
  cases found : embedded x e with
  | none =>
      rw [inserted.plain found, Refers, found, load, found]
      exact ⟨fun _ none => (by cases none), named, rfl⟩
  | some embed =>
      obtain ⟨id, added, last⟩ := inserted.carries embed found
      obtain ⟨resource, loads, rfl, grown⟩ := addResource_loaded named added
      have isLoad : load x e = some resource := by rw [load, found, Option.bind_some, loads]
      refine ⟨?_, grown ▸ named_append named isLoad, isLoad ▸ grown⟩
      intro other isOther
      rw [found] at isOther
      cases isOther
      exact ⟨resource, loads, field_setFields_last last⟩

/-- All conversions add the resources of their elements. -/
theorem convertFrom_loads {d : Float} {z : Nat} {legacy done elements : List Json}
    {before after : List Resource} (named : Named before)
    (made : convertFrom x d z legacy done before = .ok (elements, after)) :
    (∃ converted, elements = done ++ converted ∧ List.Forall₂ (Refers x) legacy converted) ∧
      after = appendFresh Resource.sha256 before (legacy.filterMap (load x)) := by
  induction legacy generalizing z done before with
  | nil =>
      cases made
      exact ⟨⟨[], (List.append_nil _).symm, .nil⟩, rfl⟩
  | cons e rest ih =>
      rw [convertFrom, except_bind_eq_ok] at made
      obtain ⟨⟨first, between⟩, here, later⟩ := made
      obtain ⟨refers, namedBetween, isBetween⟩ := element_loads named here
      obtain ⟨⟨converted, isElements, others⟩, isAfter⟩ := ih namedBetween later
      refine ⟨⟨first :: converted, ?_, .cons refers others⟩, ?_⟩
      · rw [isElements, List.append_assoc]
        rfl
      · have all : (e :: rest).filterMap (load x) = (load x e).toList ++ rest.filterMap (load x) := by
          rw [List.filterMap_cons]
          cases load x e <;> rfl
        rw [isAfter, isBetween, all, appendFresh_append]

end PrinterSdk.Importer
