import Mathlib.Data.List.Induction
import Mathlib.Data.List.Nodup
import Mathlib.Order.Defs.LinearOrder
import Mathlib.Order.Lattice

/-!
# Ordered maps

A map over ordered keys is the list of its entries in ascending order of their keys,
so that two maps with the same entries are the same map.
-/

namespace PrinterSdk.Data

/-- A search by a key finds the only item that has it. -/
theorem find?_key_eq_some {α κ : Type} [DecidableEq κ] {list : List α} {keyOf : α → κ}
    (unique : ∀ item ∈ list, ∀ other ∈ list, keyOf item = keyOf other → item = other)
    {key : κ} {item : α} :
    list.find? (fun other => keyOf other = key) = some item ↔ item ∈ list ∧ keyOf item = key := by
  constructor
  · intro located
    exact ⟨List.mem_of_find?_eq_some located, by simpa using List.find?_some located⟩
  · rintro ⟨member, named⟩
    cases located : list.find? fun other => keyOf other = key with
    | none => exact absurd (decide_eq_true named) (List.find?_eq_none.mp located item member)
    | some found =>
        have same : keyOf found = key := by simpa using List.find?_some located
        have inside := List.mem_of_find?_eq_some located
        rw [unique found inside item member (same.trans named.symm)]

/-- `BTreeMap`: entries in strictly ascending order of their keys. -/
structure OrderedMap (κ ν : Type) [LinearOrder κ] where
  entries : List (κ × ν)
  ordered : entries.Pairwise fun entry later => entry.1 < later.1

namespace OrderedMap

variable {κ ν μ : Type} [LinearOrder κ]

theorem ext {left right : OrderedMap κ ν} (same : left.entries = right.entries) :
    left = right := by
  cases left
  cases right
  cases same
  rfl

instance [DecidableEq ν] : DecidableEq (OrderedMap κ ν) := fun left right =>
  decidable_of_iff (left.entries = right.entries) ⟨ext, congrArg entries⟩

/-- `BTreeMap::new`. -/
def empty : OrderedMap κ ν := ⟨[], .nil⟩

/-- `BTreeMap::keys`. -/
def keys (map : OrderedMap κ ν) : List κ := map.entries.map Prod.fst

/-- `BTreeMap::values`. -/
def values (map : OrderedMap κ ν) : List ν := map.entries.map Prod.snd

/-- `BTreeMap::get`. -/
def get (map : OrderedMap κ ν) (key : κ) : Option ν :=
  (map.entries.find? fun entry => entry.1 = key).map Prod.snd

theorem mem_keys {map : OrderedMap κ ν} {key : κ} :
    key ∈ map.keys ↔ ∃ value, (key, value) ∈ map.entries := by
  rw [keys, List.mem_map]
  constructor
  · rintro ⟨⟨key, value⟩, member, rfl⟩
    exact ⟨value, member⟩
  · rintro ⟨value, member⟩
    exact ⟨(key, value), member, rfl⟩

theorem mem_values {map : OrderedMap κ ν} {value : ν} :
    value ∈ map.values ↔ ∃ key, (key, value) ∈ map.entries := by
  rw [values, List.mem_map]
  constructor
  · rintro ⟨⟨key, value⟩, member, rfl⟩
    exact ⟨key, member⟩
  · rintro ⟨key, member⟩
    exact ⟨(key, value), member, rfl⟩

theorem nodup_keys (map : OrderedMap κ ν) : map.keys.Nodup := by
  rw [keys, List.nodup_iff_pairwise_ne, List.pairwise_map]
  exact map.ordered.imp ne_of_lt

/-- A key has one entry. -/
theorem entry_unique (map : OrderedMap κ ν) :
    ∀ entry ∈ map.entries, ∀ other ∈ map.entries, entry.1 = other.1 → entry = other :=
  fun _ member _ remember => List.inj_on_of_nodup_map map.nodup_keys member remember

/-- A key has one value. -/
theorem value_unique {map : OrderedMap κ ν} {key : κ} {value other : ν}
    (member : (key, value) ∈ map.entries) (remember : (key, other) ∈ map.entries) :
    value = other :=
  congrArg Prod.snd (map.entry_unique _ member _ remember rfl)

theorem get_eq_some {map : OrderedMap κ ν} {key : κ} {value : ν} :
    map.get key = some value ↔ (key, value) ∈ map.entries := by
  rw [get, Option.map_eq_some_iff]
  constructor
  · rintro ⟨entry, located, rfl⟩
    obtain ⟨member, rfl⟩ := (find?_key_eq_some map.entry_unique).mp located
    exact member
  · intro member
    exact ⟨(key, value), (find?_key_eq_some map.entry_unique).mpr ⟨member, rfl⟩, rfl⟩

/-- Change the value of a key in its place, or put one in its place. -/
def alterEntries (key : κ) (change : Option ν → ν) : List (κ × ν) → List (κ × ν)
  | [] => [(key, change none)]
  | entry :: rest =>
      if key < entry.1 then (key, change none) :: entry :: rest
      else if entry.1 < key then entry :: alterEntries key change rest
      else (entry.1, change (some entry.2)) :: rest

theorem mem_alterEntries (key : κ) (change : Option ν → ν) (entries : List (κ × ν)) (other : κ) :
    other ∈ (alterEntries key change entries).map Prod.fst ↔
      other = key ∨ other ∈ entries.map Prod.fst := by
  induction entries with
  | nil => simp [alterEntries]
  | cons entry rest ih =>
      rw [alterEntries]
      split
      · simp
      · split
        · rw [List.map_cons, List.mem_cons, ih, List.map_cons, List.mem_cons]
          exact or_left_comm
        · next upper lower =>
            have same : key = entry.1 := le_antisymm (not_lt.mp lower) (not_lt.mp upper)
            simp [same]

theorem mem_alterEntries_of_absent {key : κ} {change : Option ν → ν} {entries : List (κ × ν)}
    (absent : key ∉ entries.map Prod.fst) {entry : κ × ν} :
    entry ∈ alterEntries key change entries ↔ entry = (key, change none) ∨ entry ∈ entries := by
  induction entries with
  | nil => simp [alterEntries]
  | cons head rest ih =>
      rw [List.map_cons, List.mem_cons, not_or] at absent
      rw [alterEntries]
      split
      · exact List.mem_cons
      · next upper =>
          have above : head.1 < key := lt_of_le_of_ne (not_lt.mp upper) (Ne.symm absent.1)
          rw [if_pos above, List.mem_cons, ih absent.2, List.mem_cons]
          exact or_left_comm

theorem ordered_alterEntries (key : κ) (change : Option ν → ν) {entries : List (κ × ν)}
    (ordered : entries.Pairwise fun entry later => entry.1 < later.1) :
    (alterEntries key change entries).Pairwise fun entry later => entry.1 < later.1 := by
  induction ordered with
  | nil => simp [alterEntries]
  | @cons entry rest first _ ih =>
      rw [alterEntries]
      split
      · next below =>
          refine .cons ?_ (.cons first ‹_›)
          intro later member
          rcases List.mem_cons.mp member with rfl | member
          · exact below
          · exact lt_trans below (first later member)
      · split
        · next above =>
            refine .cons ?_ ih
            intro later member
            have named := (mem_alterEntries key change rest later.1).mp
              (List.mem_map_of_mem member)
            rcases named with same | old
            · exact same ▸ above
            · obtain ⟨kept, inside, same⟩ := List.mem_map.mp old
              exact same ▸ first kept inside
        · exact .cons first ‹_›

/-- `*map.entry(key).or_insert(..) = ..`: change the value of a key, present or not. -/
def alter (map : OrderedMap κ ν) (key : κ) (change : Option ν → ν) : OrderedMap κ ν where
  entries := alterEntries key change map.entries
  ordered := ordered_alterEntries key change map.ordered

/-- `BTreeMap::insert`. -/
def insert (map : OrderedMap κ ν) (key : κ) (value : ν) : OrderedMap κ ν :=
  map.alter key fun _ => value

/-- The map with every value changed under its key. -/
def mapValues (convert : κ → ν → μ) (map : OrderedMap κ ν) : OrderedMap κ μ where
  entries := map.entries.map fun entry => (entry.1, convert entry.1 entry.2)
  ordered := by
    rw [List.pairwise_map]
    exact map.ordered

theorem mem_keys_alter (map : OrderedMap κ ν) (key : κ) (change : Option ν → ν) (other : κ) :
    other ∈ (map.alter key change).keys ↔ other = key ∨ other ∈ map.keys :=
  mem_alterEntries key change map.entries other

@[simp] theorem keys_mapValues (convert : κ → ν → μ) (map : OrderedMap κ ν) :
    (map.mapValues convert).keys = map.keys := by
  simp [keys, mapValues]

/-- What is in a map behind the insertion of a new key. -/
theorem mem_insert_of_absent {map : OrderedMap κ ν} {key : κ} {value : ν}
    (absent : key ∉ map.keys) {entry : κ × ν} :
    entry ∈ (map.insert key value).entries ↔ entry = (key, value) ∨ entry ∈ map.entries :=
  mem_alterEntries_of_absent absent

theorem mapValues_alterEntries {convert : κ → ν → μ} {key : κ} {change : Option ν → ν}
    {rechange : Option μ → μ}
    (agree : ∀ value, convert key (change value) = rechange (value.map (convert key)))
    (entries : List (κ × ν)) :
    (alterEntries key change entries).map (fun entry => (entry.1, convert entry.1 entry.2)) =
      alterEntries key rechange
        (entries.map fun entry => (entry.1, convert entry.1 entry.2)) := by
  induction entries with
  | nil => simp [alterEntries, agree]
  | cons entry rest ih =>
      rw [alterEntries, List.map_cons, alterEntries]
      split
      · simp [agree]
      · split
        · rw [List.map_cons, ih]
        · next upper lower =>
            have same : entry.1 = key := le_antisymm (not_lt.mp upper) (not_lt.mp lower)
            have agreed := agree (some entry.2)
            rw [← same] at agreed
            simpa using agreed

/-- Changing a value and converting all values commute. -/
theorem mapValues_alter {convert : κ → ν → μ} {key : κ} {change : Option ν → ν}
    {rechange : Option μ → μ}
    (agree : ∀ value, convert key (change value) = rechange (value.map (convert key)))
    (map : OrderedMap κ ν) :
    (map.alter key change).mapValues convert = (map.mapValues convert).alter key rechange :=
  ext (mapValues_alterEntries agree map.entries)

/-- What is in a map behind an insertion. -/
theorem mem_insertEntries {key : κ} {value : ν} {entries : List (κ × ν)}
    (ordered : entries.Pairwise fun entry later => entry.1 < later.1) {entry : κ × ν} :
    entry ∈ alterEntries key (fun _ => value) entries ↔
      entry = (key, value) ∨ entry ∈ entries ∧ entry.1 ≠ key := by
  induction ordered with
  | nil => simp [alterEntries]
  | @cons head rest first _ ih =>
      rw [alterEntries]
      split
      · next below =>
          have others : ∀ other ∈ head :: rest, other.1 ≠ key := by
            intro other member
            rcases List.mem_cons.mp member with rfl | later
            · exact ne_of_gt below
            · exact ne_of_gt (lt_trans below (first other later))
          rw [List.mem_cons]
          exact or_congr_right ⟨fun member => ⟨member, others entry member⟩, And.left⟩
      · split
        · next above =>
            rw [List.mem_cons, ih, List.mem_cons]
            constructor
            · rintro (rfl | rfl | ⟨member, other⟩)
              · exact .inr ⟨.inl rfl, ne_of_lt above⟩
              · exact .inl rfl
              · exact .inr ⟨.inr member, other⟩
            · rintro (rfl | ⟨rfl | member, other⟩)
              · exact .inr (.inl rfl)
              · exact .inl rfl
              · exact .inr (.inr ⟨member, other⟩)
        · next upper lower =>
            have same : key = head.1 := le_antisymm (not_lt.mp lower) (not_lt.mp upper)
            subst same
            rw [List.mem_cons, List.mem_cons]
            constructor
            · rintro (rfl | member)
              · exact .inl rfl
              · exact .inr ⟨.inr member, ne_of_gt (first entry member)⟩
            · rintro (rfl | ⟨rfl | member, other⟩)
              · exact .inl rfl
              · exact absurd rfl other
              · exact .inr member

theorem mem_insert {map : OrderedMap κ ν} {key : κ} {value : ν} {entry : κ × ν} :
    entry ∈ (map.insert key value).entries ↔
      entry = (key, value) ∨ entry ∈ map.entries ∧ entry.1 ≠ key :=
  mem_insertEntries map.ordered

@[simp] theorem get_empty (key : κ) : (empty : OrderedMap κ ν).get key = none := rfl

/-- The value of a key behind an insertion. -/
theorem get_insert (map : OrderedMap κ ν) (key : κ) (value : ν) (other : κ) :
    (map.insert key value).get other = if other = key then some value else map.get other := by
  apply Option.ext
  intro found
  rw [get_eq_some, mem_insert]
  by_cases same : other = key
  · simp [same, eq_comm]
  · simp [same, get_eq_some]

/-- `collect` into a map: a later entry of a key replaces an earlier one. -/
def collect (entries : List (κ × ν)) : OrderedMap κ ν :=
  entries.foldl (fun map entry => map.insert entry.1 entry.2) empty

theorem collect_snoc (entries : List (κ × ν)) (entry : κ × ν) :
    collect (entries ++ [entry]) = (collect entries).insert entry.1 entry.2 := by
  simp [collect]

/-- The last entry of a key counts. -/
theorem get_collect (before : List (κ × ν)) (entry : κ × ν) {after : List (κ × ν)}
    (last : ∀ other ∈ after, other.1 ≠ entry.1) :
    (collect (before ++ entry :: after)).get entry.1 = some entry.2 := by
  induction after using List.reverseRecOn with
  | nil => rw [collect_snoc, get_insert, if_pos rfl]
  | append_singleton after other ih =>
      have different := last other (List.mem_append_right _ (List.mem_singleton_self _))
      rw [← List.cons_append, ← List.append_assoc, collect_snoc, get_insert,
        if_neg (Ne.symm different)]
      exact ih fun earlier member => last earlier (List.mem_append_left _ member)

/-- Everything collected is one of the entries. -/
theorem mem_of_mem_collect {entries : List (κ × ν)} {entry : κ × ν}
    (member : entry ∈ (collect entries).entries) : entry ∈ entries := by
  induction entries using List.reverseRecOn with
  | nil => cases member
  | append_singleton entries last ih =>
      rw [collect_snoc, mem_insert] at member
      rw [List.mem_append, List.mem_singleton]
      rcases member with rfl | ⟨earlier, -⟩
      · exact .inr rfl
      · exact .inl (ih earlier)

/-- A key above all others goes to the end. -/
theorem alterEntries_of_above {key : κ} (change : Option ν → ν) {entries : List (κ × ν)}
    (above : ∀ entry ∈ entries, entry.1 < key) :
    alterEntries key change entries = entries ++ [(key, change none)] := by
  induction entries with
  | nil => rfl
  | cons entry rest ih =>
      obtain ⟨here, later⟩ := List.forall_mem_cons.mp above
      rw [alterEntries, if_neg (not_lt_of_gt here), if_pos here, ih later]
      rfl

theorem entries_collect {entries : List (κ × ν)}
    (ordered : entries.Pairwise fun entry later => entry.1 < later.1) :
    (collect entries).entries = entries := by
  induction entries using List.reverseRecOn with
  | nil => rfl
  | append_singleton entries entry ih =>
      obtain ⟨earlier, -, above⟩ := List.pairwise_append.mp ordered
      rw [collect_snoc]
      change alterEntries entry.1 (fun _ => entry.2) (collect entries).entries = _
      rw [ih earlier]
      exact alterEntries_of_above _ fun other member =>
        above other member entry (List.mem_singleton_self _)

/-- The entries of a map make up this map. -/
theorem collect_entries (map : OrderedMap κ ν) : collect map.entries = map :=
  ext (entries_collect map.ordered)

end OrderedMap

end PrinterSdk.Data
