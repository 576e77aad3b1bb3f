import Mathlib.Data.List.Induction
import Mathlib.Data.List.Infix

/-!
# Merging by keys

Entries are appended to a list one by one, each unless an entry with its key is there
already.  What is appended are the entries whose keys are new, in their order.
-/

namespace PrinterSdk.Data

section

variable {α κ : Type}

/-- Some entry has the key. -/
def HasKey (key : α → κ) (entries : List α) (wanted : κ) : Prop :=
  ∃ entry ∈ entries, key entry = wanted

theorem hasKey_append {key : α → κ} {entries more : List α} {wanted : κ} :
    HasKey key (entries ++ more) wanted ↔ HasKey key entries wanted ∨ HasKey key more wanted := by
  simp only [HasKey, List.mem_append, or_and_right, exists_or]

theorem hasKey_singleton {key : α → κ} {entry : α} {wanted : κ} :
    HasKey key [entry] wanted ↔ key entry = wanted := by
  simp only [HasKey, List.mem_singleton, exists_eq_left]

end

variable {α κ : Type} [DecidableEq κ] (key : α → κ)

/-- Append every entry whose key is not there yet. -/
def appendFresh (target : List α) : List α → List α
  | [] => target
  | value :: rest =>
      if target.any fun existing => key existing = key value then appendFresh target rest
      else appendFresh (target ++ [value]) rest

/-- The key of an entry is neither in the target nor among the entries before it. -/
def isFresh (target entries : List α) (entry : α × Nat) : Bool :=
  (target ++ entries.take entry.2).all fun present => key present ≠ key entry.1

/-- The entries with new keys. -/
def freshEntries (target entries : List α) : List α :=
  (entries.zipIdx.filter (isFresh key target entries)).map Prod.fst

variable {key} {target entries : List α} {wanted : κ}

theorem any_key_iff : (entries.any fun entry => key entry = wanted) = true ↔
    HasKey key entries wanted := by
  simp only [HasKey, List.any_eq_true, decide_eq_true_eq]

/-! ## Appending -/

theorem appendFresh_append (first second : List α) :
    appendFresh key target (first ++ second) =
      appendFresh key (appendFresh key target first) second := by
  induction first generalizing target with
  | nil => rfl
  | cons value rest ih =>
      rw [List.cons_append, appendFresh, appendFresh]
      split
      · exact ih
      · exact ih

theorem appendFresh_of_hasKey {entry : α} (present : HasKey key target (key entry)) :
    appendFresh key target [entry] = target := by
  rw [appendFresh, if_pos (any_key_iff.mpr present)]
  rfl

theorem appendFresh_of_not_hasKey {entry : α} (absent : ¬HasKey key target (key entry)) :
    appendFresh key target [entry] = target ++ [entry] := by
  rw [appendFresh, if_neg (mt any_key_iff.mp absent)]
  rfl

/-- The keys afterwards are those of the target and of the entries. -/
theorem hasKey_appendFresh :
    HasKey key (appendFresh key target entries) wanted ↔
      HasKey key target wanted ∨ HasKey key entries wanted := by
  induction entries using List.reverseRecOn with
  | nil => simp [appendFresh, HasKey]
  | append_singleton entries entry ih =>
      rw [appendFresh_append, hasKey_append, hasKey_singleton, ← or_assoc, ← ih]
      by_cases present : HasKey key (appendFresh key target entries) (key entry)
      · rw [appendFresh_of_hasKey present]
        constructor
        · exact .inl
        · intro among
          rcases among with before | rfl
          · exact before
          · exact present
      · rw [appendFresh_of_not_hasKey present, hasKey_append, hasKey_singleton]

/-- What is there is the first entry with its key. -/
theorem mem_appendFresh_nil {entry : α} :
    entry ∈ appendFresh key [] entries ↔
      ∃ before after, entries = before ++ entry :: after ∧ ¬HasKey key before (key entry) := by
  induction entries using List.reverseRecOn with
  | nil => simp [appendFresh]
  | append_singleton entries last ih =>
      have keys : HasKey key (appendFresh key [] entries) (key last) ↔
          HasKey key entries (key last) := by
        rw [hasKey_appendFresh]
        simp [HasKey]
      have split : (∃ before after, entries ++ [last] = before ++ entry :: after ∧
            ¬HasKey key before (key entry)) ↔
          entry ∈ appendFresh key [] entries ∨ entry = last ∧ ¬HasKey key entries (key last) := by
        rw [ih]
        constructor
        · rintro ⟨before, after, whole, absent⟩
          rcases List.eq_nil_or_concat after with rfl | ⟨front, final, rfl⟩
          · obtain ⟨rfl, same⟩ := List.append_inj' whole rfl
            cases same
            exact .inr ⟨rfl, absent⟩
          · rw [List.concat_eq_append, ← List.cons_append, ← List.append_assoc] at whole
            obtain ⟨rfl, -⟩ := List.append_inj' whole rfl
            exact .inl ⟨before, front, rfl, absent⟩
        · rintro (⟨before, after, rfl, absent⟩ | ⟨rfl, absent⟩)
          · exact ⟨before, after ++ [last], by rw [List.append_assoc, List.cons_append], absent⟩
          · exact ⟨entries, [], rfl, absent⟩
      rw [split, appendFresh_append]
      by_cases present : HasKey key entries (key last)
      · rw [appendFresh_of_hasKey (keys.mpr present)]
        simp only [present, not_true, and_false, or_false]
      · rw [appendFresh_of_not_hasKey (mt keys.mp present), List.mem_append, List.mem_singleton]
        simp only [present, not_false_eq_true, and_true]

/-- The same for entries that are made of items. -/
theorem mem_appendFresh_filterMap {β : Type} {items : List β} {make : β → Option α} {entry : α} :
    entry ∈ appendFresh key [] (items.filterMap make) ↔
      ∃ before item after, items = before ++ item :: after ∧ make item = some entry ∧
        ∀ other ∈ before, ∀ made, make other = some made → key made ≠ key entry := by
  rw [mem_appendFresh_nil]
  constructor
  · rintro ⟨front, back, split, absent⟩
    obtain ⟨before, rest, rfl, rfl, made⟩ := List.filterMap_eq_append_iff.mp split
    obtain ⟨skipped, item, after, rfl, none, makes, -⟩ := List.filterMap_eq_cons_iff.mp made
    refine ⟨before ++ skipped, item, after, by rw [List.append_assoc], makes, ?_⟩
    intro other member result isMade same
    rcases List.mem_append.mp member with inside | passed
    · exact absent ⟨result, List.mem_filterMap.mpr ⟨other, inside, isMade⟩, same⟩
    · rw [none other passed] at isMade
      cases isMade
  · rintro ⟨before, item, after, rfl, makes, absent⟩
    refine ⟨before.filterMap make, after.filterMap make, ?_, ?_⟩
    · rw [List.filterMap_append, List.filterMap_cons_some makes]
    · rintro ⟨made, member, same⟩
      obtain ⟨other, inside, isMade⟩ := List.mem_filterMap.mp member
      exact absent other inside made isMade same

/-! ## What is appended -/

/-- An entry behind the others is new when its key is not there. -/
theorem freshEntries_concat (target entries : List α) (entry : α) :
    freshEntries key target (entries ++ [entry]) =
      freshEntries key target entries ++
        (if isFresh key target (entries ++ [entry]) (entry, entries.length) then [entry]
          else []) := by
  have earlier : entries.zipIdx.filter (isFresh key target (entries ++ [entry])) =
      entries.zipIdx.filter (isFresh key target entries) := by
    apply List.filter_congr
    intro listed member
    have before : listed.2 < entries.length := List.snd_lt_of_mem_zipIdx member
    rw [isFresh, isFresh, List.take_append_of_le_length (Nat.le_of_lt before)]
  have last : ([entry].zipIdx (0 + entries.length)).filter
      (isFresh key target (entries ++ [entry])) =
        if isFresh key target (entries ++ [entry]) (entry, entries.length) then
          [(entry, entries.length)] else [] := by
    rw [Nat.zero_add]
    exact List.filter_cons
  rw [freshEntries, List.zipIdx_append, List.filter_append, earlier, last, List.map_append]
  congr 1
  split
  · rfl
  · rfl

theorem isFresh_last {entry : α} :
    isFresh key target (entries ++ [entry]) (entry, entries.length) = true ↔
      ¬HasKey key (target ++ entries) (key entry) := by
  rw [isFresh, List.take_left, List.all_eq_true]
  simp only [HasKey, decide_eq_true_eq, not_exists, not_and, ne_eq]

/-- The entries with new keys are appended. -/
theorem appendFresh_eq (target entries : List α) :
    appendFresh key target entries = target ++ freshEntries key target entries := by
  induction entries using List.reverseRecOn with
  | nil => exact (List.append_nil target).symm
  | append_singleton entries entry ih =>
      have keys : HasKey key (appendFresh key target entries) (key entry) ↔
          HasKey key (target ++ entries) (key entry) := by
        rw [hasKey_appendFresh, hasKey_append]
      rw [appendFresh_append, freshEntries_concat, ← List.append_assoc, ← ih]
      by_cases present : HasKey key (target ++ entries) (key entry)
      · rw [appendFresh_of_hasKey (keys.mpr present),
          if_neg fun new => isFresh_last.mp new present, List.append_nil]
      · rw [appendFresh_of_not_hasKey (mt keys.mp present), if_pos (isFresh_last.mpr present)]

/-- The entries with new keys are some of the entries, in their order. -/
theorem freshEntries_sublist (target entries : List α) :
    (freshEntries key target entries).Sublist entries := by
  have kept : (entries.zipIdx.filter (isFresh key target entries)).Sublist entries.zipIdx :=
    List.filter_sublist
  have firsts := kept.map Prod.fst
  rw [List.zipIdx_map_fst] at firsts
  exact firsts

/-- What is appended has no key of the target, and no key twice. -/
theorem freshEntries_distinct (target entries : List α) :
    (∀ entry ∈ freshEntries key target entries, ¬HasKey key target (key entry)) ∧
      ((freshEntries key target entries).map key).Nodup := by
  induction entries using List.reverseRecOn with
  | nil => exact ⟨fun _ member => absurd member List.not_mem_nil, List.nodup_nil⟩
  | append_singleton entries entry ih =>
      rw [freshEntries_concat]
      split
      · next new =>
          have absent := isFresh_last.mp new
          rw [hasKey_append, not_or] at absent
          have apart : key entry ∉ (freshEntries key target entries).map key := by
            intro member
            obtain ⟨other, listed, same⟩ := List.mem_map.mp member
            exact absent.2 ⟨other, (freshEntries_sublist target entries).subset listed, same⟩
          constructor
          · intro other member
            rcases List.mem_append.mp member with earlier | last
            · exact ih.1 other earlier
            · rw [List.mem_singleton.mp last]
              exact absent.1
          · rw [List.map_append, List.map_singleton]
            exact List.nodup_append.mpr ⟨ih.2, List.pairwise_singleton _ _, by
              intro first earlier second last same
              rw [List.mem_singleton.mp last] at same
              exact apart (same ▸ earlier)⟩
      · rw [List.append_nil]
        exact ih

/-- Distinct keys stay distinct. -/
theorem nodup_appendFresh (distinct : (target.map key).Nodup) (entries : List α) :
    ((appendFresh key target entries).map key).Nodup := by
  obtain ⟨absent, nodup⟩ := @freshEntries_distinct α κ _ key target entries
  rw [appendFresh_eq, List.map_append]
  refine List.nodup_append.mpr ⟨distinct, nodup, ?_⟩
  intro first inTarget second appended same
  obtain ⟨present, listed, rfl⟩ := List.mem_map.mp inTarget
  obtain ⟨entry, member, rfl⟩ := List.mem_map.mp appended
  exact absent entry member ⟨present, listed, same⟩

/-- Entries whose keys are all there add nothing. -/
theorem appendFresh_of_present (present : ∀ entry ∈ entries, HasKey key target (key entry)) :
    appendFresh key target entries = target := by
  induction entries with
  | nil => rfl
  | cons entry rest ih =>
      obtain ⟨here, later⟩ := List.forall_mem_cons.mp present
      rw [appendFresh, if_pos (any_key_iff.mpr here), ih later]

/-- A list has grown by entries with new keys: nothing in it has changed, and the entries whose
keys were not there yet stand behind it in their order. -/
structure Grown (key : α → κ) (target entries grown : List α) : Prop where
  appended : grown = target ++ freshEntries key target entries
  absent : ∀ entry ∈ freshEntries key target entries, ¬HasKey key target (key entry)
  unique : ((freshEntries key target entries).map key).Nodup
  distinct : (target.map key).Nodup → (grown.map key).Nodup

theorem grown_appendFresh (target entries : List α) :
    Grown key target entries (appendFresh key target entries) where
  appended := appendFresh_eq target entries
  absent := (freshEntries_distinct target entries).1
  unique := (freshEntries_distinct target entries).2
  distinct := fun distinct => nodup_appendFresh distinct entries

end PrinterSdk.Data
