import Mathlib.Data.Finset.Card
import Mathlib.Data.Fintype.Pigeonhole
import Mathlib.Logic.Relation

/-!
# Chains of a partial step

A partial step leads from a value to at most one next value.  The chain from a value
may end, or run into a cycle.  A search that remembers where it has been finds out
which, and a walk of as many rounds as there are values sees a whole chain that ends.
-/

namespace PrinterSdk.Data.Chain

variable {α : Type} (step : α → Option α)

/-- The step leads from `value` to `next`. -/
def Step (value next : α) : Prop := step value = some next

/-- No chain returns to where it started. -/
def Acyclic : Prop := ∀ value, ¬Relation.TransGen (Step step) value value

/-- Where `count` steps lead from a position, which is `none` behind the end. -/
def follow : Nat → Option α → Option α
  | 0, position => position
  | count + 1, position => follow count (position.bind step)

/-- The chain ends. -/
def Ends (position : Option α) : Prop := ∃ count, follow step count position = none

/-- The search along a chain that stops at its end, or at a value it has seen before.
The last argument is that value. -/
inductive Searches : List α → Option α → Option α → Prop where
  | ended (seen : List α) : Searches seen none none
  | repeated {seen : List α} {value : α} (known : value ∈ seen) :
      Searches seen (some value) (some value)
  | forward {seen : List α} {value : α} {found : Option α} (fresh : value ∉ seen)
      (later : Searches (value :: seen) (step value) found) : Searches seen (some value) found

/-- The search for at most `fuel` rounds. -/
def findRepeat [DecidableEq α] : Nat → List α → Option α → Option α
  | 0, _, _ => none
  | _ + 1, _, none => none
  | fuel + 1, seen, some value =>
      if value ∈ seen then some value else findRepeat fuel (value :: seen) (step value)

variable {step}

/-! ## Following a chain -/

@[simp] theorem follow_none (count : Nat) : follow step count none = none := by
  induction count with
  | zero => rfl
  | succ count ih => exact ih

theorem follow_succ (count : Nat) (position : Option α) :
    follow step (count + 1) position = (follow step count position).bind step := by
  induction count generalizing position with
  | zero => rfl
  | succ count ih => exact ih (position.bind step)

theorem follow_add (first second : Nat) (position : Option α) :
    follow step (first + second) position = follow step second (follow step first position) := by
  induction second with
  | zero => rfl
  | succ second ih => rw [← Nat.add_assoc, follow_succ, ih, follow_succ]

/-- Chains that agree step by step along a map agree as a whole. -/
theorem follow_map {β : Type} {other : β → Option β} (convert : α → β) {Within : α → Prop}
    (agree : ∀ value, Within value → (step value).map convert = other (convert value))
    (closed : ∀ value next, Within value → step value = some next → Within next)
    (count : Nat) {position : Option α} (start : ∀ value, position = some value → Within value) :
    (follow step count position).map convert = follow other count (position.map convert) := by
  induction count generalizing position with
  | zero => rfl
  | succ count ih =>
      cases position with
      | none => simp
      | some value =>
          have within := start value rfl
          rw [follow, Option.bind_some, ih fun next => closed value next within,
            agree value within]
          rfl

theorem transGen_of_follow {count : Nat} {value last : α}
    (reached : follow step (count + 1) (some value) = some last) :
    Relation.TransGen (Step step) value last := by
  induction count generalizing last with
  | zero => exact .single reached
  | succ count ih =>
      rw [follow_succ] at reached
      obtain ⟨middle, before, next⟩ := Option.bind_eq_some_iff.mp reached
      exact .tail (ih before) next

/-- What a chain reaches in one or more steps. -/
theorem transGen_iff_follow {value last : α} :
    Relation.TransGen (Step step) value last ↔
      ∃ count, follow step count (step value) = some last := by
  constructor
  · intro path
    induction path with
    | single next => exact ⟨0, next⟩
    | tail _ next ih =>
        obtain ⟨count, reached⟩ := ih
        refine ⟨count + 1, ?_⟩
        rw [follow_succ, reached]
        exact next
  · rintro ⟨count, reached⟩
    exact transGen_of_follow reached

/-- The step from a value is the only way on. -/
theorem transGen_head {value next last : α} (first : step value = some next) :
    Relation.TransGen (Step step) value last ↔
      last = next ∨ Relation.TransGen (Step step) next last := by
  constructor
  · intro path
    obtain ⟨middle, own, rest⟩ := Relation.TransGen.head'_iff.mp path
    have same : next = middle := Option.some.inj (first.symm.trans own)
    subst same
    exact (Relation.reflTransGen_iff_eq_or_transGen.mp rest)
  · rintro (rfl | rest)
    · exact .single first
    · exact .head first rest

theorem Ends.next {value : α} (ends : Ends step (some value)) : Ends step (step value) := by
  obtain ⟨count, reached⟩ := ends
  cases count with
  | zero => cases reached
  | succ count => exact ⟨count, reached⟩

theorem not_ends_of_cycle {value : α} (cycle : Relation.TransGen (Step step) value value) :
    ¬Ends step (some value) := by
  rintro ⟨count, reached⟩
  induction count generalizing value with
  | zero => cases reached
  | succ count ih =>
      obtain ⟨next, first, rest⟩ := Relation.TransGen.head'_iff.mp cycle
      have later : follow step count (some next) = none := by
        rw [← first]
        exact reached
      exact ih (Relation.TransGen.tail' rest first) later

/-- There is no cycle when every chain that has a step ends. -/
theorem acyclic_of_ends
    (ends : ∀ value next, step value = some next → Ends step (some value)) : Acyclic step := by
  intro value cycle
  obtain ⟨next, first, -⟩ := Relation.TransGen.head'_iff.mp cycle
  exact not_ends_of_cycle cycle (ends value next first)

/-! ## The length of a chain -/

theorem follow_eq_some_of_le {count total : Nat} {position : Option α} {last : α}
    (before : count ≤ total) (reached : follow step total position = some last) :
    ∃ value, follow step count position = some value := by
  obtain ⟨rest, rfl⟩ := Nat.exists_eq_add_of_le before
  rw [follow_add] at reached
  cases early : follow step count position with
  | none => simp [early] at reached
  | some value => exact ⟨value, rfl⟩

/-- Without cycles no value is visited twice. -/
theorem Acyclic.follow_ne (acyclic : Acyclic step) {position : Option α} {value : α}
    {early late : Nat} (order : early < late)
    (visit : follow step early position = some value) :
    follow step late position ≠ some value := by
  intro again
  obtain ⟨gap, rfl⟩ := Nat.exists_eq_add_of_lt order
  have path : follow step (gap + 1) (some value) = some value := by
    rw [← visit, ← follow_add, ← Nat.add_assoc, again, visit]
  exact acyclic value (transGen_of_follow path)

/-- Without cycles a chain within a finite set is over after as many steps. -/
theorem follow_eq_none (acyclic : Acyclic step) {known : Finset α} {position : Option α}
    (start : ∀ value, position = some value → value ∈ known)
    (closed : ∀ value next, step value = some next → next ∈ known) {count : Nat}
    (enough : known.card ≤ count) : follow step count position = none := by
  cases ended : follow step count position with
  | none => rfl
  | some last =>
      have reached (index : Fin (count + 1)) :
          ∃ value, follow step index position = some value :=
        follow_eq_some_of_le (Nat.le_of_lt_succ index.2) ended
      choose visited visits using reached
      have inside (index : Fin (count + 1)) : visited index ∈ known := by
        obtain ⟨index, bound⟩ := index
        have visit := visits ⟨index, bound⟩
        cases index with
        | zero => exact start _ visit
        | succ index =>
            dsimp only at visit
            rw [follow_succ] at visit
            obtain ⟨before, -, next⟩ := Option.bind_eq_some_iff.mp visit
            exact closed before _ next
      -- more visits than values: some value is visited twice
      have crowded : known.card < (Finset.univ : Finset (Fin (count + 1))).card := by
        rw [Finset.card_univ, Fintype.card_fin]
        omega
      obtain ⟨left, -, right, -, different, same⟩ :=
        Finset.exists_ne_map_eq_of_card_lt_of_maps_to crowded fun index _ => inside index
      rcases lt_or_gt_of_ne different with order | order
      · exact absurd (same ▸ visits right) (acyclic.follow_ne order (visits left))
      · exact absurd (same ▸ visits left) (acyclic.follow_ne order (visits right))

/-! ## The search -/

section

variable [DecidableEq α]

/-- With enough fuel the search stops, and finds what it should. -/
theorem searches_findRepeat {known : Finset α}
    (support : ∀ value next, step value = some next → value ∈ known) {fuel : Nat}
    {seen : List α} (position : Option α) (enough : (known \ seen.toFinset).card + 2 ≤ fuel) :
    Searches step seen position (findRepeat step fuel seen position) := by
  induction fuel generalizing seen position with
  | zero => omega
  | succ fuel ih =>
      cases position with
      | none => exact .ended seen
      | some value =>
          rw [findRepeat]
          by_cases old : value ∈ seen
          · rw [if_pos old]
            exact .repeated old
          · rw [if_neg old]
            apply Searches.forward old
            cases next : step value with
            | none =>
                cases fuel with
                | zero => omega
                | succ fuel => exact .ended _
            | some other =>
                have member : value ∈ known \ seen.toFinset := by
                  simp [support value other next, old]
                have fewer : (known \ (value :: seen).toFinset).card <
                    (known \ seen.toFinset).card := by
                  apply Finset.card_lt_card
                  rw [List.toFinset_cons, Finset.sdiff_insert]
                  exact Finset.erase_ssubset member
                exact ih (some other) (by omega)

/-- A search with two rounds more than there are values with a step. -/
theorem searches_keys {keys : List α}
    (support : ∀ value next, step value = some next → value ∈ keys) (position : Option α) :
    Searches step [] position (findRepeat step (keys.length + 2) [] position) := by
  have support' : ∀ value next, step value = some next → value ∈ keys.toFinset :=
    fun value next first => List.mem_toFinset.mpr (support value next first)
  apply searches_findRepeat support'
  have bound := keys.toFinset_card_le
  rw [List.toFinset_nil, Finset.sdiff_empty]
  omega

end

theorem Searches.ends {seen : List α} {position : Option α}
    (search : Searches step seen position none) : Ends step position := by
  generalize result : (none : Option α) = found at search
  induction search with
  | ended => exact ⟨0, rfl⟩
  | repeated => cases result
  | forward _ _ ih =>
      obtain ⟨count, ended⟩ := ih result
      exact ⟨count + 1, ended⟩

/-- A repeated value is on a cycle. -/
theorem Searches.not_ends {seen : List α} {position : Option α} {value : α}
    (search : Searches step seen position (some value))
    (trail : ∀ old ∈ seen, ∀ current, position = some current →
      Relation.TransGen (Step step) old current) : ¬Ends step position := by
  generalize result : some value = found at search
  induction search with
  | ended => cases result
  | repeated known => exact not_ends_of_cycle (trail _ known _ rfl)
  | @forward seen current found _ _ ih =>
      intro ends
      apply ih _ result ends.next
      intro old member next reached
      rcases List.mem_cons.mp member with rfl | member
      · exact .single reached
      · exact .tail (trail old member current rfl) reached

/-- A search from a value finds no repetition exactly when the chain ends. -/
theorem Searches.eq_none_iff {value : α} {found : Option α}
    (search : Searches step [] (some value) found) : found = none ↔ Ends step (some value) := by
  cases found with
  | none => exact ⟨fun _ => search.ends, fun _ => rfl⟩
  | some other =>
      constructor
      · intro impossible
        cases impossible
      · intro ends
        exact absurd ends (search.not_ends (by simp))

end PrinterSdk.Data.Chain
