import Mathlib.Data.List.Forall2

/-!
# Fallible stateful computations

A Rust function that returns a `Result` may also panic.  Both ways of not
returning a value are kept apart by `Fault`, and a method that takes `&mut self`
is a state transformer over such outcomes.
-/

namespace PrinterSdk.Data

/-- Why a computation produced no value. -/
inductive Fault (ε : Type) where
  | error (error : ε)
  | panic
  deriving DecidableEq, Repr

/-- A Rust `Result` with panics made visible. -/
abbrev Outcome (ε : Type) (α : Type) := Except (Fault ε) α

/-- Return the error `error`. -/
def fail {ε α : Type} (error : ε) : Outcome ε α := .error (.error error)

/-- Abort the computation. -/
def panics {ε α : Type} : Outcome ε α := .error .panic

/-! ## Early returns -/

section

variable {ε α β : Type}

/-- `if refused { return Err(error) }`. -/
def refuseIf (refused : Prop) [Decidable refused] (error : ε) : Except ε Unit :=
  if refused then .error error else .ok ()

/-- `Option::ok_or`. -/
def okOr (value : Option α) (error : ε) : Except ε α :=
  match value with
  | some value => .ok value
  | none => .error error

@[simp] theorem refuseIf_eq_ok (refused : Prop) [Decidable refused] (error : ε)
    (result : Unit) : refuseIf refused error = .ok result ↔ ¬refused := by
  unfold refuseIf
  by_cases refuses : refused <;> simp [refuses]

@[simp] theorem okOr_eq_ok (value : Option α) (error : ε) (result : α) :
    okOr value error = .ok result ↔ value = some result := by
  cases value <;> simp [okOr]

theorem refuseIf_eq_error (refused : Prop) [Decidable refused] (error found : ε) :
    refuseIf refused error = .error found ↔ refused ∧ error = found := by
  unfold refuseIf
  by_cases refuses : refused <;> simp [refuses]

theorem okOr_eq_error (value : Option α) (error found : ε) :
    okOr value error = .error found ↔ value = none ∧ error = found := by
  cases value <;> simp [okOr]

theorem except_bind_eq_error (first : Except ε α) (next : α → Except ε β) (found : ε) :
    (first >>= next) = .error found ↔
      first = .error found ∨ ∃ value, first = .ok value ∧ next value = .error found := by
  cases first <;> simp [bind, Except.bind]

theorem except_bind_eq_ok (first : Except ε α) (next : α → Except ε β) (result : β) :
    (first >>= next) = .ok result ↔ ∃ value, first = .ok value ∧ next value = .ok result := by
  cases first <;> simp [bind, Except.bind]

@[simp] theorem except_pure_eq_ok (value result : α) :
    (pure value : Except ε α) = .ok result ↔ value = result := by
  simp [pure, Except.pure]

theorem exists_of_isOk {result : Except ε α} (succeeded : result.isOk = true) :
    ∃ value, result = .ok value := by
  cases result with
  | ok value => exact ⟨value, rfl⟩
  | error error => cases succeeded

/-- A traversal succeeds when it succeeds at every item. -/
theorem except_mapM_eq_ok (convert : α → Except ε β) (list : List α)
    (result : List β) :
    list.mapM convert = .ok result ↔
      List.Forall₂ (fun item value => convert item = .ok value) list result := by
  induction list generalizing result with
  | nil =>
      rw [List.mapM_nil, except_pure_eq_ok, List.forall₂_nil_left_iff, eq_comm]
  | cons item rest ih =>
      rw [List.mapM_cons, except_bind_eq_ok, List.forall₂_cons_left_iff]
      constructor
      · rintro ⟨value, converted, later⟩
        obtain ⟨values, others, joined⟩ := (except_bind_eq_ok _ _ _).mp later
        have same := (except_pure_eq_ok _ _).mp joined
        exact ⟨value, values, converted, (ih values).mp others, same.symm⟩
      · rintro ⟨value, values, converted, others, rfl⟩
        refine ⟨value, converted, (except_bind_eq_ok _ _ _).mpr ⟨values, (ih values).mpr others, ?_⟩⟩
        rfl

/-- Everything on the right is related to something on the left. -/
theorem exists_left_of_mem {Rel : α → β → Prop} {left : List α} {right : List β}
    (related : List.Forall₂ Rel left right) {item : β} (member : item ∈ right) :
    ∃ origin ∈ left, Rel origin item := by
  induction related with
  | nil => cases member
  | cons first _ ih =>
      rcases List.mem_cons.mp member with rfl | later
      · exact ⟨_, List.mem_cons_self .., first⟩
      · obtain ⟨origin, inside, relates⟩ := ih later
        exact ⟨origin, List.mem_cons_of_mem _ inside, relates⟩

/-- What is on the right at an index is related to what is on the left there. -/
theorem exists_left_of_getElem? {Rel : α → β → Prop} {left : List α} {right : List β}
    (related : List.Forall₂ Rel left right) {index : Nat} {item : β}
    (located : right[index]? = some item) :
    ∃ origin, left[index]? = some origin ∧ Rel origin item := by
  induction related generalizing index with
  | nil => cases located
  | cons first _ ih =>
      cases index with
      | zero =>
          cases located
          exact ⟨_, rfl, first⟩
      | succ index => exact ih located

/-- A loop of checks succeeds when every check does. -/
theorem except_forM_eq_ok (check : α → Except ε Unit) (list : List α) :
    list.forM check = .ok () ↔ ∀ item ∈ list, check item = .ok () := by
  induction list with
  | nil => simp [pure, Except.pure]
  | cons item rest ih =>
      change (check item >>= fun _ => rest.forM check) = .ok () ↔ _
      rw [except_bind_eq_ok, List.forall_mem_cons, ← ih]
      constructor
      · rintro ⟨_, first, later⟩
        exact ⟨first, later⟩
      · rintro ⟨first, later⟩
        exact ⟨(), first, later⟩

/-- What every step keeps, a loop keeps. -/
theorem foldlM_invariant {step : β → α → Except ε β} (Holds : β → Prop) {list : List α}
    {start last : β} (holds : Holds start)
    (keeps : ∀ state item next, item ∈ list → Holds state → step state item = .ok next →
      Holds next)
    (ended : list.foldlM step start = .ok last) : Holds last := by
  induction list generalizing start with
  | nil =>
      rw [← (except_pure_eq_ok _ _).mp ended]
      exact holds
  | cons item rest ih =>
      rw [List.foldlM_cons] at ended
      obtain ⟨next, now, later⟩ := (except_bind_eq_ok _ _ _).mp ended
      have kept := keeps start item next (List.mem_cons_self ..) holds now
      exact ih kept (fun state other after member =>
        keeps state other after (List.mem_cons_of_mem _ member)) later

/-! ## Errors that do not occur

A computation avoids an error when its parts do. -/

theorem okOr_ne_error {value : Option α} {error found : ε} (differs : error ≠ found) :
    okOr value error ≠ .error found :=
  fun failed => differs ((okOr_eq_error _ _ _).mp failed).2

theorem refuseIf_ne_error {refused : Prop} [Decidable refused] {error found : ε}
    (differs : error ≠ found) : refuseIf refused error ≠ .error found :=
  fun failed => differs ((refuseIf_eq_error _ _ _).mp failed).2

theorem except_bind_ne_error {first : Except ε α} {next : α → Except ε β} {found : ε}
    (quiet : first ≠ .error found)
    (later : ∀ value, first = .ok value → next value ≠ .error found) :
    (first >>= next) ≠ .error found := by
  cases first with
  | ok value => exact later value rfl
  | error error =>
      intro failed
      exact quiet (congrArg Except.error (Except.error.inj failed))

theorem except_mapError_eq_ok {ε' : Type} {result : Except ε α} {convert : ε → ε'} {value : α} :
    result.mapError convert = .ok value ↔ result = .ok value := by
  cases result <;> simp [Except.mapError]

theorem except_mapError_ne_error {ε' : Type} {result : Except ε α} {convert : ε → ε'} {found : ε'}
    (quiet : ∀ error, result = .error error → convert error ≠ found) :
    result.mapError convert ≠ .error found := by
  cases result with
  | ok value => exact nofun
  | error error =>
      intro failed
      exact quiet error rfl (Except.error.inj failed)

/-- A loop avoids an error when every step avoids it where the invariant holds. -/
theorem foldlM_ne_error {step : β → α → Except ε β} (Holds : β → Prop) {list : List α}
    {start : β} {found : ε} (holds : Holds start)
    (keeps : ∀ state item next, item ∈ list → Holds state → step state item = .ok next →
      Holds next)
    (quiet : ∀ state item, item ∈ list → Holds state → step state item ≠ .error found) :
    list.foldlM step start ≠ .error found := by
  induction list generalizing start with
  | nil => exact nofun
  | cons item rest ih =>
      rw [List.foldlM_cons]
      apply except_bind_ne_error (quiet start item (List.mem_cons_self ..) holds)
      intro next passed
      apply ih (keeps start item next (List.mem_cons_self ..) holds passed)
      · intro state other after member
        exact keeps state other after (List.mem_cons_of_mem _ member)
      · intro state other member
        exact quiet state other (List.mem_cons_of_mem _ member)

theorem mapM_ne_error {convert : α → Except ε β} {list : List α} {found : ε}
    (quiet : ∀ item ∈ list, convert item ≠ .error found) :
    list.mapM convert ≠ .error found := by
  induction list with
  | nil => exact nofun
  | cons item rest ih =>
      obtain ⟨here, later⟩ := List.forall_mem_cons.mp quiet
      rw [List.mapM_cons]
      apply except_bind_ne_error here
      intro value _
      apply except_bind_ne_error (ih later)
      intro values _
      nofun

theorem forM_ne_error {check : α → Except ε Unit} {list : List α} {found : ε}
    (quiet : ∀ item ∈ list, check item ≠ .error found) : list.forM check ≠ .error found := by
  induction list with
  | nil => exact nofun
  | cons item rest ih =>
      obtain ⟨here, later⟩ := List.forall_mem_cons.mp quiet
      exact except_bind_ne_error here fun _ _ => ih later

end

/-! ## Computations that never abort -/

/-- The computation does not panic: it returns a value or an error. -/
def NoPanic {ε α : Type} (outcome : Outcome ε α) : Prop := outcome ≠ .error .panic

section

variable {ε α β : Type}

@[simp] theorem noPanic_ok (value : α) : NoPanic (.ok value : Outcome ε α) := by
  simp [NoPanic]

@[simp] theorem noPanic_pure (value : α) : NoPanic (pure value : Outcome ε α) :=
  noPanic_ok value

@[simp] theorem noPanic_fail (error : ε) : NoPanic (fail error : Outcome ε α) := by
  simp [NoPanic, fail]

theorem NoPanic.bind {first : Outcome ε α} {next : α → Outcome ε β} (quiet : NoPanic first)
    (later : ∀ value, first = .ok value → NoPanic (next value)) :
    NoPanic (first >>= next) :=
  except_bind_ne_error quiet later

theorem NoPanic.map {outcome : Outcome ε α} (convert : α → β) (quiet : NoPanic outcome) :
    NoPanic (outcome.map convert) := by
  cases outcome with
  | ok value => simp [Except.map]
  | error fault =>
      intro panicked
      exact quiet (congrArg Except.error (Except.error.inj panicked))

end

/-! ## Indices, slices and arrays -/

section

variable {ε α : Type}

/-- `list[index]`, which panics out of bounds. -/
def indexed (list : List α) (index : Nat) : Outcome ε α := okOr list[index]? .panic

/-- `list[start..finish]`, which panics out of bounds. -/
def sliced (list : List α) (start finish : Nat) : Outcome ε (List α) :=
  if start ≤ finish ∧ finish ≤ list.length then
    .ok ((list.drop start).take (finish - start))
  else panics

/-- `try_into().expect(..)` to an array of `length` items, which panics at another length. -/
def expectArray (length : Nat) (list : List α) : Outcome ε (List α) :=
  if list.length = length then .ok list else panics

theorem indexed_of_getElem? {list : List α} {index : Nat} {item : α}
    (located : list[index]? = some item) : (indexed list index : Outcome ε α) = .ok item :=
  (okOr_eq_ok _ _ _).mpr located

theorem sliced_of_le {list : List α} {start finish : Nat} (ordered : start ≤ finish)
    (inside : finish ≤ list.length) :
    (sliced list start finish : Outcome ε (List α)) =
      .ok ((list.drop start).take (finish - start)) :=
  if_pos ⟨ordered, inside⟩

theorem expectArray_of_length {length : Nat} {list : List α} (fits : list.length = length) :
    (expectArray length list : Outcome ε (List α)) = .ok list :=
  if_pos fits

end

/-- A method over mutable state `σ`. -/
abbrev Method (σ ε α : Type) := StateT σ (Except (Fault ε)) α

namespace Method

variable {σ ε α β : Type}

/-- Return the error `error` from a method. -/
def fail (error : ε) : Method σ ε α := fun _ => Data.fail error

/-- Abort inside a method. -/
def panics : Method σ ε α := fun _ => Data.panics

/-- `Result::map_err` on a method's result. -/
def mapError (rename : ε → ε) (method : Method σ ε α) : Method σ ε α :=
  fun state =>
    match method state with
    | .error (.error error) => Data.fail (rename error)
    | other => other

@[simp] theorem fail_ne_ok (error : ε) (state : σ) (result : α × σ) :
    (fail error : Method σ ε α) state = .ok result ↔ False := by
  simp [fail, Data.fail]

@[simp] theorem panics_ne_ok (state : σ) (result : α × σ) :
    (panics : Method σ ε α) state = .ok result ↔ False := by
  simp [panics, Data.panics]

@[simp] theorem pure_eq_ok (value : α) (state : σ) (result : α × σ) :
    (pure value : Method σ ε α) state = .ok result ↔ (value, state) = result := by
  change Except.ok (value, state) = Except.ok result ↔ _
  simp

@[simp] theorem get_eq_ok (state : σ) (result : σ × σ) :
    (get : Method σ ε σ) state = .ok result ↔ (state, state) = result := by
  change Except.ok (state, state) = Except.ok result ↔ _
  simp

@[simp] theorem set_eq_ok (next state : σ) (result : PUnit × σ) :
    (set next : Method σ ε PUnit) state = .ok result ↔ (⟨⟩, next) = result := by
  change Except.ok (⟨⟩, next) = Except.ok result ↔ _
  simp

/-- A sequence returns exactly when both of its parts do. -/
theorem bind_eq_ok (first : Method σ ε α) (next : α → Method σ ε β)
    (state : σ) (result : β × σ) :
    (first >>= next) state = .ok result ↔
      ∃ value middle, first state = .ok (value, middle) ∧
        next value middle = .ok result := by
  change (first state >>= fun step => next step.1 step.2) = .ok result ↔ _
  cases first state with
  | error fault => simp [bind, Except.bind]
  | ok step =>
      constructor
      · intro returned
        exact ⟨step.1, step.2, rfl, returned⟩
      · rintro ⟨value, middle, stepped, returned⟩
        cases stepped
        exact returned

/-- What follows a method only matters at the values it returns. -/
theorem bind_congr_of_ok {first : Method σ ε α} {next other : α → Method σ ε β} {state : σ}
    (same : ∀ value middle, first state = .ok (value, middle) →
      next value middle = other value middle) :
    (first >>= next) state = (first >>= other) state := by
  change (first state >>= fun step => next step.1 step.2) =
    (first state >>= fun step => other step.1 step.2)
  cases returned : first state with
  | error fault => rfl
  | ok step => exact same step.1 step.2 returned

@[simp] theorem noPanic_methodFail (error : ε) (state : σ) :
    NoPanic ((fail error : Method σ ε α) state) := noPanic_fail error

@[simp] theorem noPanic_methodPure (value : α) (state : σ) :
    NoPanic ((pure value : Method σ ε α) state) := noPanic_ok (value, state)

theorem noPanic_bind {first : Method σ ε α} {next : α → Method σ ε β} {state : σ}
    (quiet : NoPanic (first state))
    (later : ∀ value middle, first state = .ok (value, middle) → NoPanic (next value middle)) :
    NoPanic ((first >>= next) state) := by
  apply NoPanic.bind quiet
  intro step stepped
  exact later step.1 step.2 stepped

/-- A method that first reads the state. -/
theorem noPanic_get {body : σ → Method σ ε α} {state : σ} (quiet : NoPanic (body state state)) :
    NoPanic ((get >>= body) state) := quiet

theorem noPanic_mapError {method : Method σ ε α} {state : σ} (rename : ε → ε)
    (quiet : NoPanic (method state)) : NoPanic (mapError rename method state) := by
  rw [mapError]
  cases returned : method state with
  | ok step => exact noPanic_ok _
  | error fault =>
      cases fault with
      | error error => exact noPanic_fail _
      | panic => exact absurd returned quiet

theorem noPanic_lift {outcome : Outcome ε α} (state : σ) (quiet : NoPanic outcome) :
    NoPanic ((liftM outcome : Method σ ε α) state) := by
  apply NoPanic.bind quiet
  intro value _
  exact noPanic_ok (value, state)

theorem lift_eq_ok (outcome : Outcome ε α) (state : σ) (result : α × σ) :
    (liftM outcome : Method σ ε α) state = .ok result ↔
      outcome = .ok result.1 ∧ state = result.2 := by
  change (outcome >>= fun value => .ok (value, state)) = .ok result ↔ _
  cases outcome with
  | error fault => simp [bind, Except.bind]
  | ok value => simp [bind, Except.bind, Prod.ext_iff]

theorem mapError_eq_ok (rename : ε → ε) (method : Method σ ε α)
    (state : σ) (result : α × σ) :
    mapError rename method state = .ok result ↔ method state = .ok result := by
  rw [mapError]
  cases method state with
  | ok step => rfl
  | error fault =>
      cases fault with
      | error error => simp [Data.fail]
      | panic => rfl

end Method

end PrinterSdk.Data
