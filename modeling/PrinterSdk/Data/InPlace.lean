import PrinterSdk.Data.Outcome

/-!
# Methods that fail halfway

A method that takes `&mut self` and fails leaves behind what it has done until then.  Such a
method returns its state also where it returns an error or panics.
-/

namespace PrinterSdk.Data

/-- A method whose state is kept where it fails. -/
structure InPlace (σ ε α : Type) where
  run : σ → Outcome ε α × σ

namespace InPlace

variable {σ ε α β : Type}

/-- Continue where the first method succeeded. -/
def bind (first : InPlace σ ε α) (next : α → InPlace σ ε β) : InPlace σ ε β where
  run := fun state =>
    match first.run state with
    | (.ok value, after) => (next value).run after
    | (.error fault, after) => (.error fault, after)

instance : Monad (InPlace σ ε) where
  pure value := ⟨fun state => (.ok value, state)⟩
  bind := bind

/-- The state. -/
def get : InPlace σ ε σ := ⟨fun state => (.ok state, state)⟩

/-- A computation that does not touch the state. -/
def of (outcome : Outcome ε α) : InPlace σ ε α := ⟨fun state => (outcome, state)⟩

/-- Change the state, if the new one can be computed. -/
def change (next : σ → Outcome ε σ) : InPlace σ ε Unit where
  run := fun state =>
    match next state with
    | .ok after => (.ok (), after)
    | .error fault => (.error fault, state)

/-- A loop over the items of a list. -/
def each (body : α → InPlace σ ε Unit) : List α → InPlace σ ε Unit
  | [] => pure ()
  | item :: rest => do
      body item
      each body rest

theorem run_get_bind (next : σ → InPlace σ ε β) (state : σ) :
    (get >>= next).run state = (next state).run state := rfl

theorem run_of_bind_ok {outcome : Outcome ε α} {value : α} (ended : outcome = .ok value)
    (next : α → InPlace σ ε β) (state : σ) :
    (of outcome >>= next).run state = (next value).run state := by
  rw [ended]
  rfl

theorem run_of_bind_error {outcome : Outcome ε α} {fault : Fault ε}
    (failed : outcome = .error fault) (next : α → InPlace σ ε β) (state : σ) :
    (of outcome >>= next).run state = (.error fault, state) := by
  rw [failed]
  rfl

/-! ## What a method returns -/

/-- The state after a method that succeeds. -/
def result (method : InPlace σ ε Unit) (state : σ) : Outcome ε σ :=
  (method.run state).1.map fun _ => (method.run state).2

theorem run_of_result {method : InPlace σ ε Unit} {state last : σ}
    (ended : result method state = .ok last) : method.run state = (.ok (), last) := by
  unfold result at ended
  cases outcome : method.run state with
  | mk returned after =>
      rw [outcome] at ended
      cases returned with
      | error fault => cases ended
      | ok value => exact congrArg _ (Except.ok.inj ended)

theorem result_of_bind (outcome : Outcome ε α) (next : α → InPlace σ ε Unit) (state : σ) :
    result (of outcome >>= next) state = outcome >>= fun value => result (next value) state := by
  cases outcome with
  | error fault => rfl
  | ok value => rfl

/-- A loop of changes is the loop over the states. -/
theorem result_each_change (step : σ → α → Outcome ε σ) (list : List α) (start : σ) :
    result (each (fun item => change fun state => step state item) list) start =
      list.foldlM step start := by
  induction list generalizing start with
  | nil => rfl
  | cons item rest ih =>
      rw [List.foldlM_cons]
      change result (bind (change fun state => step state item) fun _ => each _ rest) start = _
      cases turned : step start item with
      | error fault =>
          simp only [result, bind, change, turned]
          rfl
      | ok next =>
          have later := ih next
          simp only [result, bind, change, turned] at later ⊢
          exact later

end InPlace

end PrinterSdk.Data
