/-!
# Machines driven by labelled events

A component that is driven from outside, one event at a time, is a partial step
function: `none` means that the event cannot happen in that state, and the
outputs of a step are what it does to its surroundings.  A fact that every step
keeps holds after every run, whatever the order of the events.
-/

namespace PrinterSdk.Interaction

/-- A labelled machine with outputs. -/
structure Machine (State Label Output : Type) where
  step : State → Label → Option (State × List Output)

/-- One event of a run with the outputs of its step. -/
structure Transition (Label Output : Type) where
  event : Label
  outputs : List Output

namespace Machine

variable {State Label Output : Type} {machine : Machine State Label Output}
variable {start state last : State} {trace : List (Transition Label Output)}

/-- The outputs of a run, in order. -/
def outputs (trace : List (Transition Label Output)) : List Output :=
  trace.flatMap Transition.outputs

@[simp] theorem outputs_nil : outputs ([] : List (Transition Label Output)) = [] := rfl

@[simp] theorem outputs_snoc (event : Label) (shown : List Output) :
    outputs (trace ++ [⟨event, shown⟩]) = outputs trace ++ shown := by
  simp [outputs]

/-- The runs of a machine: every step taken so far and the state it led to. -/
inductive Run (machine : Machine State Label Output) (start : State) :
    List (Transition Label Output) → State → Prop where
  | start : Run machine start [] start
  | step {trace : List (Transition Label Output)} {state next : State} {event : Label}
      {outputs : List Output} :
      Run machine start trace state →
      machine.step state event = some (next, outputs) →
      Run machine start (trace ++ [⟨event, outputs⟩]) next

/-- Invariant rule: what holds at the start and is kept by every step holds after
every run. -/
theorem Run.invariant {holds : List (Transition Label Output) → State → Prop}
    (run : Run machine start trace last) (initially : holds [] start)
    (keeps : ∀ trace state event next outputs, holds trace state →
      machine.step state event = some (next, outputs) →
      holds (trace ++ [⟨event, outputs⟩]) next) :
    holds trace last := by
  induction run with
  | start => exact initially
  | step _ stepped ih => exact keeps _ _ _ _ _ ih stepped

/-- Every transition of a run was a step from a state that the run had reached. -/
theorem Run.cut {before after : List (Transition Label Output)}
    {transition : Transition Label Output}
    (run : Run machine start (before ++ transition :: after) last) :
    ∃ state next, Run machine start before state ∧
      machine.step state transition.event = some (next, transition.outputs) := by
  generalize whole : before ++ transition :: after = trace at run
  induction run generalizing after with
  | start => simp at whole
  | @step earlier state next event outputs reached stepped ih =>
      rcases List.eq_nil_or_concat after with rfl | ⟨after, other, rfl⟩
      · obtain ⟨rfl, same⟩ := List.append_inj' whole rfl
        cases same
        exact ⟨state, next, reached, stepped⟩
      · rw [List.concat_eq_append, ← List.cons_append, ← List.append_assoc] at whole
        exact ih (List.append_inj' whole rfl).1

/-- The run over a list of events, when every one of them can happen. -/
def run (machine : Machine State Label Output) :
    State → List Label → Option (List (Transition Label Output) × State)
  | state, [] => some ([], state)
  | state, event :: rest =>
      match machine.step state event with
      | none => none
      | some (next, outputs) =>
          (machine.run next rest).map fun (trace, last) => (⟨event, outputs⟩ :: trace, last)

/-- A step before a run. -/
theorem Run.cons {next : State} {event : Label} {outputs : List Output}
    (stepped : machine.step state event = some (next, outputs))
    (run : Run machine next trace last) :
    Run machine state (⟨event, outputs⟩ :: trace) last := by
  induction run with
  | start => exact .step .start stepped
  | step _ later ih => exact .step ih later

/-- A computed run is a run. -/
theorem run_sound {events : List Label}
    (computed : machine.run state events = some (trace, last)) :
    Run machine state trace last := by
  induction events generalizing state trace with
  | nil =>
      cases computed
      exact .start
  | cons event rest ih =>
      simp only [run] at computed
      split at computed
      · cases computed
      · rename_i next outputs stepped
        simp only [Option.map_eq_some_iff] at computed
        obtain ⟨⟨later, reached⟩, continued, same⟩ := computed
        cases same
        exact .cons stepped (ih continued)

end Machine

end PrinterSdk.Interaction
