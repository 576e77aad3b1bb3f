import PrinterSdk.Interaction.Program

/-!
# Computations that succeed under an assumption on the environment

`Succeeds assumed success history computation` says that a computation which begins
after `history` returns no error in any run that satisfies `assumed`, and that what it
returns there satisfies `success`.  An assumption on a run holds of its beginnings, so
a run that has left it behind owes nothing more.
-/

namespace PrinterSdk.Interaction

/-- An assumption on runs that holds of every beginning of a run it holds of. -/
structure Assumption (sig : Signature) where
  holds : List (Event sig) → Prop
  closed : ∀ {before later}, before <+: later → holds later → holds before

namespace Fallible

open Program

variable {sig : Signature} {ε ε' α β : Type}

/-- No run under the assumption fails, and its value is as `success` says. -/
def Succeeds (assumed : Assumption sig) (success : List (Event sig) → α → Prop)
    (history : List (Event sig)) (computation : Fallible sig ε α) : Prop :=
  Meets (fun _ _ => True) (fun later value => assumed.holds later → success later value)
    (fun later _ => ¬assumed.holds later) history computation

variable {assumed : Assumption sig} {history : List (Event sig)}
variable {success : List (Event sig) → β → Prop}

@[simp] theorem succeeds_pure {success : List (Event sig) → α → Prop} (value : α) :
    Succeeds assumed success history (pure value : Fallible sig ε α) ↔
      (assumed.holds history → success history value) := Iff.rfl

/-- Nothing is owed once the assumption is broken. -/
theorem succeeds_of_broken (broken : ¬assumed.holds history)
    (computation : Fallible sig ε β) : Succeeds assumed success history computation := by
  apply Program.meets_of_after
  intro trace residual _
  have still : ¬assumed.holds (history ++ trace) := fun held =>
    broken (assumed.closed (List.prefix_append _ _) held)
  cases residual with
  | ask op resume => trivial
  | done result =>
      cases result with
      | ok value => exact fun held => absurd held still
      | error error => exact still

/-- One operation: only the answers that keep the assumption are considered. -/
theorem Succeeds.perform_bind {op : sig.Op} {next : sig.Reply op → Fallible sig ε β}
    (continues : ∀ reply, assumed.holds (history ++ [⟨op, reply⟩]) →
      Succeeds assumed success (history ++ [⟨op, reply⟩]) (next reply)) :
    Succeeds assumed success history (perform op >>= next) := by
  apply Meets.perform_bind trivial
  intro reply
  by_cases held : assumed.holds (history ++ [⟨op, reply⟩])
  · exact continues reply held
  · exact succeeds_of_broken held (next reply)

/-- Sequencing. -/
theorem Succeeds.bind {computation : Fallible sig ε α} {next : α → Fallible sig ε β}
    {middle : List (Event sig) → α → Prop}
    (first : Succeeds assumed middle history computation)
    (rest : ∀ later value, assumed.holds later → middle later value →
      Succeeds assumed success later (next value)) :
    Succeeds assumed success history (computation >>= next) := by
  apply Meets.bind first
  intro later value reached
  by_cases held : assumed.holds later
  · exact rest later value held (reached held)
  · exact succeeds_of_broken held (next value)

/-- Consequence. -/
theorem Succeeds.mono {computation : Fallible sig ε α}
    {weaker stronger : List (Event sig) → α → Prop}
    (succeeds : Succeeds assumed stronger history computation)
    (implies : ∀ later value, stronger later value → weaker later value) :
    Succeeds assumed weaker history computation :=
  Meets.mono succeeds (fun later value reached held => implies later value (reached held))
    fun _ _ broken => broken

/-- Errors may be renamed: under the assumption there are none. -/
theorem Succeeds.mapError {computation : Fallible sig ε α} (convert : ε → ε')
    {success : List (Event sig) → α → Prop}
    (succeeds : Succeeds assumed success history computation) :
    Succeeds assumed success history (mapError convert computation) :=
  (meets_mapError convert computation).mpr succeeds

/-- Soundness: a run under the assumption returns a value. -/
theorem Succeeds.run {σ : Type} {answer : σ → (op : sig.Op) → sig.Reply op × σ} {state : σ}
    {computation : Fallible sig ε β} (succeeds : Succeeds assumed success [] computation)
    (held : assumed.holds (Program.run answer state computation.run).1) :
    ∃ value, (Program.run answer state computation.run).2 = .ok value ∧
      success (Program.run answer state computation.run).1 value := by
  have settled := succeeds.after (after_run answer state computation.run)
  cases result : (Program.run answer state computation.run).2 with
  | ok value =>
      rw [result] at settled
      exact ⟨value, rfl, settled held⟩
  | error error =>
      rw [result] at settled
      exact absurd held settled

end Fallible

end PrinterSdk.Interaction
