/-!
# Interactive programs against an arbitrary environment

A program is a well-founded tree of operations.  Each operation is handed to an
environment that may answer with any value of the operation's reply type, so a
fact proved about every path of the tree holds for every environment, however
adversarial, and for every schedule of its answers.

Runs are described by residuals: `After program trace residual` says that
answering the operations recorded in `trace` leaves `residual` to be executed.
A residual `done` has returned; a residual `ask` is still waiting for the
environment, which also covers an environment that never answers.
-/

namespace PrinterSdk.Interaction

universe u

/-- The operations a program may perform and the answers each one admits. -/
structure Signature where
  Op : Type
  Reply : Op → Type

/-- One answered operation. -/
structure Event (sig : Signature) where
  op : sig.Op
  reply : sig.Reply op

/-- A finite-path interaction tree over a signature. -/
inductive Program (sig : Signature) (α : Type u) where
  | done (value : α)
  | ask (op : sig.Op) (resume : sig.Reply op → Program sig α)

namespace Program

variable {sig : Signature} {α β γ : Type u}

/-- Sequential composition. -/
def bind : Program sig α → (α → Program sig β) → Program sig β
  | .done value, next => next value
  | .ask op resume, next => .ask op fun reply => (resume reply).bind next

instance : Monad (Program sig) where
  pure := .done
  bind := bind

@[simp] theorem pure_eq (value : α) :
    (pure value : Program sig α) = .done value := rfl

@[simp] theorem done_bind (value : α) (next : α → Program sig β) :
    (Program.done value >>= next) = next value := rfl

@[simp] theorem ask_bind (op : sig.Op) (resume : sig.Reply op → Program sig α)
    (next : α → Program sig β) :
    (Program.ask op resume >>= next) =
      .ask op fun reply => resume reply >>= next := rfl

/-- Perform one operation and return its answer. -/
def perform (op : sig.Op) : Program sig (sig.Reply op) :=
  .ask op .done

/-- The operation a residual is waiting for, if it has not returned. -/
def pending : Program sig α → Option sig.Op
  | .done _ => none
  | .ask op _ => some op

@[simp] theorem pending_done (value : α) :
    (Program.done value : Program sig α).pending = none := rfl

@[simp] theorem pending_ask (op : sig.Op)
    (resume : sig.Reply op → Program sig α) :
    (Program.ask op resume).pending = some op := rfl

/-- `After program trace residual`: once the environment has given the answers
of `trace`, `residual` remains. -/
inductive After : Program sig α → List (Event sig) → Program sig α → Prop where
  | refl (program : Program sig α) : After program [] program
  | step {op : sig.Op} {resume : sig.Reply op → Program sig α}
      {trace : List (Event sig)} {residual : Program sig α}
      (reply : sig.Reply op) :
      After (resume reply) trace residual →
      After (.ask op resume) (⟨op, reply⟩ :: trace) residual

/-- A program that has returned goes nowhere. -/
theorem After.of_done {value : α} {trace : List (Event sig)} {residual : Program sig α}
    (reached : After (.done value) trace residual) : trace = [] ∧ residual = .done value := by
  cases reached
  exact ⟨rfl, rfl⟩

/-- A program that waits for an operation returns only after it was answered. -/
theorem After.cons_of_pending {program : Program sig α} {trace : List (Event sig)} {value : α}
    {op : sig.Op} (waits : program.pending = some op) (returned : After program trace (.done value)) :
    ∃ event later, trace = event :: later := by
  cases returned with
  | refl => cases waits
  | step reply later => exact ⟨_, _, rfl⟩

/-- One more answer continues a run. -/
theorem After.answer {program : Program sig α} {trace : List (Event sig)} {op : sig.Op}
    {resume : sig.Reply op → Program sig α} (reached : After program trace (.ask op resume))
    (reply : sig.Reply op) : After program (trace ++ [⟨op, reply⟩]) (resume reply) := by
  generalize waiting : Program.ask op resume = residual at reached
  induction reached with
  | refl program =>
      cases waiting
      exact .step reply (.refl _)
  | step first _ ih => exact .step first (ih waiting)

/-- A run of a first program that returns continues with a run of what follows. -/
theorem After.bind {program : Program sig α} {next : α → Program sig β}
    {trace later : List (Event sig)} {value : α} {residual : Program sig β}
    (returned : After program trace (.done value))
    (continued : After (next value) later residual) :
    After (program >>= next) (trace ++ later) residual := by
  generalize ended : Program.done value = last at returned
  induction returned with
  | refl program =>
      subst ended
      exact continued
  | step reply _ ih => exact .step reply (ih ended)

/-- A run of a sequence that returns is a run of its first program and one of what
follows. -/
theorem After.of_bind {program : Program sig α} {next : α → Program sig β}
    {trace : List (Event sig)} {result : β}
    (returned : After (program >>= next) trace (.done result)) :
    ∃ earlier later value, trace = earlier ++ later ∧ After program earlier (.done value) ∧
      After (next value) later (.done result) := by
  induction program generalizing trace with
  | done value => exact ⟨[], trace, value, rfl, .refl _, returned⟩
  | ask op resume ih =>
      cases returned with
      | step reply returned =>
          obtain ⟨earlier, later, value, rfl, first, rest⟩ := ih reply returned
          exact ⟨⟨op, reply⟩ :: earlier, later, value, rfl, .step reply first, rest⟩

/-- Some run of a program comes to a residual. -/
def Reaches (program residual : Program sig α) : Prop :=
  ∃ trace, After program trace residual

theorem Reaches.refl (program : Program sig α) : Reaches program program :=
  ⟨[], .refl program⟩

/-- Execute a program against a concrete stateful environment. -/
def run {σ : Type} (answer : σ → (op : sig.Op) → sig.Reply op × σ) :
    σ → Program sig α → List (Event sig) × α
  | _, .done value => ([], value)
  | state, .ask op resume =>
      let replied := answer state op
      let rest := run answer replied.2 (resume replied.1)
      (⟨op, replied.1⟩ :: rest.1, rest.2)

/-- A concrete execution is one of the runs described by `After`. -/
theorem after_run {σ : Type} (answer : σ → (op : sig.Op) → sig.Reply op × σ)
    (state : σ) (program : Program sig α) :
    After program (program.run answer state).1
      (.done (program.run answer state).2) := by
  induction program generalizing state with
  | done value => exact .refl _
  | ask op resume ih => exact .step _ (ih _ _)

/-- What holds of every answer of an environment holds of every event of an execution. -/
theorem forall_run {σ : Type} {answer : σ → (op : sig.Op) → sig.Reply op × σ}
    {holds : Event sig → Prop} (answers : ∀ state op, holds ⟨op, (answer state op).1⟩)
    (state : σ) (program : Program sig α) :
    ∀ event ∈ (program.run answer state).1, holds event := by
  induction program generalizing state with
  | done value =>
      intro event member
      cases member
  | ask op resume ih =>
      intro event member
      rcases List.mem_cons.mp member with rfl | later
      · exact answers state op
      · exact ih _ _ event later

/-- Execute a program for as long as a concrete stateful environment answers, with
what is left of it and the state that is reached. -/
def advance {σ : Type} (answer : σ → (op : sig.Op) → Option (sig.Reply op × σ)) :
    σ → Program sig α → List (Event sig) × Program sig α × σ
  | state, .done value => ([], .done value, state)
  | state, .ask op resume =>
      match answer state op with
      | none => ([], .ask op resume, state)
      | some replied =>
          let rest := advance answer replied.2 (resume replied.1)
          (⟨op, replied.1⟩ :: rest.1, rest.2)

/-- What an environment answers before it stops is a run. -/
theorem after_advance {σ : Type} (answer : σ → (op : sig.Op) → Option (sig.Reply op × σ))
    (state : σ) (program : Program sig α) :
    After program (program.advance answer state).1 (program.advance answer state).2.1 := by
  induction program generalizing state with
  | done value => exact .refl _
  | ask op resume ih =>
      cases answered : answer state op with
      | none =>
          simp only [advance, answered]
          exact .refl _
      | some replied =>
          simp only [advance, answered]
          exact .step _ (ih _ _)

/-! ## Invariants and postconditions over whole runs -/

/-- `Meets invariant post history program`: starting after the events of
`history`, every operation the program issues satisfies `invariant` at the
history it is issued in, and every returned value satisfies `post` at the
history it is returned in. -/
def Meets (invariant : List (Event sig) → sig.Op → Prop)
    (post : List (Event sig) → α → Prop) :
    List (Event sig) → Program sig α → Prop
  | history, .done value => post history value
  | history, .ask op resume =>
      invariant history op ∧
        ∀ reply, Meets invariant post (history ++ [⟨op, reply⟩]) (resume reply)

variable {invariant : List (Event sig) → sig.Op → Prop}
variable {post stronger : List (Event sig) → α → Prop}
variable {history : List (Event sig)}

@[simp] theorem meets_done (value : α) :
    Meets invariant post history (.done value) ↔ post history value := Iff.rfl

@[simp] theorem meets_ask (op : sig.Op)
    (resume : sig.Reply op → Program sig α) :
    Meets invariant post history (.ask op resume) ↔
      invariant history op ∧
        ∀ reply, Meets invariant post (history ++ [⟨op, reply⟩])
          (resume reply) := Iff.rfl

@[simp] theorem meets_perform (op : sig.Op)
    {post : List (Event sig) → sig.Reply op → Prop} :
    Meets invariant post history (perform op) ↔
      invariant history op ∧ ∀ reply, post (history ++ [⟨op, reply⟩]) reply :=
  Iff.rfl

/-- Consequence rule for postconditions. -/
theorem Meets.mono {program : Program sig α}
    (meets : Meets invariant stronger history program)
    (implies : ∀ later value, stronger later value → post later value) :
    Meets invariant post history program := by
  induction program generalizing history with
  | done value => exact implies _ _ meets
  | ask op resume ih =>
      exact ⟨meets.1, fun reply => ih reply (meets.2 reply)⟩

/-- Consequence rule for a whole contract.  Every later history continues the one
the program starts at. -/
theorem Meets.consequence {program : Program sig α}
    {invariant' : List (Event sig) → sig.Op → Prop}
    (meets : Meets invariant' stronger history program)
    (issues : ∀ later op, history <+: later → invariant' later op → invariant later op)
    (returns : ∀ later value, history <+: later → stronger later value → post later value) :
    Meets invariant post history program := by
  induction program generalizing history with
  | done value => exact returns _ _ List.prefix_rfl meets
  | ask op resume ih =>
      refine ⟨issues _ _ List.prefix_rfl meets.1, fun reply => ?_⟩
      have continues : history <+: history ++ [⟨op, reply⟩] := List.prefix_append _ _
      exact ih reply (meets.2 reply) (fun later op follows => issues later op (continues.trans follows))
        (fun later value follows => returns later value (continues.trans follows))

/-- Two contracts of one program hold together. -/
theorem Meets.and {program : Program sig α}
    {invariant' : List (Event sig) → sig.Op → Prop}
    (left : Meets invariant post history program)
    (right : Meets invariant' stronger history program) :
    Meets (fun later op => invariant later op ∧ invariant' later op)
      (fun later value => post later value ∧ stronger later value) history program := by
  induction program generalizing history with
  | done value => exact ⟨left, right⟩
  | ask op resume ih =>
      exact ⟨⟨left.1, right.1⟩, fun reply => ih reply (left.2 reply) (right.2 reply)⟩

/-- A contract may assume that every later history continues the one it begins with. -/
theorem Meets.within {program : Program sig α} {begin : List (Event sig)}
    (begun : begin <+: history)
    (meets : Meets (fun later op => begin <+: later → invariant later op)
      (fun later value => begin <+: later → post later value) history program) :
    Meets invariant post history program := by
  induction program generalizing history with
  | done value => exact meets begun
  | ask op resume ih =>
      refine ⟨meets.1 begun, fun reply => ?_⟩
      exact ih reply (begun.trans (List.prefix_append _ _)) (meets.2 reply)

theorem meets_congr {program : Program sig α}
    (same : ∀ later value, post later value ↔ stronger later value) :
    Meets invariant post history program ↔ Meets invariant stronger history program :=
  ⟨fun meets => meets.mono fun later value => (same later value).mp,
    fun meets => meets.mono fun later value => (same later value).mpr⟩

/-- Sequencing rule. -/
theorem meets_bind (program : Program sig α) (next : α → Program sig β)
    (post : List (Event sig) → β → Prop) :
    Meets invariant post history (program >>= next) ↔
      Meets invariant
        (fun later value => Meets invariant post later (next value))
        history program := by
  induction program generalizing history with
  | done value => exact Iff.rfl
  | ask op resume ih =>
      simp only [ask_bind, meets_ask]
      constructor
      · intro meets
        exact ⟨meets.1, fun reply => (ih reply).mp (meets.2 reply)⟩
      · intro meets
        exact ⟨meets.1, fun reply => (ih reply).mpr (meets.2 reply)⟩

/-- What `Meets` promises about one residual. -/
def Settled (invariant : List (Event sig) → sig.Op → Prop)
    (post : List (Event sig) → α → Prop) (history : List (Event sig)) :
    Program sig α → Prop
  | .done value => post history value
  | .ask op _ => invariant history op

/-- Soundness: a program that meets its contract keeps it in every residual of
every run. -/
theorem Meets.after {program residual : Program sig α}
    {trace : List (Event sig)}
    (meets : Meets invariant post history program)
    (reached : After program trace residual) :
    Settled invariant post (history ++ trace) residual := by
  induction reached generalizing history with
  | refl program =>
      cases program with
      | done value => simpa [Settled] using meets
      | ask op resume => simpa [Settled] using meets.1
  | step reply reached ih =>
      have settled := ih (meets.2 reply)
      rwa [List.append_assoc] at settled

/-- Completeness: what holds of every residual of every run is a contract. -/
theorem meets_of_after {program : Program sig α}
    (settled : ∀ trace residual, After program trace residual →
      Settled invariant post (history ++ trace) residual) :
    Meets invariant post history program := by
  induction program generalizing history with
  | done value => simpa [Settled] using settled [] _ (.refl _)
  | ask op resume ih =>
      refine ⟨by simpa [Settled] using settled [] _ (.refl _), fun reply => ih reply ?_⟩
      intro trace residual reached
      simpa using settled _ _ (.step reply reached)

/-- `op` was issued right after the events `before`: it was answered later in
the run, or the residual is waiting for it. -/
def Issued (trace : List (Event sig)) (residual : Program sig α)
    (before : List (Event sig)) (op : sig.Op) : Prop :=
  (∃ reply after, trace = before ++ ⟨op, reply⟩ :: after) ∨
    (trace = before ∧ residual.pending = some op)

/-- What an operation was issued after has been answered in the run. -/
theorem Issued.mem_history {trace before : List (Event sig)} {residual : Program sig α}
    {op : sig.Op} {event : Event sig} (issued : Issued trace residual before op)
    (member : event ∈ before) : event ∈ trace := by
  rcases issued with ⟨reply, after, rfl⟩ | ⟨rfl, waiting⟩
  · exact List.mem_append_left _ member
  · exact member

/-- A run can be cut at any answered operation. -/
theorem After.cut {program residual : Program sig α}
    {before after : List (Event sig)} {op : sig.Op} {reply : sig.Reply op}
    (reached : After program (before ++ ⟨op, reply⟩ :: after) residual) :
    ∃ resume, After program before (.ask op resume) := by
  induction before generalizing program with
  | nil =>
      cases reached with
      | step reply reached => exact ⟨_, .refl _⟩
  | cons event before ih =>
      cases reached with
      | step reply reached =>
          obtain ⟨resume, cut⟩ := ih reached
          exact ⟨resume, .step _ cut⟩

/-- Soundness for issued operations: each of them satisfied the invariant at the
history it was issued in. -/
theorem Meets.issued {program residual : Program sig α}
    {trace before : List (Event sig)} {op : sig.Op}
    (meets : Meets invariant post history program)
    (reached : After program trace residual)
    (issued : Issued trace residual before op) :
    invariant (history ++ before) op := by
  rcases issued with ⟨reply, after, traceEq⟩ | ⟨traceEq, waiting⟩
  · subst traceEq
    obtain ⟨resume, cut⟩ := reached.cut
    exact meets.after cut
  · subst traceEq
    have settled := meets.after reached
    cases residual with
    | done value => cases waiting
    | ask other resume =>
        cases waiting
        exact settled

end Program

/-! ## Operations of a larger signature -/

/-- One signature as a part of another: its operations with their answers. -/
structure Signature.Part (part whole : Signature) where
  op : part.Op → whole.Op
  give : {operation : part.Op} → part.Reply operation → whole.Reply (op operation)
  take : {operation : part.Op} → whole.Reply (op operation) → part.Reply operation
  give_take : ∀ {operation : part.Op} (reply : whole.Reply (op operation)),
    give (take reply) = reply

/-- The operations of two signatures side by side. -/
abbrev Signature.beside (left right : Signature) : Signature where
  Op := left.Op ⊕ right.Op
  Reply := Sum.elim left.Reply right.Reply

/-- The first of two signatures. -/
def Signature.Part.left {first second : Signature} : Signature.Part first (first.beside second) :=
  ⟨.inl, id, id, fun _ => rfl⟩

/-- The second of two signatures. -/
def Signature.Part.right {first second : Signature} : Signature.Part second (first.beside second) :=
  ⟨.inr, id, id, fun _ => rfl⟩

/-- An answered operation as one of a larger signature. -/
def Event.lift {part whole : Signature} (place : Signature.Part part whole) (event : Event part) :
    Event whole :=
  ⟨place.op event.op, place.give event.reply⟩

section

variable {part whole : Signature} {α β : Type u} (place : Signature.Part part whole)

/-- A program as one over a larger signature. -/
def Program.lift : Program part α → Program whole α
  | .done value => .done value
  | .ask op resume => .ask (place.op op) fun reply => (resume (place.take reply)).lift

variable {place}

/-- A run over the larger signature is a run of the program itself. -/
theorem Program.After.of_lift {program : Program part α} {trace : List (Event whole)}
    {residual : Program whole α} (reached : After (program.lift place) trace residual) :
    ∃ inner rest, trace = inner.map (Event.lift place) ∧ After program inner rest ∧
      residual = rest.lift place := by
  induction program generalizing trace with
  | done value =>
      cases reached
      exact ⟨[], .done value, rfl, .refl _, rfl⟩
  | ask op resume ih =>
      cases reached with
      | refl => exact ⟨[], .ask op resume, rfl, .refl _, rfl⟩
      | step reply reached =>
          obtain ⟨inner, rest, rfl, run, rfl⟩ := ih (place.take reply) reached
          refine ⟨⟨op, place.take reply⟩ :: inner, rest, ?_, .step _ run, rfl⟩
          simp [Event.lift, place.give_take]

/-- A run of a sequence either waits for an operation of its first program, or that one has
returned and the run goes on with what follows. -/
theorem Program.After.lift_bind_cases {program : Program part α} {next : α → Program whole β}
    {trace : List (Event whole)} {residual : Program whole β}
    (reached : After (program.lift place >>= next) trace residual) :
    (∃ (earlier : List (Event part)) (op : part.Op), trace = earlier.map (Event.lift place) ∧
      residual.pending = some (place.op op)) ∨
    ∃ (earlier : List (Event part)) (later : List (Event whole)) (value : α),
      trace = earlier.map (Event.lift place) ++ later ∧
      After program earlier (.done value) ∧ After (next value) later residual := by
  induction program generalizing trace with
  | done value => exact .inr ⟨[], trace, value, rfl, .refl _, reached⟩
  | ask op resume ih =>
      cases reached with
      | refl => exact .inl ⟨[], op, rfl, rfl⟩
      | step reply reached =>
          have lifted : Event.lift place ⟨op, place.take reply⟩ = ⟨place.op op, reply⟩ := by
            rw [Event.lift, place.give_take]
          rcases ih (place.take reply) reached with
            ⟨earlier, other, rfl, waiting⟩ | ⟨earlier, later, value, rfl, run, after⟩
          · exact .inl ⟨⟨op, place.take reply⟩ :: earlier, other, by rw [List.map_cons, lifted],
              waiting⟩
          · exact .inr ⟨⟨op, place.take reply⟩ :: earlier, later, value,
              by rw [List.map_cons, lifted, List.cons_append], .step _ run, after⟩

end

/-! ## Programs that may fail -/

/-- Interactive computations that may return early with an error. -/
abbrev Fallible (sig : Signature) (ε : Type) (α : Type) : Type :=
  ExceptT ε (Program sig) α

namespace Fallible

open Program

variable {sig : Signature} {ε α β : Type}
variable {invariant : List (Event sig) → sig.Op → Prop}
variable {history : List (Event sig)}

/-- Perform one operation inside a fallible computation. -/
def perform (op : sig.Op) : Fallible sig ε (sig.Reply op) :=
  ExceptT.lift (Program.perform op)

/-- Contract of a fallible computation with separate success and failure
postconditions. -/
def Meets (invariant : List (Event sig) → sig.Op → Prop)
    (success : List (Event sig) → α → Prop)
    (failure : List (Event sig) → ε → Prop)
    (history : List (Event sig)) (computation : Fallible sig ε α) : Prop :=
  Program.Meets invariant
    (fun later result =>
      match result with
      | .ok value => success later value
      | .error error => failure later error)
    history computation.run

variable {success : List (Event sig) → α → Prop}
variable {failure : List (Event sig) → ε → Prop}

@[simp] theorem meets_pure (value : α) :
    Meets invariant success failure history (pure value) ↔
      success history value := Iff.rfl

@[simp] theorem meets_throw (error : ε) :
    Meets invariant success failure history (throw error) ↔
      failure history error := Iff.rfl

/-- Sequencing rule: a failure of the first computation is a failure of the
whole, a success is continued. -/
theorem meets_bind (computation : Fallible sig ε α)
    (next : α → Fallible sig ε β) (success : List (Event sig) → β → Prop) :
    Meets invariant success failure history (computation >>= next) ↔
      Meets invariant
        (fun later value => Meets invariant success failure later (next value))
        failure history computation := by
  unfold Meets
  rw [ExceptT.run_bind, Program.meets_bind]
  apply Program.meets_congr
  intro later result
  cases result with
  | ok value => exact Iff.rfl
  | error error => exact Iff.rfl

/-- Introduction form of the sequencing rule. -/
theorem Meets.bind {computation : Fallible sig ε α} {next : α → Fallible sig ε β}
    {success : List (Event sig) → β → Prop}
    {middle : List (Event sig) → α → Prop}
    (first : Meets invariant middle failure history computation)
    (rest : ∀ later value, middle later value →
      Meets invariant success failure later (next value)) :
    Meets invariant success failure history (computation >>= next) := by
  rw [meets_bind]
  refine Program.Meets.mono first ?_
  intro later result settled
  cases result with
  | ok value => exact rest _ _ settled
  | error error => exact settled

/-- An operation followed by a continuation. -/
theorem Meets.perform_bind {op : sig.Op} {next : sig.Reply op → Fallible sig ε β}
    {success : List (Event sig) → β → Prop} (permitted : invariant history op)
    (continues : ∀ reply,
      Meets invariant success failure (history ++ [⟨op, reply⟩]) (next reply)) :
    Meets invariant success failure history (perform op >>= next) :=
  ⟨permitted, continues⟩

/-- Consequence rule for both postconditions. -/
theorem Meets.mono {computation : Fallible sig ε α}
    {success' : List (Event sig) → α → Prop}
    {failure' : List (Event sig) → ε → Prop}
    (meets : Meets invariant success' failure' history computation)
    (onSuccess : ∀ later value, success' later value → success later value)
    (onFailure : ∀ later error, failure' later error → failure later error) :
    Meets invariant success failure history computation := by
  refine Program.Meets.mono meets ?_
  intro later result settled
  cases result with
  | ok value => exact onSuccess _ _ settled
  | error error => exact onFailure _ _ settled

/-- Consequence rule for a whole contract. -/
theorem Meets.consequence {computation : Fallible sig ε α}
    {invariant' : List (Event sig) → sig.Op → Prop}
    {success' : List (Event sig) → α → Prop} {failure' : List (Event sig) → ε → Prop}
    (meets : Meets invariant' success' failure' history computation)
    (issues : ∀ later op, history <+: later → invariant' later op → invariant later op)
    (onSuccess : ∀ later value, history <+: later → success' later value →
      success later value)
    (onFailure : ∀ later error, history <+: later → failure' later error →
      failure later error) :
    Meets invariant success failure history computation := by
  refine Program.Meets.consequence meets issues ?_
  intro later result follows settled
  cases result with
  | ok value => exact onSuccess _ _ follows settled
  | error error => exact onFailure _ _ follows settled

/-- Two contracts of one computation hold together. -/
theorem Meets.and {computation : Fallible sig ε α}
    {invariant' : List (Event sig) → sig.Op → Prop}
    {success' : List (Event sig) → α → Prop} {failure' : List (Event sig) → ε → Prop}
    (left : Meets invariant success failure history computation)
    (right : Meets invariant' success' failure' history computation) :
    Meets (fun later op => invariant later op ∧ invariant' later op)
      (fun later value => success later value ∧ success' later value)
      (fun later error => failure later error ∧ failure' later error) history
      computation := by
  refine Program.Meets.mono (Program.Meets.and left right) ?_
  intro later result settled
  cases result with
  | ok value => exact settled
  | error error => exact settled

/-- A contract may assume that every later history continues the one it begins with. -/
theorem Meets.within {computation : Fallible sig ε α}
    (meets : Meets (fun later op => history <+: later → invariant later op)
      (fun later value => history <+: later → success later value)
      (fun later error => history <+: later → failure later error) history computation) :
    Meets invariant success failure history computation := by
  apply Program.Meets.within List.prefix_rfl
  refine Program.Meets.mono meets ?_
  intro later result settled
  cases result with
  | ok value => exact settled
  | error error => exact settled

/-! ## Reachable residuals -/

/-- An environment may give any answer to an operation. -/
theorem reaches_perform_bind {op : sig.Op} {next : sig.Reply op → Fallible sig ε β}
    {residual : Program sig (Except ε β)} (reply : sig.Reply op)
    (reached : Reaches (next reply).run residual) :
    Reaches (perform op >>= next).run residual := by
  obtain ⟨trace, reached⟩ := reached
  refine ⟨⟨op, reply⟩ :: trace, ?_⟩
  change After (.ask op fun reply => (next reply).run) (⟨op, reply⟩ :: trace) residual
  exact .step reply reached

/-- A computation that can return a value can continue with it. -/
theorem reaches_bind {computation : Fallible sig ε α} {next : α → Fallible sig ε β}
    {value : α} {residual : Program sig (Except ε β)}
    (returned : Reaches computation.run (.done (.ok value)))
    (reached : Reaches (next value).run residual) :
    Reaches (computation >>= next).run residual := by
  obtain ⟨trace, returned⟩ := returned
  obtain ⟨later, reached⟩ := reached
  refine ⟨trace ++ later, ?_⟩
  rw [ExceptT.run_bind]
  exact returned.bind reached

/-- A run begins with the answer to the first operation. -/
theorem after_perform_bind {op : sig.Op} {next : sig.Reply op → Fallible sig ε β}
    {trace : List (Event sig)} {result : Except ε β}
    (returned : After (perform op >>= next).run trace (.done result)) :
    ∃ reply later, trace = ⟨op, reply⟩ :: later ∧ After (next reply).run later (.done result) := by
  change After (.ask op fun reply => (next reply).run) trace (.done result) at returned
  cases returned with
  | step reply returned => exact ⟨reply, _, rfl, returned⟩

/-! ## Errors as values -/

variable {ε' : Type}

/-- Continue with the result of a computation, failed or not. -/
def attempt (computation : Fallible sig ε α) : Fallible sig ε' (Except ε α) :=
  ExceptT.lift computation.run

/-- `Result::map_err`. -/
def mapError (convert : ε → ε') (computation : Fallible sig ε α) : Fallible sig ε' α :=
  ExceptT.mk (do
    match ← computation.run with
    | .ok value => pure (.ok value)
    | .error error => pure (.error (convert error)))

/-- A computation without operations. -/
def ofExcept (result : Except ε α) : Fallible sig ε α := ExceptT.mk (pure result)

theorem meets_attempt {success : List (Event sig) → Except ε α → Prop}
    {failure : List (Event sig) → ε' → Prop} (computation : Fallible sig ε α) :
    Meets invariant success failure history (attempt computation) ↔
      Meets invariant (fun later value => success later (.ok value))
        (fun later error => success later (.error error)) history computation := by
  unfold Meets attempt
  rw [ExceptT.run_lift]
  change Program.Meets _ _ _ (computation.run >>= pure ∘ Except.ok) ↔ _
  rw [Program.meets_bind]
  apply Program.meets_congr
  intro later result
  cases result with
  | ok value => exact Iff.rfl
  | error error => exact Iff.rfl

theorem meets_mapError {success : List (Event sig) → α → Prop}
    {failure : List (Event sig) → ε' → Prop} (convert : ε → ε')
    (computation : Fallible sig ε α) :
    Meets invariant success failure history (mapError convert computation) ↔
      Meets invariant success (fun later error => failure later (convert error)) history
        computation := by
  unfold Meets mapError
  rw [ExceptT.run_mk, Program.meets_bind]
  apply Program.meets_congr
  intro later result
  cases result with
  | ok value => exact Iff.rfl
  | error error => exact Iff.rfl

theorem meets_ofExcept {success : List (Event sig) → α → Prop}
    {failure : List (Event sig) → ε → Prop} (result : Except ε α)
    (onSuccess : ∀ value, result = .ok value → success history value)
    (onFailure : ∀ error, result = .error error → failure history error) :
    Meets invariant success failure history (ofExcept result) := by
  cases result with
  | ok value => exact onSuccess value rfl
  | error error => exact onFailure error rfl

/-- Sequencing after a computation without operations. -/
theorem Meets.ofExcept_bind {result : Except ε α} {next : α → Fallible sig ε β}
    {success : List (Event sig) → β → Prop} {failure : List (Event sig) → ε → Prop}
    (onFailure : ∀ error, result = .error error → failure history error)
    (onSuccess : ∀ value, result = .ok value →
      Meets invariant success failure history (next value)) :
    Meets invariant success failure history (ofExcept result >>= next) := by
  rw [meets_bind]
  exact meets_ofExcept result onSuccess onFailure

end Fallible

end PrinterSdk.Interaction
