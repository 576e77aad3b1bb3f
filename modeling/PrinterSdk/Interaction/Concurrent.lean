import Mathlib.Data.List.Induction
import Mathlib.Logic.Relation
import PrinterSdk.Interaction.Program

/-!
# Programs that run concurrently over shared state

Any number of programs is started at any time; each is a task with the answers it has
received so far and the program it has left.  A step of the world starts a task, lets
the shared state change by itself, or answers the operation one task is waiting for,
which may read and change the shared state.  Every interleaving is a sequence of such
steps.
-/

namespace PrinterSdk.Interaction

/-- How operations are answered over a shared state, and how it changes otherwise. -/
structure Environment (sig : Signature) (σ : Type) where
  answers : σ → (op : sig.Op) → sig.Reply op → σ → Prop
  evolves : σ → σ → Prop

/-- The ways in which the shared state changes. -/
def Environment.Changes {sig : Signature} {σ : Type} (environment : Environment sig σ)
    (shared next : σ) : Prop :=
  environment.evolves shared next ∨ ∃ op reply, environment.answers shared op reply next

/-- A started program: what it was started for, the answers it has received, and what
is left of it. -/
structure Task (sig : Signature) (ι α : Type) where
  label : ι
  history : List (Event sig)
  residual : Program sig α

/-- The shared state and all tasks. -/
structure World (sig : Signature) (σ ι α : Type) where
  shared : σ
  tasks : List (Task sig ι α)

section

variable {sig : Signature} {σ ι α : Type}

/-- The operations a task has issued: those that were answered and the one it waits
for. -/
def Task.issued (task : Task sig ι α) : List sig.Op :=
  task.history.map Event.op ++ task.residual.pending.toList

/-- All answers that were given. -/
def World.events (world : World sig σ ι α) : List (Event sig) :=
  world.tasks.flatMap Task.history

/-- One step of the world. -/
inductive Step (environment : Environment sig σ) (start : ι → Program sig α) :
    World sig σ ι α → World sig σ ι α → Prop where
  | submit (shared : σ) (tasks : List (Task sig ι α)) (label : ι) :
      Step environment start ⟨shared, tasks⟩ ⟨shared, tasks ++ [⟨label, [], start label⟩]⟩
  | evolve {shared next : σ} (tasks : List (Task sig ι α))
      (evolves : environment.evolves shared next) :
      Step environment start ⟨shared, tasks⟩ ⟨next, tasks⟩
  | answer {shared next : σ} (before after : List (Task sig ι α)) (label : ι)
      (history : List (Event sig)) (op : sig.Op) (resume : sig.Reply op → Program sig α)
      (reply : sig.Reply op) (answers : environment.answers shared op reply next) :
      Step environment start ⟨shared, before ++ ⟨label, history, .ask op resume⟩ :: after⟩
        ⟨next, before ++ ⟨label, history ++ [⟨op, reply⟩], resume reply⟩ :: after⟩

/-- A world reached from no tasks at all by any interleaving. -/
def Reachable (environment : Environment sig σ) (start : ι → Program sig α) (initial : σ)
    (world : World sig σ ι α) : Prop :=
  Relation.ReflTransGen (Step environment start) ⟨initial, []⟩ world

variable {environment : Environment sig σ} {start : ι → Program sig α} {initial : σ}
variable {world : World sig σ ι α}

/-- The run lemma: what holds at the start and is kept by every step holds of every
reachable world. -/
theorem Reachable.invariant (kept : World sig σ ι α → Prop)
    (reachable : Reachable environment start initial world) (begins : kept ⟨initial, []⟩)
    (steps : ∀ earlier later, Step environment start earlier later → kept earlier → kept later) :
    kept world := by
  induction reachable with
  | refl => exact begins
  | tail _ step holds => exact steps _ _ step holds

/-- What holds when a task is started and is kept by every answer holds of every task. -/
theorem Reachable.everyTask (kept : Task sig ι α → Prop)
    (reachable : Reachable environment start initial world)
    (starts : ∀ label, kept ⟨label, [], start label⟩)
    (answered : ∀ label history op resume reply, kept ⟨label, history, .ask op resume⟩ →
      kept ⟨label, history ++ [⟨op, reply⟩], resume reply⟩) :
    ∀ task ∈ world.tasks, kept task := by
  apply reachable.invariant fun world => ∀ task ∈ world.tasks, kept task
  · simp
  · intro earlier later step holds
    cases step with
    | submit shared tasks label =>
        intro task member
        cases List.mem_append.mp member with
        | inl old => exact holds task old
        | inr new =>
            cases List.mem_singleton.mp new
            exact starts label
    | evolve tasks evolves => exact holds
    | answer before after label history op resume reply answers =>
        intro task member
        simp only [List.mem_append, List.mem_cons] at member holds
        rcases member with first | rfl | last
        · exact holds task (.inl first)
        · exact answered label history op resume reply (holds _ (.inr (.inl rfl)))
        · exact holds task (.inr (.inr last))

/-- Every task is a run of the program it was started with. -/
theorem Reachable.after (reachable : Reachable environment start initial world) :
    ∀ task ∈ world.tasks, Program.After (start task.label) task.history task.residual := by
  apply reachable.everyTask
    fun task => Program.After (start task.label) task.history task.residual
  · intro label
    exact .refl _
  · intro label history op resume reply reached
    exact reached.answer reply

/-- A task may be run for as long as a concrete environment answers it, when `view` shows
each of these answers to be one of the shared state. -/
theorem Reachable.advance {τ : Type} (view : τ → σ)
    (answer : τ → (op : sig.Op) → Option (sig.Reply op × τ))
    (sound : ∀ state op replied, answer state op = some replied →
      environment.answers (view state) op replied.1 (view replied.2))
    (before after : List (Task sig ι α)) (label : ι) (state : τ) (history : List (Event sig))
    (program : Program sig α) (ran : List (Event sig) × Program sig α × τ)
    (reachable : Reachable environment start initial
      ⟨view state, before ++ ⟨label, history, program⟩ :: after⟩)
    (runs : program.advance answer state = ran) :
    Reachable environment start initial
      ⟨view ran.2.2, before ++ ⟨label, history ++ ran.1, ran.2.1⟩ :: after⟩ := by
  subst runs
  induction program generalizing state history with
  | done value => simpa [Program.advance] using reachable
  | ask op resume ih =>
      cases answered : answer state op with
      | none => simpa [Program.advance, answered] using reachable
      | some replied =>
          have next := reachable.tail (.answer before after label history op resume replied.1
            (sound state op replied answered))
          have rest := ih replied.1 replied.2 _ next
          simpa [Program.advance, answered] using rest

/-- The answers given before and after a task's own. -/
theorem events_split (shared : σ) (before after : List (Task sig ι α)) (task : Task sig ι α) :
    World.events ⟨shared, before ++ task :: after⟩ =
      before.flatMap Task.history ++ (task.history ++ after.flatMap Task.history) := by
  simp [World.events]

/-- A fact that every answer establishes about the shared state, and that no change
undoes, holds of all answers that were given. -/
theorem Reachable.known (known : σ → Event sig → Prop)
    (reachable : Reachable environment start initial world)
    (answered : ∀ shared op reply next, environment.answers shared op reply next →
      known next ⟨op, reply⟩)
    (stable : ∀ shared next event, environment.Changes shared next → known shared event →
      known next event) :
    ∀ event ∈ world.events, known world.shared event := by
  apply reachable.invariant fun world => ∀ event ∈ world.events, known world.shared event
  · simp [World.events]
  · intro earlier later step holds
    cases step with
    | submit shared tasks label =>
        intro event member
        exact holds event (by simpa [World.events] using member)
    | evolve tasks evolves =>
        intro event member
        exact stable _ _ event (.inl evolves) (holds event member)
    | @answer shared next before after label history op resume reply answers =>
        intro event member
        have changes : environment.Changes shared next := .inr ⟨op, reply, answers⟩
        rw [events_split] at member holds
        simp only [List.mem_append, List.mem_singleton] at member holds
        rcases member with first | (old | rfl) | last
        · exact stable _ _ event changes (holds event (.inl first))
        · exact stable _ _ event changes (holds event (.inr (.inl old)))
        · exact answered _ _ _ _ answers
        · exact stable _ _ event changes (holds event (.inr (.inr last)))

/-- An answer that is given only while something is free, and takes it for good, is
given at most once over all tasks. -/
theorem Reachable.claimed_once (claims : Event sig → Bool) (taken : σ → Prop)
    (reachable : Reachable environment start initial world)
    (claimed : ∀ shared op reply next, environment.answers shared op reply next →
      claims ⟨op, reply⟩ = true → ¬taken shared ∧ taken next)
    (stable : ∀ shared next, environment.Changes shared next → taken shared → taken next) :
    world.events.countP claims ≤ 1 := by
  have counted : world.events.countP claims ≤ 1 ∧
      (0 < world.events.countP claims → taken world.shared) := by
    apply reachable.invariant fun world => world.events.countP claims ≤ 1 ∧
      (0 < world.events.countP claims → taken world.shared)
    · simp [World.events]
    · intro earlier later step holds
      cases step with
      | submit shared tasks label => simpa [World.events] using holds
      | evolve tasks evolves =>
          exact ⟨holds.1, fun positive => stable _ _ (.inl evolves) (holds.2 positive)⟩
      | @answer shared next before after label history op resume reply answers =>
          have changes : environment.Changes shared next := .inr ⟨op, reply, answers⟩
          rw [events_split] at holds ⊢
          simp only [List.countP_append, List.countP_singleton] at holds ⊢
          cases claim : claims ⟨op, reply⟩ with
          | false =>
              simp only [Bool.false_eq_true, if_false, Nat.add_zero]
              exact ⟨holds.1, fun positive => stable _ _ changes (holds.2 positive)⟩
          | true =>
              -- nothing was claimed before, since the claim found the place free
              have free := claimed _ _ _ _ answers claim
              have none := Nat.eq_zero_of_not_pos fun positive => free.1 (holds.2 positive)
              simp only [if_true]
              exact ⟨by omega, fun _ => free.2⟩
  exact counted.1

/-- What is taken at the start is never claimed. -/
theorem Reachable.unclaimed (claims : Event sig → Bool) (taken : σ → Prop)
    (reachable : Reachable environment start initial world)
    (claimed : ∀ shared op reply next, environment.answers shared op reply next →
      claims ⟨op, reply⟩ = true → ¬taken shared)
    (stable : ∀ shared next, environment.Changes shared next → taken shared → taken next)
    (already : taken initial) {event : Event sig} (member : event ∈ world.events) :
    claims event = false := by
  have never : taken world.shared ∧ ∀ event ∈ world.events, claims event = false := by
    apply reachable.invariant fun world => taken world.shared ∧
      ∀ event ∈ world.events, claims event = false
    · exact ⟨already, by simp [World.events]⟩
    · intro earlier later step holds
      cases step with
      | submit shared tasks label => simpa [World.events] using holds
      | evolve tasks evolves => exact ⟨stable _ _ (.inl evolves) holds.1, holds.2⟩
      | @answer shared next before after label history op resume reply answers =>
          refine ⟨stable _ _ (.inr ⟨op, reply, answers⟩) holds.1, ?_⟩
          have old := holds.2
          rw [events_split] at old ⊢
          intro event member
          simp only [List.mem_append, List.mem_singleton] at member old
          rcases member with first | (own | rfl) | last
          · exact old event (.inl first)
          · exact old event (.inr (.inl own))
          · exact Bool.eq_false_iff.mpr fun claim =>
              claimed _ _ _ _ answers claim holds.1
          · exact old event (.inr (.inr last))
  exact never.2 event member

/-! ## Counting issued operations -/

/-- An issued operation was issued after some history. -/
theorem Task.issued_of_mem {task : Task sig ι α} {op : sig.Op} (member : op ∈ task.issued) :
    ∃ before, Program.Issued task.history task.residual before op := by
  rcases List.mem_append.mp member with answered | waiting
  · obtain ⟨event, present, rfl⟩ := List.mem_map.mp answered
    obtain ⟨before, after, split⟩ := List.append_of_mem present
    exact ⟨before, .inl ⟨event.reply, after, split⟩⟩
  · exact ⟨task.history, .inr ⟨rfl, Option.mem_toList.mp waiting⟩⟩

variable {kind : sig.Op → Bool} {claims : Event sig → Bool}

/-- Operations that are only answered before any other of their kind, and after a
claim, are not more than the claims. -/
theorem countP_le_claims {history : List (Event sig)}
    (first : ∀ before event after, history = before ++ event :: after → kind event.op = true →
      (before.countP fun event => kind event.op) = 0 ∧ 0 < before.countP claims) :
    (history.countP fun event => kind event.op) ≤ history.countP claims := by
  induction history using List.reverseRecOn with
  | nil => simp
  | append_singleton history event ih =>
      have earlier := ih fun before other after split =>
        first before other (after ++ [event]) (by simp [split])
      rw [List.countP_append, List.countP_append, List.countP_singleton]
      cases isKind : kind event.op with
      | false =>
          simp only [Bool.false_eq_true, if_false]
          omega
      | true =>
          obtain ⟨none, some⟩ := first history event [] rfl isKind
          simp only [if_true]
          omega

/-- The same of all operations that a task has issued. -/
theorem Task.countP_issued_le (task : Task sig ι α)
    (first : ∀ before op, Program.Issued task.history task.residual before op → kind op = true →
      (before.countP fun event => kind event.op) = 0 ∧ 0 < before.countP claims) :
    task.issued.countP kind ≤ task.history.countP claims := by
  have answered : (task.history.countP fun event => kind event.op) ≤
      task.history.countP claims := by
    apply countP_le_claims
    intro before event after split isKind
    exact first before event.op (.inl ⟨event.reply, after, split⟩) isKind
  rw [Task.issued, List.countP_append, List.countP_map]
  change (task.history.countP fun event => kind event.op) + _ ≤ _
  cases waiting : task.residual.pending with
  | none => simpa using answered
  | some op =>
      rw [Option.toList_some, List.countP_singleton]
      cases isKind : kind op with
      | false => simpa using answered
      | true =>
          obtain ⟨none, some⟩ := first task.history op (.inr ⟨rfl, waiting⟩) isKind
          simp only [if_true]
          omega

/-- The tasks of one kind together issue no more operations than there are claims, if
each of them does. -/
theorem World.countP_issued_le (world : World sig σ ι α) (mine : Task sig ι α → Bool)
    (each : ∀ task ∈ world.tasks, mine task = true →
      task.issued.countP kind ≤ task.history.countP claims) :
    ((world.tasks.filter mine).flatMap Task.issued).countP kind ≤ world.events.countP claims := by
  obtain ⟨shared, tasks⟩ := world
  simp only [World.events] at *
  induction tasks with
  | nil => simp
  | cons task tasks ih =>
      have rest := ih fun other member => each other (List.mem_cons_of_mem _ member)
      rw [List.flatMap_cons, List.countP_append, List.filter_cons]
      cases isMine : mine task with
      | false =>
          simp only [Bool.false_eq_true, if_false]
          omega
      | true =>
          have own := each task List.mem_cons_self isMine
          simp only [if_true, List.flatMap_cons, List.countP_append]
          omega

/-- Tasks that have each made a claim are not more than the claims. -/
theorem World.countP_tasks_le (world : World sig σ ι α) (mine : Task sig ι α → Bool)
    (each : ∀ task ∈ world.tasks, mine task = true → 0 < task.history.countP claims) :
    world.tasks.countP mine ≤ world.events.countP claims := by
  obtain ⟨shared, tasks⟩ := world
  simp only [World.events] at *
  induction tasks with
  | nil => simp
  | cons task tasks ih =>
      have rest := ih fun other member => each other (List.mem_cons_of_mem _ member)
      rw [List.countP_cons, List.flatMap_cons, List.countP_append]
      cases isMine : mine task with
      | false =>
          simp only [Bool.false_eq_true, if_false]
          omega
      | true =>
          have own := each task List.mem_cons_self isMine
          simp only [if_true]
          omega

end

end PrinterSdk.Interaction
