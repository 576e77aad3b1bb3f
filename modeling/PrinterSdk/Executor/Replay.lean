import Mathlib.Data.Set.Insert
import PrinterSdk.Data.Digest
import PrinterSdk.Executor.WriteStream
import PrinterSdk.Interaction.Concurrent

/-!
# Claiming an execution key before a plan

A plan is executed under a key that a store hands out once.  The calls of the store
and those of the transport are operations of one program, so that any number of
executions may share a store that outlives them.  Whatever the transports answer and
wherever an execution stops, what printers receive under a key is the beginning of one
plan.
-/

namespace PrinterSdk.Executor

open PrinterSdk.Data PrinterSdk.Interaction PrinterSdk.Protocol

/-- The trait `ReplayStore`: how a key is claimed, by operations of the store's own. -/
structure ReplayStore where
  operations : Signature
  claim : String → Program operations (Except String Bool)

/-- Claims an execution key in `store` before executing the plan. -/
def executeOnceWithStore (store : ReplayStore) (key : String) (plan : Plan) :
    Program (store.operations.beside effects) (Except ExecuteError Progress) := do
  match ← (store.claim key).lift .left with
  | .error source => return .error (.replayStore source)
  | .ok true => (execute .preserve plan).run.lift .right
  | .ok false => return .error (.replay key)

/-! ## The stores -/

/-- `std::io::Error`: whether its kind is `AlreadyExists`, and its text. -/
structure IoError where
  alreadyExists : Bool
  text : String

/-- A file as `Path::join` names it. -/
structure FilePath where
  directory : String
  name : String
  deriving DecidableEq

/-- The calls of the file system: `open` with `create_new`, `write_all` and `sync_all`. -/
inductive FileOperation where
  | createNew (path : FilePath)
  | writeAll (bytes : Bytes)
  | syncAll

/-- The file system as a signature. -/
abbrev files : Signature where
  Op := FileOperation
  Reply _ := Except IoError Unit

/-- The file that stands for a key. -/
def claimPath (sha256 : Sha256) (directory key : String) : FilePath :=
  ⟨directory, hexBytes (sha256 (asBytes key)).1⟩

/-- A claim of `FileReplayStore`. -/
def FileReplayStore.claim (sha256 : Sha256) (directory key : String) :
    Program files (Except String Bool) := do
  match ← @Program.perform files (.createNew (claimPath sha256 directory key)) with
  | .ok () =>
      match ← @Program.perform files (.writeAll (asBytes key)) with
      | .error error => return .error error.text
      | .ok () =>
          match ← @Program.perform files .syncAll with
          | .error error => return .error error.text
          | .ok () => return .ok true
  | .error error =>
      if error.alreadyExists then return .ok false
      else return .error error.text

/-- Durable, cross-process replay claims: a new file for each key. -/
def FileReplayStore (sha256 : Sha256) (directory : String) : ReplayStore where
  operations := files
  claim := FileReplayStore.claim sha256 directory

/-- `BTreeSet::insert` on the keys in memory. -/
inductive MemoryOperation where
  | insert (key : String)

/-- The set in memory as a signature. -/
abbrev attempts : Signature where
  Op := MemoryOperation
  Reply _ := Bool

/-- A claim of `MemoryReplayStore`. -/
def MemoryReplayStore.claim (key : String) : Program attempts (Except String Bool) := do
  return .ok (← @Program.perform attempts (.insert key))

/-- Process-local replay store backed by a set. -/
def MemoryReplayStore : ReplayStore where
  operations := attempts
  claim := MemoryReplayStore.claim

/-- `ReplayGuard::execute_once`: claims the key in the guard's own set. -/
def ReplayGuard.executeOnce (key : String) (plan : Plan) :
    Program (attempts.beside effects) (Except ExecuteError Progress) := do
  if !(← (@Program.perform attempts (.insert key)).lift .left) then
    return .error (.replay key)
  (execute .preserve plan).run.lift .right

/-- A guard is an execution over the store in memory. -/
theorem ReplayGuard.executeOnce_eq (key : String) (plan : Plan) :
    ReplayGuard.executeOnce key plan = executeOnceWithStore MemoryReplayStore key plan := by
  have both (fresh : Bool) : (if !fresh then
      (return .error (.replay key) : Program (attempts.beside effects) (Except ExecuteError Progress))
    else (execute .preserve plan).run.lift .right) =
      match (.ok fresh : Except String Bool) with
      | .error source => return .error (.replayStore source)
      | .ok true => (execute .preserve plan).run.lift .right
      | .ok false => return .error (.replay key) := by
    cases fresh <;> rfl
  exact congrArg (Program.ask _) (funext fun fresh => both fresh)

/-! ## Stores that hand out a key once -/

/-- What makes the claims of a store exclusive.  Every key has a slot; a claim succeeds
only after an answer that takes the slot, and a slot is never freed. -/
structure Exclusive (store : ReplayStore) (σ ι : Type) where
  environment : Environment store.operations σ
  slot : String → ι
  taken : σ → ι → Prop
  takes : ι → Event store.operations → Bool
  once : ∀ shared op reply next place, environment.answers shared op reply next →
    takes place ⟨op, reply⟩ = true → ¬taken shared place ∧ taken next place
  kept : ∀ shared next place, environment.Changes shared next → taken shared place →
    taken next place
  earned : ∀ key trace, Program.After (store.claim key) trace (.done (.ok true)) →
    0 < trace.countP (takes (slot key))

/-- A plan under its key, small enough to be in memory. -/
structure Submission where
  key : String
  plan : Plan
  resident : plan.Resident

/-- The execution of a submission. -/
def Submission.program (store : ReplayStore) (submission : Submission) :
    Program (store.operations.beside effects) (Except ExecuteError Progress) :=
  executeOnceWithStore store submission.key submission.plan

/-- Executions over a shared store, each with a transport of its own that answers
anything. -/
def beside {store : Signature} {σ : Type} (environment : Environment store σ) :
    Environment (store.beside effects) σ where
  answers
    | shared, .inl op, reply, next => environment.answers shared op reply next
    | shared, .inr _, _, next => next = shared
  evolves := environment.evolves

/-- One execution of a submission over a store. -/
abbrev Execution (store : ReplayStore) : Type :=
  Task (store.operations.beside effects) Submission (Except ExecuteError Progress)

/-- All executions over a store. -/
abbrev Executions (store : ReplayStore) (σ : Type) : Type :=
  World (store.operations.beside effects) σ Submission (Except ExecuteError Progress)

section

variable {store : ReplayStore} {σ ι : Type}

/-- Whether an operation is one of the transport. -/
def atTransport : (store.operations.beside effects).Op → Bool
  | .inl _ => false
  | .inr _ => true

/-- Whether an execution has asked anything of its transport. -/
def touched (task : Execution store) : Bool :=
  task.issued.any atTransport

/-- The bytes that an operation hands to a transport. -/
def sentBy : (store.operations.beside effects).Op → Bytes
  | .inl _ => []
  | .inr effect => (handedBy effect).flatten

/-- All bytes that an execution has handed to its transport. -/
def sent (task : Execution store) : Bytes :=
  task.issued.flatMap sentBy

/-- An execution that has asked only its store has not touched its transport. -/
theorem untouched_of_claiming {submission : Submission} (earlier : List (Event store.operations))
    {residual : Program (store.operations.beside effects) (Except ExecuteError Progress)}
    (waits : residual.pending.toList.any atTransport = false) :
    touched ⟨submission, earlier.map (Event.lift .left), residual⟩ = false := by
  rw [touched, Task.issued, List.any_append, waits, Bool.or_false, List.map_map, List.any_map,
    List.any_eq_false]
  intro event _
  exact Bool.false_ne_true

/-- A run either is still at the claim, or has claimed the key and is a run of the
plan. -/
theorem executeOnceWithStore_cases {submission : Submission}
    {history : List (Event (store.operations.beside effects))}
    {residual : Program (store.operations.beside effects) (Except ExecuteError Progress)}
    (reached : Program.After (submission.program store) history residual) :
    (touched ⟨submission, history, residual⟩ = false ∧
      ∀ progress, residual ≠ .done (.ok progress)) ∨
    ∃ earlier inner rest, Program.After (store.claim submission.key) earlier (.done (.ok true)) ∧
      Program.After (execute .preserve submission.plan).run inner rest ∧
      history = earlier.map (Event.lift .left) ++ inner.map (Event.lift .right) ∧
      residual = rest.lift .right := by
  rcases reached.lift_bind_cases with
    ⟨earlier, op, rfl, waiting⟩ | ⟨earlier, later, claim, rfl, won, continued⟩
  · refine .inl ⟨untouched_of_claiming earlier (by rw [waiting]; rfl), ?_⟩
    rintro progress rfl
    cases waiting
  · rcases claim with source | (_ | _)
    · obtain ⟨rfl, rfl⟩ := Program.After.of_done continued
      rw [List.append_nil]
      exact .inl ⟨untouched_of_claiming earlier rfl, by rintro progress ⟨⟩⟩
    · obtain ⟨rfl, rfl⟩ := Program.After.of_done continued
      rw [List.append_nil]
      exact .inl ⟨untouched_of_claiming earlier rfl, by rintro progress ⟨⟩⟩
    · obtain ⟨inner, rest, rfl, run, rfl⟩ := continued.of_lift
      exact .inr ⟨earlier, inner, rest, won, run, rfl, rfl⟩

/-- An execution that has not touched its transport has sent nothing. -/
theorem sent_of_untouched {task : Execution store} (untouched : touched task = false) :
    sent task = [] := by
  simp only [touched, List.any_eq_false] at untouched
  rw [sent, List.flatMap_eq_nil_iff]
  intro op member
  cases op with
  | inl op => rfl
  | inr effect => exact absurd rfl (untouched _ member)

/-- What an execution sends is what the run of its plan submits. -/
theorem sent_of_run (submission : Submission) (earlier : List (Event store.operations))
    (inner : List (Event effects)) (rest : Program effects (Except ExecuteError Progress)) :
    sent (⟨submission, earlier.map (Event.lift .left) ++ inner.map (Event.lift .right),
      rest.lift .right⟩ : Execution store) = submitted inner rest := by
  have claiming : (earlier.map (Event.lift .left)).flatMap
      (fun event : Event (store.operations.beside effects) => sentBy event.op) = [] := by
    simp [List.flatMap_map, Event.lift, Signature.Part.left, sentBy]
  have running : (inner.map (Event.lift .right)).flatMap
      (fun event : Event (store.operations.beside effects) => sentBy event.op) =
        handedBytes inner := by
    induction inner with
    | nil => rfl
    | cons event inner ih =>
        rw [List.map_cons, List.flatMap_cons, ih]
        simp [handedBytes, Event.lift, Signature.Part.right, sentBy]
  rw [sent, Task.issued, List.flatMap_append, List.flatMap_map, List.flatMap_append, claiming,
    running]
  cases rest with
  | done value => rfl
  | ask op resume => exact congrArg (handedBytes inner ++ ·) (List.flatMap_singleton _ _)

/-! ## One execution for each key -/

/-- The only active element of a list gives all that the list gives. -/
theorem flatMap_eq_of_mem {α β : Type} {gives : α → List β} {active : α → Bool}
    {elements : List α} (others : ∀ element ∈ elements, active element = false → gives element = [])
    (single : elements.countP active ≤ 1) {element : α} (member : element ∈ elements)
    (isActive : active element = true) : elements.flatMap gives = gives element := by
  obtain ⟨before, after, rfl⟩ := List.append_of_mem member
  rw [List.countP_append, List.countP_cons, isActive] at single
  have silent : ∀ other, other ∈ before ∨ other ∈ after → gives other = [] := by
    intro other inside
    apply others other (by simp only [List.mem_append, List.mem_cons]; tauto)
    apply Bool.eq_false_of_not_eq_true
    intro also
    have positive : 0 < before.countP active + after.countP active := by
      rcases inside with first | last
      · exact Nat.add_pos_left (List.countP_pos_iff.mpr ⟨other, first, also⟩) _
      · exact Nat.add_pos_right _ (List.countP_pos_iff.mpr ⟨other, last, also⟩)
    simp only [if_true] at single
    omega
  have first := List.flatMap_eq_nil_iff.mpr fun other inside => silent other (.inl inside)
  have last := List.flatMap_eq_nil_iff.mpr fun other inside => silent other (.inr inside)
  rw [List.flatMap_append, List.flatMap_cons, first, last, List.append_nil, List.nil_append]

/-- A list of which one element at most is active gives what this element gives. -/
theorem flatMap_of_countP_le_one {α β : Type} {gives : α → List β} {active : α → Bool}
    {elements : List α} (others : ∀ element ∈ elements, active element = false → gives element = [])
    (single : elements.countP active ≤ 1) :
    elements.flatMap gives = [] ∨
      ∃ element ∈ elements, active element = true ∧ elements.flatMap gives = gives element := by
  by_cases found : ∃ element ∈ elements, active element = true
  · obtain ⟨element, member, isActive⟩ := found
    exact .inr ⟨element, member, isActive, flatMap_eq_of_mem others single member isActive⟩
  · refine .inl (List.flatMap_eq_nil_iff.mpr fun element member => others element member ?_)
    exact Bool.eq_false_of_not_eq_true fun isActive => found ⟨element, member, isActive⟩

variable (exclusive : Exclusive store σ ι)

/-- The answers that take a slot. -/
def claiming (place : ι) : Event (store.operations.beside effects) → Bool
  | ⟨.inl op, reply⟩ => exclusive.takes place ⟨op, reply⟩
  | ⟨.inr _, _⟩ => false

variable {exclusive} {initial : σ} {world : Executions store σ}

/-- An execution that touches its transport has taken the slot of its key. -/
theorem claims_of_touched
    (reachable : Reachable (beside exclusive.environment) (Submission.program store) initial world)
    {task : Execution store} (member : task ∈ world.tasks) (isTouched : touched task = true) :
    0 < task.history.countP (claiming exclusive (exclusive.slot task.label.key)) := by
  obtain ⟨submission, history, residual⟩ := task
  rcases executeOnceWithStore_cases (reachable.after _ member) with
    ⟨untouched, -⟩ | ⟨earlier, inner, rest, won, -, rfl, -⟩
  · rw [untouched] at isTouched
    cases isTouched
  · have earned := exclusive.earned _ _ won
    rw [List.countP_append, List.countP_map]
    exact Nat.lt_of_lt_of_le earned (Nat.le_add_right _ _)

/-- A taken slot stays taken, whatever the executions do. -/
theorem taken_of_changes {shared next : σ} {place : ι} (taken : exclusive.taken shared place)
    (changes : (@beside store.operations σ exclusive.environment).Changes shared next) :
    exclusive.taken next place := by
  rcases changes with evolves | ⟨op | effect, reply, answers⟩
  · exact exclusive.kept _ _ _ (.inl evolves) taken
  · exact exclusive.kept _ _ _ (.inr ⟨op, reply, answers⟩) taken
  · cases answers
    exact taken

/-- An answer that takes a slot found it free. -/
theorem claimed_of_answer {shared next : σ} {op : (store.operations.beside effects).Op}
    {reply : (store.operations.beside effects).Reply op} {place : ι}
    (answers : (beside exclusive.environment).answers shared op reply next)
    (claim : claiming exclusive place ⟨op, reply⟩ = true) :
    ¬exclusive.taken shared place ∧ exclusive.taken next place := by
  rcases op with op | effect
  · exact exclusive.once shared op reply next place answers claim
  · cases claim

/-- A slot is taken once, over all executions. -/
theorem claimed_once
    (reachable : Reachable (beside exclusive.environment) (Submission.program store) initial world)
    (place : ι) : world.events.countP (claiming exclusive place) ≤ 1 := by
  apply reachable.claimed_once (claiming exclusive place) fun shared => exclusive.taken shared place
  · exact fun shared op reply next answers claim => claimed_of_answer answers claim
  · exact fun shared next changes taken => taken_of_changes taken changes

/-- An execution that touches its transport found the slot of its key free, and it is
taken from then on. -/
theorem Exclusive.taken_of_touched (exclusive : Exclusive store σ ι)
    (reachable : Reachable (beside exclusive.environment) (Submission.program store) initial world)
    {task : Execution store} (member : task ∈ world.tasks) (isTouched : touched task = true) :
    ¬exclusive.taken initial (exclusive.slot task.label.key) ∧
      exclusive.taken world.shared (exclusive.slot task.label.key) := by
  obtain ⟨event, present, claims⟩ :=
    List.countP_pos_iff.mp (claims_of_touched reachable member isTouched)
  have among : event ∈ world.events := List.mem_flatMap.mpr ⟨task, member, present⟩
  constructor
  · intro already
    -- a slot that was taken at the start is never taken again
    rw [reachable.unclaimed _ (exclusive.taken · (exclusive.slot task.label.key))
      (fun shared op reply next answers claim => (claimed_of_answer answers claim).1)
      (fun shared next changes taken => taken_of_changes taken changes) already among] at claims
    cases claims
  · exact reachable.known
      (fun shared event => claiming exclusive _ event = true → exclusive.taken shared _)
      (fun shared op reply next answers claim => (claimed_of_answer answers claim).2)
      (fun shared next event changes taken claims => taken_of_changes (taken claims) changes)
      event among claims

/-- Of the executions of one slot, one at most touches its transport. -/
theorem touched_once
    (reachable : Reachable (beside exclusive.environment) (Submission.program store) initial world)
    (key : String) :
    (world.tasks.filter fun task => task.label.key = key).countP touched ≤ 1 := by
  refine Nat.le_trans ?_ (claimed_once reachable (exclusive.slot key))
  rw [List.countP_filter]
  apply World.countP_tasks_le
  intro task member mine
  simp only [Bool.and_eq_true, decide_eq_true_eq] at mine
  rw [← mine.2]
  exact claims_of_touched reachable member mine.1

/-- What printers receive under a key.  One execution at most has asked anything of its
transport; all bytes sent are the beginning of one plan; and they are the whole of it,
once, when an execution has succeeded. -/
structure ExecutedOnce (world : Executions store σ) (key : String) : Prop where
  single : (world.tasks.filter fun task => task.label.key = key).countP touched ≤ 1
  beginning : (world.tasks.filter fun task => task.label.key = key).flatMap sent = [] ∨
    ∃ task ∈ world.tasks, task.label.key = key ∧
      (world.tasks.filter fun task => task.label.key = key).flatMap sent <+:
        task.label.plan.stream
  whole : ∀ task ∈ world.tasks, task.label.key = key →
    ∀ progress, task.residual = .done (.ok progress) →
      (world.tasks.filter fun task => task.label.key = key).flatMap sent =
        task.label.plan.stream

/-- Every execution sends the beginning of its plan. -/
theorem sent_within_stream
    (reachable : Reachable (beside exclusive.environment) (Submission.program store) initial world)
    {task : Execution store} (member : task ∈ world.tasks) :
    sent task <+: task.label.plan.stream := by
  obtain ⟨submission, history, residual⟩ := task
  rcases executeOnceWithStore_cases (reachable.after _ member) with
    ⟨untouched, -⟩ | ⟨earlier, inner, rest, -, run, rfl, rfl⟩
  · rw [sent_of_untouched untouched]
    exact List.nil_prefix
  · rw [sent_of_run]
    exact submitted_within_stream submission.resident run

/-- An execution that succeeds has touched its transport and sent its whole plan. -/
theorem sent_of_ok
    (reachable : Reachable (beside exclusive.environment) (Submission.program store) initial world)
    {task : Execution store} (member : task ∈ world.tasks) {progress : Progress}
    (succeeded : task.residual = .done (.ok progress)) :
    touched task = true ∧ sent task = task.label.plan.stream := by
  obtain ⟨submission, history, residual⟩ := task
  rcases executeOnceWithStore_cases (reachable.after _ member) with
    ⟨-, unfinished⟩ | ⟨earlier, inner, rest, -, run, rfl, rfl⟩
  · exact absurd succeeded (unfinished progress)
  · rw [sent_of_run]
    cases rest with
    | ask op resume => cases succeeded
    | done result =>
        cases succeeded
        constructor
        · -- a plan begins with a question to the transport
          have waits : (execute .preserve submission.plan).run.pending = some .payloadLimit := rfl
          obtain ⟨event, later, rfl⟩ := Program.After.cons_of_pending waits run
          rw [touched, Task.issued, List.map_append, List.any_append, List.any_append]
          exact Bool.or_eq_true_iff.mpr (.inl (Bool.or_eq_true_iff.mpr (.inr rfl)))
        · simpa [submitted] using handedBytes_of_ok submission.resident run

/-- Executions over an exclusive store execute each key once. -/
theorem Exclusive.executedOnce (exclusive : Exclusive store σ ι)
    (reachable : Reachable (beside exclusive.environment) (Submission.program store) initial world)
    (key : String) : ExecutedOnce world key := by
  have single := touched_once reachable key
  have silent : ∀ task ∈ world.tasks.filter fun task => task.label.key = key,
      touched task = false → sent task = [] := fun task _ => sent_of_untouched
  have cases := flatMap_of_countP_le_one silent single
  refine ⟨single, ?_, ?_⟩
  · rcases cases with none | ⟨task, member, -, same⟩
    · exact .inl none
    · obtain ⟨present, mine⟩ := List.mem_filter.mp member
      refine .inr ⟨task, present, of_decide_eq_true mine, ?_⟩
      rw [same]
      exact sent_within_stream reachable present
  · intro task member mine progress succeeded
    obtain ⟨isTouched, whole⟩ := sent_of_ok reachable member succeeded
    rw [← whole]
    exact flatMap_eq_of_mem silent single (List.mem_filter.mpr ⟨member, by simpa using mine⟩)
      isTouched

end

/-! ## Claims in files and in memory -/

/-- The files that exist.  `create_new` is atomic; a creation that fails may have made the
file; other processes may make files, and nobody removes them. -/
def fileSystem : Environment files (Set FilePath) where
  answers
    | existing, .createNew path, .ok (), next => path ∉ existing ∧ next = insert path existing
    | existing, .createNew path, .error error, next =>
        next = existing ∨ error.alreadyExists = false ∧ next = insert path existing
    | existing, .writeAll _, _, next => next = existing
    | existing, .syncAll, _, next => next = existing
  evolves existing next := existing ⊆ next

/-- Whether an answer made a file. -/
def makes (path : FilePath) : Event files → Bool
  | ⟨.createNew made, .ok ()⟩ => made = path
  | _ => false

/-- No file disappears. -/
theorem fileSystem_grows {existing next : Set FilePath} (changes : fileSystem.Changes existing next) :
    existing ⊆ next := by
  rcases changes with evolves | ⟨op, reply, answers⟩
  · exact evolves
  · cases op with
    | createNew path =>
        cases reply with
        | ok made => exact answers.2 ▸ Set.subset_insert _ _
        | error error =>
            rcases answers with rfl | ⟨-, rfl⟩
            · exact subset_rfl
            · exact Set.subset_insert _ _
    | writeAll bytes => exact answers ▸ subset_rfl
    | syncAll => exact answers ▸ subset_rfl

/-- A claim succeeds only after its file was made. -/
theorem makes_of_claim {sha256 : Sha256} {directory key : String} {trace : List (Event files)}
    (claimed : Program.After (FileReplayStore.claim sha256 directory key) trace
      (.done (.ok true))) :
    0 < trace.countP (makes (claimPath sha256 directory key)) := by
  obtain ⟨_, _, reply, rfl, created, rest⟩ := claimed.of_bind
  cases reply with
  | error error =>
      -- a claim that made no file does not succeed
      by_cases present : error.alreadyExists
      · simp only [present, if_true] at rest
        cases rest
      · simp only [present] at rest
        cases rest
  | ok made =>
      cases created with
      | step reply created =>
          cases created
          simp [makes]

/-- File claims are exclusive: a file is made once. -/
def fileExclusive (sha256 : Sha256) (directory : String) :
    Exclusive (FileReplayStore sha256 directory) (Set FilePath) FilePath where
  environment := fileSystem
  slot := claimPath sha256 directory
  taken existing path := path ∈ existing
  takes := makes
  once existing op reply next path answers isMade := by
    cases op with
    | createNew other =>
        cases reply with
        | ok made =>
            obtain rfl : other = path := by simpa [makes] using isMade
            exact ⟨answers.1, answers.2 ▸ Set.mem_insert _ _⟩
        | error error => cases isMade
    | writeAll bytes => cases isMade
    | syncAll => cases isMade
  kept existing next path changes := fun present => fileSystem_grows changes present
  earned _ _ := makes_of_claim

/-- File claims.  Over any interleaving of executions that share the directory, in any
number of processes and across restarts: for every key one execution at most asks
anything of its transport, all bytes sent are the beginning of one plan, and the whole of
it once when an execution has succeeded.  No key is executed whose file was there
before, and the file of an executed key stays. -/
theorem file_claims_execute_once (sha256 : Sha256) (directory : String) (initial : Set FilePath)
    (world : Executions (FileReplayStore sha256 directory) (Set FilePath))
    (reachable : Reachable (beside fileSystem)
      (Submission.program (FileReplayStore sha256 directory)) initial world) (key : String) :
    ExecutedOnce world key ∧
    ∀ task ∈ world.tasks, task.label.key = key → touched task = true →
      claimPath sha256 directory key ∉ initial ∧ claimPath sha256 directory key ∈ world.shared := by
  refine ⟨(fileExclusive sha256 directory).executedOnce reachable key, ?_⟩
  intro task member named isTouched
  subst named
  exact (fileExclusive sha256 directory).taken_of_touched reachable member isTouched

/-- The keys attempted in one process. -/
def memory : Environment attempts (Set String) where
  answers attempted
    | .insert key, fresh, next => (fresh = true ↔ key ∉ attempted) ∧ next = insert key attempted
  evolves attempted next := next = attempted

/-- Whether an answer inserted a key that was not there. -/
def inserts (key : String) : Event attempts → Bool
  | ⟨.insert inserted, fresh⟩ => fresh && inserted = key

/-- A claim succeeds only after its key was inserted. -/
theorem inserts_of_claim {key : String} {trace : List (Event attempts)}
    (claimed : Program.After (MemoryReplayStore.claim key) trace (.done (.ok true))) :
    0 < trace.countP (inserts key) := by
  obtain ⟨_, _, fresh, rfl, inserted, rest⟩ := claimed.of_bind
  cases rest
  cases inserted with
  | step fresh inserted =>
      cases inserted
      simp [inserts]

/-- Claims in memory are exclusive: a key is inserted once. -/
def memoryExclusive : Exclusive MemoryReplayStore (Set String) String where
  environment := memory
  slot := id
  taken attempted key := key ∈ attempted
  takes := inserts
  once attempted op fresh next key answers inserted := by
    obtain ⟨other⟩ := op
    obtain ⟨isFresh, named⟩ := Bool.and_eq_true_iff.mp inserted
    obtain rfl := of_decide_eq_true named
    exact ⟨answers.1.mp isFresh, answers.2 ▸ Set.mem_insert _ _⟩
  kept attempted next key changes present := by
    rcases changes with rfl | ⟨op, fresh, answers⟩
    · exact present
    · exact answers.2 ▸ Set.mem_insert_of_mem _ present
  earned _ _ := inserts_of_claim

/-- A guard executes each key once, however its calls and those of the store in memory
are interleaved. -/
theorem guard_executes_once (initial : Set String)
    (world : Executions MemoryReplayStore (Set String))
    (reachable : Reachable (beside memory) (fun submission : Submission =>
      ReplayGuard.executeOnce submission.key submission.plan) initial world) (key : String) :
    ExecutedOnce world key := by
  have same : (fun submission : Submission =>
      ReplayGuard.executeOnce submission.key submission.plan) =
        Submission.program MemoryReplayStore :=
    funext fun submission => ReplayGuard.executeOnce_eq submission.key submission.plan
  rw [same] at reachable
  exact memoryExclusive.executedOnce reachable key

/-- The digest that SHA-256 gives of `job`. -/
def jobDigest : Sha256 := fun _ =>
  ⟨[0x5e, 0x8c, 0x99, 0x02, 0x20, 0x7a, 0xfa, 0xeb, 0x71, 0x20, 0x43, 0x0c,
    0x58, 0x5a, 0x44, 0x5f, 0x21, 0xe9, 0x29, 0x32, 0x08, 0x1d, 0x64, 0xbc,
    0x99, 0xf8, 0x0e, 0x49, 0x25, 0xbc, 0xb0, 0x02], rfl⟩

/-- Executions of `smallPlan` under `job`. -/
def smallSubmission : Submission := ⟨"job", smallPlan, by decide⟩

/-- The files made so far, and the payload limits a transport will report. -/
abbrev Scripted := List FilePath × List Nat

/-- Answer from the files made so far and from a transport that confirms every write. -/
def scripted (state : Scripted) : (op : (files.beside effects).Op) →
    Option ((files.beside effects).Reply op × Scripted)
  | .inl (.createNew path) =>
      if path ∈ state.1 then some (.error ⟨true, "File exists (os error 17)"⟩, state)
      else some (.ok (), (path :: state.1, state.2))
  | .inl (.writeAll _) => some (.ok (), state)
  | .inl .syncAll => some (.ok (), state)
  | .inr effect => some ((scriptedTransport state.2 effect).1,
      (state.1, (scriptedTransport state.2 effect).2))

/-- The files of a list. -/
def listed (state : Scripted) : Set FilePath := fun path => path ∈ state.1

theorem scripted_sound (state : Scripted) (op : (files.beside effects).Op)
    (replied : (files.beside effects).Reply op × Scripted)
    (answered : scripted state op = some replied) :
    (beside fileSystem).answers (listed state) op replied.1 (listed replied.2) := by
  rcases op with (path | bytes | _) | effect
  · simp only [scripted] at answered
    split at answered
    · cases answered
      exact .inl rfl
    · rename_i absent
      cases answered
      refine ⟨absent, Set.ext fun other => ?_⟩
      exact List.mem_cons
  · cases answered
    rfl
  · cases answered
    rfl
  · cases answered
    rfl

/-- The store of the scripted executions. -/
abbrev jobStore : ReplayStore := FileReplayStore jobDigest "claims"

/-- An execution that prints. -/
def printedRun := (smallSubmission.program jobStore).advance scripted ([], [512, 2])

/-- A second execution under the same key. -/
def refusedRun := (smallSubmission.program jobStore).advance scripted printedRun.2.2

/-- Both executions, one after the other. -/
def twiceSubmitted : Executions jobStore (Set FilePath) :=
  ⟨listed refusedRun.2.2, [⟨smallSubmission, printedRun.1, printedRun.2.1⟩,
    ⟨smallSubmission, refusedRun.1, refusedRun.2.1⟩]⟩

theorem twiceSubmitted_reachable :
    Reachable (beside fileSystem) (Submission.program jobStore) (listed ([], [512, 2]))
      twiceSubmitted := by
  have submitted : Reachable (beside fileSystem) (Submission.program jobStore)
      (listed ([], [512, 2]))
      ⟨listed ([], [512, 2]), [] ++ ⟨smallSubmission, [], smallSubmission.program jobStore⟩ :: []⟩ :=
    .tail .refl (.submit _ [] smallSubmission)
  have printed := Reachable.advance listed scripted scripted_sound [] [] smallSubmission _ [] _
    printedRun submitted rfl
  have again := printed.tail (.submit _ _ smallSubmission)
  exact Reachable.advance listed scripted scripted_sound
    [⟨smallSubmission, printedRun.1, printedRun.2.1⟩] [] smallSubmission _ [] _ refusedRun again rfl

theorem file_claims_execute_once_twice :
    twiceSubmitted.tasks.map touched = [true, false] ∧
      twiceSubmitted.tasks.flatMap sent = smallPlan.stream ∧
      ExecutedOnce twiceSubmitted "job" := by
  have ran : twiceSubmitted.tasks.map touched = [true, false] ∧
      twiceSubmitted.tasks.flatMap sent = smallPlan.stream := by decide +kernel
  exact ⟨ran.1, ran.2,
    (file_claims_execute_once jobDigest "claims" _ _ twiceSubmitted_reachable "job").1⟩

end PrinterSdk.Executor
