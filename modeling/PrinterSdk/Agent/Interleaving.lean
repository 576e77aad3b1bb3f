import PrinterSdk.Agent.Guarded

/-!
# Guarded changes in every interleaving

The contract of one request holds of all requests to one agent, however they interleave.
Since a request identifier is consumed once over all of them, at most one write is sent
for it.
-/

namespace PrinterSdk.Agent

open PrinterSdk.Data PrinterSdk.Interaction PrinterSdk.Ipp PrinterSdk.Native
open PrinterSdk.Administration

variable {externals : Externals} {policy : AgentPolicy}

/-! ## The shared state -/

/-- Whether an answer consumed the identifier `requestId`. -/
def consumes (requestId : String) : Event operations → Bool
  | ⟨.consume consumed, inserted⟩ => consumed == requestId && inserted
  | _ => false

/-- A printer that was looked up is one that was published under its identifier. -/
def Published (state : AgentState) : Event operations → Prop
  | ⟨.printer printerId, found⟩ =>
      ∀ printer, found = some printer → printer ∈ state.printers ∧ printer.printerId = printerId
  | _ => True

/-- No change of the shared state forgets a publication or a consumed identifier. -/
theorem agent_keeps {state next : AgentState} (changes : agent.Changes state next) :
    state.printers ⊆ next.printers ∧ state.guardedWriteRequests ⊆ next.guardedWriteRequests := by
  rcases changes with ⟨printer, published⟩ | ⟨op, reply, answered⟩
  · simp only [AgentState.publish, except_bind_eq_ok, except_pure_eq_ok] at published
    obtain ⟨_, _, rfl⟩ := published
    exact ⟨List.subset_cons_self _ _, List.Subset.refl _⟩
  · cases op with
    | printer printerId =>
        cases answered.2
        exact ⟨List.Subset.refl _, List.Subset.refl _⟩
    | consume requestId =>
        have inserted : next = (state.consume requestId).2 := congrArg Prod.snd answered
        subst inserted
        unfold AgentState.consume
        split
        · exact ⟨List.Subset.refl _, List.Subset.refl _⟩
        · exact ⟨List.Subset.refl _, List.subset_cons_self _ _⟩
    | isCancelled =>
        cases answered
        exact ⟨List.Subset.refl _, List.Subset.refl _⟩
    | post url body =>
        cases answered
        exact ⟨List.Subset.refl _, List.Subset.refl _⟩
    | abort => exact answered.elim

theorem consume_eq_true {state next : AgentState} {requestId : String}
    (inserted : state.consume requestId = (true, next)) :
    requestId ∉ state.guardedWriteRequests ∧ requestId ∈ next.guardedWriteRequests := by
  unfold AgentState.consume at inserted
  split at inserted
  case isTrue => cases inserted
  case isFalse fresh =>
    cases inserted
    exact ⟨fresh, List.mem_cons_self⟩

variable {world : AgentWorld}

/-- An identifier is consumed at most once over all requests. -/
theorem consumed_once
    (reachable : Reachable agent (executeGuardedIppChange externals policy) .new world)
    (requestId : String) : world.events.countP (consumes requestId) ≤ 1 := by
  apply reachable.claimed_once (consumes requestId)
    fun state => requestId ∈ state.guardedWriteRequests
  · intro state op reply next answered claim
    cases op with
    | consume consumed =>
        obtain ⟨same, inserted⟩ := Bool.and_eq_true_iff.mp claim
        cases eq_of_beq same
        have first : state.consume requestId = (true, next) := by
          rw [← inserted]
          exact answered.symm
        exact consume_eq_true first
    | printer printerId => cases claim
    | isCancelled => cases claim
    | post url body => cases claim
    | abort => cases claim
  · intro state next changes taken
    exact (agent_keeps changes).2 taken

theorem published_known
    (reachable : Reachable agent (executeGuardedIppChange externals policy) .new world) :
    ∀ event ∈ world.events, Published world.shared event := by
  apply reachable.known Published
  · intro state op reply next answered
    cases op with
    | printer printerId =>
        obtain ⟨rfl, rfl⟩ := answered
        intro printer found
        have same := List.find?_some found
        exact ⟨List.mem_of_find?_eq_some found, eq_of_beq same⟩
    | consume requestId => trivial
    | isCancelled => trivial
    | post url body => trivial
    | abort => trivial
  · rintro state next ⟨op, reply⟩ changes published
    cases op with
    | printer printerId =>
        intro printer found
        exact ⟨(agent_keeps changes).1 (published printer found).1, (published printer found).2⟩
    | consume requestId => trivial
    | isCancelled => trivial
    | post url body => trivial
    | abort => trivial

/-! ## Every request -/

/-- What holds of guarded changes in every state of an agent. -/
structure GuardedChanges (externals : Externals) (policy : AgentPolicy) (world : AgentWorld) :
    Prop where
  once : ∀ requestId, ((world.tasks.filter fun task => task.label.request.requestId == requestId
    ).flatMap Task.issued).countP isWrite ≤ 1
  planned : ∀ task ∈ world.tasks, ∀ plan,
    task.label.request.operation = some (.planChange plan) →
    ∀ op ∈ task.issued, isWrite op = false
  guarded : ∀ task ∈ world.tasks, ∀ before op,
    Program.Issued task.history task.residual before op → isWrite op = true →
    ∃ url body change printer limits printerUri value, op = .post url body ∧
      GuardedWrite externals policy task.label before url body change printer limits printerUri
        value ∧
      printer ∈ world.shared.printers ∧ printer.printerId = task.label.request.printerId
  honest : ∀ task ∈ world.tasks, ∀ execution, task.residual = .done (.ok execution) →
    ∀ change, task.label.request.operation = some (.applyChange change) →
    execution.result.outcome = .succeeded →
    ReadBack externals task.label change task.history

/-- Every operation of every request is permitted. -/
theorem issued_permitted
    (reachable : Reachable agent (executeGuardedIppChange externals policy) .new world)
    {task : Task operations Submission InitialExecution} (member : task ∈ world.tasks)
    {before : List (Event operations)} {op : Operation}
    (issued : Program.Issued task.history task.residual before op) :
    Permitted externals policy task.label before op :=
  executeGuardedIppChange_meets.issued (reachable.after task member) issued

/-- In every interleaving of requests to one agent, with any server: at most one
Set-Printer-Attributes request is sent for each request identifier, none by a plan, none
by an `apply_confirmed_change` that fails, each one only under all guards, and success is
reported only of a change that was accepted and read back. -/
theorem guarded_changes (externals : Externals) (policy : AgentPolicy) (world : AgentWorld)
    (reachable : Reachable agent (executeGuardedIppChange externals policy) .new world) :
    GuardedChanges externals policy world ∧
      ∀ endpoint plan binding limits trace error,
        Program.After (applyConfirmedChange externals.toExternals endpoint plan binding
          limits).run trace (.done (.error error)) → writeCount trace = 0 := by
  have once : ∀ requestId, ((world.tasks.filter fun task =>
      task.label.request.requestId == requestId).flatMap Task.issued).countP isWrite ≤ 1 := by
    intro requestId
    refine Nat.le_trans ?_ (consumed_once reachable requestId)
    apply world.countP_issued_le
    intro task member mine
    apply task.countP_issued_le
    intro before op issued write
    obtain ⟨url, body, change, printer, limits, printerUri, value, _, guarded⟩ :=
      issued_permitted reachable member issued write
    refine ⟨guarded.first, List.countP_pos_iff.mpr ⟨_, guarded.consumed, ?_⟩⟩
    simpa [consumes] using mine
  have planned : ∀ task ∈ world.tasks, ∀ plan,
      task.label.request.operation = some (.planChange plan) →
      ∀ op ∈ task.issued, isWrite op = false := by
    intro task member plan requested op issued
    obtain ⟨before, issued⟩ := Task.issued_of_mem issued
    by_contra write
    obtain ⟨url, body, change, printer, limits, printerUri, value, _, guarded⟩ :=
      issued_permitted reachable member issued (Bool.not_eq_false _ ▸ write)
    cases requested.symm.trans guarded.requested
  constructor
  · refine ⟨once, planned, ?_, ?_⟩
    · intro task member before op issued write
      obtain ⟨url, body, change, printer, limits, printerUri, value, sent, guarded⟩ :=
        issued_permitted reachable member issued write
      have answered := issued.mem_history guarded.lookedUp
      have known := published_known reachable _
        (List.mem_flatMap.mpr ⟨task, member, answered⟩) printer rfl
      exact ⟨url, body, change, printer, limits, printerUri, value, sent, guarded, known⟩
    · intro task member execution returned change requested succeeded
      have settled := executeGuardedIppChange_meets.after (reachable.after task member)
      rw [returned] at settled
      exact settled change requested succeeded
  · intro endpoint plan binding limits trace error failed
    exact applyConfirmedChange_failed failed

/-! ### A printer that is renamed -/

/-- SHA-256 and JSON as they act on the names `a` and `b`, and the parsers as they act on
the URL of the printer and the requested name. -/
def renameExternals : Externals where
  hashing := {
    sha256 := fun bytes =>
      if startsWith bytes [0x42] then
        ⟨[0xc1, 0x02, 0xb7, 0xd4, 0x61, 0x59, 0x6d, 0xad, 0xab, 0x3b, 0xc5, 0xc0, 0x70, 0x9a,
          0xf0, 0xf2, 0x26, 0x18, 0x49, 0xc6, 0x6f, 0xf1, 0x68, 0xe8, 0xed, 0x4d, 0xd0, 0xc9,
          0xce, 0x8b, 0x1c, 0xd6], rfl⟩
      else
        nameHash
    valueJson := fun data => asBytes (if data = .bytes [0x61] then
      "\x7b\"kind\":\"bytes\",\"value\":[97]\x7d"
    else
      "\x7b\"kind\":\"bytes\",\"value\":[98]\x7d") }
  parseUrl := some
  parseValue := fun json =>
    if json = asBytes ("\x7b\"tag\":\"name-without-language\",\"data\":" ++
        "\x7b\"kind\":\"bytes\",\"value\":[98]\x7d\x7d") then
      some (.raw .nameWithoutLanguage (asBytes "b"))
    else
      none
  receiptJson := fun _ => none

def renamePolicy : AgentPolicy := ⟨"agent", 1, 60000, 65536⟩

def renamePrinter : PublishedPrinter :=
  ⟨"printer", 7, ⟨.ipp, "192.168.1.20", 631, "/ipp/print"⟩⟩

/-- The request to rename the printer from `a` to `b`. -/
def renameSubmission : Submission where
  request := {
    requestId := "request-1"
    contractVersion := 1
    authenticatedPrincipal := "principal"
    printerId := "printer"
    endpointGeneration := 7
    expiresAtUnixMs := 2000
    limits := some ⟨5000, 4096⟩
    operation := some (.applyChange {
      settingId := "printer-name"
      expectedOldValueHash := (renameExternals.hashing.sha256 []).1
      requestedValue := asBytes ("\x7b\"tag\":\"name-without-language\",\"data\":" ++
        "\x7b\"kind\":\"bytes\",\"value\":[98]\x7d\x7d")
      protocol := "ipp"
      planExpiresAtUnixMs := 2000
      expectedRequestedValueHash := (renameExternals.hashing.sha256 [0x42]).1 }) }
  nowUnixMs := 1000
  policy := ⟨["printer-name"]⟩

/-- The response of a printer that has the given name. -/
def nameResponse (name : String) : Message where
  version := ⟨2, 0⟩
  code := 0
  requestId := 1
  groups := [⟨printerAttributesTag,
    [⟨asBytes "printer-name", [.raw .nameWithoutLanguage (asBytes name)]⟩,
      ⟨asBytes "operations-supported", [⟨.enum, .enum 0x13⟩]⟩,
      ⟨asBytes "printer-settable-attributes-supported",
        [.raw .keyword (asBytes "printer-name")]⟩]⟩]
  originalBytes := []

/-- The exchange that carries a response. -/
def responds (response : Message) : Exchange :=
  match encode response .default with
  | .ok bytes => .responded 200 none [.data bytes]
  | .error _ => .failed

/-- The agent and the exchanges that the printer still has to answer with. -/
abbrev Scripted := AgentState × List Exchange

/-- Answer from the state of the agent and the script of the printer. -/
def scripted (state : Scripted) : (op : Operation) → Option (op.Reply × Scripted)
  | .printer printerId => some (state.1.printer printerId, state)
  | .consume requestId =>
      some ((state.1.consume requestId).1, ((state.1.consume requestId).2, state.2))
  | .isCancelled => some (false, state)
  | .post _ _ =>
      match state.2 with
      | [] => none
      | exchange :: script => some (exchange, (state.1, script))
  | .abort => none

theorem scripted_sound (state : Scripted) (op : Operation) (replied : op.Reply × Scripted)
    (answered : scripted state op = some replied) :
    agent.answers state.1 op replied.1 replied.2.1 := by
  cases op with
  | printer printerId =>
      cases answered
      exact ⟨rfl, rfl⟩
  | consume requestId =>
      cases answered
      rfl
  | isCancelled =>
      cases answered
      rfl
  | post url body =>
      obtain ⟨shared, script⟩ := state
      cases script with
      | nil => cases answered
      | cons exchange script =>
          cases answered
          rfl
  | abort => cases answered

/-- The printer is published; it will report the name `a`, accept the write, and report
the name `b`. -/
def renameStart : Scripted :=
  (⟨[renamePrinter], []⟩, [responds (nameResponse "a"),
    responds { nameResponse "b" with requestId := 2, groups := [] }, responds (nameResponse "b")])

/-- The run of the request against this printer. -/
def renameRun : List (Event operations) × Program operations InitialExecution × Scripted :=
  (executeGuardedIppChange renameExternals renamePolicy renameSubmission).advance scripted
    renameStart

/-- The agent after the printer was renamed. -/
def renamed : AgentWorld := ⟨renameRun.2.2.1, [⟨renameSubmission, renameRun.1, renameRun.2.1⟩]⟩

theorem renamed_reachable :
    Reachable agent (executeGuardedIppChange renameExternals renamePolicy) .new renamed := by
  have published : Reachable agent (executeGuardedIppChange renameExternals renamePolicy) .new
      ⟨renameStart.1, []⟩ :=
    .tail .refl (.evolve [] ⟨renamePrinter, rfl⟩)
  have submitted := published.tail (.submit _ [] renameSubmission)
  have runs : (executeGuardedIppChange renameExternals renamePolicy renameSubmission).advance
      scripted renameStart = renameRun := rfl
  have ran := Reachable.advance Prod.fst scripted scripted_sound [] [] renameSubmission
    renameStart [] _ renameRun submitted runs
  rw [List.nil_append, List.nil_append] at ran
  unfold renamed
  -- the run is not to be evaluated here
  with_reducible exact ran

/-- Whether a request has returned with a successful result. -/
def reportsSuccess : Program operations InitialExecution → Bool
  | .done (.ok execution) => execution.result.outcome == .succeeded
  | _ => false

theorem guarded_changes_renamed :
    (renamed.tasks.all fun task => reportsSuccess task.residual) = true ∧
      (renamed.tasks.flatMap Task.issued).countP isWrite = 1 ∧
      GuardedChanges renameExternals renamePolicy renamed := by
  have ran : (renamed.tasks.all fun task => reportsSuccess task.residual) = true ∧
      (renamed.tasks.flatMap Task.issued).countP isWrite = 1 := by decide +kernel
  exact ⟨ran.1, ran.2, (guarded_changes renameExternals renamePolicy renamed renamed_reachable).1⟩

end PrinterSdk.Agent
