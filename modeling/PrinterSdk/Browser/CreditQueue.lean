import PrinterSdk.Interaction.Machine
import Mathlib.Algebra.GroupWithZero.Nat
import Mathlib.Data.List.Basic

/-!
# The credit queue of the WebBluetooth adapter

`takeCredit` either takes a credit in hand or queues a closure that a later grant
calls; an abort splices the closure out of the queue.  Closures are compared by
identity, so each is known here by the number of the call that made it.
-/

namespace PrinterSdk.Browser

open PrinterSdk.Interaction

/-- `Number.MAX_SAFE_INTEGER`. -/
def maxSafeInteger : Nat := 2 ^ 53 - 1

structure CreditQueue where
  credits : Nat := 0
  creditWaiters : List Nat := []
  deriving DecidableEq, Repr

/-- What the loop of `grantCredits` leaves: the waiters it called in order, the
count it has left, and the waiters that remain. -/
structure Served where
  called : List Nat
  count : Nat
  creditWaiters : List Nat
  deriving DecidableEq, Repr

/-- The loop of `grantCredits`.  A called waiter looks itself up in the queue and
removes itself from it before its promise resolves. -/
def serve : Nat → List Nat → Served
  | 0, waiters => ⟨[], 0, waiters⟩
  | count + 1, [] => ⟨[], count + 1, []⟩
  | count + 1, grant :: waiters =>
      let rest := serve count (waiters.erase grant)
      { rest with called := grant :: rest.called }

/-- Grant credits; returns the takers whose promises resolve. -/
def CreditQueue.grantCredits (queue : CreditQueue) (count : Nat) : CreditQueue × List Nat :=
  let served := serve count queue.creditWaiters
  ({ credits := min maxSafeInteger (queue.credits + served.count)
     creditWaiters := served.creditWaiters }, served.called)

/-- How a `takeCredit` call stands when it returns its promise. -/
inductive Taken where
  | resolved | pending | rejected
  deriving DecidableEq, Repr

def CreditQueue.takeCredit (queue : CreditQueue) (taker : Nat) (aborted : Bool) :
    CreditQueue × Taken :=
  if aborted then (queue, .rejected)
  else if queue.credits > 0 then ({ queue with credits := queue.credits - 1 }, .resolved)
  else ({ queue with creditWaiters := queue.creditWaiters ++ [taker] }, .pending)

/-- The abort listener of a pending taker. -/
def CreditQueue.abortTaker (queue : CreditQueue) (taker : Nat) : CreditQueue :=
  { queue with creditWaiters := queue.creditWaiters.erase taker }

/-! ## The queue on its own -/

/-- The queue and the number of `takeCredit` calls made on it. -/
structure Takers where
  queue : CreditQueue := {}
  asked : Nat := 0
  deriving DecidableEq, Repr

inductive CreditLabel where
  | grant (count : Nat)
  | take (aborted : Bool)
  | abort (taker : Nat)
  deriving DecidableEq, Repr

inductive CreditOutput where
  /-- The promise of a taker resolves. -/
  | taken (taker : Nat)
  /-- The promise of a taker is rejected with an abort error. -/
  | rejected (taker : Nat)
  deriving DecidableEq, Repr

def Takers.step (takers : Takers) : CreditLabel → Option (Takers × List CreditOutput)
  | .grant count =>
      let (queue, called) := takers.queue.grantCredits count
      some ({ takers with queue := queue }, called.map .taken)
  | .take aborted =>
      let (queue, taken) := takers.queue.takeCredit takers.asked aborted
      some ({ queue := queue, asked := takers.asked + 1 },
        match taken with
        | .resolved => [.taken takers.asked]
        | .pending => []
        | .rejected => [.rejected takers.asked])
  | .abort taker =>
      -- The listener is registered while the taker waits and removed with it.
      if taker ∈ takers.queue.creditWaiters then
        some ({ takers with queue := takers.queue.abortTaker taker }, [.rejected taker])
      else
        some (takers, [])

def creditMachine : Machine Takers CreditLabel CreditOutput where
  step := Takers.step

/-! ## What a run shows -/

abbrev CreditTrace : Type := List (Transition CreditLabel CreditOutput)

def grantedBy : CreditLabel → Nat
  | .grant count => count
  | _ => 0

def takenBy : CreditOutput → List Nat
  | .taken taker => [taker]
  | _ => []

def rejectedBy : CreditOutput → List Nat
  | .rejected taker => [taker]
  | _ => []

/-- Credits granted so far. -/
def grantedCredits (trace : CreditTrace) : Nat :=
  (trace.map fun transition => grantedBy transition.event).sum

/-- The takers that succeeded, in the order in which they were served. -/
def takers (trace : CreditTrace) : List Nat :=
  (Machine.outputs trace).flatMap takenBy

/-- The takers that were aborted. -/
def abortedTakers (trace : CreditTrace) : List Nat :=
  (Machine.outputs trace).flatMap rejectedBy

variable {trace : CreditTrace} {state next : Takers} {event : CreditLabel}
variable {outputs : List CreditOutput}

@[simp] theorem grantedCredits_snoc (event : CreditLabel) (outputs : List CreditOutput) :
    grantedCredits (trace ++ [⟨event, outputs⟩]) = grantedCredits trace + grantedBy event := by
  simp [grantedCredits]

@[simp] theorem takers_snoc (event : CreditLabel) (outputs : List CreditOutput) :
    takers (trace ++ [⟨event, outputs⟩]) = takers trace ++ outputs.flatMap takenBy := by
  simp [takers]

@[simp] theorem abortedTakers_snoc (event : CreditLabel) (outputs : List CreditOutput) :
    abortedTakers (trace ++ [⟨event, outputs⟩]) =
      abortedTakers trace ++ outputs.flatMap rejectedBy := by
  simp [abortedTakers]

@[simp] theorem takenBy_map_taken (called : List Nat) :
    (called.map CreditOutput.taken).flatMap takenBy = called := by
  induction called with
  | nil => rfl
  | cons taker rest ih => simp [takenBy, ih]

@[simp] theorem rejectedBy_map_taken (called : List Nat) :
    (called.map CreditOutput.taken).flatMap rejectedBy = [] := by
  induction called with
  | nil => rfl
  | cons taker rest ih => simp [rejectedBy, ih]

/-! ## The grant loop -/

/-- The loop uses one credit for each waiter it calls. -/
theorem serve_total (count : Nat) (waiters : List Nat) :
    (serve count waiters).called.length + (serve count waiters).count = count := by
  induction count generalizing waiters with
  | zero => rfl
  | succ count ih =>
      cases waiters with
      | nil => simp [serve]
      | cons grant waiters =>
          have rest := ih (waiters.erase grant)
          simp only [serve, List.length_cons]
          omega

/-- The loop calls a prefix of the waiters and stops with waiters left only when
the count is used up. -/
theorem serve_spec (count : Nat) {waiters : List Nat} (distinct : waiters.Nodup) :
    (serve count waiters).called ++ (serve count waiters).creditWaiters = waiters ∧
      ((serve count waiters).creditWaiters ≠ [] → (serve count waiters).count = 0) := by
  induction count generalizing waiters with
  | zero => simp [serve]
  | succ count ih =>
      cases waiters with
      | nil => simp [serve]
      | cons grant waiters =>
          obtain ⟨fresh, distinct⟩ := List.nodup_cons.mp distinct
          obtain ⟨split, spent⟩ := ih distinct
          simp only [serve, List.erase_of_not_mem fresh, List.cons_append]
          exact ⟨by rw [split], spent⟩

/-! ## The invariant -/

/-- Takers are served in the order they asked, and nobody waits while a credit is
in hand. -/
structure Queued (trace : CreditTrace) (state : Takers) : Prop where
  idle : state.queue.creditWaiters ≠ [] → state.queue.credits = 0
  spent : state.queue.credits + (takers trace).length ≤ grantedCredits trace
  served : (takers trace ++ state.queue.creditWaiters).Pairwise (· < ·)
  asked : ∀ taker ∈ takers trace ++ state.queue.creditWaiters, taker < state.asked
  refused : ∀ taker ∈ abortedTakers trace,
    taker < state.asked ∧ taker ∉ takers trace ++ state.queue.creditWaiters

theorem queued_start : Queued [] {} where
  idle := by simp
  spent := Nat.le_refl _
  served := List.Pairwise.nil
  asked := by simp [takers]
  refused := by simp [abortedTakers]

theorem Queued.distinct (queued : Queued trace state) :
    state.queue.creditWaiters.Nodup := by
  have ordered := (List.pairwise_append.mp queued.served).2.1
  exact ordered.imp (fun before => Nat.ne_of_lt before)

theorem Queued.grant (queued : Queued trace state) (count : Nat) :
    Queued (trace ++ [⟨.grant count, (state.queue.grantCredits count).2.map .taken⟩])
      { state with queue := (state.queue.grantCredits count).1 } := by
  obtain ⟨split, spent⟩ := serve_spec count queued.distinct
  have total := serve_total count state.queue.creditWaiters
  have before := queued.spent
  have whole : takers (trace ++ [⟨.grant count,
        (state.queue.grantCredits count).2.map .taken⟩]) ++
      (state.queue.grantCredits count).1.creditWaiters =
        takers trace ++ state.queue.creditWaiters := by
    rw [takers_snoc, takenBy_map_taken, List.append_assoc]
    exact congrArg _ split
  constructor
  case idle =>
    intro waiting
    have emptied := spent waiting
    have waited : state.queue.creditWaiters ≠ [] := by
      rw [← split]
      exact List.append_ne_nil_of_right_ne_nil _ waiting
    simp only [CreditQueue.grantCredits]
    rw [emptied, queued.idle waited]
    exact Nat.min_zero _
  case spent =>
    simp only [CreditQueue.grantCredits, takers_snoc, takenBy_map_taken, grantedCredits_snoc,
      grantedBy, List.length_append]
    omega
  case served =>
    rw [whole]
    exact queued.served
  case asked =>
    rw [whole]
    exact queued.asked
  case refused =>
    rw [whole, abortedTakers_snoc, rejectedBy_map_taken, List.append_nil]
    exact queued.refused

/-- A call that takes no credit and does not wait. -/
theorem Queued.refuse (queued : Queued trace state) :
    Queued (trace ++ [⟨.take true, [.rejected state.asked]⟩])
      { state with asked := state.asked + 1 } := by
  constructor
  case idle => exact queued.idle
  case spent => simpa [takenBy, grantedBy] using queued.spent
  case served => simpa [takenBy] using queued.served
  case asked =>
    intro taker member
    simp only [takers_snoc, List.flatMap_cons, takenBy, List.flatMap_nil, List.append_nil]
      at member
    exact Nat.lt_succ_of_lt (queued.asked taker member)
  case refused =>
    intro taker member
    simp only [abortedTakers_snoc, List.flatMap_cons, rejectedBy, List.flatMap_nil,
      List.append_nil, List.mem_append, List.mem_singleton] at member
    simp only [takers_snoc, List.flatMap_cons, takenBy, List.flatMap_nil, List.append_nil]
    rcases member with earlier | rfl
    · obtain ⟨known, untaken⟩ := queued.refused taker earlier
      exact ⟨Nat.lt_succ_of_lt known, untaken⟩
    · refine ⟨Nat.lt_succ_self _, fun taken => ?_⟩
      exact Nat.lt_irrefl _ (queued.asked _ taken)

/-- A new taker joins behind everybody who asked before. -/
theorem Queued.enter (queued : Queued trace state) {queue : CreditQueue}
    {outputs : List CreditOutput} (refuses : outputs.flatMap rejectedBy = [])
    (idle : queue.creditWaiters ≠ [] → queue.credits = 0)
    (spent : queue.credits + (takers trace ++ outputs.flatMap takenBy).length ≤
      grantedCredits trace)
    (joined : takers trace ++ outputs.flatMap takenBy ++ queue.creditWaiters =
      takers trace ++ state.queue.creditWaiters ++ [state.asked]) :
    Queued (trace ++ [⟨.take false, outputs⟩])
      { queue := queue, asked := state.asked + 1 } := by
  constructor
  case idle => exact idle
  case spent => simpa [grantedBy] using spent
  case served =>
    rw [takers_snoc, joined, List.pairwise_append]
    refine ⟨queued.served, List.pairwise_singleton _ _, ?_⟩
    intro earlier member later last
    rw [List.mem_singleton.mp last]
    exact queued.asked earlier member
  case asked =>
    rw [takers_snoc, joined]
    intro taker member
    rcases List.mem_append.mp member with earlier | last
    · exact Nat.lt_succ_of_lt (queued.asked taker earlier)
    · rw [List.mem_singleton.mp last]
      exact Nat.lt_succ_self _
  case refused =>
    rw [takers_snoc, joined, abortedTakers_snoc, refuses, List.append_nil]
    intro taker member
    obtain ⟨known, untaken⟩ := queued.refused taker member
    refine ⟨Nat.lt_succ_of_lt known, ?_⟩
    intro found
    rcases List.mem_append.mp found with earlier | last
    · exact untaken earlier
    · rw [List.mem_singleton.mp last] at known
      exact Nat.lt_irrefl _ known

theorem Queued.take (queued : Queued trace state) (aborted : Bool)
    (stepped : state.step (.take aborted) = some (next, outputs)) :
    Queued (trace ++ [⟨.take aborted, outputs⟩]) next := by
  have before := queued.spent
  cases aborted with
  | true =>
      cases stepped
      exact queued.refuse
  | false =>
      simp only [Takers.step, CreditQueue.takeCredit, Bool.false_eq_true, ↓reduceIte] at stepped
      by_cases credit : state.queue.credits > 0
      · -- A credit in hand means that nobody is waiting.
        have nobody : state.queue.creditWaiters = [] := by
          by_contra waiting
          have none := queued.idle waiting
          omega
        rw [if_pos credit] at stepped
        cases stepped
        refine queued.enter rfl ?_ ?_ ?_
        · intro waiting
          exact absurd nobody waiting
        · simp only [takenBy, List.flatMap_cons, List.flatMap_nil, List.append_nil,
            List.length_append, List.length_singleton]
          omega
        · simp [takenBy, nobody]
      · rw [if_neg credit] at stepped
        cases stepped
        refine queued.enter rfl ?_ ?_ ?_
        · intro _
          exact Nat.eq_zero_of_not_pos credit
        · simpa using before
        · simp

/-- An aborted taker leaves the queue without a credit. -/
theorem Queued.abort (queued : Queued trace state) {taker : Nat}
    (waiting : taker ∈ state.queue.creditWaiters) :
    Queued (trace ++ [⟨.abort taker, [.rejected taker]⟩])
      { state with queue := state.queue.abortTaker taker } := by
  have shorter : (takers trace ++ state.queue.creditWaiters.erase taker).Sublist
      (takers trace ++ state.queue.creditWaiters) :=
    (List.Sublist.refl _).append List.erase_sublist
  have unique : taker ∉ takers trace ++ state.queue.creditWaiters.erase taker := by
    obtain ⟨_, _, apart⟩ := List.pairwise_append.mp queued.served
    intro member
    rcases List.mem_append.mp member with taken | still
    · exact Nat.lt_irrefl _ (apart taker taken taker waiting)
    · exact List.Nodup.not_mem_erase queued.distinct still
  constructor
  case idle =>
    intro rest
    exact queued.idle (List.ne_nil_of_mem waiting)
  case spent => simpa [takenBy, grantedBy, CreditQueue.abortTaker] using queued.spent
  case served =>
    simp only [takers_snoc, List.flatMap_cons, takenBy, List.flatMap_nil, List.append_nil]
    exact queued.served.sublist shorter
  case asked =>
    simp only [takers_snoc, List.flatMap_cons, takenBy, List.flatMap_nil, List.append_nil]
    intro other member
    exact queued.asked other (shorter.subset member)
  case refused =>
    simp only [takers_snoc, abortedTakers_snoc, List.flatMap_cons, takenBy, rejectedBy,
      List.flatMap_nil, List.append_nil, List.mem_append, List.mem_singleton]
    intro other member
    rcases member with earlier | rfl
    · obtain ⟨known, untaken⟩ := queued.refused other earlier
      refine ⟨known, fun found => untaken (shorter.subset ?_)⟩
      exact List.mem_append.mpr found
    · refine ⟨queued.asked other (List.mem_append_right _ waiting), fun found => unique ?_⟩
      exact List.mem_append.mpr found

/-- Every step keeps the queue in order. -/
theorem Queued.step (queued : Queued trace state)
    (stepped : state.step event = some (next, outputs)) :
    Queued (trace ++ [⟨event, outputs⟩]) next := by
  cases event with
  | grant count =>
      cases stepped
      exact queued.grant count
  | take aborted => exact queued.take aborted stepped
  | abort taker =>
      simp only [Takers.step] at stepped
      split at stepped
      · rename_i waiting
        cases stepped
        exact queued.abort waiting
      · cases stepped
        constructor
        case idle => exact queued.idle
        case spent => simpa [grantedBy] using queued.spent
        case served => simpa using queued.served
        case asked => simpa using queued.asked
        case refused => simpa using queued.refused

theorem queued_of_run (run : Machine.Run creditMachine {} trace state) :
    Queued trace state := by
  apply run.invariant
  · exact queued_start
  · intro trace state event next outputs queued stepped
    exact queued.step stepped

/-! ## Conservation -/

/-- The credits in hand stay below the cap all along a run. -/
def BelowCap (trace : CreditTrace) : Prop :=
  ∀ before after state, trace = before ++ after →
    Machine.Run creditMachine {} before state → state.queue.credits < maxSafeInteger

/-- Below the cap a step moves every credit it is granted. -/
theorem credits_balance
    (stepped : state.step event = some (next, outputs))
    (below : next.queue.credits < maxSafeInteger) :
    next.queue.credits + (outputs.flatMap takenBy).length =
      state.queue.credits + grantedBy event := by
  cases event with
  | grant count =>
      cases stepped
      have total := serve_total count state.queue.creditWaiters
      simp only at below
      simp only [takenBy_map_taken, grantedBy]
      omega
  | take aborted =>
      cases aborted with
      | true =>
          cases stepped
          rfl
      | false =>
          simp only [Takers.step, CreditQueue.takeCredit, Bool.false_eq_true,
            ↓reduceIte] at stepped
          by_cases credit : state.queue.credits > 0
          · rw [if_pos credit] at stepped
            cases stepped
            simp only [takenBy, List.flatMap_cons, List.flatMap_nil, List.append_nil,
              List.length_singleton, grantedBy]
            omega
          · rw [if_neg credit] at stepped
            cases stepped
            rfl
  | abort taker =>
      simp only [Takers.step] at stepped
      split at stepped
      · cases stepped
        rfl
      · cases stepped
        rfl

theorem credits_conserved (run : Machine.Run creditMachine {} trace state)
    (below : BelowCap trace) :
    grantedCredits trace = state.queue.credits + (takers trace).length := by
  induction run with
  | start => rfl
  | @step trace state next event outputs reached stepped ih =>
      have earlier : BelowCap trace := by
        intro before after state whole
        exact below before (after ++ [⟨event, outputs⟩]) state
          (by rw [whole, List.append_assoc])
      have here := below _ [] next (List.append_nil _).symm (.step reached stepped)
      have moved := credits_balance stepped here
      have before := ih earlier
      rw [grantedCredits_snoc, takers_snoc, List.length_append]
      omega

/-- Over any interleaving of grants, `takeCredit` calls and aborts: nobody waits
while a credit is in hand; no credit is lost below the cap and none is ever used
twice; takers are served in the order they asked, none overtaking a waiting one;
and an aborted taker never takes a credit. -/
theorem credit_queue_conserves (trace : CreditTrace) (state : Takers)
    (run : Machine.Run creditMachine {} trace state) :
    (state.queue.creditWaiters ≠ [] → state.queue.credits = 0) ∧
      (BelowCap trace →
        grantedCredits trace = state.queue.credits + (takers trace).length) ∧
      state.queue.credits + (takers trace).length ≤ grantedCredits trace ∧
      (takers trace).Pairwise (· < ·) ∧
      (∀ served ∈ takers trace, ∀ waiting ∈ state.queue.creditWaiters, served < waiting) ∧
      (∀ taker ∈ abortedTakers trace,
        taker ∉ takers trace ∧ taker ∉ state.queue.creditWaiters) := by
  have queued := queued_of_run run
  obtain ⟨ordered, _, apart⟩ := List.pairwise_append.mp queued.served
  refine ⟨queued.idle, credits_conserved run, queued.spent, ordered, apart, ?_⟩
  intro taker aborted
  have untaken := (queued.refused taker aborted).2
  rw [List.mem_append, not_or] at untaken
  exact untaken

/-- Two takers wait, the first is aborted, a grant serves the second. -/
theorem credit_queue_conserves_abort :
    ∃ trace state, creditMachine.run {} [.take false, .take false, .abort 0, .grant 2] =
        some (trace, state) ∧ takers trace = [1] ∧ abortedTakers trace = [0] ∧
      state.queue.credits + (takers trace).length ≤ grantedCredits trace :=
  have computed : creditMachine.run {} [.take false, .take false, .abort 0, .grant 2] =
    some (_, _) := rfl
  ⟨_, _, rfl, rfl, rfl, (credit_queue_conserves _ _ (Machine.run_sound computed)).2.2.1⟩

end PrinterSdk.Browser
