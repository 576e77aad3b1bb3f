import Mathlib.Data.List.Range
import PrinterSdk.Native.BrotherSession

/-!
# The end of a drain

The loop of `drain_stale_responses` measures its progress in drained bytes.  A response
without bytes makes no progress, so the loop ends unless nothing else is reported any more,
and takes as many waits as the limit allows beside those that report nothing.
-/

namespace PrinterSdk.Native

open PrinterSdk.Data PrinterSdk.Interaction PrinterSdk.Executor

/-- What the waits of a transport report, one after another. -/
abbrev Outcomes : Type := Nat → Except TransportError WaitOutcome

namespace Outcomes

/-- What the waits after the first one report. -/
def tail (outcomes : Outcomes) : Outcomes := fun index => outcomes (index + 1)

/-- The first waits of a drain and what they report. -/
def waited (outcomes : Outcomes) (waits : Nat) : List (Event sessionOperations) :=
  (List.range waits).map fun index => ⟨.waitResponse drainTimeoutMs, outcomes index⟩

/-- How many of the first waits report a response without bytes. -/
def emptyResponses (outcomes : Outcomes) (waits : Nat) : Nat :=
  (List.range waits).countP fun index => outcomes index = .ok (.response [])

theorem waited_succ (outcomes : Outcomes) (waits : Nat) :
    outcomes.waited (waits + 1) =
      ⟨.waitResponse drainTimeoutMs, outcomes 0⟩ :: outcomes.tail.waited waits := by
  rw [waited, List.range_succ_eq_map, List.map_cons, List.map_map]
  rfl

theorem emptyResponses_succ (outcomes : Outcomes) (waits : Nat) :
    outcomes.emptyResponses (waits + 1) =
      outcomes.tail.emptyResponses waits + if outcomes 0 = .ok (.response []) then 1 else 0 := by
  rw [emptyResponses, List.range_succ_eq_map, List.countP_cons, List.countP_map]
  simp only [decide_eq_true_eq]
  rfl

end Outcomes

/-- A drain that has discarded some bytes returns after these waits. -/
def EndsFrom (drained : Nat) (outcomes : Outcomes) (waits : Nat) : Prop :=
  ∃ rounds result, Program.After (drainReads rounds drained).run (outcomes.waited waits)
    (.done result)

/-- `drain_stale_responses` returns after these waits. -/
def DrainEnds (outcomes : Outcomes) (waits : Nat) : Prop := EndsFrom 0 outcomes waits

/-- After responses within the limit, every wait reports a response without bytes. -/
def StallsFrom (drained : Nat) (outcomes : Outcomes) : Prop :=
  ∃ received : List Bytes, drained + received.flatten.length ≤ maxDrainBytes ∧
    (∀ index (inside : index < received.length),
      outcomes index = .ok (.response (received.get ⟨index, inside⟩))) ∧
    ∀ later, received.length ≤ later → outcomes later = .ok (.response [])

/-- The transport keeps a drain waiting for ever. -/
def Stalls (outcomes : Outcomes) : Prop := StallsFrom 0 outcomes

/-- The bytes that have been discarded when the loop goes on. -/
def goesOn (drained : Nat) : Except TransportError WaitOutcome → Option Nat
  | .ok (.response bytes) =>
      if drained + bytes.length ≤ maxDrainBytes then some (drained + bytes.length) else none
  | _ => none

section

variable {drained total waits : Nat} {outcomes : Outcomes}

theorem goesOn_eq_some {outcome : Except TransportError WaitOutcome} :
    goesOn drained outcome = some total ↔ ∃ bytes, outcome = .ok (.response bytes) ∧
      drained + bytes.length ≤ maxDrainBytes ∧ drained + bytes.length = total := by
  constructor
  · intro continues
    match outcome, continues with
    | .ok (.response bytes), continues =>
        rw [goesOn] at continues
        split at continues
        · next fits => exact ⟨bytes, rfl, fits, Option.some.inj continues⟩
        · cases continues
  · rintro ⟨bytes, rfl, fits, rfl⟩
    exact if_pos fits

/-- What the loop does with a response. -/
def drainResponse (rounds drained : Nat) (bytes : Bytes) : Session Unit :=
  match checkedAdd drained bytes.length with
  | none => throw "stale response byte count overflow"
  | some drained =>
      if drained > maxDrainBytes then
        throw "stale responses exceeded 32768-byte drain limit"
      else
        drainReads rounds drained

theorem drainResponse_fits {rounds : Nat} {bytes : Bytes}
    (fits : drained + bytes.length ≤ maxDrainBytes) :
    drainResponse rounds drained bytes = drainReads rounds (drained + bytes.length) := by
  have summed : checkedAdd drained bytes.length = some (drained + bytes.length) :=
    checkedAdd_eq_some.mpr ⟨fits.trans (by decide), rfl⟩
  simp only [drainResponse, summed, Nat.not_lt.mpr fits, ↓reduceIte]

theorem drainResponse_exceeds {rounds : Nat} {bytes : Bytes}
    (exceeds : ¬drained + bytes.length ≤ maxDrainBytes) :
    ∃ error, drainResponse rounds drained bytes = throw error := by
  cases summed : checkedAdd drained bytes.length with
  | none => exact ⟨"stale response byte count overflow", by simp only [drainResponse, summed]⟩
  | some total =>
      obtain ⟨-, rfl⟩ := checkedAdd_eq_some.mp summed
      refine ⟨"stale responses exceeded 32768-byte drain limit", ?_⟩
      simp only [drainResponse, summed, Nat.lt_of_not_le exceeds, ↓reduceIte]

/-- What a drain does with the outcome of its next wait. -/
theorem drainReads_succ (rounds drained : Nat) :
    ∃ resume : Except TransportError WaitOutcome → Program sessionOperations (Except String Unit),
      (drainReads (rounds + 1) drained).run =
        @Program.ask sessionOperations _ (.waitResponse drainTimeoutMs) resume ∧
      (∀ outcome total, goesOn drained outcome = some total →
        resume outcome = (drainReads rounds total).run) ∧
      ∀ outcome, goesOn drained outcome = none → ∃ result, resume outcome = .done result := by
  refine ⟨_, rfl, ?_, ?_⟩
  · intro outcome total continues
    obtain ⟨bytes, rfl, fits, rfl⟩ := goesOn_eq_some.mp continues
    exact congrArg ExceptT.run (drainResponse_fits fits)
  · intro outcome ends
    match outcome with
    | .error error => exact ⟨_, rfl⟩
    | .ok .timeout => exact ⟨_, rfl⟩
    | .ok .unavailable => exact ⟨_, rfl⟩
    | .ok (.response bytes) =>
        have exceeds : ¬drained + bytes.length ≤ maxDrainBytes := by
          intro fits
          rw [goesOn, if_pos fits] at ends
          cases ends
        obtain ⟨error, failed⟩ := drainResponse_exceeds exceeds
        exact ⟨.error error, congrArg ExceptT.run failed⟩

/-- A drain waits at least once. -/
theorem not_endsFrom_zero : ¬EndsFrom drained outcomes 0 := by
  rintro ⟨rounds, result, returned⟩
  cases rounds with
  | zero => cases returned
  | succ rounds =>
      obtain ⟨resume, asks, -⟩ := drainReads_succ rounds drained
      rw [asks] at returned
      cases returned

/-- A drain that goes on after the first wait ends when the rest of it does. -/
theorem endsFrom_succ_iff (continues : goesOn drained (outcomes 0) = some total) :
    EndsFrom drained outcomes (waits + 1) ↔ EndsFrom total outcomes.tail waits := by
  constructor
  · rintro ⟨rounds, result, returned⟩
    rw [outcomes.waited_succ] at returned
    cases rounds with
    | zero => cases returned
    | succ rounds =>
        obtain ⟨resume, asks, continued, -⟩ := drainReads_succ rounds drained
        rw [asks] at returned
        cases returned with
        | step reply returned =>
            rw [continued _ _ continues] at returned
            exact ⟨rounds, result, returned⟩
  · rintro ⟨rounds, result, returned⟩
    obtain ⟨resume, asks, continued, -⟩ := drainReads_succ rounds drained
    refine ⟨rounds + 1, result, ?_⟩
    rw [outcomes.waited_succ, asks]
    apply Program.After.step
    rw [continued _ _ continues]
    exact returned

/-- A drain that does not go on after the first wait ends with it. -/
theorem endsFrom_iff (stops : goesOn drained (outcomes 0) = none) :
    EndsFrom drained outcomes waits ↔ waits = 1 := by
  constructor
  · rintro ⟨rounds, result, returned⟩
    cases waits with
    | zero => exact absurd ⟨rounds, result, returned⟩ not_endsFrom_zero
    | succ waits =>
        rw [outcomes.waited_succ] at returned
        cases rounds with
        | zero => cases returned
        | succ rounds =>
            obtain ⟨resume, asks, -, ended⟩ := drainReads_succ rounds drained
            obtain ⟨value, done⟩ := ended _ stops
            rw [asks] at returned
            cases returned with
            | step reply returned =>
                rw [done] at returned
                have nothing : outcomes.tail.waited waits = [] := by
                  generalize outcomes.tail.waited waits = trace at returned
                  cases returned
                  rfl
                have none : waits = 0 := by simpa [Outcomes.waited] using nothing
                rw [none]
  · rintro rfl
    obtain ⟨resume, asks, -, ended⟩ := drainReads_succ 0 drained
    obtain ⟨value, done⟩ := ended _ stops
    refine ⟨1, value, ?_⟩
    rw [asks]
    apply Program.After.step
    rw [done]
    exact .refl _

theorem stallsFrom_tail (continues : goesOn drained (outcomes 0) = some total)
    (stalls : StallsFrom total outcomes.tail) : StallsFrom drained outcomes := by
  obtain ⟨bytes, reported, -, rfl⟩ := goesOn_eq_some.mp continues
  obtain ⟨received, within, before, after⟩ := stalls
  refine ⟨bytes :: received, ?_, ?_, ?_⟩
  · rw [List.flatten_cons, List.length_append, ← Nat.add_assoc]
    exact within
  · intro index inside
    cases index with
    | zero => exact reported
    | succ index => exact before index (Nat.lt_of_succ_lt_succ inside)
  · intro later past
    cases later with
    | zero => cases past
    | succ later => exact after later (Nat.le_of_succ_le_succ past)

/-- A stalled drain goes on after every wait, and stays stalled. -/
theorem StallsFrom.goesOn (stalls : StallsFrom drained outcomes) :
    ∃ total, goesOn drained (outcomes 0) = some total ∧ StallsFrom total outcomes.tail := by
  obtain ⟨received, within, before, after⟩ := stalls
  cases received with
  | nil =>
      refine ⟨drained, ?_, [], within, fun index inside => absurd inside (Nat.not_lt_zero index),
        fun later _ => after (later + 1) (Nat.zero_le _)⟩
      rw [after 0 (Nat.zero_le 0)]
      exact if_pos within
  | cons bytes received =>
      rw [List.flatten_cons, List.length_append, ← Nat.add_assoc] at within
      refine ⟨drained + bytes.length, ?_, received, within, ?_, ?_⟩
      · rw [before 0 (Nat.succ_pos _)]
        exact if_pos ((Nat.le_add_right _ _).trans within)
      · intro index inside
        exact before (index + 1) (Nat.succ_lt_succ inside)
      · intro later past
        exact after (later + 1) (Nat.succ_le_succ past)

theorem StallsFrom.not_ends (stalls : StallsFrom drained outcomes) (waits : Nat) :
    ¬EndsFrom drained outcomes waits := by
  induction waits generalizing drained outcomes with
  | zero => exact not_endsFrom_zero
  | succ waits ih =>
      obtain ⟨total, continues, later⟩ := stalls.goesOn
      rw [endsFrom_succ_iff continues]
      exact ih later

/-- A drain that does not stall ends.  Every response with bytes takes some of the room
that the limit leaves, and the first outcome other than an empty response comes closer
with every empty one. -/
theorem endsFrom_of_not_stallsFrom (within : drained ≤ maxDrainBytes)
    (moving : ¬StallsFrom drained outcomes) : ∃ waits, EndsFrom drained outcomes waits := by
  generalize left : maxDrainBytes - drained = room
  induction room using Nat.strongRecOn generalizing drained outcomes with
  | ind room shorter =>
      have loud : ∃ index, outcomes index ≠ .ok (.response []) := by
        by_contra silent
        exact moving ⟨[], within, fun index inside => absurd inside (Nat.not_lt_zero index),
          fun later _ => of_not_not fun other => silent ⟨later, other⟩⟩
      obtain ⟨index, loud⟩ := loud
      induction index generalizing outcomes with
      | zero =>
          cases continues : PrinterSdk.Native.goesOn drained (outcomes 0) with
          | none => exact ⟨1, (endsFrom_iff continues).mpr rfl⟩
          | some total =>
              have still : ¬StallsFrom total outcomes.tail :=
                fun stalls => moving (stallsFrom_tail continues stalls)
              obtain ⟨bytes, reported, fits, rfl⟩ := goesOn_eq_some.mp continues
              have some : bytes ≠ [] := by
                rintro rfl
                exact loud reported
              have longer : 0 < bytes.length := List.length_pos_iff.mpr some
              obtain ⟨waits, ends⟩ := shorter (maxDrainBytes - (drained + bytes.length))
                (by omega) fits still rfl
              exact ⟨waits + 1, (endsFrom_succ_iff continues).mpr ends⟩
      | succ index ih =>
          cases continues : PrinterSdk.Native.goesOn drained (outcomes 0) with
          | none => exact ⟨1, (endsFrom_iff continues).mpr rfl⟩
          | some total =>
              have still : ¬StallsFrom total outcomes.tail :=
                fun stalls => moving (stallsFrom_tail continues stalls)
              have ends : ∃ waits, EndsFrom total outcomes.tail waits := by
                obtain ⟨bytes, reported, fits, rfl⟩ := goesOn_eq_some.mp continues
                by_cases none : bytes = []
                · rw [none] at still ⊢
                  exact ih still loud
                · have longer : 0 < bytes.length := List.length_pos_iff.mpr none
                  exact shorter (maxDrainBytes - (drained + bytes.length)) (by omega) fits still
                    rfl
              obtain ⟨waits, ends⟩ := ends
              exact ⟨waits + 1, (endsFrom_succ_iff continues).mpr ends⟩

/-- Every wait that goes on takes a byte of the limit or is one of the empty ones. -/
theorem EndsFrom.waits_le (ends : EndsFrom drained outcomes waits)
    (within : drained ≤ maxDrainBytes) :
    drained + waits ≤ maxDrainBytes + 1 + outcomes.emptyResponses waits := by
  induction waits generalizing drained outcomes with
  | zero => exact absurd ends not_endsFrom_zero
  | succ waits ih =>
      cases continues : PrinterSdk.Native.goesOn drained (outcomes 0) with
      | none =>
          have once : waits + 1 = 1 := (endsFrom_iff continues).mp ends
          omega
      | some total =>
          have bound := ih ((endsFrom_succ_iff continues).mp ends)
          obtain ⟨bytes, reported, fits, rfl⟩ := goesOn_eq_some.mp continues
          rw [outcomes.emptyResponses_succ, reported]
          have later := bound fits
          by_cases none : bytes = []
          · rw [if_pos (by rw [none])]
            omega
          · have longer : 0 < bytes.length := List.length_pos_iff.mpr none
            omega

end

theorem Outcomes.emptyResponses_eq_zero {outcomes : Outcomes}
    (loud : ∀ index, outcomes index ≠ .ok (.response [])) (waits : Nat) :
    outcomes.emptyResponses waits = 0 := by
  apply List.countP_eq_zero.mpr
  intro index _
  rw [decide_eq_true_eq]
  exact loud index

/-- A drain returns unless the transport comes to report only responses without bytes, and
it waits at most once more than the limit has bytes beside the waits that report nothing.
So it is bounded by the limit where no response is empty. -/
theorem drain_ends_iff (outcomes : Outcomes) :
    ((∃ waits, DrainEnds outcomes waits) ↔ ¬Stalls outcomes) ∧
      (∀ waits, DrainEnds outcomes waits →
        waits ≤ maxDrainBytes + 1 + outcomes.emptyResponses waits) ∧
      ((∀ index, outcomes index ≠ .ok (.response [])) →
        ∃ waits, waits ≤ maxDrainBytes + 1 ∧ DrainEnds outcomes waits) := by
  have within : 0 ≤ maxDrainBytes := Nat.zero_le _
  have bound : ∀ waits, DrainEnds outcomes waits →
      waits ≤ maxDrainBytes + 1 + outcomes.emptyResponses waits := by
    intro waits ends
    have paid := ends.waits_le within
    rwa [Nat.zero_add] at paid
  refine ⟨?_, bound, ?_⟩
  · constructor
    · rintro ⟨waits, ends⟩ stalls
      exact stalls.not_ends waits ends
    · exact endsFrom_of_not_stallsFrom within
  · intro loud
    have moving : ¬Stalls outcomes := by
      rintro ⟨received, -, -, after⟩
      exact loud received.length (after _ le_rfl)
    obtain ⟨waits, ends⟩ := endsFrom_of_not_stallsFrom within moving
    have paid := bound waits ends
    rw [Outcomes.emptyResponses_eq_zero loud] at paid
    exact ⟨waits, paid, ends⟩

/-- A transport that reports nothing but responses without bytes. -/
def silentOutcomes : Outcomes := fun _ => .ok (.response [])

theorem silent_transport_never_drained :
    ¬∃ bound : Nat → Nat, ∀ outcomes : Outcomes,
      ∃ waits, waits ≤ bound maxDrainBytes ∧ DrainEnds outcomes waits := by
  rintro ⟨bound, bounded⟩
  obtain ⟨waits, -, ends⟩ := bounded silentOutcomes
  have stalls : Stalls silentOutcomes :=
    ⟨[], Nat.zero_le _, fun index inside => absurd inside (Nat.not_lt_zero index),
      fun _ _ => rfl⟩
  exact stalls.not_ends waits ends

end PrinterSdk.Native
