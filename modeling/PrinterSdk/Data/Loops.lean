import PrinterSdk.Data.Outcome

/-!
# Counting loops

A loop `for turn in 0..count` over a state that may fail.  Its invariant is indexed by the
number of turns that are behind it.
-/

namespace PrinterSdk.Data

section

variable {ε σ : Type} {step : σ → Nat → Except ε σ} {count : Nat} {start last : σ}

/-- The last turn of a counting loop. -/
theorem countingLoop_succ (step : σ → Nat → Except ε σ) (count : Nat) (start : σ) :
    (List.range (count + 1)).foldlM step start =
      (List.range count).foldlM step start >>= fun state => step state count := by
  rw [List.range_succ, List.foldlM_append]
  simp only [List.foldlM_cons, List.foldlM_nil, bind_pure]

/-- What every turn carries one turn further holds when the loop ends. -/
theorem countingLoop_keeps (Holds : Nat → σ → Prop) (begins : Holds 0 start)
    (keeps : ∀ turn state next, turn < count → Holds turn state →
      step state turn = .ok next → Holds (turn + 1) next)
    (ended : (List.range count).foldlM step start = .ok last) : Holds count last := by
  induction count generalizing last with
  | zero =>
      rw [← (except_pure_eq_ok _ _).mp ended]
      exact begins
  | succ count ih =>
      rw [countingLoop_succ, except_bind_eq_ok] at ended
      obtain ⟨state, earlier, turned⟩ := ended
      have before := ih (fun turn state next less =>
        keeps turn state next (Nat.lt_succ_of_lt less)) earlier
      exact keeps count state last (Nat.lt_succ_self count) before turned

/-- A loop ends when every turn succeeds where the invariant holds. -/
theorem countingLoop_total (Holds : Nat → σ → Prop) (begins : Holds 0 start)
    (succeeds : ∀ turn state, turn < count → Holds turn state →
      ∃ next, step state turn = .ok next ∧ Holds (turn + 1) next) :
    ∃ last, (List.range count).foldlM step start = .ok last ∧ Holds count last := by
  induction count with
  | zero => exact ⟨start, rfl, begins⟩
  | succ count ih =>
      obtain ⟨state, earlier, before⟩ := ih fun turn state less =>
        succeeds turn state (Nat.lt_succ_of_lt less)
      obtain ⟨last, turned, after⟩ := succeeds count state (Nat.lt_succ_self count) before
      refine ⟨last, ?_, after⟩
      rw [countingLoop_succ, except_bind_eq_ok]
      exact ⟨state, earlier, turned⟩

/-- Every turn of a loop that ended was taken. -/
theorem loop_ran {α : Type} {step : σ → α → Except ε σ} {list : List α} {item : α}
    (member : item ∈ list) (ended : list.foldlM step start = .ok last) :
    ∃ state next, step state item = .ok next := by
  induction list generalizing start with
  | nil => cases member
  | cons first rest ih =>
      rw [List.foldlM_cons, except_bind_eq_ok] at ended
      obtain ⟨next, turned, later⟩ := ended
      cases member with
      | head => exact ⟨start, next, turned⟩
      | tail _ member => exact ih member later

/-- A fold whose turns succeed is the fold of what they return. -/
theorem foldl_of_foldlM {α : Type} {step : σ → α → Except ε σ} {other : σ → α → σ}
    (agrees : ∀ state item next, step state item = .ok next → other state item = next)
    {items : List α} (ended : items.foldlM step start = .ok last) :
    items.foldl other start = last := by
  induction items generalizing start with
  | nil => exact (except_pure_eq_ok _ _).mp ended
  | cons item rest ih =>
      rw [List.foldlM_cons, except_bind_eq_ok] at ended
      obtain ⟨next, turned, later⟩ := ended
      rw [List.foldl_cons, agrees start item next turned]
      exact ih later

end

/-! ## Loops that collect -/

section

variable {ε α β : Type}

/-- A loop whose turns append to what was collected before. -/
theorem foldlM_collects {step : List β → α → Except ε (List β)} (made : α → List β)
    {items : List α} (appends : ∀ out, ∀ item ∈ items, step out item = .ok (out ++ made item))
    (out : List β) : items.foldlM step out = .ok (out ++ items.flatMap made) := by
  induction items generalizing out with
  | nil => simp [pure, Except.pure]
  | cons item rest ih =>
      have first := appends out item List.mem_cons_self
      have later := ih (fun out other member => appends out other (List.mem_cons_of_mem item member))
        (out ++ made item)
      rw [List.foldlM_cons, first, List.flatMap_cons, ← List.append_assoc]
      exact later

/-- A loop that appends what some of the items give. -/
theorem flatMap_ite (keeps : α → Prop) [DecidablePred keeps] (image : α → β) (items : List α) :
    (items.flatMap fun item => if keeps item then [image item] else []) =
      (items.filter fun item => keeps item).map image := by
  induction items with
  | nil => rfl
  | cons item rest ih =>
      rw [List.flatMap_cons, ih, List.filter_cons]
      by_cases kept : keeps item
      · simp [kept]
      · simp [kept]

/-- The turns of a loop in a loop are in the order of the outer and then of the inner one. -/
theorem pairwise_zipIdx_flatMap {items : List α} {turns : α → List Nat}
    (ordered : ∀ item, (turns item).Pairwise (· < ·)) :
    (items.zipIdx.flatMap fun entry => (turns entry.1).map fun turn => (entry.2, turn)).Pairwise
      (Prod.Lex (· < ·) (· < ·)) := by
  apply List.pairwise_flatMap.mpr
  constructor
  · intro entry _
    rw [List.pairwise_map]
    exact (ordered entry.1).imp fun less => Prod.Lex.right entry.2 less
  · have indices : items.zipIdx.Pairwise fun first second => first.2 < second.2 := by
      apply List.pairwise_map.mp
      rw [List.zipIdx_map_snd]
      exact List.pairwise_lt_range'
    apply indices.imp
    intro first second before one inFirst two inSecond
    obtain ⟨turn, _, rfl⟩ := List.mem_map.mp inFirst
    obtain ⟨other, _, rfl⟩ := List.mem_map.mp inSecond
    exact Prod.Lex.left turn other before

end

/-! ## Rows of cells -/

/-- The cells of rows that are `width` wide have places of their own. -/
theorem cell_inj {width row column other further : Nat} (inside : column < width)
    (within : further < width) (same : row * width + column = other * width + further) :
    row = other ∧ column = further := by
  have filled : 0 < width := Nat.zero_lt_of_lt inside
  have quotient (row column : Nat) (inside : column < width) :
      (row * width + column) / width = row := by
    rw [Nat.mul_comm, Nat.mul_add_div filled, Nat.div_eq_of_lt inside, Nat.add_zero]
  have rows : row = other := by
    rw [← quotient row column inside, same, quotient other further within]
  rw [rows] at same
  exact ⟨rows, Nat.add_left_cancel same⟩

/-- A cell of the first `height` rows is one of their cells. -/
theorem cell_lt {width height row column : Nat} (inside : column < width) (within : row < height) :
    row * width + column < height * width := by
  calc row * width + column < row * width + width := Nat.add_lt_add_left inside _
    _ = (row + 1) * width := (Nat.succ_mul row width).symm
    _ ≤ height * width := Nat.mul_le_mul_right width within

/-- The last cell of the first rows has the largest place. -/
theorem cell_le_last {width height limit row column : Nat} (inside : column < limit)
    (within : row < height) :
    row * width + column ≤ (height - 1) * width + (limit - 1) :=
  Nat.add_le_add (Nat.mul_le_mul_right width (Nat.le_sub_one_of_lt within))
    (Nat.le_sub_one_of_lt inside)

end PrinterSdk.Data
