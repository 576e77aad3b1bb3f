/-!
# Lines that end with two characters

A text is split at every occurrence of a pair of characters.  Lines without the first of
them come back as they were written, with the text behind the last line.
-/

namespace PrinterSdk.Data

variable {α : Type} [DecidableEq α] (first second : α)

/-- Split a list at every `first` that `second` follows. -/
def splitOnPair : List α → List (List α)
  | [] => [[]]
  | [last] => [[last]]
  | item :: next :: rest =>
      if item = first ∧ next = second then
        [] :: splitOnPair rest
      else
        (splitOnPair (next :: rest)).modifyHead (item :: ·)

/-- The lines with their ends. -/
def joinLines (lines : List (List α)) : List α := lines.flatMap (· ++ [first, second])

variable {first second}

theorem splitOnPair_of_free {line : List α} (free : first ∉ line) :
    splitOnPair first second line = [line] := by
  induction line with
  | nil => rfl
  | cons item rest ih =>
      rw [List.mem_cons, not_or] at free
      cases rest with
      | nil => rfl
      | cons next rest =>
          rw [splitOnPair, if_neg fun pair => free.1 pair.1.symm, ih free.2]
          rfl

/-- A line without `first` ends at the pair behind it. -/
theorem splitOnPair_append {line : List α} (free : first ∉ line) (rest : List α) :
    splitOnPair first second (line ++ first :: second :: rest) =
      line :: splitOnPair first second rest := by
  induction line with
  | nil => exact if_pos ⟨rfl, rfl⟩
  | cons item line ih =>
      rw [List.mem_cons, not_or] at free
      have later := ih free.2
      cases line with
      | nil =>
          rw [List.nil_append] at later
          rw [List.cons_append, List.nil_append, splitOnPair,
            if_neg fun pair => free.1 pair.1.symm, later]
          rfl
      | cons next line =>
          rw [List.cons_append] at later
          rw [List.cons_append, List.cons_append, splitOnPair,
            if_neg fun pair => free.1 pair.1.symm, later]
          rfl

/-- Lines and a text behind them are split where they were joined. -/
theorem splitOnPair_joinLines {lines : List (List α)} {tail : List α}
    (free : ∀ line ∈ lines, first ∉ line) (freeTail : first ∉ tail) :
    splitOnPair first second (joinLines first second lines ++ tail) = lines ++ [tail] := by
  induction lines with
  | nil => exact splitOnPair_of_free freeTail
  | cons line lines ih =>
      obtain ⟨here, later⟩ := List.forall_mem_cons.mp free
      have joined : joinLines first second (line :: lines) ++ tail =
          line ++ first :: second :: (joinLines first second lines ++ tail) := by
        simp [joinLines]
      rw [joined, splitOnPair_append here, ih later]
      rfl

/-! ## The first pair -/

section

variable (first second)

/-- What is before and behind the first `first` that `second` follows. -/
def splitAtPair : List α → Option (List α × List α)
  | [] => none
  | [_] => none
  | item :: next :: rest =>
      if item = first ∧ next = second then
        some ([], rest)
      else
        (splitAtPair (next :: rest)).map fun parts => (item :: parts.1, parts.2)

/-- The two texts meet in the middle of a pair. -/
def Straddles (text more : List α) : Prop :=
  text.getLast? = some first ∧ more.head? = some second

end

theorem splitAtPair_eq_some {text before after : List α}
    (found : splitAtPair first second text = some (before, after)) :
    text = before ++ first :: second :: after := by
  induction text using splitAtPair.induct first second generalizing before with
  | case1 => cases found
  | case2 => cases found
  | case3 item next rest pair =>
      rw [splitAtPair, if_pos pair] at found
      cases found
      rw [pair.1, pair.2]
      rfl
  | case4 item next rest other ih =>
      rw [splitAtPair, if_neg other] at found
      obtain ⟨parts, later, rfl, rfl⟩ := by
        simpa only [Option.map_eq_some_iff, Prod.mk.injEq] using found
      rw [ih later]
      rfl

/-- The first pair stays the first one when text is appended. -/
theorem splitAtPair_append {text before after : List α}
    (found : splitAtPair first second text = some (before, after)) (more : List α) :
    splitAtPair first second (text ++ more) = some (before, after ++ more) := by
  induction text using splitAtPair.induct first second generalizing before with
  | case1 => cases found
  | case2 => cases found
  | case3 item next rest pair =>
      rw [splitAtPair, if_pos pair] at found
      cases found
      exact if_pos pair
  | case4 item next rest other ih =>
      rw [splitAtPair, if_neg other] at found
      obtain ⟨parts, later, rfl, rfl⟩ := by
        simpa only [Option.map_eq_some_iff, Prod.mk.injEq] using found
      have step := ih later
      rw [List.cons_append, List.cons_append, splitAtPair, if_neg other]
      rw [List.cons_append] at step
      rw [step]
      rfl

/-- A text without a pair does not hide one of the text behind it. -/
theorem splitAtPair_append_of_none {text more : List α}
    (none : splitAtPair first second text = none) (apart : ¬Straddles first second text more) :
    splitAtPair first second (text ++ more) =
      (splitAtPair first second more).map fun parts => (text ++ parts.1, parts.2) := by
  induction text using splitAtPair.induct first second with
  | case1 =>
      rw [List.nil_append]
      cases splitAtPair first second more <;> rfl
  | case2 last =>
      cases more with
      | nil => rfl
      | cons head rest =>
          have differs : ¬(last = first ∧ head = second) := by
            intro pair
            exact apart ⟨congrArg some pair.1, congrArg some pair.2⟩
          rw [List.cons_append, List.nil_append, splitAtPair, if_neg differs]
          rfl
  | case3 item next rest pair =>
      rw [splitAtPair, if_pos pair] at none
      cases none
  | case4 item next rest other ih =>
      rw [splitAtPair, if_neg other, Option.map_eq_none_iff] at none
      have step := ih none fun straddles => apart ⟨straddles.1, straddles.2⟩
      rw [List.cons_append, List.cons_append, splitAtPair, if_neg other]
      rw [List.cons_append] at step
      rw [step, Option.map_map]
      rfl

theorem splitAtPair_of_free {text : List α} (free : first ∉ text) :
    splitAtPair first second text = none := by
  induction text using splitAtPair.induct first second with
  | case1 => rfl
  | case2 => rfl
  | case3 item next rest pair => exact absurd (pair.1 ▸ List.mem_cons_self ..) free
  | case4 item next rest other ih =>
      rw [splitAtPair, if_neg other, ih fun member => free (List.mem_cons_of_mem _ member)]
      rfl

omit [DecidableEq α] in
/-- The end of a text is the end of what is behind its first pairs. -/
theorem Straddles.of_suffix {before text more : List α}
    (straddles : Straddles first second text more) :
    Straddles first second (before ++ text) more := by
  refine ⟨?_, straddles.2⟩
  rw [List.getLast?_append, straddles.1]
  rfl

end PrinterSdk.Data
