import PrinterSdk.Label.Template

/-!
# Expansion of templates

What a template stands for is said without the loop and its limits: literal text stands for
itself, and an expression for its value.  The loop returns an expansion, and a limit on the
part of it that ends with the last expression.
-/

namespace PrinterSdk.Label

open PrinterSdk.Data PrinterSdk.Brother
open PrinterSdk.Render (utf8Length)

/-! ## Lengths -/

theorem utf8Length_append (left right : Characters) :
    utf8Length (left ++ right) = utf8Length left + utf8Length right := by
  unfold utf8Length
  rw [List.map_append, List.sum_append]

@[simp] theorem utf8Length_nil : utf8Length [] = 0 := rfl

theorem utf8Length_le_append (left right : Characters) :
    utf8Length left ≤ utf8Length (left ++ right) := by
  rw [utf8Length_append]
  exact Nat.le_add_right _ _

/-! ## Expansion -/

/-- The template expands to a text that ends with its last expression, and has a literal
text behind that. -/
inductive Expands (casing : Casing) (context : TemplateContext) :
    Characters → Characters → Characters → Prop where
  | literal {template : Characters} :
      splitAtPair '{' '{' template = none → Expands casing context template [] template
  | expression {template literal after body later value expanded trailing : Characters} :
      splitAtPair '{' '{' template = some (literal, after) →
      splitAtPair '}' '}' after = some (body, later) →
      expressionValue casing context body = .ok value →
      Expands casing context later expanded trailing →
      Expands casing context template (literal ++ value ++ expanded) trailing

section

variable {casing : Casing} {context : TemplateContext}
variable {template expanded trailing out result : Characters}

/-- The shape of an expansion follows the first pair of braces. -/
theorem expands_of_none (none : splitAtPair '{' '{' template = none) :
    Expands casing context template expanded trailing ↔ expanded = [] ∧ trailing = template := by
  constructor
  · intro expands
    cases expands with
    | literal _ => exact ⟨rfl, rfl⟩
    | expression opened _ _ _ =>
        rw [none] at opened
        cases opened
  · intro same
    rw [same.1, same.2]
    exact .literal none

theorem expands_of_expression {literal after body later : Characters}
    (opened : splitAtPair '{' '{' template = some (literal, after))
    (closed : splitAtPair '}' '}' after = some (body, later)) :
    Expands casing context template expanded trailing ↔
      ∃ value rest, expressionValue casing context body = .ok value ∧
        Expands casing context later rest trailing ∧ literal ++ value ++ rest = expanded := by
  constructor
  · intro expands
    cases expands with
    | literal none =>
        rw [opened] at none
        cases none
    | expression found ended valued expands =>
        rw [opened] at found
        cases found
        rw [closed] at ended
        cases ended
        exact ⟨_, _, valued, expands, rfl⟩
  · intro expands
    obtain ⟨value, rest, valued, expands, rfl⟩ := expands
    exact .expression opened closed valued expands

/-- The loop returns what the template expands to, when the bytes up to the last expression
are within the limit. -/
theorem evaluateLoop_eq_ok (within : utf8Length out ≤ templateLimit) :
    evaluateLoop casing context out template = .ok result ↔
      ∃ expanded trailing, Expands casing context template expanded trailing ∧
        utf8Length (out ++ expanded) ≤ templateLimit ∧ out ++ expanded ++ trailing = result := by
  fun_induction evaluateLoop casing context out template with
  | case1 out template none =>
      simp only [expands_of_none none, Except.ok.injEq]
      constructor
      · intro same
        exact ⟨[], template, ⟨rfl, rfl⟩, by rwa [List.append_nil], by rwa [List.append_nil]⟩
      · intro expands
        obtain ⟨_, _, ⟨rfl, rfl⟩, -, same⟩ := expands
        rwa [List.append_nil] at same
  | case2 out template literal after opened none =>
      constructor
      · intro failed
        cases failed
      · intro expands
        obtain ⟨_, _, expands, -⟩ := expands
        cases expands with
        | literal absent =>
            rw [opened] at absent
            cases absent
        | expression found closed _ _ =>
            rw [opened] at found
            cases found
            rw [none] at closed
            cases closed
  | case3 out template literal after opened body later closed ih =>
      simp only [expands_of_expression opened closed, except_bind_eq_ok, refuseIf_eq_ok]
      constructor
      · intro returned
        obtain ⟨value, valued, _, small, returned⟩ := returned
        obtain ⟨rest, trailing, expands, bounded, joined⟩ :=
          (ih value (Nat.le_of_not_lt small)).mp returned
        have regroup : out ++ (literal ++ value ++ rest) = out ++ literal ++ value ++ rest := by
          simp only [List.append_assoc]
        refine ⟨_, trailing, ⟨value, rest, valued, expands, rfl⟩, ?_, ?_⟩
        · rwa [regroup]
        · rwa [regroup]
      · intro expands
        obtain ⟨_, trailing, ⟨value, rest, valued, expands, rfl⟩, bounded, joined⟩ := expands
        have regroup : out ++ (literal ++ value ++ rest) = out ++ literal ++ value ++ rest := by
          simp only [List.append_assoc]
        rw [regroup] at bounded joined
        have small := Nat.le_trans (utf8Length_le_append (out ++ literal ++ value) rest) bounded
        exact ⟨value, valued, (), Nat.not_lt.mpr small,
          (ih value small).mpr ⟨rest, trailing, expands, bounded, joined⟩⟩

/-- A template that is short enough is evaluated to its expansion. -/
theorem evaluateWithContext_eq_ok :
    evaluateWithContext casing context template = .ok result ↔
      utf8Length template ≤ templateLimit ∧
        ∃ expanded trailing, Expands casing context template expanded trailing ∧
          utf8Length expanded ≤ templateLimit ∧ expanded ++ trailing = result := by
  have start : utf8Length [] ≤ templateLimit := Nat.zero_le _
  rw [evaluateWithContext, except_bind_eq_ok]
  simp only [refuseIf_eq_ok, GT.gt, Nat.not_lt, evaluateLoop_eq_ok start, List.nil_append]
  constructor
  · intro returned
    obtain ⟨_, short, expands⟩ := returned
    exact ⟨short, expands⟩
  · intro returned
    exact ⟨(), returned⟩

/-! ## Composition -/

/-- A template that does not end in half a pair does not do so behind an expression. -/
theorem not_straddles_later {second literal after body later : Characters}
    (opened : splitAtPair '{' '{' template = some (literal, after))
    (closed : splitAtPair '}' '}' after = some (body, later))
    (apart : ¬Straddles '{' '{' template second) : ¬Straddles '{' '{' later second := by
  intro straddles
  apply apart
  have regroup : literal ++ '{' :: '{' :: (body ++ '}' :: '}' :: later) =
      literal ++ '{' :: '{' :: (body ++ ['}', '}']) ++ later := by
    simp only [List.append_assoc, List.cons_append, List.nil_append]
  rw [splitAtPair_eq_some opened, splitAtPair_eq_some closed, regroup]
  exact straddles.of_suffix

/-- Templates that do not meet in the middle of an opening pair expand one after the
other. -/
theorem Expands.append {second further trailer : Characters}
    (expands : Expands casing context template expanded trailing)
    (again : Expands casing context second further trailer)
    (apart : ¬Straddles '{' '{' template second) :
    ∃ whole last, Expands casing context (template ++ second) whole last ∧
      whole ++ last = expanded ++ trailing ++ (further ++ trailer) := by
  induction expands with
  | literal none =>
      have opens := splitAtPair_append_of_none none apart
      cases again with
      | literal absent =>
          rw [absent] at opens
          exact ⟨[], _, .literal opens, rfl⟩
      | expression opened closed valued expands =>
          rw [opened] at opens
          refine ⟨_, _, .expression opens closed valued expands, ?_⟩
          simp only [List.append_assoc, List.nil_append]
  | expression opened closed valued _ ih =>
      obtain ⟨whole, last, joined, same⟩ := ih (not_straddles_later opened closed apart)
      refine ⟨_, last, .expression (splitAtPair_append opened second)
        (splitAtPair_append closed second) valued joined, ?_⟩
      rw [List.append_assoc, same]
      simp only [List.append_assoc]

/-- A name between double braces expands to the value of the field, as it is. -/
theorem expands_field {body : Characters} {value : String} (unclosed : '}' ∉ body) (plain : '|' ∉ body)
    (field : trim body ≠ "@date".toList)
    (found : context.fields.get (String.ofList (trim body)) = some value) :
    Expands casing context ("\x7b\x7b".toList ++ body ++ "\x7d\x7d".toList) value.toList [] := by
  have closed : splitAtPair '}' '}' (body ++ "\x7d\x7d".toList) = some (body, []) := by
    have ends : splitAtPair '}' '}' "\x7d\x7d".toList = some ([], []) := rfl
    rw [splitAtPair_append_of_none (splitAtPair_of_free unclosed), ends, Option.map_some,
      List.append_nil]
    · intro straddles
      exact unclosed (List.mem_of_getLast? straddles.1)
  have valued : expressionValue casing context body = .ok value.toList := by
    rw [expressionValue, List.splitOn_eq_singleton plain]
    change (fieldValue context (trim body) [] >>= fun value => .ok value) = _
    rw [fieldValue, if_neg field, found]
    rfl
  have opened : splitAtPair '{' '{' ("\x7b\x7b".toList ++ body ++ "\x7d\x7d".toList) =
      some ([], body ++ "\x7d\x7d".toList) := rfl
  have whole := Expands.expression opened closed valued (.literal rfl)
  rwa [List.nil_append, List.append_nil] at whole

/-- Templates that do not meet in the middle of an opening pair are evaluated one after the
other. -/
theorem evaluateWithContext_ok_append {first second one two : Characters}
    (before : evaluateWithContext casing context first = .ok one)
    (behind : evaluateWithContext casing context second = .ok two)
    (apart : ¬Straddles '{' '{' first second)
    (short : utf8Length (first ++ second) ≤ templateLimit)
    (small : utf8Length (one ++ two) ≤ templateLimit) :
    evaluateWithContext casing context (first ++ second) = .ok (one ++ two) := by
  obtain ⟨-, expanded, trailing, expands, -, rfl⟩ := evaluateWithContext_eq_ok.mp before
  obtain ⟨-, further, trailer, again, -, rfl⟩ := evaluateWithContext_eq_ok.mp behind
  obtain ⟨whole, last, joined, same⟩ := expands.append again apart
  apply evaluateWithContext_eq_ok.mpr
  refine ⟨short, whole, last, joined, ?_, same⟩
  calc utf8Length whole ≤ utf8Length (whole ++ last) := utf8Length_le_append whole last
    _ ≤ templateLimit := by rwa [same]

/-- A reference to a field is evaluated to its value, as it is. -/
theorem evaluateWithContext_field {body : Characters} {value : String} (unclosed : '}' ∉ body)
    (plain : '|' ∉ body) (field : trim body ≠ "@date".toList)
    (found : context.fields.get (String.ofList (trim body)) = some value)
    (short : utf8Length ("\x7b\x7b".toList ++ body ++ "\x7d\x7d".toList) ≤ templateLimit)
    (small : utf8Length value.toList ≤ templateLimit) :
    evaluateWithContext casing context ("\x7b\x7b".toList ++ body ++ "\x7d\x7d".toList) =
      .ok value.toList := by
  apply evaluateWithContext_eq_ok.mpr
  exact ⟨short, _, [], expands_field unclosed plain field found, small, List.append_nil _⟩

end

/-- Evaluation is compositional, and the value of a field stands in the output as it is. -/
theorem evaluateWithContext_append (casing : Casing) (context : TemplateContext) :
    (∀ first second one two : Characters,
      evaluateWithContext casing context first = .ok one →
      evaluateWithContext casing context second = .ok two →
      ¬Straddles '{' '{' first second →
      utf8Length (first ++ second) ≤ templateLimit →
      utf8Length (one ++ two) ≤ templateLimit →
      evaluateWithContext casing context (first ++ second) = .ok (one ++ two)) ∧
    ∀ (first second one two body : Characters) (value : String),
      evaluateWithContext casing context first = .ok one →
      evaluateWithContext casing context second = .ok two →
      first.getLast? ≠ some '{' →
      '}' ∉ body → '|' ∉ body → trim body ≠ "@date".toList →
      context.fields.get (String.ofList (trim body)) = some value →
      utf8Length (first ++ ("\x7b\x7b".toList ++ body ++ "\x7d\x7d".toList) ++ second) ≤ templateLimit →
      utf8Length (one ++ value.toList ++ two) ≤ templateLimit →
      evaluateWithContext casing context
        (first ++ ("\x7b\x7b".toList ++ body ++ "\x7d\x7d".toList) ++ second) =
          .ok (one ++ value.toList ++ two) := by
  constructor
  · intro first second one two before behind apart short small
    exact evaluateWithContext_ok_append before behind apart short small
  · intro first second one two body value before behind closed unclosed plain field found short
      small
    have partly := Nat.le_trans (utf8Length_le_append _ second) short
    have less := Nat.le_trans (utf8Length_le_append _ two) small
    have reference : evaluateWithContext casing context ("\x7b\x7b".toList ++ body ++ "\x7d\x7d".toList) =
        .ok value.toList := by
      apply evaluateWithContext_field unclosed plain field found
      · rw [utf8Length_append] at partly
        omega
      · rw [utf8Length_append] at less
        omega
    have joined := evaluateWithContext_ok_append before reference
      (fun straddles => closed straddles.1) partly less
    apply evaluateWithContext_ok_append joined behind _ short small
    intro straddles
    have last : (first ++ ("\x7b\x7b".toList ++ body ++ "\x7d\x7d".toList)).getLast? = some '}' := by
      rw [List.getLast?_append, List.getLast?_append]
      rfl
    rw [Straddles, last] at straddles
    exact absurd straddles.1 (by decide)

/-- The letter `a`, as the name of a field. -/
def fieldA (value : String) : TemplateContext :=
  ⟨⟨[("a", value)], List.pairwise_singleton _ _⟩, [], []⟩

/-- The case mappings that change nothing. -/
def plainCasing : Casing := ⟨id, id⟩

theorem evaluateWithContext_append_braces :
    evaluateWithContext plainCasing (fieldA "\x7d\x7d|\x7b\x7b") "x\x7b\x7b a \x7d\x7dy".toList =
      .ok "x\x7d\x7d|\x7b\x7by".toList := by
  have literal (letter : Char) :
      evaluateWithContext plainCasing (fieldA "\x7d\x7d|\x7b\x7b") [letter] = .ok [letter] := by
    apply evaluateWithContext_eq_ok.mpr
    have short : utf8Length [letter] ≤ templateLimit := by
      have small := letter.utf8Size_le_four
      simp only [utf8Length, List.map_cons, List.map_nil, List.sum_cons, List.sum_nil]
      exact Nat.le_trans small (by decide)
    exact ⟨short, [], _, .literal rfl, Nat.zero_le _, rfl⟩
  exact (evaluateWithContext_append plainCasing (fieldA "\x7d\x7d|\x7b\x7b")).2 ['x'] ['y'] ['x']
    ['y'] " a ".toList "\x7d\x7d|\x7b\x7b" (literal 'x') (literal 'y')
    (by decide) (by decide) (by decide) (by decide) rfl (by decide) (by decide)

/-! ## The bound on the output -/

/-- The literal texts of a template with the expressions behind them, and the literal text
behind the last one. -/
def pieces (template : Characters) : Option (List (Characters × Characters) × Characters) :=
  match _opened : splitAtPair '{' '{' template with
  | none => some ([], template)
  | some (literal, after) =>
      match _closed : splitAtPair '}' '}' after with
      | none => none
      | some (body, later) =>
          (pieces later).map fun parts => ((literal, body) :: parts.1, parts.2)
termination_by template.length
decreasing_by
  rw [splitAtPair_eq_some _opened, splitAtPair_eq_some _closed]
  simp only [List.length_append, List.length_cons]
  omega

section

variable (casing : Casing) (context : TemplateContext)

/-- The bytes of the value of an expression. -/
def valueLength (body : Characters) : Nat :=
  match expressionValue casing context body with
  | .ok value => utf8Length value
  | .error _ => 0

/-- The bytes of literal texts and of the values behind them. -/
def spentLength (expressions : List (Characters × Characters)) : Nat :=
  (expressions.map fun piece => utf8Length piece.1 + valueLength casing context piece.2).sum

variable {casing context}

theorem pieces_of_none {template : Characters} (none : splitAtPair '{' '{' template = none) :
    pieces template = some ([], template) := by
  rw [pieces]
  split
  · rfl
  · next opened =>
      rw [none] at opened
      cases opened

theorem pieces_of_expression {template literal after body later : Characters}
    (opened : splitAtPair '{' '{' template = some (literal, after))
    (closed : splitAtPair '}' '}' after = some (body, later)) :
    pieces template =
      (pieces later).map fun parts => ((literal, body) :: parts.1, parts.2) := by
  rw [pieces]
  split
  · next none =>
      rw [none] at opened
      cases opened
  · next found =>
      rw [opened] at found
      cases found
      split
      · next none =>
          rw [none] at closed
          cases closed
      · next ended =>
          rw [closed] at ended
          cases ended
          rfl

/-- An expansion has the bytes of its pieces. -/
theorem Expands.pieces {template expanded trailing : Characters}
    (expands : Expands casing context template expanded trailing) :
    ∃ expressions, pieces template = some (expressions, trailing) ∧
      utf8Length expanded = spentLength casing context expressions := by
  induction expands with
  | literal none => exact ⟨[], pieces_of_none none, rfl⟩
  | @expression _ literal _ body _ _ _ _ opened closed valued _ ih =>
      obtain ⟨expressions, parts, counted⟩ := ih
      refine ⟨(literal, body) :: expressions, ?_, ?_⟩
      · rw [pieces_of_expression opened closed, parts]
        rfl
      · have spent : spentLength casing context ((literal, body) :: expressions) =
            utf8Length literal + valueLength casing context body +
              spentLength casing context expressions := rfl
        rw [utf8Length_append, utf8Length_append, counted, spent, valueLength, valued]

end

end PrinterSdk.Label
