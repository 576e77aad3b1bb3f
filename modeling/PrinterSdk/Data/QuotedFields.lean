import Mathlib.Data.List.Forall2
import Mathlib.Data.List.Infix

/-!
# Quoted fields

The fields of a line are separated by commas.  A field may stand in quotes, with the quotes
in it doubled, and a comma in quotes separates nothing.
-/

namespace PrinterSdk.Data

variable {α : Type} [DecidableEq α] (quote comma : α)

/-! ## Writing -/

/-- A field with its quotes doubled. -/
def doubled (field : List α) : List α :=
  field.flatMap fun item => if item = quote then [quote, quote] else [item]

/-- A field in quotes. -/
def quotedField (field : List α) : List α := quote :: (doubled quote field ++ [quote])

/-- The texts that stand for a field: the quoted field, or the field as it is when it has
neither quotes nor commas. -/
inductive Written (field : List α) : List α → Prop where
  | quoted : Written field (quotedField quote field)
  | plain : quote ∉ field → comma ∉ field → Written field field

/-! ## Reading -/

/-- The fields of a line, from inside or outside of quotes and with what is read of the first
field.  Two quotes in quotes are one of the field. -/
def readFields : Bool → List α → List α → List (List α)
  | _, field, [] => [field]
  | quoted, field, [last] =>
      if last = quote then [field]
      else if last = comma ∧ quoted = false then [field, []]
      else [field ++ [last]]
  | quoted, field, item :: next :: rest =>
      if item = quote then
        if next = quote ∧ quoted = true then readFields true (field ++ [quote]) rest
        else readFields (!quoted) field (next :: rest)
      else if item = comma ∧ quoted = false then field :: readFields false [] (next :: rest)
      else readFields quoted (field ++ [item]) (next :: rest)

variable {quote comma} {field rest : List α}

theorem readFields_double :
    readFields quote comma true field (quote :: quote :: rest) =
      readFields quote comma true (field ++ [quote]) rest := by
  rw [readFields, if_pos rfl, if_pos ⟨rfl, rfl⟩]

theorem readFields_open :
    readFields quote comma false field (quote :: rest) =
      readFields quote comma true field rest := by
  cases rest with
  | nil => exact if_pos rfl
  | cons next rest =>
      rw [readFields, if_pos rfl, if_neg fun closed => Bool.false_ne_true closed.2]
      rfl

theorem readFields_close (closes : rest.head? ≠ some quote) :
    readFields quote comma true field (quote :: rest) =
      readFields quote comma false field rest := by
  cases rest with
  | nil => exact if_pos rfl
  | cons next rest =>
      rw [readFields, if_pos rfl, if_neg fun double => closes (congrArg some double.1)]
      rfl

theorem readFields_comma (different : comma ≠ quote) :
    readFields quote comma false field (comma :: rest) =
      field :: readFields quote comma false [] rest := by
  cases rest with
  | nil => exact (if_neg different).trans (if_pos ⟨rfl, rfl⟩)
  | cons next rest => rw [readFields, if_neg different, if_pos ⟨rfl, rfl⟩]

theorem readFields_item {quoted : Bool} {item : α} (noQuote : item ≠ quote)
    (noComma : ¬(item = comma ∧ quoted = false)) :
    readFields quote comma quoted field (item :: rest) =
      readFields quote comma quoted (field ++ [item]) rest := by
  cases rest with
  | nil => exact (if_neg noQuote).trans (if_neg noComma)
  | cons next rest => rw [readFields, if_neg noQuote, if_neg noComma]

/-! ## Reading what is written -/

/-- A field without quotes and commas is read as it is. -/
theorem readFields_plain {text : List α} (noQuote : quote ∉ text) (noComma : comma ∉ text) :
    readFields quote comma false field (text ++ rest) =
      readFields quote comma false (field ++ text) rest := by
  induction text generalizing field with
  | nil => rw [List.nil_append, List.append_nil]
  | cons item text ih =>
      rw [List.mem_cons, not_or] at noQuote noComma
      rw [List.cons_append, readFields_item (Ne.symm noQuote.1) fun pair => noComma.1 pair.1.symm,
        ih noQuote.2 noComma.2, List.append_assoc]
      rfl

/-- A field with doubled quotes is read up to the quote behind it. -/
theorem readFields_doubled (text : List α) (closes : rest.head? ≠ some quote) :
    readFields quote comma true field (doubled quote text ++ quote :: rest) =
      readFields quote comma false (field ++ text) rest := by
  induction text generalizing field with
  | nil =>
      rw [List.append_nil]
      exact readFields_close closes
  | cons item text ih =>
      have split : doubled quote (item :: text) =
          (if item = quote then [quote, quote] else [item]) ++ doubled quote text := rfl
      by_cases double : item = quote
      · rw [split, if_pos double, List.cons_append, List.singleton_append, List.cons_append,
          List.cons_append, readFields_double, ih, double, List.append_assoc]
        rfl
      · have inside : ¬(item = comma ∧ true = false) := fun pair => Bool.noConfusion pair.2
        rw [split, if_neg double, List.singleton_append, List.cons_append,
          readFields_item double inside, ih, List.append_assoc]
        rfl

/-- A written field is read before a text that does not begin with a quote. -/
theorem readFields_written {text : List α} (written : Written quote comma field text)
    (closes : rest.head? ≠ some quote) :
    readFields quote comma false [] (text ++ rest) = readFields quote comma false field rest := by
  cases written with
  | quoted =>
      have text : quotedField quote field ++ rest = quote :: (doubled quote field ++ quote :: rest) := by
        rw [quotedField, List.cons_append, List.append_assoc]
        rfl
      rw [text, readFields_open, readFields_doubled field closes, List.nil_append]
  | plain noQuote noComma => rw [readFields_plain noQuote noComma, List.nil_append]

/-- Fields that are written between commas are read back. -/
theorem readFields_intercalate (different : comma ≠ quote) {fields texts : List (List α)}
    (written : List.Forall₂ (Written quote comma) fields texts) (filled : fields ≠ []) :
    readFields quote comma false [] ([comma].intercalate texts) = fields := by
  induction written with
  | nil => exact absurd rfl filled
  | @cons field text fields texts first others ih =>
      cases others with
      | nil =>
          have ends : ([] : List α).head? ≠ some quote := by simp
          rw [List.intercalate_singleton, ← List.append_nil text, readFields_written first ends]
          rfl
      | cons second later =>
          have next := ih (List.cons_ne_nil _ _)
          rw [List.intercalate_cons_cons, List.append_assoc]
          rw [readFields_written first (by simpa using different), List.singleton_append,
            readFields_comma different, next]

end PrinterSdk.Data
