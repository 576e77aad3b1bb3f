import Mathlib.Data.List.Forall2
import PrinterSdk.Brother.ReportLines

/-!
# Noninterference of redacted reports

A redacted report does not depend on the values of sensitive keys as long as none of
their lines can be read as the heading of a section.  The name of a section is kept as
it stands, so a sensitive key that begins with a bracket shows its value there.
-/

namespace PrinterSdk.Brother

open PrinterSdk.Data

/-! ## Inputs that differ in secrets -/

/-- The key and the value of a line whose key is sensitive. -/
def secretParts (line : Bytes) : Option (Bytes × Bytes) :=
  (splitOnce 0x3d line).filter fun parts => sensitiveKey (decodedText parts.1)

/-- Lines that are the same up to the value of a sensitive key. -/
def SameLine (line other : Bytes) : Prop :=
  line = other ∨ ∃ key value replaced,
    secretParts line = some (key, value) ∧ secretParts other = some (key, replaced)

/-- Inputs that have the same lines up to the values of sensitive keys. -/
def SameButSecrets (data other : Bytes) : Prop :=
  List.Forall₂ SameLine (byteLines data) (byteLines other)

/-- The sensitive key of the line begins with a bracket. -/
def OpensSection (line : Bytes) : Prop :=
  ∃ key value, secretParts line = some (key, value) ∧
    (trimStart (decodedText key)).head? = some '['

/-- Every sensitive key of the input is without a value. -/
def Valueless (data : Bytes) : Prop :=
  ∀ line ∈ byteLines data, ∀ key value, secretParts line = some (key, value) → value = []

/-! ## Sensitive keys -/

theorem sensitiveKey_congr {key other : Characters}
    (same : key.filter isAsciiAlphanumeric = other.filter isAsciiAlphanumeric) :
    sensitiveKey key = sensitiveKey other := by
  unfold sensitiveKey
  rw [same]

theorem not_alphanumeric_of_whitespace {character : Char}
    (blank : isWhitespace character = true) : isAsciiAlphanumeric character = false := by
  simp only [isWhitespace, Bool.or_eq_true, Bool.and_eq_true, decide_eq_true_eq,
    beq_iff_eq] at blank
  simp only [isAsciiAlphanumeric, Bool.or_eq_false_iff, Bool.and_eq_false_iff,
    decide_eq_false_iff_not]
  omega

theorem filter_blank {space : Characters}
    (blank : ∀ character ∈ space, isWhitespace character = true) :
    space.filter isAsciiAlphanumeric = [] := by
  rw [List.filter_eq_nil_iff]
  intro character member
  simp [not_alphanumeric_of_whitespace (blank character member)]

theorem sensitiveKey_trimStart (key : Characters) :
    sensitiveKey (trimStart key) = sensitiveKey key := by
  obtain ⟨space, blank, split⟩ := trimStart_split key
  apply sensitiveKey_congr
  conv_rhs => rw [split, List.filter_append, filter_blank blank, List.nil_append]

theorem sensitiveKey_trim (key : Characters) : sensitiveKey (trim key) = sensitiveKey key := by
  obtain ⟨before, after, blank, empty, split⟩ := trim_split key
  apply sensitiveKey_congr
  conv_rhs => rw [split, List.filter_append, List.filter_append, filter_blank blank,
    filter_blank empty, List.nil_append, List.append_nil]

/-! ## Masked lines -/

/-- The line without the value of its key, when that is sensitive. -/
def maskText (line : Characters) : Characters :=
  match splitOnce '=' line with
  | none => line
  | some (key, _) => if sensitiveKey key then key ++ ['='] else line

/-- Whether the part of the line before the first equals sign is sensitive. -/
def secretText (line : Characters) : Bool :=
  (splitOnce '=' line).any fun parts => sensitiveKey parts.1

theorem secretText_iff {line : Characters} :
    secretText line = true ↔ ∃ key value, '=' ∉ key ∧ line = key ++ '=' :: value ∧
      sensitiveKey key = true := by
  unfold secretText
  rw [Option.any_eq_true]
  constructor
  · rintro ⟨⟨key, value⟩, split, sensitive⟩
    obtain ⟨free, joined⟩ := splitOnce_eq_some.mp split
    exact ⟨key, value, free, joined, sensitive⟩
  · rintro ⟨key, value, free, joined, sensitive⟩
    exact ⟨(key, value), splitOnce_eq_some.mpr ⟨free, joined⟩, sensitive⟩

theorem maskText_of_secret {key value : Characters} (free : '=' ∉ key)
    (sensitive : sensitiveKey key = true) : maskText (key ++ '=' :: value) = key ++ ['='] := by
  unfold maskText
  rw [splitOnce_append free]
  simp [sensitive]

theorem maskText_of_public {line : Characters} (shown : secretText line = false) :
    maskText line = line := by
  unfold maskText
  unfold secretText at shown
  cases split : splitOnce '=' line with
  | none => rfl
  | some parts => simp_all

theorem secretText_append (line : Characters) {tail : Characters} (free : '=' ∉ tail) :
    secretText (line ++ tail) = secretText line := by
  unfold secretText
  cases split : splitOnce '=' line with
  | none =>
      have absent := splitOnce_eq_none.mp split
      have none : splitOnce '=' (line ++ tail) = none := by
        rw [splitOnce_eq_none, List.mem_append]
        exact not_or.mpr ⟨absent, free⟩
      rw [none]
  | some parts =>
      obtain ⟨clear, rfl⟩ := splitOnce_eq_some.mp split
      rw [List.append_assoc, List.cons_append, splitOnce_append clear]
      rfl

theorem secretText_prepend {start : Characters} (line : Characters) (free : '=' ∉ start)
    (silent : start.filter isAsciiAlphanumeric = []) :
    secretText (start ++ line) = secretText line := by
  unfold secretText
  cases split : splitOnce '=' line with
  | none =>
      have absent := splitOnce_eq_none.mp split
      have none : splitOnce '=' (start ++ line) = none := by
        rw [splitOnce_eq_none, List.mem_append]
        exact not_or.mpr ⟨free, absent⟩
      rw [none]
  | some parts =>
      obtain ⟨key, value⟩ := parts
      obtain ⟨clear, rfl⟩ := splitOnce_eq_some.mp split
      have joined : '=' ∉ start ++ key := by
        rw [List.mem_append]
        exact not_or.mpr ⟨free, clear⟩
      rw [← List.append_assoc, splitOnce_append joined]
      simp only [Option.any_some]
      apply sensitiveKey_congr
      rw [List.filter_append, silent, List.nil_append]

theorem equals_not_blank {space : Characters}
    (blank : ∀ character ∈ space, isWhitespace character = true) : '=' ∉ space := by
  intro member
  have solid := blank '=' member
  revert solid
  decide

theorem secretText_trimEnd (line : Characters) :
    secretText (trimEnd line) = secretText line := by
  obtain ⟨space, blank, split⟩ := trimEnd_split line
  conv_rhs => rw [split, secretText_append _ (equals_not_blank blank)]

theorem stripReturn_split (line : Characters) :
    ∃ tail, '=' ∉ tail ∧ line = stripReturn line ++ tail := by
  unfold stripReturn
  split
  · next last =>
      obtain ⟨before, rfl⟩ := List.getLast?_eq_some_iff.mp last
      exact ⟨['\r'], by decide, by simp⟩
  · exact ⟨[], by simp, by simp⟩

theorem secretText_stripReturn (line : Characters) :
    secretText (stripReturn line) = secretText line := by
  obtain ⟨tail, free, split⟩ := stripReturn_split line
  conv_rhs => rw [split, secretText_append _ free]

theorem stripReturn_of_equals (key : Characters) : stripReturn (key ++ ['=']) = key ++ ['='] := by
  unfold stripReturn
  rw [if_neg (by simp)]

/-- Masking looks at the key only. -/
theorem maskText_append {line : Characters} (tail : Characters)
    (secret : secretText line = true) : maskText (line ++ tail) = maskText line := by
  obtain ⟨key, value, clear, rfl, sensitive⟩ := secretText_iff.mp secret
  rw [List.append_assoc, List.cons_append, maskText_of_secret clear sensitive,
    maskText_of_secret clear sensitive]

theorem maskText_ends {line : Characters} (secret : secretText line = true) :
    ∃ key, maskText line = key ++ ['='] := by
  obtain ⟨key, value, clear, rfl, sensitive⟩ := secretText_iff.mp secret
  exact ⟨key, maskText_of_secret clear sensitive⟩

theorem maskText_trimEnd (line : Characters) :
    maskText (trimEnd line) = trimEnd (maskText line) := by
  have same := secretText_trimEnd line
  cases secret : secretText line with
  | true =>
      obtain ⟨space, blank, split⟩ := trimEnd_split line
      have masked : maskText line = maskText (trimEnd line) := by
        conv_lhs => rw [split, maskText_append _ (same.trans secret)]
      obtain ⟨key, ends⟩ := maskText_ends secret
      rw [← masked, ends, trimEnd_append_of_solid _ _ (by decide)]
      rfl
  | false => rw [maskText_of_public (same.trans secret), maskText_of_public secret]

theorem maskText_stripReturn (line : Characters) :
    maskText (stripReturn line) = stripReturn (maskText line) := by
  have same := secretText_stripReturn line
  cases secret : secretText line with
  | true =>
      obtain ⟨tail, free, split⟩ := stripReturn_split line
      have masked : maskText line = maskText (stripReturn line) := by
        conv_lhs => rw [split, maskText_append _ (same.trans secret)]
      obtain ⟨key, ends⟩ := maskText_ends secret
      rw [← masked, ends, stripReturn_of_equals]
  | false => rw [maskText_of_public (same.trans secret), maskText_of_public secret]

theorem maskText_eq_nil {line : Characters} : maskText line = [] ↔ line = [] := by
  cases secret : secretText line with
  | true =>
      obtain ⟨key, ends⟩ := maskText_ends secret
      obtain ⟨own, value, clear, rfl, sensitive⟩ := secretText_iff.mp secret
      simp [ends]
  | false => rw [maskText_of_public secret]

/-- The lines of a masked report are the masked lines. -/
theorem keptLines_mask (parts : List Characters) :
    keptLines (parts.map maskText) = (keptLines parts).map maskText := by
  induction parts with
  | nil => rfl
  | cons line rest ih =>
      rw [List.map_cons, keptLines, keptLines, ih]
      by_cases dropped : keptLines rest = []
      · rw [if_pos dropped, dropped, if_pos List.map_nil, ← maskText_trimEnd]
        by_cases blank : trimEnd line = []
        · rw [if_pos blank, if_pos (maskText_eq_nil.mpr blank), List.map_nil]
        · rw [if_neg blank, if_neg (fun empty => blank (maskText_eq_nil.mp empty))]
          rfl
      · rw [if_neg dropped, if_neg (fun empty => dropped (List.map_eq_nil_iff.mp empty)),
          List.map_cons, maskText_stripReturn]

theorem redactLine_mask (line : Characters) : redactLine (maskText line) = redactLine line := by
  cases secret : secretText line with
  | true =>
      obtain ⟨key, value, clear, rfl, sensitive⟩ := secretText_iff.mp secret
      rw [maskText_of_secret clear sensitive]
      unfold redactLine
      rw [splitOnce_append clear, splitOnce_append clear]
      simp [sensitive]
  | false => rw [maskText_of_public secret]

/-! ## What a line says -/

/-- A line as the loop reads it. -/
inductive ReportLine where
  | heading (name : Characters)
  | entry (key value : Characters)
  | plain

def classify (line : Characters) : ReportLine :=
  match heading (trim line) with
  | some name => .heading name
  | none =>
      match splitOnce '=' (trim line) with
      | some (key, value) => .entry (trim key) (trim value)
      | none => .plain

def record (state : ReportState) : ReportLine → ReportState
  | .heading name => {
      sections := state.sections.alter name fun present => present.getD .empty
      current := some name }
  | .entry key value =>
      match state.current with
      | some name =>
          { state with
            sections := state.sections.alter name fun present =>
              (present.getD .empty).insert key value }
      | none => state
  | .plain => state

theorem readLine_eq (state : ReportState) (line : Characters) :
    readLine state line = record state (classify line) := by
  unfold readLine classify
  dsimp only
  cases heading (trim line) with
  | some name => rfl
  | none =>
      cases splitOnce '=' (trim line) with
      | none => cases current : state.current <;> simp [record]
      | some parts => cases current : state.current <;> simp [record, current]

def ReportState.redacted (state : ReportState) : ReportState where
  sections := state.sections.mapValues fun _ values => redactSection values
  current := state.current

def ReportLine.redacted : ReportLine → ReportLine
  | .entry key value => .entry key (if sensitiveKey key then redactedValue else value)
  | line => line

theorem redactSection_insert (values : Section) (key value : Characters) :
    redactSection (values.insert key value) =
      (redactSection values).insert key (if sensitiveKey key then redactedValue else value) := by
  unfold redactSection OrderedMap.insert
  apply OrderedMap.mapValues_alter
  intro present
  rfl

/-- Redaction of the sections is redaction of the lines they are read from. -/
theorem redacted_record (state : ReportState) (line : ReportLine) :
    (record state line).redacted = record state.redacted line.redacted := by
  have kept (present : Option Section) :
      redactSection (present.getD .empty) = (present.map redactSection).getD .empty := by
    cases present <;> rfl
  cases line with
  | heading name =>
      simp only [record, ReportState.redacted, ReportLine.redacted, ReportState.mk.injEq,
        and_true]
      exact OrderedMap.mapValues_alter kept state.sections
  | entry key value =>
      cases current : state.current with
      | none => simp [record, ReportState.redacted, ReportLine.redacted, current]
      | some name =>
          simp only [record, ReportState.redacted, ReportLine.redacted, current,
            ReportState.mk.injEq, and_true]
          apply OrderedMap.mapValues_alter
          intro present
          rw [redactSection_insert, kept]
  | plain => rfl

theorem redacted_foldl (parts : List Characters) (state : ReportState) :
    (parts.foldl readLine state).redacted =
      (parts.map fun line => (classify line).redacted).foldl record state.redacted := by
  induction parts generalizing state with
  | nil => rfl
  | cons line rest ih =>
      rw [List.foldl_cons, ih, readLine_eq, redacted_record]
      rfl

/-! ## Headings -/

theorem heading_eq_none {text : Characters} (other : text.head? ≠ some '[') :
    heading text = none := by
  unfold heading
  split
  · simp at other
  · rfl

theorem heading_of_equals (key : Characters) : heading (key ++ ['=']) = none := by
  cases key with
  | nil => rfl
  | cons first rest =>
      unfold heading
      split
      · next tail shape =>
          have same : tail = rest ++ ['='] := by
            rw [List.cons_append] at shape
            exact (List.cons.inj shape).2.symm
          simp [same]
      · rfl

/-- The line of a sensitive key, trimmed. -/
theorem trim_secret (key value : Characters) :
    trim (key ++ '=' :: value) = trimStart key ++ '=' :: trimEnd value :=
  trim_append_of_solid key value (by decide)

theorem not_mem_trimStart {character : Char} {text : Characters} (free : character ∉ text) :
    character ∉ trimStart text := by
  obtain ⟨space, -, split⟩ := trimStart_split text
  intro member
  exact free (split ▸ List.mem_append_right _ member)

/-- A sensitive key that does not begin with a bracket is read as a key. -/
theorem classify_of_secret {key value : Characters} (free : '=' ∉ key)
    (closed : (trimStart key).head? ≠ some '[') :
    classify (key ++ '=' :: value) = .entry (trim (trimStart key)) (trim (trimEnd value)) := by
  have head : (trimStart key ++ '=' :: trimEnd value).head? ≠ some '[' := by
    cases start : trimStart key with
    | nil => simp
    | cons first rest =>
        rw [start] at closed
        simpa using closed
  unfold classify
  rw [trim_secret, heading_eq_none head]
  dsimp only
  rw [splitOnce_append (not_mem_trimStart free)]

/-- The sensitive key of the line begins with a bracket. -/
def opensText (line : Characters) : Prop :=
  ∃ key value, '=' ∉ key ∧ line = key ++ '=' :: value ∧ sensitiveKey key = true ∧
    (trimStart key).head? = some '['

/-- Redacted, a line without an open bracket says what its masked line says. -/
theorem classify_mask {line : Characters} (closed : ¬opensText line) :
    (classify (maskText line)).redacted = (classify line).redacted := by
  cases secret : secretText line with
  | true =>
      obtain ⟨key, value, clear, rfl, sensitive⟩ := secretText_iff.mp secret
      have unbracketed : (trimStart key).head? ≠ some '[' := fun bracket =>
        closed ⟨key, value, clear, rfl, sensitive, bracket⟩
      have hidden : sensitiveKey (trim (trimStart key)) = true := by
        rw [sensitiveKey_trim, sensitiveKey_trimStart, sensitive]
      rw [maskText_of_secret clear sensitive, classify_of_secret clear unbracketed,
        classify_of_secret clear unbracketed]
      simp [ReportLine.redacted, hidden]
  | false => rw [maskText_of_public secret]

/-! ## Masked inputs -/

/-- The line without the value of a sensitive key. -/
def maskLine (line : Bytes) : Bytes :=
  match secretParts line with
  | some (key, _) => key ++ [0x3d]
  | none => line

/-- The input without the values of sensitive keys. -/
def mask (data : Bytes) : Bytes := [0x0a].intercalate ((byteLines data).map maskLine)

theorem secretParts_eq_some {line key value : Bytes} :
    secretParts line = some (key, value) ↔
      0x3d ∉ key ∧ line = key ++ 0x3d :: value ∧ sensitiveKey (decodedText key) = true := by
  unfold secretParts
  rw [Option.filter_eq_some_iff, splitOnce_eq_some, and_assoc]

theorem decodedText_equals (key value : Bytes) :
    decodedText (key ++ 0x3d :: value) = decodedText key ++ '=' :: decodedText value :=
  @decodedText_append 0x3d (by decide) (by decide) key value

theorem equals_not_mem {key : Bytes} (free : 0x3d ∉ key) : '=' ∉ decodedText key :=
  @not_mem_decodedText 0x3d (by decide) (by decide) key free

/-- A line has the parts of its text. -/
theorem secretText_decoded (line : Bytes) :
    secretText (decodedText line) = (secretParts line).isSome := by
  unfold secretParts secretText
  cases split : splitOnce 0x3d line with
  | none =>
      have absent := equals_not_mem (splitOnce_eq_none.mp split)
      rw [splitOnce_eq_none.mpr absent]
      rfl
  | some parts =>
      obtain ⟨key, value⟩ := parts
      obtain ⟨free, rfl⟩ := splitOnce_eq_some.mp split
      rw [decodedText_equals, splitOnce_append (equals_not_mem free)]
      cases sensitive : sensitiveKey (decodedText key) <;> simp [Option.filter, sensitive]

theorem decodedText_maskLine (line : Bytes) :
    decodedText (maskLine line) = maskText (decodedText line) := by
  unfold maskLine
  cases secret : secretParts line with
  | none =>
      have shown : secretText (decodedText line) = false := by
        rw [secretText_decoded, secret]
        rfl
      rw [maskText_of_public shown]
  | some parts =>
      obtain ⟨key, value⟩ := parts
      obtain ⟨free, rfl, sensitive⟩ := secretParts_eq_some.mp secret
      rw [decodedText_equals, decodedText_equals,
        maskText_of_secret (equals_not_mem free) sensitive]
      rfl

theorem opensText_decoded {line : Bytes} (opens : opensText (decodedText line)) :
    OpensSection line := by
  obtain ⟨key, value, free, joined, sensitive, bracket⟩ := opens
  have secret : (secretParts line).isSome = true := by
    rw [← secretText_decoded]
    exact secretText_iff.mpr ⟨key, value, free, joined, sensitive⟩
  obtain ⟨⟨own, rest⟩, parts⟩ := Option.isSome_iff_exists.mp secret
  obtain ⟨clear, rfl, -⟩ := secretParts_eq_some.mp parts
  have same := @splitOnce_append _ _ _ _ (decodedText rest) (equals_not_mem clear)
  rw [← decodedText_equals, joined, splitOnce_append free] at same
  cases same
  exact ⟨own, rest, parts, bracket⟩

theorem maskLine_starts (line : Bytes) : maskLine line <+: line := by
  unfold maskLine
  cases secret : secretParts line with
  | none => exact List.prefix_refl line
  | some parts =>
      obtain ⟨key, value⟩ := parts
      obtain ⟨-, rfl, -⟩ := secretParts_eq_some.mp secret
      exact ⟨value, by simp⟩

theorem byteLines_mask (data : Bytes) : byteLines (mask data) = (byteLines data).map maskLine := by
  unfold mask
  apply List.splitOn_intercalate
  · intro line member inside
    obtain ⟨whole, listed, rfl⟩ := List.mem_map.mp member
    exact not_mem_splitOn listed ((maskLine_starts whole).subset inside)
  · simp [byteLines]

theorem decodedLines_mask (data : Bytes) :
    (byteLines (mask data)).map decodedText =
      ((byteLines data).map decodedText).map maskText := by
  rw [byteLines_mask, List.map_map, List.map_map]
  congr 1
  funext line
  exact decodedText_maskLine line

theorem maskLine_of_same {line other : Bytes} (same : SameLine line other) :
    maskLine line = maskLine other := by
  rcases same with rfl | ⟨key, value, replaced, parts, reparts⟩
  · rfl
  · unfold maskLine
    rw [parts, reparts]

/-- Inputs that differ in secrets have one masked input. -/
theorem mask_of_same {data other : Bytes} (same : SameButSecrets data other) :
    mask data = mask other := by
  have lines : (byteLines data).map maskLine = (byteLines other).map maskLine := by
    unfold SameButSecrets at same
    generalize byteLines data = left at same ⊢
    generalize byteLines other = right at same ⊢
    induction same with
    | nil => rfl
    | cons first _ ih => rw [List.map_cons, List.map_cons, maskLine_of_same first, ih]
  unfold mask
  rw [lines]

/-- The redacted report of an input is that of the masked input, unless a sensitive
key begins with a bracket. -/
theorem redacted_mask {data : Bytes} (closed : ∀ line ∈ byteLines data, ¬OpensSection line) :
    (reportOf (mask data)).redacted = (reportOf data).redacted := by
  have text : redactText (reportOf (mask data)).text = redactText (reportOf data).text := by
    have free (input : Bytes) : ∀ part ∈ (byteLines input).map decodedText, '\n' ∉ part :=
      fun part member => newline_not_mem member
    have filled (input : Bytes) : (byteLines input).map decodedText ≠ [] := by simp [byteLines]
    unfold redactText reportOf
    dsimp only
    rw [decodedText_lines, decodedText_lines data, lines_trimEnd (filled _) (free _),
      lines_trimEnd (filled _) (free _), decodedLines_mask, keptLines_mask, List.map_map]
    congr 2
    funext line
    exact redactLine_mask line
  have sections : (((byteLines (mask data)).map decodedText).foldl readLine
        ⟨.empty, none⟩).redacted =
      (((byteLines data).map decodedText).foldl readLine ⟨.empty, none⟩).redacted := by
    rw [redacted_foldl, redacted_foldl, decodedLines_mask, List.map_map]
    congr 1
    apply List.map_congr_left
    intro line member
    obtain ⟨bytes, inside, rfl⟩ := List.mem_map.mp member
    exact classify_mask fun opens => closed bytes inside (opensText_decoded opens)
  unfold SystemReport.redacted
  rw [text]
  exact congrArg _ (congrArg ReportState.sections sections)

end PrinterSdk.Brother
