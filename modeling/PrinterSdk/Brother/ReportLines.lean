import PrinterSdk.Brother.Report

/-!
# The lines of a report

A report that begins with the marker is read line by line: its text is the decoded
lines without the blank ones at the end, and its sections depend on the trimmed lines.
-/

namespace PrinterSdk.Brother

open PrinterSdk.Data

/-- The lines of an input. -/
def byteLines (data : Bytes) : List Bytes := data.splitOn 0x0a

/-! ## Decoding -/

theorem decodedText_append {separator : UInt8} (ascii : separator < 0x80)
    (visible : Char.ofNat separator.toNat ≠ '\x00') (bytes tail : Bytes) :
    decodedText (bytes ++ separator :: tail) =
      decodedText bytes ++ Char.ofNat separator.toNat :: decodedText tail := by
  unfold decodedText
  rw [lossy_append ascii, List.filter_append, List.filter_cons, if_pos (by simpa using visible)]

theorem not_mem_decodedText {separator : UInt8} (ascii : separator < 0x80)
    (nonzero : separator ≠ 0) {bytes : Bytes} (free : separator ∉ bytes) :
    Char.ofNat separator.toNat ∉ decodedText bytes := by
  intro member
  exact not_mem_lossy ascii nonzero free (List.mem_filter.mp member).1

theorem filter_intercalate {α : Type} (keep : α → Bool) (separator : α)
    (kept : keep separator = true) (parts : List (List α)) :
    ([separator].intercalate parts).filter keep =
      [separator].intercalate (parts.map fun part => part.filter keep) := by
  induction parts with
  | nil => rfl
  | cons first rest ih =>
      cases rest with
      | nil => simp
      | cons second rest =>
          rw [List.intercalate_cons_cons, List.map_cons, List.map_cons,
            List.intercalate_cons_cons, List.filter_append, List.filter_append, ih,
            List.filter_cons, if_pos kept]
          rfl

/-- The decoded text is made of the decoded lines. -/
theorem decodedText_lines (data : Bytes) :
    decodedText data = ['\n'].intercalate ((byteLines data).map decodedText) := by
  have split := @lossy_splitOn 0x0a (by decide) data
  unfold decodedText
  rw [split, filter_intercalate _ _ (by decide), List.map_map]
  rfl

theorem not_mem_splitOn {α : Type} [DecidableEq α] {separator : α} {list part : List α}
    (member : part ∈ list.splitOn separator) : separator ∉ part := by
  induction list generalizing part with
  | nil =>
      simp only [List.splitOn_eq_splitOnP, List.splitOnP_nil, List.mem_singleton] at member
      simp [member]
  | cons first rest ih =>
      rw [List.splitOn_cons_eq_if_modifyHead] at member
      split at member
      · rcases List.mem_cons.mp member with rfl | member
        · simp
        · exact ih member
      · next different =>
          cases pieces : rest.splitOn separator with
          | nil => exact absurd pieces (List.splitOn_ne_nil _ _)
          | cons head tail =>
              rw [pieces, List.modifyHead_cons] at member
              rw [pieces] at ih
              rcases List.mem_cons.mp member with rfl | member
              · have free := ih (List.mem_cons_self ..)
                have other : separator ≠ first := fun same => different (by simp [same])
                simp [other, free]
              · exact ih (List.mem_cons_of_mem _ member)

theorem newline_not_mem {data : Bytes} {line : Characters}
    (member : line ∈ (byteLines data).map decodedText) : '\n' ∉ line := by
  obtain ⟨bytes, inside, rfl⟩ := List.mem_map.mp member
  exact @not_mem_decodedText 0x0a (by decide) (by decide) bytes (not_mem_splitOn inside)

/-! ## The text without blank lines at its end -/

/-- The lines of the trimmed text: blank lines at the end are dropped, and the last
line that is left is trimmed. -/
def keptLines : List Characters → List Characters
  | [] => []
  | line :: rest =>
      if keptLines rest = [] then (if trimEnd line = [] then [] else [trimEnd line])
      else stripReturn line :: keptLines rest

theorem lines_of_single {line : Characters} (free : '\n' ∉ line) :
    lines line = if line = [] then [] else [line] := by
  unfold lines
  rw [List.splitOn_eq_singleton free]
  rfl

theorem lines_append {line : Characters} (free : '\n' ∉ line) (rest : Characters) :
    lines (line ++ '\n' :: rest) = stripReturn line :: lines rest := by
  unfold lines
  rw [List.splitOn_append_cons_self_of_not_mem free]
  cases pieces : rest.splitOn '\n' with
  | nil => exact absurd pieces (List.splitOn_ne_nil _ _)
  | cons head tail => rfl

theorem not_mem_trimEnd {character : Char} {text : Characters} (free : character ∉ text) :
    character ∉ trimEnd text := by
  obtain ⟨space, -, split⟩ := trimEnd_split text
  intro member
  exact free (split ▸ List.mem_append_left _ member)

theorem lines_eq_nil {text : Characters} (none : lines text = []) : text = [] := by
  have joined := @List.intercalate_splitOn Char text _ _ '\n'
  unfold lines at none
  cases pieces : text.splitOn '\n' with
  | nil => exact absurd pieces (List.splitOn_ne_nil _ _)
  | cons head tail =>
      rw [pieces] at none joined
      cases tail with
      | nil =>
          rw [linesOf] at none
          split at none
          · next empty => simpa [empty] using joined.symm
          · simp at none
      | cons second tail => simp [linesOf] at none

/-- Trimming a text at its end keeps these of its lines. -/
theorem lines_trimEnd {parts : List Characters} (filled : parts ≠ [])
    (free : ∀ part ∈ parts, '\n' ∉ part) :
    lines (trimEnd (['\n'].intercalate parts)) = keptLines parts := by
  induction parts with
  | nil => exact absurd rfl filled
  | cons line rest ih =>
      have own := free line (List.mem_cons_self ..)
      have single := lines_of_single (not_mem_trimEnd own)
      cases rest with
      | nil => simpa [keptLines] using single
      | cons second rest =>
          have later := ih (List.cons_ne_nil _ _) fun part member =>
            free part (List.mem_cons_of_mem _ member)
          have feed : trimEnd ['\n'] = [] := by decide
          rw [List.intercalate_cons_cons, List.append_assoc, trimEnd_append,
            trimEnd_append ['\n'], keptLines, feed]
          by_cases blank : trimEnd (['\n'].intercalate (second :: rest)) = []
          · have dropped : keptLines (second :: rest) = [] := by
              rw [← later, blank]
              rfl
            rw [if_pos blank, if_pos rfl, if_pos dropped, single]
          · have kept : keptLines (second :: rest) ≠ [] := by
              rw [← later]
              exact fun none => blank (lines_eq_nil none)
            rw [if_neg blank, if_neg (by simp), if_neg kept, List.singleton_append,
              lines_append own, later]

/-! ## The sections -/

theorem readLine_congr (state : ReportState) {line other : Characters}
    (same : trim line = trim other) : readLine state line = readLine state other := by
  unfold readLine
  rw [same]

theorem readLine_blank (state : ReportState) {line : Characters} (blank : trimEnd line = []) :
    readLine state line = state := by
  have empty : trim line = trim [] := by
    rw [← trim_trimEnd, blank]
  rw [readLine_congr state empty]
  obtain ⟨sections, current⟩ := state
  cases current <;> rfl

/-- The lines that trimming drops do not matter to the sections. -/
theorem foldl_keptLines (parts : List Characters) (state : ReportState) :
    (keptLines parts).foldl readLine state = parts.foldl readLine state := by
  induction parts generalizing state with
  | nil => rfl
  | cons line rest ih =>
      rw [List.foldl_cons, ← ih, keptLines]
      by_cases dropped : keptLines rest = []
      · rw [if_pos dropped, dropped]
        by_cases blank : trimEnd line = []
        · rw [if_pos blank, readLine_blank state blank]
        · rw [if_neg blank]
          exact readLine_congr state (trim_trimEnd line)
      · rw [if_neg dropped, List.foldl_cons, readLine_congr state (trim_stripReturn line)]

/-! ## Reading a report that begins with the marker -/

/-- The input begins with the report marker. -/
def BeginsWithMarker (data : Bytes) : Prop := asBytes systemReportMarker <+: data

/-- What is read of an input that begins with the marker. -/
def reportOf (data : Bytes) : SystemReport where
  text := trimEnd (decodedText data)
  sections := (((byteLines data).map decodedText).foldl readLine ⟨.empty, none⟩).sections

theorem decodedText_marker {data : Bytes} (begins : BeginsWithMarker data) :
    systemReportMarker.toList <+: decodedText data := by
  have visible (bytes : Bytes) (ascii : ∀ byte ∈ bytes, byte < 0x80 ∧ byte ≠ 0) (tail : Bytes) :
      decodedText (bytes ++ tail) = bytes.map (fun byte => Char.ofNat byte.toNat) ++
        decodedText tail := by
    induction bytes with
    | nil => rfl
    | cons first rest ih =>
        have own := ascii first (List.mem_cons_self ..)
        have later := ih fun byte member => ascii byte (List.mem_cons_of_mem _ member)
        have shown : Char.ofNat first.toNat ≠ '\x00' := by
          intro zero
          have scalar := congrArg Char.toNat zero
          rw [toNat_ofNat_ascii own.1] at scalar
          exact own.2 (UInt8.toNat_inj.mp scalar)
        have split := decodedText_append own.1 shown [] (rest ++ tail)
        rw [List.nil_append] at split
        rw [List.cons_append, split, later]
        rfl
  obtain ⟨tail, rfl⟩ := begins
  rw [visible _ (by decide +kernel) tail]
  exact ⟨decodedText tail, by congr 1⟩

theorem findText_of_starts {needle text : Characters} (starts : needle <+: text) :
    findText needle text = some text := by
  cases text with
  | nil => simp [findText, List.prefix_nil.mp starts]
  | cons first rest => rw [findText, if_pos starts]

theorem trim_of_marker {text : Characters} (starts : systemReportMarker.toList <+: text) :
    trim text = trimEnd text := by
  obtain ⟨tail, rfl⟩ := starts
  have solid : isWhitespace '<' = false := by decide
  have split : systemReportMarker.toList ++ tail =
      '<' :: ("<PRINTER CONFIGURATION>>".toList ++ tail) := rfl
  rw [trim, split, trimStart_cons_of_solid _ solid]

/-- The text and the sections of a report that begins with the marker. -/
theorem parseSystemReport_of_begins {data : Bytes} (begins : BeginsWithMarker data) :
    parseSystemReport data =
      if data.length > maxSystemReportBytes then .error .tooLarge else .ok (reportOf data) := by
  have starts := decodedText_marker begins
  have read : lines (trimEnd (decodedText data)) =
      keptLines ((byteLines data).map decodedText) := by
    rw [decodedText_lines data]
    apply lines_trimEnd
    · simp [byteLines]
    · intro part member
      exact newline_not_mem member
  unfold parseSystemReport decodeSystemReport
  by_cases large : data.length > maxSystemReportBytes
  · rw [if_pos large, if_pos large]
  · rw [if_neg large, if_neg large, findText_of_starts starts]
    dsimp only
    rw [trim_of_marker starts, read, foldl_keptLines]
    rfl

/-- An input that begins with the marker is accepted when it is not too large. -/
theorem parseSystemReport_eq_ok {data : Bytes} (begins : BeginsWithMarker data)
    (report : SystemReport) :
    parseSystemReport data = .ok report ↔
      data.length ≤ maxSystemReportBytes ∧ report = reportOf data := by
  rw [parseSystemReport_of_begins begins]
  split
  · next large =>
      constructor
      · intro impossible
        cases impossible
      · intro accepted
        exact absurd accepted.1 (Nat.not_le_of_lt large)
  · next small =>
      rw [Except.ok.injEq]
      constructor
      · intro same
        exact ⟨Nat.le_of_not_lt small, same.symm⟩
      · intro accepted
        exact accepted.2.symm

end PrinterSdk.Brother
