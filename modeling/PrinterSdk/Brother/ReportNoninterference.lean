import PrinterSdk.Brother.ReportRedaction

/-!
# The values that section names show

Redaction keeps the names of sections.  A sensitive line that is read as a heading
therefore shows its value, and an input with a sensitive key after a bracket can be
turned into one with another redacted report, by a change of secret values only.
-/

namespace PrinterSdk.Brother

open PrinterSdk.Data

/-! ## Names of sections -/

theorem mem_names_record (state : ReportState)
    (known : ∀ name, state.current = some name → name ∈ state.sections.keys)
    (line : ReportLine) (name : Characters) :
    name ∈ (record state line).sections.keys ↔
      name ∈ state.sections.keys ∨ line = .heading name := by
  cases line with
  | heading own =>
      simp only [record, OrderedMap.mem_keys_alter, ReportLine.heading.injEq]
      rw [or_comm, eq_comm]
  | entry key value =>
      cases current : state.current with
      | none => simp [record, current]
      | some own =>
          simp only [record, current, OrderedMap.mem_keys_alter]
          constructor
          · rintro (rfl | old)
            · exact .inl (known name current)
            · exact .inl old
          · rintro (old | impossible)
            · exact .inr old
            · cases impossible
  | plain => simp [record]

theorem known_record (state : ReportState)
    (known : ∀ name, state.current = some name → name ∈ state.sections.keys)
    (line : ReportLine) (name : Characters)
    (current : (record state line).current = some name) :
    name ∈ (record state line).sections.keys := by
  rw [mem_names_record state known]
  cases line with
  | heading own =>
      cases current
      exact .inr rfl
  | entry key value =>
      have same : (record state (.entry key value)).current = state.current := by
        cases own : state.current <;> simp [record, own]
      exact .inl (known name (same ▸ current))
  | plain => exact .inl (known name current)

/-- The names of the sections are the headings that were read. -/
theorem mem_names_foldl (parts : List Characters) (state : ReportState)
    (known : ∀ name, state.current = some name → name ∈ state.sections.keys)
    (name : Characters) :
    name ∈ (parts.foldl readLine state).sections.keys ↔
      name ∈ state.sections.keys ∨ ∃ line ∈ parts, heading (trim line) = some name := by
  have classified (line : Characters) :
      classify line = .heading name ↔ heading (trim line) = some name := by
    unfold classify
    cases heading (trim line) with
    | some own => simp
    | none => cases splitOnce '=' (trim line) <;> simp
  induction parts generalizing state with
  | nil => simp
  | cons line rest ih =>
      have later := ih (record state (classify line)) (known_record state known (classify line))
      rw [List.foldl_cons, readLine_eq]
      refine later.trans ?_
      rw [mem_names_record state known, classified, or_assoc]
      simp

/-- The names of the sections of a report. -/
theorem mem_names (data : Bytes) (name : Characters) :
    name ∈ (reportOf data).sections.keys ↔
      ∃ line ∈ byteLines data, heading (trim (decodedText line)) = some name := by
  unfold reportOf
  dsimp only
  rw [mem_names_foldl _ _ (by simp)]
  simp [OrderedMap.keys, OrderedMap.empty]

theorem heading_eq_some {text name : Characters} (opened : heading text = some name) :
    ∃ inner, text = '[' :: inner ++ [']'] ∧ name = trim inner := by
  unfold heading at opened
  split at opened
  · next rest =>
      split at opened
      · next last =>
          obtain ⟨inner, rfl⟩ := List.getLast?_eq_some_iff.mp last
          refine ⟨inner, by simp, ?_⟩
          simpa using opened.symm
      · cases opened
  · cases opened

theorem secretText_trim (line : Characters) : secretText (trim line) = secretText line := by
  obtain ⟨before, after, blank, empty, split⟩ := trim_split line
  conv_rhs => rw [split, secretText_append _ (equals_not_blank empty),
    secretText_prepend _ (equals_not_blank blank) (filter_blank blank)]

/-- A section is named after a sensitive line exactly when its name is sensitive. -/
theorem secretText_heading {line name : Characters} (opened : heading (trim line) = some name) :
    secretText name = secretText line := by
  obtain ⟨inner, bracketed, rfl⟩ := heading_eq_some opened
  rw [secretText_trim, ← secretText_trim line, bracketed, List.cons_append,
    ← List.singleton_append, secretText_prepend _ (by decide) (by decide),
    secretText_append _ (by decide)]

/-- Some section of the report has a sensitive name. -/
def ShowsSecret (report : SystemReport) : Prop :=
  ∃ name ∈ report.sections.keys, secretText name = true

theorem showsSecret_redacted (report : SystemReport) :
    ShowsSecret report.redacted ↔ ShowsSecret report := by
  unfold ShowsSecret SystemReport.redacted
  rw [OrderedMap.keys_mapValues]

theorem showsSecret_reportOf (data : Bytes) :
    ShowsSecret (reportOf data) ↔ ∃ line ∈ byteLines data,
      secretText (decodedText line) = true ∧ (heading (trim (decodedText line))).isSome = true := by
  unfold ShowsSecret
  constructor
  · rintro ⟨name, member, secret⟩
    obtain ⟨line, inside, opened⟩ := (mem_names data name).mp member
    refine ⟨line, inside, ?_, by rw [opened]; rfl⟩
    rw [← secretText_heading opened, secret]
  · rintro ⟨line, inside, secret, opened⟩
    obtain ⟨name, named⟩ := Option.isSome_iff_exists.mp opened
    refine ⟨name, (mem_names data name).mpr ⟨line, inside, named⟩, ?_⟩
    rw [secretText_heading named, secret]

/-! ## Inputs that differ in secrets from a given one -/

theorem starts_of_free {α : Type} {separator : α} {needle first tail : List α}
    (free : separator ∉ needle) (starts : needle <+: first ++ separator :: tail) :
    needle <+: first := by
  have whole : first ++ [separator] <+: first ++ separator :: tail := ⟨tail, by simp⟩
  rcases List.prefix_or_prefix_of_prefix starts whole with short | long
  · rcases List.prefix_concat_iff.mp short with rfl | inside
    · simp at free
    · exact inside
  · exact absurd (long.subset (by simp)) free

theorem starts_byteLines {needle data : Bytes} (free : 0x0a ∉ needle) :
    needle <+: data ↔ ∃ first rest, byteLines data = first :: rest ∧ needle <+: first := by
  have joined : [0x0a].intercalate (byteLines data) = data := List.intercalate_splitOn 0x0a
  cases split : byteLines data with
  | nil => exact absurd split (List.splitOn_ne_nil _ _)
  | cons first rest =>
      rw [split] at joined
      cases rest with
      | nil =>
          rw [List.intercalate_singleton] at joined
          simp [← joined]
      | cons second rest =>
          rw [List.intercalate_cons_cons, List.append_assoc, List.singleton_append] at joined
          rw [← joined]
          constructor
          · intro starts
            exact ⟨first, second :: rest, rfl, starts_of_free free starts⟩
          · rintro ⟨own, others, same, starts⟩
            cases same
            exact starts.trans (List.prefix_append ..)

/-- The marker stands before every secret of an input that begins with it. -/
theorem begins_of_same {data other : Bytes} (same : SameButSecrets data other)
    (begins : BeginsWithMarker data) : BeginsWithMarker other := by
  have free : 0x0a ∉ asBytes systemReportMarker := by decide +kernel
  have clear : 0x3d ∉ asBytes systemReportMarker := by decide +kernel
  obtain ⟨first, rest, split, starts⟩ := (starts_byteLines free).mp begins
  unfold SameButSecrets at same
  rw [split] at same
  obtain ⟨line, others, like, -, resplit⟩ := List.forall₂_cons_left_iff.mp same
  refine (starts_byteLines free).mpr ⟨line, others, resplit, ?_⟩
  rcases like with rfl | ⟨key, value, replaced, parts, reparts⟩
  · exact starts
  · obtain ⟨-, rfl, -⟩ := secretParts_eq_some.mp parts
    obtain ⟨-, rfl, -⟩ := secretParts_eq_some.mp reparts
    exact (starts_of_free clear starts).trans (List.prefix_append ..)

theorem sameLine_of_secret {line key value : Bytes} (replaced : Bytes)
    (parts : secretParts line = some (key, value)) : SameLine line (key ++ 0x3d :: replaced) := by
  obtain ⟨free, -, sensitive⟩ := secretParts_eq_some.mp parts
  exact .inr ⟨key, value, replaced, parts, secretParts_eq_some.mpr ⟨free, rfl, sensitive⟩⟩

theorem sameLine_mask (line : Bytes) : SameLine line (maskLine line) := by
  unfold maskLine
  cases parts : secretParts line with
  | none => exact .inl rfl
  | some found => exact sameLine_of_secret [] parts

theorem sameLines_mask (parts : List Bytes) :
    List.Forall₂ SameLine parts (parts.map maskLine) := by
  induction parts with
  | nil => exact .nil
  | cons line rest ih => exact .cons (sameLine_mask line) ih

theorem same_mask (data : Bytes) : SameButSecrets data (mask data) := by
  unfold SameButSecrets
  rw [byteLines_mask]
  exact sameLines_mask (byteLines data)

theorem opensSection_mask (line : Bytes) : OpensSection (maskLine line) ↔ OpensSection line := by
  unfold maskLine
  cases parts : secretParts line with
  | none => rfl
  | some found =>
      obtain ⟨key, value⟩ := found
      obtain ⟨free, -, sensitive⟩ := secretParts_eq_some.mp parts
      have reparts : secretParts (key ++ [0x3d]) = some (key, []) :=
        secretParts_eq_some.mpr ⟨free, rfl, sensitive⟩
      unfold OpensSection
      rw [parts]
      dsimp only
      rw [reparts]
      simp

/-- Whether a sensitive key begins with a bracket is not a matter of values. -/
theorem closed_mask (data : Bytes) :
    (∀ line ∈ byteLines (mask data), ¬OpensSection line) ↔
      ∀ line ∈ byteLines data, ¬OpensSection line := by
  rw [byteLines_mask]
  simp only [List.mem_map, forall_exists_index, and_imp, forall_apply_eq_imp_iff₂,
    opensSection_mask]

/-- Without values no sensitive line is a heading. -/
theorem mask_hides (data : Bytes) : ¬ShowsSecret (reportOf (mask data)) := by
  rw [showsSecret_reportOf]
  rintro ⟨line, member, secret, opened⟩
  rw [byteLines_mask] at member
  obtain ⟨whole, -, rfl⟩ := List.mem_map.mp member
  rw [decodedText_maskLine] at secret opened
  cases own : secretText (decodedText whole) with
  | true =>
      obtain ⟨key, ends⟩ := maskText_ends own
      rw [ends, trim_secret] at opened
      have none : heading (trimStart key ++ '=' :: trimEnd []) = none :=
        heading_of_equals (trimStart key)
      rw [none] at opened
      cases opened
  | false =>
      rw [maskText_of_public own, own] at secret
      cases secret

/-! ## Lengths -/

theorem intercalate_sublist (separator : UInt8) (convert : Bytes → Bytes)
    (shorter : ∀ line, (convert line).Sublist line) (parts : List Bytes) :
    ([separator].intercalate (parts.map convert)).Sublist ([separator].intercalate parts) := by
  induction parts with
  | nil => exact List.Sublist.refl _
  | cons first rest ih =>
      cases rest with
      | nil => simpa using shorter first
      | cons second rest =>
          rw [List.map_cons, List.map_cons, List.intercalate_cons_cons,
            List.intercalate_cons_cons]
          exact ((shorter first).append (List.Sublist.refl _)).append ih

theorem mask_sublist (data : Bytes) : (mask data).Sublist data := by
  have sub := intercalate_sublist 0x0a maskLine (fun line => (maskLine_starts line).sublist)
    (byteLines data)
  have joined : [0x0a].intercalate (byteLines data) = data := List.intercalate_splitOn 0x0a
  rw [joined] at sub
  exact sub

theorem maskLine_eq_self {line : Bytes} :
    maskLine line = line ↔ ∀ key value, secretParts line = some (key, value) → value = [] := by
  unfold maskLine
  cases parts : secretParts line with
  | none => simp
  | some found =>
      obtain ⟨key, value⟩ := found
      obtain ⟨-, rfl, -⟩ := secretParts_eq_some.mp parts
      simp [eq_comm]

theorem mask_eq_self {data : Bytes} : mask data = data ↔ Valueless data := by
  have lines : mask data = data ↔ (byteLines data).map maskLine = byteLines data := by
    constructor
    · intro same
      rw [← byteLines_mask, same]
    · intro same
      unfold mask
      rw [same]
      exact List.intercalate_splitOn 0x0a
  unfold Valueless
  rw [lines]
  constructor
  · intro same line member
    have fixed := List.map_inj_left.mp (same.trans (List.map_id _).symm) line member
    exact maskLine_eq_self.mp fixed
  · intro empty
    have fixed : (byteLines data).map maskLine = (byteLines data).map id :=
      List.map_congr_left fun line member => maskLine_eq_self.mpr (empty line member)
    rw [fixed, List.map_id]

/-! ## A heading made of a sensitive line -/

theorem length_intercalate (separator : UInt8) (before after : List Bytes) (line : Bytes)
    (byte : UInt8) :
    ([separator].intercalate (before ++ (line ++ [byte]) :: after)).length =
      ([separator].intercalate (before ++ line :: after)).length + 1 := by
  induction before with
  | nil =>
      cases after with
      | nil => simp
      | cons second rest =>
          simp only [List.nil_append, List.intercalate_cons_cons, List.length_append,
            List.length_singleton]
          omega
  | cons first rest ih =>
      have filled (line : Bytes) : rest ++ line :: after ≠ [] := by simp
      rw [List.cons_append, List.cons_append, List.intercalate_cons_of_ne_nil (filled _),
        List.intercalate_cons_of_ne_nil (filled _)]
      simp only [List.length_append, ih]
      omega

/-- A bracket after the equals sign makes such a line a heading. -/
theorem heading_of_bracket {key : Bytes}
    (bracket : (trimStart (decodedText key)).head? = some '[') :
    (heading (trim (decodedText (key ++ [0x3d, 0x5d])))).isSome = true := by
  have text : decodedText (key ++ [0x3d, 0x5d]) = decodedText key ++ '=' :: [']'] :=
    decodedText_equals key [0x5d]
  rw [text, trim_secret]
  cases start : trimStart (decodedText key) with
  | nil => simp [start] at bracket
  | cons first rest =>
      rw [start] at bracket
      cases bracket
      have closed : (rest ++ '=' :: trimEnd [']']).getLast? = some ']' := by
        have solid : trimEnd [']'] = [']'] := by decide
        simp [solid]
      rw [List.cons_append, heading, if_pos closed]
      rfl

/-- Masked lines around a line that is ended with a bracket have no line breaks. -/
theorem unbroken_masked {before after : List Bytes} {line key value : Bytes}
    (whole : ∀ part ∈ before ++ line :: after, 0x0a ∉ part) (joined : line = key ++ 0x3d :: value) :
    ∀ part ∈ before.map maskLine ++ (key ++ [0x3d, 0x5d]) :: after.map maskLine, 0x0a ∉ part := by
  have hidden : ∀ part ∈ before ++ line :: after, 0x0a ∉ maskLine part :=
    fun part listed inside => whole part listed ((maskLine_starts part).subset inside)
  have plain : 0x0a ∉ key := by
    have absent := whole line (by simp)
    rw [joined] at absent
    exact fun inside => absent (List.mem_append_left _ inside)
  intro part listed
  rcases List.mem_append.mp listed with early | late
  · obtain ⟨own, inside, rfl⟩ := List.mem_map.mp early
    exact hidden own (List.mem_append_left _ inside)
  · rcases List.mem_cons.mp late with rfl | late
    · simp [plain]
    · obtain ⟨own, inside, rfl⟩ := List.mem_map.mp late
      exact hidden own (List.mem_append_right _ (List.mem_cons_of_mem _ inside))

/-- When there is room for one more octet, a sensitive line that begins with a bracket
can be made a heading. -/
theorem exists_shows {data : Bytes} {line : Bytes} (member : line ∈ byteLines data)
    (opens : OpensSection line) :
    ∃ other, SameButSecrets data other ∧ other.length = (mask data).length + 1 ∧
      ShowsSecret (reportOf other) := by
  obtain ⟨key, value, parts, bracket⟩ := opens
  obtain ⟨free, joined, sensitive⟩ := secretParts_eq_some.mp parts
  obtain ⟨before, after, split⟩ := List.append_of_mem member
  let others := before.map maskLine ++ (key ++ [0x3d, 0x5d]) :: after.map maskLine
  have same : List.Forall₂ SameLine (byteLines data) others := by
    rw [split]
    apply List.rel_append (sameLines_mask before)
    apply List.Forall₂.cons _ (sameLines_mask after)
    exact sameLine_of_secret [0x5d] parts
  have unbroken : ∀ part ∈ others, 0x0a ∉ part :=
    unbroken_masked (fun part listed => not_mem_splitOn (split ▸ listed)) joined
  have relines : byteLines ([0x0a].intercalate others) = others :=
    List.splitOn_intercalate 0x0a unbroken (by simp [others])
  refine ⟨[0x0a].intercalate others, ?_, ?_, ?_⟩
  · unfold SameButSecrets
    rw [relines]
    exact same
  · have masked : maskLine line = key ++ [0x3d] := by simp [maskLine, parts]
    have longer := length_intercalate 0x0a (before.map maskLine) (after.map maskLine)
      (key ++ [0x3d]) 0x5d
    unfold mask
    rw [split, List.map_append, List.map_cons, masked, ← longer, List.append_assoc]
    rfl
  · rw [showsSecret_reportOf, relines]
    refine ⟨key ++ [0x3d, 0x5d], by simp [others], ?_, heading_of_bracket bracket⟩
    rw [secretText_decoded, secretParts_eq_some.mpr ⟨free, rfl, sensitive⟩]
    rfl

/-! ## Noninterference -/

/-- Reports of which only one shows a secret are different when redacted. -/
theorem showsSecret_of_redacted_eq {report other : SystemReport}
    (same : report.redacted = other.redacted) : ShowsSecret report ↔ ShowsSecret other := by
  rw [← showsSecret_redacted report, same, showsSecret_redacted]

/-- The redacted report of an input is the same for all accepted inputs that differ
from it in secrets exactly when no sensitive key begins with a bracket, or when the
input is as long as is accepted and has no secret values. -/
theorem report_noninterference_iff (data : Bytes) (report : SystemReport)
    (parsed : parseSystemReport data = .ok report) (begins : BeginsWithMarker data) :
    (∀ other otherReport, parseSystemReport other = .ok otherReport → BeginsWithMarker other →
        SameButSecrets data other → report.redacted = otherReport.redacted) ↔
      (∀ line ∈ byteLines data, ¬OpensSection line) ∨
        (data.length = maxSystemReportBytes ∧ Valueless data) := by
  obtain ⟨small, rfl⟩ := (parseSystemReport_eq_ok begins report).mp parsed
  have shorter := (mask_sublist data).length_le
  constructor
  · intro same
    rw [or_iff_not_imp_left]
    intro opened
    push Not at opened
    obtain ⟨line, member, opens⟩ := opened
    -- an accepted input that shows a secret where this one does not, or hides what it shows
    have hidden : ¬ShowsSecret (reportOf data) := by
      intro shows
      have begun := begins_of_same (same_mask data) begins
      have equal := same (mask data) (reportOf (mask data))
        ((parseSystemReport_eq_ok begun _).mpr ⟨by omega, rfl⟩) begun (same_mask data)
      exact mask_hides data ((showsSecret_of_redacted_eq equal).mp shows)
    have full : ¬(mask data).length < maxSystemReportBytes := by
      intro room
      obtain ⟨other, like, length, shows⟩ := exists_shows member opens
      have begun := begins_of_same like begins
      have equal := same other (reportOf other)
        ((parseSystemReport_eq_ok begun _).mpr ⟨by omega, rfl⟩) begun like
      exact hidden ((showsSecret_of_redacted_eq equal).mpr shows)
    have unmasked : mask data = data := (mask_sublist data).eq_of_length (by omega)
    exact ⟨by omega, mask_eq_self.mp unmasked⟩
  · intro condition other otherReport reparsed begun like
    obtain ⟨fits, rfl⟩ := (parseSystemReport_eq_ok begun otherReport).mp reparsed
    have masks := mask_of_same like
    rcases condition with closed | ⟨full, valueless⟩
    · have alsoClosed : ∀ line ∈ byteLines other, ¬OpensSection line := by
        rw [← closed_mask, ← masks, closed_mask]
        exact closed
      rw [← redacted_mask closed, ← redacted_mask alsoClosed, masks]
    · -- no other input that differs in secrets only is as short
      have unmasked : mask other = other := by
        have shorterOther := (mask_sublist other).length_le
        apply (mask_sublist other).eq_of_length
        rw [← masks, mask_eq_self.mpr valueless] at shorterOther ⊢
        omega
      rw [← unmasked, ← masks, mask_eq_self.mpr valueless]

/-- A report with one section. -/
def plainReport (serial : String) : Bytes :=
  asBytes ("<<PRINTER CONFIGURATION>>\r\n[Device]\r\nModel=QL\r\nSerial No=" ++ serial)

theorem report_noninterference_plain :
    ∃ report, parseSystemReport (plainReport "A17") = .ok report ∧
      BeginsWithMarker (plainReport "A17") ∧
      ((∀ other otherReport, parseSystemReport other = .ok otherReport →
          BeginsWithMarker other → SameButSecrets (plainReport "A17") other →
          report.redacted = otherReport.redacted) ↔
        (∀ line ∈ byteLines (plainReport "A17"), ¬OpensSection line) ∨
          ((plainReport "A17").length = maxSystemReportBytes ∧
            Valueless (plainReport "A17"))) := by
  have begins : BeginsWithMarker (plainReport "A17") := by
    unfold BeginsWithMarker
    decide +kernel
  have parsed : parseSystemReport (plainReport "A17") = .ok (reportOf (plainReport "A17")) :=
    (parseSystemReport_eq_ok begins _).mpr ⟨by decide +kernel, rfl⟩
  exact ⟨_, parsed, begins, report_noninterference_iff _ _ parsed begins⟩

/-- A report with a serial number in brackets. -/
def bracketedReport (serial : String) : Bytes :=
  asBytes ("<<PRINTER CONFIGURATION>>\n[serial=" ++ serial ++ "]")

/-- The serial number is the name of a section of the redacted report. -/
theorem bracketed_serial_exposed :
    ∃ report other, parseSystemReport (bracketedReport "A17") = .ok report ∧
      parseSystemReport (bracketedReport "B42") = .ok other ∧
      BeginsWithMarker (bracketedReport "A17") ∧ BeginsWithMarker (bracketedReport "B42") ∧
      SameButSecrets (bracketedReport "A17") (bracketedReport "B42") ∧
      report.redacted.sections.keys = ["serial=A17".toList] ∧
      other.redacted.sections.keys = ["serial=B42".toList] ∧
      report.redacted ≠ other.redacted := by
  have begins : BeginsWithMarker (bracketedReport "A17") := by
    unfold BeginsWithMarker
    decide +kernel
  have begun : BeginsWithMarker (bracketedReport "B42") := by
    unfold BeginsWithMarker
    decide +kernel
  have left : byteLines (bracketedReport "A17") =
      [asBytes "<<PRINTER CONFIGURATION>>", asBytes "[serial=A17]"] := by decide +kernel
  have right : byteLines (bracketedReport "B42") =
      [asBytes "<<PRINTER CONFIGURATION>>", asBytes "[serial=B42]"] := by decide +kernel
  have same : SameButSecrets (bracketedReport "A17") (bracketedReport "B42") := by
    unfold SameButSecrets
    rw [left, right]
    refine .cons (.inl rfl) (.cons (.inr ⟨asBytes "[serial", asBytes "A17]", asBytes "B42]",
      ?_, ?_⟩) .nil)
    · decide +kernel
    · decide +kernel
  refine ⟨_, _, (parseSystemReport_eq_ok begins _).mpr ⟨by decide +kernel, rfl⟩,
    (parseSystemReport_eq_ok begun _).mpr ⟨by decide +kernel, rfl⟩, begins, begun, same,
    by decide +kernel, by decide +kernel, by decide +kernel⟩

end PrinterSdk.Brother
