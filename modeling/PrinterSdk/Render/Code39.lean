import PrinterSdk.Data.Bars
import PrinterSdk.Render.Barcode

/-!
# What a Code 39 symbol reads as

A reader of Code 39 takes the widths of nine elements for every character, looks them up in
the symbol table, and skips the narrow gap behind the character.  The pattern table of
`code39` has the pattern of `*` in the place of `$`, so the patterns of the last five
characters are shifted by one, and every symbol starts and stops with the pattern of `%`.
-/

namespace PrinterSdk.Render

open PrinterSdk.Data

/-! ## The reader -/

/-- The symbol table: narrow and wide elements, bars and spaces in turn. -/
def code39Table : List (Char × String) := [
  ('0', "nnnwwnwnn"), ('1', "wnnwnnnnw"), ('2', "nnwwnnnnw"), ('3', "wnwwnnnnn"),
  ('4', "nnnwwnnnw"), ('5', "wnnwwnnnn"), ('6', "nnwwwnnnn"), ('7', "nnnwnnwnw"),
  ('8', "wnnwnnwnn"), ('9', "nnwwnnwnn"), ('A', "wnnnnwnnw"), ('B', "nnwnnwnnw"),
  ('C', "wnwnnwnnn"), ('D', "nnnnwwnnw"), ('E', "wnnnwwnnn"), ('F', "nnwnwwnnn"),
  ('G', "nnnnnwwnw"), ('H', "wnnnnwwnn"), ('I', "nnwnnwwnn"), ('J', "nnnnwwwnn"),
  ('K', "wnnnnnnww"), ('L', "nnwnnnnww"), ('M', "wnwnnnnwn"), ('N', "nnnnwnnww"),
  ('O', "wnnnwnnwn"), ('P', "nnwnwnnwn"), ('Q', "nnnnnnwww"), ('R', "wnnnnnwwn"),
  ('S', "nnwnnnwwn"), ('T', "nnnnwnwwn"), ('U', "wwnnnnnnw"), ('V', "nwwnnnnnw"),
  ('W', "wwwnnnnnn"), ('X', "nwnnwnnnw"), ('Y', "wwnnwnnnn"), ('Z', "nwwnwnnnn"),
  ('-', "nwnnnnwnw"), ('.', "wwnnnnwnn"), (' ', "nwwnnnwnn"), ('$', "nwnwnwnnn"),
  ('/', "nwnwnnnwn"), ('+', "nwnnnwnwn"), ('%', "nnnwnwnwn"), ('*', "nwnnwnwnn")]

/-- The character of nine elements, wide where they are true. -/
def lookupCode39 (elements : List Bool) : Option Char :=
  (code39Table.find? fun entry => entry.2.toList.map (· = 'w') = elements).map Prod.fst

/-- A narrow element has one module, a wide one three. -/
def elementOfWidth : Nat → Option Bool
  | 1 => some false
  | 3 => some true
  | _ => none

/-- The elements of a symbol, which begins with a bar. -/
def scanElements (modules : List Bool) : Option (List Bool) :=
  if modules.head? = some true then
    (Bars.runs modules).mapM fun run => elementOfWidth run.2
  else
    none

/-- The characters of a sequence of elements, a narrow gap between any two of them. -/
def readCharacters : List Bool → Option Characters
  | [a, b, c, d, e, f, g, h, i] =>
      (lookupCode39 [a, b, c, d, e, f, g, h, i]).map fun character => [character]
  | a :: b :: c :: d :: e :: f :: g :: h :: i :: gap :: rest =>
      if gap then
        none
      else
        (lookupCode39 [a, b, c, d, e, f, g, h, i]).bind fun character =>
          (readCharacters rest).map fun later => character :: later
  | _ => none

/-- The text of a symbol, its start and stop characters included. -/
def readCode39 (modules : List Bool) : Option Characters :=
  (scanElements modules).bind readCharacters

/-- The symbol reads as the data in upper case between start and stop characters, and the
data has none of these. -/
def Code39Correct (data : Characters) (modules : List Bool) : Prop :=
  readCode39 modules = some ('*' :: data.map asciiUppercase ++ ['*']) ∧
    '*' ∉ data.map asciiUppercase

/-! ## What is drawn -/

/-- The elements of a pattern. -/
def patternFlags (pattern : UInt16) : List Bool :=
  (List.range 9).map fun index =>
    decide (pattern &&& ((1 : UInt16) <<< UInt16.ofNat (8 - index)) ≠ 0)

/-- The width of an element. -/
def elementWidth (wide : Bool) : Nat := if wide then 3 else 1

/-- The elements that `code39` draws for a character. -/
def drawnFlags (character : Char) : List Bool :=
  patternFlags (code39Patterns.getD (code39Chars.idxOf character) 0)

/-- The elements that `code39` draws for a text. -/
def textFlags : Characters → List Bool
  | [] => []
  | [last] => drawnFlags last
  | character :: rest => drawnFlags character ++ false :: textFlags rest

/-- What the pattern of a character is read as. -/
def misread (character : Char) : Char :=
  if character = '$' then '*'
  else if character = '/' then '$'
  else if character = '+' then '/'
  else if character = '%' then '+'
  else if character = '*' then '%'
  else character

theorem code39Elements_eq (pattern : UInt16) :
    code39Elements pattern = Bars.draw true ((patternFlags pattern).map elementWidth) := by
  simp [code39Elements, patternFlags, List.range_succ, Bars.draw, elementWidth]

theorem length_patternFlags (pattern : UInt16) : (patternFlags pattern).length = 9 := by
  rw [patternFlags, List.length_map, List.length_range]

theorem textFlags_cons (character : Char) {rest : Characters} (more : rest ≠ []) :
    textFlags (character :: rest) = drawnFlags character ++ false :: textFlags rest := by
  cases rest with
  | nil => exact absurd rfl more
  | cons next rest => rfl

/-- A character is found at its position, when the symbology has it. -/
theorem findIdx?_code39Chars {character : Char} {found : Nat}
    (search : code39Chars.findIdx? (· = character) = some found) :
    character ∈ code39Chars ∧ found = code39Chars.idxOf character := by
  obtain ⟨inside, same, -⟩ := List.findIdx?_eq_some_iff_getElem.mp search
  have equal : code39Chars[found] = character := of_decide_eq_true same
  refine ⟨equal ▸ List.getElem_mem inside, ?_⟩
  rw [← equal]
  have distinct : code39Chars.Nodup := by decide +kernel
  exact (distinct.idxOf_getElem found inside).symm

section

variable {fullLength : Nat} {text : Characters} {out result : List Bool} {index : Nat}

/-- The loop accepts no character that the symbology does not have. -/
theorem mem_of_code39Loop (accepted : code39Loop fullLength out index text = .ok result) :
    ∀ character ∈ text, character ∈ code39Chars := by
  induction text generalizing out index with
  | nil => exact fun _ => nofun
  | cons character rest ih =>
      simp only [code39Loop, except_bind_eq_ok, okOr_eq_ok] at accepted
      obtain ⟨found, search, later⟩ := accepted
      exact List.forall_mem_cons.mpr ⟨(findIdx?_code39Chars search).1, ih later⟩

/-- The loop draws the rest of the text behind what it has drawn. -/
theorem code39Loop_eq (present : text ≠ []) (counted : index + text.length = fullLength)
    (accepted : code39Loop fullLength out index text = .ok result) :
    result = out ++ Bars.draw true ((textFlags text).map elementWidth) := by
  induction text generalizing out index with
  | nil => exact absurd rfl present
  | cons character rest ih =>
      simp only [code39Loop, except_bind_eq_ok, okOr_eq_ok] at accepted
      obtain ⟨found, search, later⟩ := accepted
      have pattern : code39Elements (code39Patterns.getD found 0) =
          Bars.draw true ((drawnFlags character).map elementWidth) := by
        rw [code39Elements_eq, (findIdx?_code39Chars search).2]
        rfl
      rw [pattern] at later
      by_cases last : rest = []
      · rw [last] at later counted ⊢
        rw [if_neg (by rw [← counted]; exact Nat.lt_irrefl _)] at later
        exact (Except.ok.inj later).symm
      · have nine : ((drawnFlags character).map elementWidth).length = 9 := by
          rw [List.length_map]
          exact length_patternFlags _
        have some : 0 < rest.length := List.length_pos_iff.mpr last
        rw [List.length_cons] at counted
        rw [if_pos (by omega)] at later
        rw [ih last (by omega) later, textFlags_cons character last, List.map_append,
          Bars.draw_append, nine, List.append_assoc, List.append_assoc]
        rfl

end

theorem utf8Length_code39 {text : Characters}
    (known : ∀ character ∈ text, character ∈ code39Chars) : utf8Length text = text.length := by
  have single : ∀ character ∈ code39Chars, character.utf8Size = 1 :=
    List.forall_iff_forall_mem.mp (by decide)
  induction text with
  | nil => rfl
  | cons character rest ih =>
      obtain ⟨here, later⟩ := List.forall_mem_cons.mp known
      have tail := ih later
      unfold utf8Length at tail ⊢
      rw [List.map_cons, List.sum_cons, single character here, tail, List.length_cons, Nat.add_comm]

/-- An accepted text is drawn as its elements. -/
theorem code39_eq_draw {data : Characters} {modules : List Bool}
    (accepted : code39 data = .ok modules) :
    (∀ character ∈ code39Full data, character ∈ code39Chars) ∧
      modules = Bars.draw true ((textFlags (code39Full data)).map elementWidth) := by
  have known := mem_of_code39Loop accepted
  refine ⟨known, ?_⟩
  have counted : 0 + (code39Full data).length = utf8Length (code39Full data) := by
    rw [utf8Length_code39 known, Nat.zero_add]
  exact code39Loop_eq (List.cons_ne_nil _ _) counted accepted

/-! ## What is read -/

theorem lookupCode39_drawnFlags :
    ∀ character ∈ code39Chars, lookupCode39 (drawnFlags character) = some (misread character) :=
  List.forall_iff_forall_mem.mp (by decide +kernel)

theorem mapM_elementOfWidth (flags : List Bool) :
    (flags.map elementWidth).mapM elementOfWidth = some flags := by
  rw [List.mapM_map]
  induction flags with
  | nil => rfl
  | cons flag rest ih =>
      rw [List.mapM_cons, ih]
      cases flag <;> rfl

/-- A reader recovers the elements that were drawn. -/
theorem scanElements_draw {flags : List Bool} (present : flags ≠ []) :
    scanElements (Bars.draw true (flags.map elementWidth)) = some flags := by
  have positive : ∀ width ∈ flags.map elementWidth, 0 < width := by
    intro width member
    obtain ⟨flag, -, rfl⟩ := List.mem_map.mp member
    cases flag <;> decide
  have black : (Bars.draw true (flags.map elementWidth)).head? = some true := by
    cases flags with
    | nil => exact absurd rfl present
    | cons flag rest => cases flag <;> rfl
  rw [scanElements, if_pos black, Bars.runs_draw positive]
  have widths := Bars.alternate_widths true (flags.map elementWidth)
  have scanned := mapM_elementOfWidth flags
  rw [← widths, List.mapM_map] at scanned
  exact scanned

theorem readCharacters_single (pattern : UInt16) :
    readCharacters (patternFlags pattern) =
      (lookupCode39 (patternFlags pattern)).map fun character => [character] := rfl

theorem readCharacters_append (pattern : UInt16) (rest : List Bool) :
    readCharacters (patternFlags pattern ++ false :: rest) =
      (lookupCode39 (patternFlags pattern)).bind fun character =>
        (readCharacters rest).map fun later => character :: later := rfl

theorem readCharacters_textFlags {text : Characters} (present : text ≠ [])
    (known : ∀ character ∈ text, character ∈ code39Chars) :
    readCharacters (textFlags text) = some (text.map misread) := by
  induction text with
  | nil => exact absurd rfl present
  | cons character rest ih =>
      obtain ⟨here, later⟩ := List.forall_mem_cons.mp known
      have looked : lookupCode39 (patternFlags (code39Patterns.getD (code39Chars.idxOf character) 0)) =
          some (misread character) := lookupCode39_drawnFlags character here
      by_cases last : rest = []
      · rw [last]
        change readCharacters (patternFlags _) = _
        rw [readCharacters_single, looked]
        rfl
      · rw [textFlags_cons character last, drawnFlags, readCharacters_append, looked, ih last later]
        rfl

theorem textFlags_ne_nil {text : Characters} (present : text ≠ []) : textFlags text ≠ [] := by
  cases text with
  | nil => exact absurd rfl present
  | cons character rest =>
      by_cases last : rest = []
      · rw [last]
        exact fun nothing => by cases nothing
      · rw [textFlags_cons character last]
        exact List.append_ne_nil_of_right_ne_nil _ (List.cons_ne_nil _ _)

/-- Every accepted text reads as its misread characters. -/
theorem readCode39_code39 {data : Characters} {modules : List Bool}
    (accepted : code39 data = .ok modules) :
    readCode39 modules = some ((code39Full data).map misread) := by
  obtain ⟨known, drawn⟩ := code39_eq_draw accepted
  have present : code39Full data ≠ [] := List.cons_ne_nil _ _
  rw [readCode39, drawn, scanElements_draw (textFlags_ne_nil present), Option.bind_some]
  exact readCharacters_textFlags present known

/-- No accepted text reads as itself: its symbol starts with the pattern of `%`. -/
theorem code39_never_correct (data : Characters) (modules : List Bool)
    (accepted : code39 data = .ok modules) : ¬Code39Correct data modules := by
  intro correct
  have texts := (readCode39_code39 accepted).symm.trans correct.1
  have first : misread '*' = '*' := (List.cons.inj (Option.some.inj texts)).1
  exact absurd first (by decide)

theorem code39_never_correct_letter :
    ∃ modules, code39 ['A'] = .ok modules ∧ ¬Code39Correct ['A'] modules :=
  ⟨_, rfl, code39_never_correct _ _ rfl⟩

/-- The symbol of the letter A reads as that letter between percent signs. -/
theorem letter_misread :
    ∃ modules, code39 ['A'] = .ok modules ∧ readCode39 modules = some ['%', 'A', '%'] ∧
      ¬Code39Correct ['A'] modules := by
  have drawn : ∃ modules, code39 ['A'] = .ok modules := ⟨_, rfl⟩
  obtain ⟨modules, accepted⟩ := drawn
  have read := readCode39_code39 accepted
  refine ⟨modules, accepted, read.trans (by decide), ?_⟩
  intro correct
  exact absurd (read.symm.trans correct.1) (by decide)

end PrinterSdk.Render
