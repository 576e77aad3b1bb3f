import Mathlib.Data.List.DropRight
import Mathlib.Data.List.Induction

/-!
# Text as characters

The operations of `str` that look at characters, over the list of them: trimming,
lines, and splitting at the first separator.
-/

namespace PrinterSdk.Data

/-- A `str`, as its characters. -/
abbrev Characters := List Char

/-- `char::is_whitespace`: the characters with the property White_Space. -/
def isWhitespace (character : Char) : Bool :=
  let scalar := character.toNat
  (9 ≤ scalar && scalar ≤ 13) || scalar == 0x20 || scalar == 0x85 || scalar == 0xa0 ||
    scalar == 0x1680 || (0x2000 ≤ scalar && scalar ≤ 0x200a) || scalar == 0x2028 ||
    scalar == 0x2029 || scalar == 0x202f || scalar == 0x205f || scalar == 0x3000

/-- `char::is_ascii_alphanumeric`. -/
def isAsciiAlphanumeric (character : Char) : Bool :=
  let scalar := character.toNat
  (0x30 ≤ scalar && scalar ≤ 0x39) || (0x41 ≤ scalar && scalar ≤ 0x5a) ||
    (0x61 ≤ scalar && scalar ≤ 0x7a)

/-- `char::to_lowercase` of an ASCII character. -/
def lowerAscii (character : Char) : Char :=
  if 0x41 ≤ character.toNat ∧ character.toNat ≤ 0x5a then Char.ofNat (character.toNat + 0x20)
  else character

/-- `char::to_ascii_uppercase`. -/
def upperAscii (character : Char) : Char :=
  if 0x61 ≤ character.toNat ∧ character.toNat ≤ 0x7a then Char.ofNat (character.toNat - 0x20)
  else character

/-- `str::trim_start`. -/
def trimStart (text : Characters) : Characters := text.dropWhile isWhitespace

/-- `str::trim_end`. -/
def trimEnd (text : Characters) : Characters := text.rdropWhile isWhitespace

/-- `str::trim`. -/
def trim (text : Characters) : Characters := trimEnd (trimStart text)

/-- `split_once` at a separator of one element. -/
def splitOnce {α : Type} [DecidableEq α] (separator : α) : List α → Option (List α × List α)
  | [] => none
  | first :: rest =>
      if first = separator then some ([], rest)
      else (splitOnce separator rest).map fun parts => (first :: parts.1, parts.2)

/-- `strip_suffix` of one character, or the text as it is. -/
def stripReturn (line : Characters) : Characters :=
  if line.getLast? = some '\r' then line.dropLast else line

/-- The lines of a text that was split at its line feeds: the last piece is a line
when it is not empty, and only the others lose a carriage return. -/
def linesOf : List Characters → List Characters
  | [] => []
  | [last] => if last = [] then [] else [last]
  | piece :: rest => stripReturn piece :: linesOf rest

/-- `str::lines`. -/
def lines (text : Characters) : List Characters := linesOf (text.splitOn '\n')

/-- `text[text.find(needle)?..]`. -/
def findText (needle : Characters) : Characters → Option Characters
  | [] => if needle = [] then some [] else none
  | first :: rest =>
      if needle <+: first :: rest then some (first :: rest) else findText needle rest

/-! ## Splitting once -/

section

variable {α : Type} [DecidableEq α] {separator : α}

theorem splitOnce_append {key value : List α} (free : separator ∉ key) :
    splitOnce separator (key ++ separator :: value) = some (key, value) := by
  induction key with
  | nil => simp [splitOnce]
  | cons first rest ih =>
      have different : first ≠ separator := fun same => free (same ▸ List.mem_cons_self ..)
      have later := ih fun member => free (List.mem_cons_of_mem _ member)
      rw [List.cons_append, splitOnce, if_neg different, later]
      rfl

theorem splitOnce_eq_none {text : List α} :
    splitOnce separator text = none ↔ separator ∉ text := by
  induction text with
  | nil => simp [splitOnce]
  | cons first rest ih =>
      rw [splitOnce]
      by_cases same : first = separator
      · simp [same]
      · rw [if_neg same, Option.map_eq_none_iff, ih]
        simp [Ne.symm same]

theorem splitOnce_eq_some {text key value : List α} :
    splitOnce separator text = some (key, value) ↔
      separator ∉ key ∧ text = key ++ separator :: value := by
  constructor
  · intro split
    induction text generalizing key with
    | nil => simp [splitOnce] at split
    | cons first rest ih =>
        rw [splitOnce] at split
        by_cases same : first = separator
        · rw [if_pos same] at split
          cases split
          simp [same]
        · rw [if_neg same] at split
          obtain ⟨⟨inner, tail⟩, later, equal⟩ := Option.map_eq_some_iff.mp split
          cases equal
          obtain ⟨free, rfl⟩ := ih later
          exact ⟨by simp [free, Ne.symm same], rfl⟩
  · rintro ⟨free, rfl⟩
    exact splitOnce_append free

end

/-! ## Trimming -/

theorem trimEnd_append (left right : Characters) :
    trimEnd (left ++ right) =
      if trimEnd right = [] then trimEnd left else left ++ trimEnd right := by
  unfold trimEnd List.rdropWhile
  rw [List.reverse_append, List.dropWhile_append]
  simp only [List.isEmpty_iff, List.reverse_eq_nil_iff]
  split
  · rfl
  · rw [List.reverse_append, List.reverse_reverse]

theorem trimEnd_cons_of_solid {character : Char} (text : Characters)
    (solid : isWhitespace character = false) :
    trimEnd (character :: text) = character :: trimEnd text := by
  have alone : trimEnd [character] = [character] := by
    simp [trimEnd, List.rdropWhile_singleton, solid]
  rw [← List.singleton_append, trimEnd_append]
  split
  · next blank => rw [alone, blank]
  · rfl

theorem trimEnd_eq_nil {text : Characters} :
    trimEnd text = [] ↔ ∀ character ∈ text, isWhitespace character = true :=
  List.rdropWhile_eq_nil_iff ..

/-- What trimming at the end removes is white space. -/
theorem trimEnd_split (text : Characters) :
    ∃ space, (∀ character ∈ space, isWhitespace character = true) ∧
      text = trimEnd text ++ space := by
  refine ⟨text.rtakeWhile isWhitespace, ?_, (List.rdropWhile_append_rtakeWhile ..).symm⟩
  intro character member
  exact List.mem_rtakeWhile_imp member

theorem trimStart_split (text : Characters) :
    ∃ space, (∀ character ∈ space, isWhitespace character = true) ∧
      text = space ++ trimStart text := by
  refine ⟨text.takeWhile isWhitespace, ?_, (List.takeWhile_append_dropWhile ..).symm⟩
  intro character member
  exact List.mem_takeWhile_imp member

theorem trim_split (text : Characters) :
    ∃ before after, (∀ character ∈ before, isWhitespace character = true) ∧
      (∀ character ∈ after, isWhitespace character = true) ∧
      text = before ++ trim text ++ after := by
  obtain ⟨before, blank, split⟩ := trimStart_split text
  obtain ⟨after, empty, parts⟩ := trimEnd_split (trimStart text)
  refine ⟨before, after, blank, empty, ?_⟩
  rw [List.append_assoc]
  unfold trim
  rw [← parts, ← split]

/-- White space at the end does not matter to a trimmed text. -/
theorem trim_append_blank (text : Characters) {space : Characters}
    (blank : ∀ character ∈ space, isWhitespace character = true) :
    trim (text ++ space) = trim text := by
  have gone : space.dropWhile isWhitespace = [] := List.dropWhile_eq_nil_iff.mpr blank
  unfold trim trimStart
  rw [List.dropWhile_append]
  split
  · next empty => rw [List.isEmpty_iff.mp empty, gone]
  · rw [trimEnd_append, if_pos (trimEnd_eq_nil.mpr blank)]

theorem trim_trimEnd (text : Characters) : trim (trimEnd text) = trim text := by
  obtain ⟨space, blank, split⟩ := trimEnd_split text
  calc trim (trimEnd text) = trim (trimEnd text ++ space) := (trim_append_blank _ blank).symm
    _ = trim text := by rw [← split]

theorem trim_stripReturn (text : Characters) : trim (stripReturn text) = trim text := by
  unfold stripReturn
  split
  · next last =>
      have split : text.dropLast ++ ['\r'] = text := by
        rw [List.getLast?_eq_some_iff] at last
        obtain ⟨before, rfl⟩ := last
        simp
      have blank : ∀ character ∈ ['\r'], isWhitespace character = true := by
        intro character member
        rw [List.mem_singleton.mp member]
        rfl
      calc trim text.dropLast = trim (text.dropLast ++ ['\r']) := (trim_append_blank _ blank).symm
        _ = trim text := by rw [split]
  · rfl

theorem trimStart_cons_of_solid {character : Char} (text : Characters)
    (solid : isWhitespace character = false) :
    trimStart (character :: text) = character :: text := by
  simp [trimStart, solid]

/-- A solid character ends what trimming at the start may remove. -/
theorem trimStart_append_of_solid (text : Characters) {character : Char} (rest : Characters)
    (solid : isWhitespace character = false) :
    trimStart (text ++ character :: rest) = trimStart text ++ character :: rest := by
  unfold trimStart
  rw [List.dropWhile_append]
  split
  · next empty => rw [List.isEmpty_iff.mp empty, List.dropWhile_cons, if_neg (by simp [solid])]; rfl
  · rfl

theorem trimEnd_append_of_solid (text : Characters) {character : Char} (rest : Characters)
    (solid : isWhitespace character = false) :
    trimEnd (text ++ character :: rest) = text ++ character :: trimEnd rest := by
  rw [trimEnd_append, trimEnd_cons_of_solid rest solid, if_neg (List.cons_ne_nil _ _)]

theorem trim_append_of_solid (text : Characters) {character : Char} (rest : Characters)
    (solid : isWhitespace character = false) :
    trim (text ++ character :: rest) = trimStart text ++ character :: trimEnd rest := by
  rw [trim, trimStart_append_of_solid _ _ solid, trimEnd_append_of_solid _ _ solid]

/-! ## Trimmed text -/

/-- A text without white space at its ends is trimmed. -/
theorem trim_eq_self {text : Characters}
    (first : ∀ character, text.head? = some character → isWhitespace character = false)
    (last : ∀ character, text.getLast? = some character → isWhitespace character = false) :
    trim text = text := by
  have start : trimStart text = text := by
    cases text with
    | nil => rfl
    | cons character rest => exact trimStart_cons_of_solid rest (first character rfl)
  rw [trim, start]
  cases text using List.reverseRecOn with
  | nil => rfl
  | append_singleton before character =>
      have solid := last character List.getLast?_concat
      rw [trimEnd_append_of_solid before [] solid]
      rfl

/-- Nothing is left to trim at the ends of a trimmed text. -/
theorem solid_of_trim (text : Characters) :
    (∀ character, (trim text).head? = some character → isWhitespace character = false) ∧
      ∀ character, (trim text).getLast? = some character → isWhitespace character = false := by
  constructor
  · intro character first
    obtain ⟨space, -, split⟩ := trimEnd_split (trimStart text)
    have front : (trimStart text).head? = some character := by
      rw [split, List.head?_append]
      exact (congrArg (Option.or · space.head?) first).trans rfl
    have solid := List.head?_dropWhile_not isWhitespace text
    rw [show text.dropWhile isWhitespace = trimStart text from rfl, front] at solid
    exact solid
  · intro character last
    have solid := List.head?_dropWhile_not isWhitespace (trimStart text).reverse
    rw [trim, trimEnd, List.rdropWhile, List.getLast?_reverse] at last
    rw [last] at solid
    exact solid

theorem trim_trim (text : Characters) : trim (trim text) = trim text :=
  trim_eq_self (solid_of_trim text).1 (solid_of_trim text).2

theorem mem_of_mem_trim {text : Characters} {character : Char} (member : character ∈ trim text) :
    character ∈ text := by
  obtain ⟨before, after, -, -, split⟩ := trim_split text
  rw [split]
  exact List.mem_append_left _ (List.mem_append_right _ member)

/-! ## Upper case -/

theorem toNat_upperAscii (character : Char) :
    (upperAscii character).toNat =
      if 0x61 ≤ character.toNat ∧ character.toNat ≤ 0x7a then character.toNat - 0x20
      else character.toNat := by
  unfold upperAscii
  split
  · next lower =>
      rw [Char.ofNat, dif_pos (.inl (by omega))]
      rfl
  · rfl

theorem upperAscii_upperAscii (character : Char) :
    upperAscii (upperAscii character) = upperAscii character := by
  have upper := toNat_upperAscii character
  rw [upperAscii.eq_def (upperAscii character), if_neg]
  split at upper <;> omega

/-- Only capital letters come from other characters. -/
theorem eq_of_upperAscii {character upper : Char} (same : upperAscii character = upper)
    (noCapital : upper.toNat < 0x41 ∨ 0x5a < upper.toNat) : character = upper := by
  have number := toNat_upperAscii character
  rw [same] at number
  split at number
  · omega
  · exact Char.toNat_inj.mp number.symm

theorem isWhitespace_upperAscii (character : Char) :
    isWhitespace (upperAscii character) = isWhitespace character := by
  unfold isWhitespace
  rw [toNat_upperAscii]
  split
  · next lower =>
      have above (number : Nat) (letter : 0x41 ≤ number ∧ number ≤ 0x7a) :
          ((9 ≤ number && number ≤ 13) || number == 0x20 || number == 0x85 || number == 0xa0 ||
            number == 0x1680 || (0x2000 ≤ number && number ≤ 0x200a) || number == 0x2028 ||
            number == 0x2029 || number == 0x202f || number == 0x205f || number == 0x3000) =
              false := by
        simp only [Bool.or_eq_false_iff, Bool.and_eq_false_imp, beq_eq_false_iff_ne,
          decide_eq_true_eq, decide_eq_false_iff_not]
        omega
      rw [above _ (by omega), above _ (by omega)]
  · rfl

/-- Upper case does not matter to trimming. -/
theorem trim_map_upperAscii (text : Characters) :
    trim (text.map upperAscii) = (trim text).map upperAscii := by
  have same : isWhitespace ∘ upperAscii = isWhitespace := funext isWhitespace_upperAscii
  simp only [trim, trimEnd, trimStart, List.rdropWhile, List.dropWhile_map, same,
    ← List.map_reverse]
end PrinterSdk.Data
