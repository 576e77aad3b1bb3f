import Mathlib.Data.List.Chain
import Mathlib.Data.List.Forall2

/-!
# Words laid out in lines

A word is cut into pieces, and the pieces of all words stand in lines, with a space between
two pieces of a line.  A layout is greedy when a line that begins with a new word begins it
because the line before had no room for it.
-/

namespace PrinterSdk.Data

/-! ## The words of a text -/

section Words

variable {α : Type} {separates : α → Bool}

/-- No piece of a split contains a separator. -/
theorem not_of_mem_splitOnP {text : List α} :
    ∀ {piece : List α}, piece ∈ text.splitOnP separates →
      ∀ character ∈ piece, separates character = false := by
  induction text with
  | nil =>
    intro piece member
    rw [List.splitOnP_nil, List.mem_singleton] at member
    simp [member]
  | cons first rest ih =>
    intro piece member character inPiece
    obtain ⟨head, tail, pieces⟩ := List.exists_cons_of_ne_nil (List.splitOnP_ne_nil separates rest)
    rw [List.splitOnP_cons_eq_if_modifyHead, pieces, List.modifyHead_cons] at member
    rw [pieces] at ih
    by_cases stops : separates first = true
    · rw [if_pos stops] at member
      rcases List.mem_cons.mp member with isNil | later
      · simp [isNil] at inPiece
      · exact ih later character inPiece
    · rw [if_neg stops] at member
      rcases List.mem_cons.mp member with isHead | later
      · rw [isHead] at inPiece
        rcases List.mem_cons.mp inPiece with isFirst | inHead
        · simpa [isFirst] using stops
        · exact ih List.mem_cons_self character inHead
      · exact ih (List.mem_cons_of_mem head later) character inPiece

/-- The pieces of a split hold everything that is not a separator, in order. -/
theorem flatten_splitOnP (text : List α) :
    (text.splitOnP separates).flatten = text.filter fun character => !separates character := by
  induction text with
  | nil => simp [List.splitOnP_nil]
  | cons first rest ih =>
    obtain ⟨head, tail, pieces⟩ := List.exists_cons_of_ne_nil (List.splitOnP_ne_nil separates rest)
    rw [List.splitOnP_cons_eq_if_modifyHead, List.filter_cons, ← ih, pieces]
    by_cases stops : separates first = true
    · simp [stops]
    · simp [stops]

end Words

/-! ## Layouts -/

/-- A piece of a word, with the parts of the word before and after it. -/
structure Fragment (α : Type) where
  before : List α
  text : List α
  after : List α

/-- The word that a fragment is a piece of. -/
def Fragment.word {α : Type} (fragment : Fragment α) : List α :=
  fragment.before ++ fragment.text ++ fragment.after

/-- The fragments of a word that is cut into pieces, after what stands before them. -/
def fragmentsOf {α : Type} (before : List α) : List (List α) → List (Fragment α)
  | [] => []
  | piece :: rest => ⟨before, piece, rest.flatten⟩ :: fragmentsOf (before ++ piece) rest

/-- A line, as its fragments with a space between two of them. -/
def joined {α : Type} (space : α) (line : List (Fragment α)) : List α :=
  [space].intercalate (line.map Fragment.text)

/-- A word is cut into pieces that fit in a line.  A word that fits itself is not cut. -/
structure Cut {α : Type} (max : Nat) (word : List α) (pieces : List (List α)) : Prop where
  whole : pieces.flatten = word
  filled : ∀ piece ∈ pieces, piece ≠ []
  short : ∀ piece ∈ pieces, piece.length ≤ max
  unsplit : word.length ≤ max → pieces = [word]

/-- A greedy layout of words that are cut into pieces.  Every piece is placed once and in
order, a word does not go on within a line, and a line that begins with a new word follows a
line that has no room for the word. -/
structure Laid {α : Type} (space : α) (max : Nat) (cuts : List (List (List α)))
    (layout : List (List (Fragment α))) : Prop where
  placed : layout.flatten = cuts.flatMap (fragmentsOf [])
  filled : ∀ line ∈ layout, line ≠ []
  fits : ∀ line ∈ layout, (joined space line).length ≤ max
  begins : ∀ line ∈ layout, ∀ fragment ∈ line.tail, fragment.before = []
  greedy : layout.IsChain fun line next =>
    ∀ fragment ∈ next.head?, fragment.before = [] →
      max < (joined space line).length + 1 + fragment.word.length

section Joining

variable {α : Type} (space : α)

@[simp] theorem joined_singleton (fragment : Fragment α) :
    joined space [fragment] = fragment.text := by
  simp [joined]

@[simp] theorem joined_cons_cons (first second : Fragment α) (rest : List (Fragment α)) :
    joined space (first :: second :: rest) =
      first.text ++ space :: joined space (second :: rest) := by
  simp [joined, List.intercalate_cons_cons]

/-- One more fragment at the end of a line stands after a space. -/
theorem joined_concat {line : List (Fragment α)} (filled : line ≠ [])
    (fragment : Fragment α) :
    joined space (line ++ [fragment]) = joined space line ++ space :: fragment.text := by
  induction line with
  | nil => exact absurd rfl filled
  | cons first rest ih =>
    cases rest with
    | nil => simp
    | cons second rest =>
      have later := ih (List.cons_ne_nil second rest)
      rw [List.cons_append] at later
      simp [later]

/-- Without the spaces, a line is the text of its fragments. -/
theorem filter_joined {keep : α → Bool} (drops : keep space = false)
    {line : List (Fragment α)}
    (keeps : ∀ fragment ∈ line, ∀ character ∈ fragment.text, keep character = true) :
    (joined space line).filter keep = (line.map Fragment.text).flatten := by
  induction line with
  | nil => rfl
  | cons first rest ih =>
    have kept : first.text.filter keep = first.text :=
      List.filter_eq_self.mpr (keeps first List.mem_cons_self)
    have later := ih fun fragment member => keeps fragment (List.mem_cons_of_mem first member)
    cases rest with
    | nil => simp [kept]
    | cons second rest => simp [kept, later, drops]

variable {line : List (Fragment α)} (texts : ∀ fragment ∈ line, fragment.text ≠ [])

include texts in
/-- A line begins with a character of one of its fragments. -/
theorem head_joined (character : α) (first : (joined space line).head? = some character) :
    ∃ fragment ∈ line, character ∈ fragment.text := by
  cases line with
  | nil => simp [joined] at first
  | cons fragment rest =>
    have shown : ∃ more, joined space (fragment :: rest) = fragment.text ++ more := by
      cases rest with
      | nil => exact ⟨[], by simp⟩
      | cons second rest => exact ⟨_, joined_cons_cons space fragment second rest⟩
    obtain ⟨more, shown⟩ := shown
    have filled := texts fragment List.mem_cons_self
    rw [shown, List.head?_append_of_ne_nil _ filled] at first
    exact ⟨fragment, List.mem_cons_self, List.mem_of_head? first⟩

include texts in
/-- A line ends with a character of one of its fragments. -/
theorem getLast_joined (character : α) (last : (joined space line).getLast? = some character) :
    ∃ fragment ∈ line, character ∈ fragment.text := by
  rcases List.eq_nil_or_concat line with isNil | ⟨initial, fragment, shape⟩
  · simp [isNil, joined] at last
  · have inLine : fragment ∈ line := by simp [shape]
    have shown : ∃ more, joined space line = more ++ fragment.text := by
      by_cases alone : initial = []
      · exact ⟨[], by simp [shape, alone]⟩
      · exact ⟨joined space initial ++ [space], by
          rw [shape, List.concat_eq_append, joined_concat space alone]
          simp⟩
    obtain ⟨more, shown⟩ := shown
    rw [shown, List.getLast?_append_of_ne_nil _ (texts fragment inLine)] at last
    exact ⟨fragment, inLine, List.mem_of_getLast? last⟩

end Joining

section Fragments

variable {α : Type} {max : Nat} {space : α}

/-- The texts of the fragments of a word are its pieces. -/
theorem map_text_fragmentsOf (before : List α) (pieces : List (List α)) :
    (fragmentsOf before pieces).map Fragment.text = pieces := by
  induction pieces generalizing before with
  | nil => rfl
  | cons piece rest ih => simp [fragmentsOf, ih]

/-- The fragments that stand one to a line, after a fragment that began the word, begin no
word. -/
theorem isChain_fragmentsOf {before : List α} (begun : before ≠ [])
    (pieces : List (List α)) (first : List (Fragment α)) :
    (first :: (fragmentsOf before pieces).map fun fragment => [fragment]).IsChain
      fun line next => ∀ fragment ∈ next.head?, fragment.before = [] →
        max < (joined space line).length + 1 + fragment.word.length := by
  induction pieces generalizing before first with
  | nil => exact List.isChain_singleton first
  | cons piece rest ih =>
    have later := ih (List.append_ne_nil_of_left_ne_nil begun piece) [⟨before, piece, rest.flatten⟩]
    refine List.isChain_cons_cons.mpr ⟨?_, later⟩
    intro fragment member new
    obtain rfl : ⟨before, piece, rest.flatten⟩ = fragment := by simpa using member
    exact absurd new begun

namespace Cut

variable {word : List α} {pieces : List (List α)}

/-- A word that fits in a line can be left whole. -/
theorem single (filled : word ≠ []) (short : word.length ≤ max) : Cut max word [word] where
  whole := by simp
  filled := by simpa using filled
  short := by simpa using short
  unsplit := fun _ => rfl

/-- A word that fits in a line is one fragment. -/
theorem fragmentsOf_eq (cut : Cut max word pieces) (short : word.length ≤ max) :
    fragmentsOf [] pieces = [⟨[], word, []⟩] := by
  rw [cut.unsplit short]
  rfl

/-- A fragment of a word has characters, which are characters of the word. -/
theorem of_mem_fragmentsOf (cut : Cut max word pieces) {fragment : Fragment α}
    (member : fragment ∈ fragmentsOf [] pieces) :
    fragment.text ≠ [] ∧ ∀ character ∈ fragment.text, character ∈ word := by
  have inPieces : fragment.text ∈ pieces := by
    have mapped := List.mem_map_of_mem (f := Fragment.text) member
    rwa [map_text_fragmentsOf] at mapped
  constructor
  · exact cut.filled fragment.text inPieces
  · intro character inText
    rw [← cut.whole]
    exact List.mem_flatten.mpr ⟨fragment.text, inPieces, inText⟩

end Cut

/-- Every cut is the cut of one of the words. -/
theorem exists_word_of_mem {words : List (List α)} {cuts : List (List (List α))}
    (cut : List.Forall₂ (Cut max) words cuts) {pieces : List (List α)} (member : pieces ∈ cuts) :
    ∃ word ∈ words, Cut max word pieces := by
  induction cut with
  | nil => simp at member
  | @cons word first words cuts ofWord _ ih =>
    rcases List.mem_cons.mp member with isFirst | later
    · exact ⟨word, List.mem_cons_self, isFirst ▸ ofWord⟩
    · obtain ⟨other, inWords, ofOther⟩ := ih later
      exact ⟨other, List.mem_cons_of_mem word inWords, ofOther⟩

namespace Laid

variable {cuts : List (List (List α))} {layout : List (List (Fragment α))}
variable {words : List (List α)}

/-- No words are laid out in no lines. -/
theorem nil : Laid space max [] [] where
  placed := rfl
  filled := by simp
  fits := by simp
  begins := by simp
  greedy := List.isChain_nil

/-- A word that has room on the last line is put there. -/
theorem extend {initial : List (List (Fragment α))} {line : List (Fragment α)}
    (laid : Laid space max cuts (initial ++ [line])) {word : List α} {pieces : List (List α)}
    (cut : Cut max word pieces) (room : (joined space line).length + 1 + word.length ≤ max) :
    Laid space max (cuts ++ [pieces]) (initial ++ [line ++ [⟨[], word, []⟩]]) := by
  have one := cut.fragmentsOf_eq (by omega)
  have lineFilled := laid.filled line (by simp)
  obtain ⟨first, rest, shape⟩ := List.exists_cons_of_ne_nil lineFilled
  have chain := List.isChain_append.mp laid.greedy
  constructor
  case placed =>
    have placed := laid.placed
    simp only [List.flatten_append, List.flatten_singleton] at placed
    simp [one, ← placed]
  case filled =>
    intro other member
    rcases List.mem_append.mp member with earlier | last
    · exact laid.filled other (List.mem_append_left _ earlier)
    · simp [List.mem_singleton.mp last]
  case fits =>
    intro other member
    rcases List.mem_append.mp member with earlier | last
    · exact laid.fits other (List.mem_append_left _ earlier)
    · rw [List.mem_singleton.mp last, joined_concat space lineFilled]
      have length : (joined space line ++ space :: word).length =
          (joined space line).length + 1 + word.length := by simp; omega
      exact length.trans_le room
  case begins =>
    intro other member fragment later
    rcases List.mem_append.mp member with earlier | last
    · exact laid.begins other (List.mem_append_left _ earlier) fragment later
    · rw [List.mem_singleton.mp last, shape] at later
      rcases List.mem_append.mp later with inRest | isWord
      · exact laid.begins line (by simp) fragment (by rw [shape]; exact inRest)
      · rw [List.mem_singleton.mp isWord]
  case greedy =>
    -- The line still begins with the same fragment.
    refine List.isChain_append.mpr ⟨chain.1, List.isChain_singleton _, ?_⟩
    intro before isLast next isNext fragment member new
    obtain rfl : line ++ [⟨[], word, []⟩] = next := by simpa using isNext
    refine chain.2.2 before isLast line (by simp) fragment ?_ new
    rw [shape] at member ⊢
    exact member

/-- A word that has no room on the last line begins a new one, and each of its pieces has a
line. -/
theorem start (laid : Laid space max cuts layout) {word : List α} {pieces : List (List α)}
    (cut : Cut max word pieces)
    (noRoom : ∀ line ∈ layout.getLast?, max < (joined space line).length + 1 + word.length) :
    Laid space max (cuts ++ [pieces])
      (layout ++ (fragmentsOf [] pieces).map fun fragment => [fragment]) := by
  have texts := map_text_fragmentsOf [] pieces
  constructor
  case placed =>
    rw [List.flatten_append, laid.placed, List.flatMap_append]
    simp [← List.flatMap_def]
  case filled =>
    intro line member
    rcases List.mem_append.mp member with earlier | added
    · exact laid.filled line earlier
    · obtain ⟨fragment, _, alone⟩ := List.mem_map.mp added
      rw [← alone]
      exact List.cons_ne_nil fragment []
  case fits =>
    intro line member
    rcases List.mem_append.mp member with earlier | added
    · exact laid.fits line earlier
    · obtain ⟨fragment, inWord, alone⟩ := List.mem_map.mp added
      have inPieces := List.mem_map_of_mem (f := Fragment.text) inWord
      rw [texts] at inPieces
      rw [← alone, joined_singleton]
      exact cut.short fragment.text inPieces
  case begins =>
    intro line member fragment later
    rcases List.mem_append.mp member with earlier | added
    · exact laid.begins line earlier fragment later
    · obtain ⟨other, _, alone⟩ := List.mem_map.mp added
      simp [← alone] at later
  case greedy =>
    cases pieces with
    | nil => simpa [fragmentsOf] using laid.greedy
    | cons piece rest =>
      have begun : [] ++ piece ≠ [] := cut.filled piece List.mem_cons_self
      refine List.isChain_append.mpr ⟨laid.greedy, isChain_fragmentsOf begun rest _, ?_⟩
      intro line isLast next isNext fragment member _
      obtain rfl : [⟨[], piece, rest.flatten⟩] = next := by simpa [fragmentsOf] using isNext
      obtain rfl : ⟨[], piece, rest.flatten⟩ = fragment := by simpa using member
      have same : Fragment.word ⟨[], piece, rest.flatten⟩ = word := by
        simpa [Fragment.word] using cut.whole
      rw [same]
      exact noRoom line isLast

/-- Every fragment of a layout has characters, which are characters of a word. -/
theorem of_mem (laid : Laid space max cuts layout) (cut : List.Forall₂ (Cut max) words cuts)
    {line : List (Fragment α)} (inLayout : line ∈ layout) {fragment : Fragment α}
    (inLine : fragment ∈ line) :
    fragment.text ≠ [] ∧ ∃ word ∈ words, ∀ character ∈ fragment.text, character ∈ word := by
  have placed : fragment ∈ layout.flatten := List.mem_flatten.mpr ⟨line, inLayout, inLine⟩
  rw [laid.placed] at placed
  obtain ⟨pieces, inCuts, member⟩ := List.mem_flatMap.mp placed
  obtain ⟨word, inWords, ofWord⟩ := exists_word_of_mem cut inCuts
  have known := ofWord.of_mem_fragmentsOf member
  exact ⟨known.1, word, inWords, known.2⟩

/-- Only when there are no words is a layout without lines. -/
theorem eq_nil_iff (laid : Laid space max cuts layout) (cut : List.Forall₂ (Cut max) words cuts)
    (filled : ∀ word ∈ words, word ≠ []) : layout = [] ↔ words = [] := by
  constructor
  · intro noLines
    have placed := laid.placed
    rw [noLines] at placed
    cases cut with
    | nil => rfl
    | @cons word pieces words cuts ofWord _ =>
      rw [List.flatten_nil, List.flatMap_cons] at placed
      have noFragments : fragmentsOf [] pieces = [] := (List.append_eq_nil_iff.mp placed.symm).1
      have noPieces := map_text_fragmentsOf [] pieces
      rw [noFragments, List.map_nil] at noPieces
      have whole := ofWord.whole
      rw [← noPieces, List.flatten_nil] at whole
      exact absurd whole.symm (filled word List.mem_cons_self)
  · intro noWords
    rw [noWords, List.forall₂_nil_left_iff] at cut
    have placed := laid.placed
    rw [cut, List.flatMap_nil, List.flatten_eq_nil_iff] at placed
    exact List.eq_nil_iff_forall_not_mem.mpr fun line member =>
      laid.filled line member (placed line member)

/-- Without the spaces, the lines of a layout are the words in order. -/
theorem filter_flatten (laid : Laid space max cuts layout)
    (cut : List.Forall₂ (Cut max) words cuts) {keep : α → Bool} (drops : keep space = false)
    (keeps : ∀ word ∈ words, ∀ character ∈ word, keep character = true) :
    (layout.map (joined space)).flatten.filter keep = words.flatten := by
  have lines : ∀ line ∈ layout,
      (joined space line).filter keep = (line.map Fragment.text).flatten := by
    intro line inLayout
    refine filter_joined space drops fun fragment inLine character inText => ?_
    obtain ⟨_, word, inWords, inWord⟩ := laid.of_mem cut inLayout inLine
    exact keeps word inWords character (inWord character inText)
  have ofWords : cuts.map List.flatten = words := by
    clear laid lines keeps
    induction cut with
    | nil => rfl
    | cons first _ ih => rw [List.map_cons, first.whole, ih]
  have texts : layout.flatten.map Fragment.text = cuts.flatten := by
    rw [laid.placed, List.map_flatMap]
    simp [map_text_fragmentsOf, List.flatMap_def]
  calc (layout.map (joined space)).flatten.filter keep
      = (layout.map fun line => (line.map Fragment.text).flatten).flatten := by
        rw [List.filter_flatten, List.map_map]
        exact congrArg List.flatten (List.map_congr_left lines)
    _ = (layout.flatten.map Fragment.text).flatten := by
        rw [List.map_flatten, List.flatten_flatten, List.map_map]
        rfl
    _ = words.flatten := by rw [texts, List.flatten_flatten, ofWords]

/-- No line of a layout begins or ends with a space, and none is empty. -/
theorem ends_ne (laid : Laid space max cuts layout) (cut : List.Forall₂ (Cut max) words cuts)
    (apart : ∀ word ∈ words, space ∉ word) {line : List (Fragment α)}
    (inLayout : line ∈ layout) :
    joined space line ≠ [] ∧ (joined space line).head? ≠ some space ∧
      (joined space line).getLast? ≠ some space := by
  have texts : ∀ fragment ∈ line, fragment.text ≠ [] :=
    fun fragment inLine => (laid.of_mem cut inLayout inLine).1
  have noSpace : ¬ ∃ fragment ∈ line, space ∈ fragment.text := by
    intro ⟨fragment, inLine, inText⟩
    obtain ⟨_, word, inWords, inWord⟩ := laid.of_mem cut inLayout inLine
    exact apart word inWords (inWord space inText)
  refine ⟨?_, fun first => noSpace (head_joined space texts space first),
    fun last => noSpace (getLast_joined space texts space last)⟩
  obtain ⟨fragment, rest, shape⟩ := List.exists_cons_of_ne_nil (laid.filled line inLayout)
  have filled := texts fragment (by simp [shape])
  cases rest with
  | nil => simpa [shape] using filled
  | cons second rest => simp [shape]

end Laid

end Fragments

end PrinterSdk.Data
