import PrinterSdk.Data.WordLayout
import PrinterSdk.Render.Lettering

/-!
# Wrapping lays out words

`wrap` joins words and breaks words in one buffer, and pushes it in two places.  Its lines are
a greedy layout of the words of the text.
-/

namespace PrinterSdk.Render

open PrinterSdk.Data

/-! ## The words -/

/-- A word of a text has characters, and none of them is whitespace. -/
theorem of_mem_splitWhitespace {text word : Characters} (member : word ∈ splitWhitespace text) :
    word ≠ [] ∧ ∀ character ∈ word, isWhitespace character = false := by
  obtain ⟨piece, filled⟩ := List.mem_filter.mp member
  exact ⟨by simpa using filled, not_of_mem_splitOnP piece⟩

/-- The words of a text hold everything that is not whitespace. -/
theorem flatten_splitWhitespace (text : Characters) :
    (splitWhitespace text).flatten = text.filter fun character => !isWhitespace character := by
  rw [splitWhitespace, List.flatten_filter_ne_nil, flatten_splitOnP]

/-- A text of nothing but whitespace. -/
def Blank (text : Characters) : Prop := ∀ character ∈ text, isWhitespace character = true

/-- A text without words is blank. -/
theorem splitWhitespace_eq_nil_iff (text : Characters) :
    splitWhitespace text = [] ↔ Blank text := by
  have blank : Blank text ↔ (splitWhitespace text).flatten = [] := by
    rw [flatten_splitWhitespace, List.filter_eq_nil_iff]
    simp [Blank]
  rw [blank, List.flatten_eq_nil_iff]
  constructor
  · intro none word member
    simp [none] at member
  · intro empty
    refine List.eq_nil_iff_forall_not_mem.mpr fun word member => ?_
    exact (of_mem_splitWhitespace member).1 (empty word member)

/-! ## The loop over the characters -/

/-- A word with room on the line is appended to it. -/
theorem wrapCharacters_of_room {max : Nat} {lines : List Characters} {line word : Characters}
    (room : line.length + word.length ≤ max) :
    wrapCharacters max lines line word = (lines, line ++ word) := by
  induction word generalizing line with
  | nil => simp [wrapCharacters]
  | cons character rest ih =>
    rw [List.length_cons] at room
    have notFull : ¬ line.length = max := by omega
    have later : (line ++ [character]).length + rest.length ≤ max := by simp; omega
    simp [wrapCharacters, notFull, ih later]

/-- A buffer and the characters after it are cut into lines. -/
theorem wrapCharacters_cuts {max : Nat} (positive : 1 ≤ max) (lines : List Characters)
    {line word : Characters} (filled : line ≠ []) (fits : line.length ≤ max) :
    ∃ pieces, Cut max (line ++ word) pieces ∧
      (wrapCharacters max lines line word).1 ++ [(wrapCharacters max lines line word).2] =
        lines ++ pieces := by
  induction word generalizing lines line with
  | nil =>
    refine ⟨[line], ⟨by simp, by simpa using filled, by simpa using fits, by simp⟩, ?_⟩
    simp [wrapCharacters]
  | cons character rest ih =>
    by_cases full : line.length = max
    · obtain ⟨pieces, cut, pushed⟩ :=
        ih (lines ++ [line]) (List.cons_ne_nil character []) (by simpa using positive)
      refine ⟨line :: pieces, ⟨?_, ?_, ?_, ?_⟩, ?_⟩
      · simp [cut.whole]
      · exact List.forall_mem_cons.mpr ⟨filled, cut.filled⟩
      · exact List.forall_mem_cons.mpr ⟨fits, cut.short⟩
      · intro short
        simp only [List.length_append, List.length_cons] at short
        omega
      · rw [wrapCharacters, if_pos full, pushed]
        simp
    · have room : (line ++ [character]).length ≤ max := by simp; omega
      obtain ⟨pieces, cut, pushed⟩ := ih lines (by simp) room
      refine ⟨pieces, by simpa using cut, ?_⟩
      rw [wrapCharacters, if_neg full, pushed]

/-- A word in an empty buffer is cut into lines. -/
theorem wrapCharacters_empty {max : Nat} (positive : 1 ≤ max) (lines : List Characters)
    {word : Characters} (filled : word ≠ []) :
    ∃ pieces, Cut max word pieces ∧
      (wrapCharacters max lines [] word).1 ++ [(wrapCharacters max lines [] word).2] =
        lines ++ pieces := by
  obtain ⟨character, rest, shape⟩ := List.exists_cons_of_ne_nil filled
  have notFull : ¬ ([] : Characters).length = max := by
    rw [List.length_nil]
    omega
  have started : wrapCharacters max lines [] word = wrapCharacters max lines [character] rest := by
    rw [shape, wrapCharacters, if_neg notFull, List.nil_append]
  rw [started, shape]
  exact wrapCharacters_cuts positive lines (List.cons_ne_nil character []) (by simpa using positive)

/-! ## The loop over the words -/

/-- The body of the loop over the words in `wrap`. -/
def wrapWord (max : Nat) (lines : List Characters) (line word : Characters) :
    List Characters × Characters :=
  let pushed := if line ≠ [] ∧ line.length + 1 + word.length > max then
      (lines ++ [line], [])
    else (lines, line)
  let spaced := if pushed.2 ≠ [] then pushed.2 ++ [' '] else pushed.2
  wrapCharacters max pushed.1 spaced word

@[simp] theorem wrapWords_cons (max : Nat) (lines : List Characters) (line word : Characters)
    (rest : List Characters) :
    wrapWords max lines line (word :: rest) =
      wrapWords max (wrapWord max lines line word).1 (wrapWord max lines line word).2 rest := rfl

/-- A word with room on a line goes there after a space. -/
theorem wrapWord_of_room {max : Nat} {lines : List Characters} {line word : Characters}
    (filled : line ≠ []) (room : line.length + 1 + word.length ≤ max) :
    wrapWord max lines line word = (lines, line ++ ' ' :: word) := by
  have kept : ¬ (line ≠ [] ∧ line.length + 1 + word.length > max) := by
    intro pushed
    omega
  have spaced : (line ++ [' ']).length + word.length ≤ max := by simpa using room
  simp only [wrapWord, if_neg kept, if_pos filled]
  rw [wrapCharacters_of_room spaced]
  simp

/-- A word without room begins in an empty buffer, after the lines so far. -/
theorem wrapWord_of_noRoom {max : Nat} {lines : List Characters} {line word : Characters}
    (noRoom : line ≠ [] → max < line.length + 1 + word.length) :
    wrapWord max lines line word =
      wrapCharacters max (if line = [] then lines else lines ++ [line]) [] word := by
  by_cases empty : line = []
  · simp [wrapWord, empty]
  · simp [wrapWord, empty, noRoom empty]

/-- What the loop over the words keeps.  The words so far are laid out, and the lines that
were pushed are the layout but for its last line, which is in the buffer. -/
structure Wrapping (max : Nat) (words : List Characters) (cuts : List (List Characters))
    (layout : List (List (Fragment Char))) (lines : List Characters) (line : Characters) :
    Prop where
  cut : List.Forall₂ (Cut max) words cuts
  laid : Laid ' ' max cuts layout
  pushed : (if line = [] then lines else lines ++ [line]) = layout.map (joined ' ')
  started : line = [] → lines = []

namespace Wrapping

variable {max : Nat} {words : List Characters} {cuts : List (List Characters)}
variable {layout : List (List (Fragment Char))} {lines : List Characters}
variable {line word : Characters}

/-- The loop begins without a word. -/
theorem empty : Wrapping max [] [] [] [] [] where
  cut := List.Forall₂.nil
  laid := Laid.nil
  pushed := rfl
  started := fun _ => rfl

/-- The last line of the layout is in the buffer. -/
theorem buffer (wrapping : Wrapping max words cuts layout lines line)
    {last : List (Fragment Char)} (isLast : last ∈ layout.getLast?) :
    line ≠ [] ∧ line = joined ' ' last := by
  have mapped : (layout.map (joined ' ')).getLast? = some (joined ' ' last) := by
    rw [List.getLast?_map, Option.mem_def.mp isLast, Option.map_some]
  have pushed := wrapping.pushed
  by_cases unbuffered : line = []
  · rw [if_pos unbuffered, wrapping.started unbuffered] at pushed
    simp [← pushed] at mapped
  · rw [if_neg unbuffered] at pushed
    rw [← pushed, List.getLast?_concat] at mapped
    exact ⟨unbuffered, Option.some.inj mapped⟩

/-- A word that has room is put on the last line. -/
theorem append (wrapping : Wrapping max words cuts layout lines line) (buffered : line ≠ [])
    (filled : word ≠ []) (room : line.length + 1 + word.length ≤ max) :
    ∃ cuts' layout', Wrapping max (words ++ [word]) cuts' layout' lines
      (line ++ ' ' :: word) := by
  have pushed := wrapping.pushed
  rw [if_neg buffered] at pushed
  rcases List.eq_nil_or_concat layout with isNil | ⟨initial, last, shape⟩
  · simp [isNil] at pushed
  · rw [List.concat_eq_append] at shape
    obtain ⟨sameLines, sameLine⟩ : lines = initial.map (joined ' ') ∧ line = joined ' ' last := by
      rw [shape, List.map_append, List.map_singleton] at pushed
      exact List.append_singleton_inj.mp pushed
    have laid := wrapping.laid
    rw [shape] at laid
    have cut : Cut max word [word] := Cut.single filled (by omega)
    have lastFilled : last ≠ [] := laid.filled last (by simp)
    refine ⟨cuts ++ [[word]], initial ++ [last ++ [⟨[], word, []⟩]], ?_, ?_, ?_, ?_⟩
    · exact List.rel_append wrapping.cut (List.Forall₂.cons cut List.Forall₂.nil)
    · exact laid.extend cut (sameLine ▸ room)
    · simp [joined_concat, lastFilled, sameLines, sameLine]
    · simp

/-- A word that has no room begins a line. -/
theorem breakLine (positive : 1 ≤ max) (wrapping : Wrapping max words cuts layout lines line)
    (filled : word ≠ []) (noRoom : line ≠ [] → max < line.length + 1 + word.length) :
    ∃ cuts' layout', Wrapping max (words ++ [word]) cuts' layout'
      (wrapWord max lines line word).1 (wrapWord max lines line word).2 := by
  rw [wrapWord_of_noRoom noRoom, wrapping.pushed]
  obtain ⟨pieces, cut, pushed⟩ := wrapCharacters_empty positive (layout.map (joined ' ')) filled
  have buffered : (wrapCharacters max (layout.map (joined ' ')) [] word).2 ≠ [] := by
    rcases List.eq_nil_or_concat pieces with isNil | ⟨initial, last, shape⟩
    · have whole := cut.whole
      simp [isNil] at whole
      exact absurd whole filled
    · rw [List.concat_eq_append] at shape
      rw [shape, ← List.append_assoc] at pushed
      rw [(List.append_singleton_inj.mp pushed).2]
      exact cut.filled last (by simp [shape])
  refine ⟨cuts ++ [pieces], layout ++ (fragmentsOf [] pieces).map fun fragment => [fragment],
    ?_, ?_, ?_, ?_⟩
  · exact List.rel_append wrapping.cut (List.Forall₂.cons cut List.Forall₂.nil)
  · refine wrapping.laid.start cut fun last isLast => ?_
    obtain ⟨before, same⟩ := wrapping.buffer isLast
    rw [← same]
    exact noRoom before
  · have alone : (joined ' ' ∘ fun fragment => [fragment]) = Fragment.text := by
      funext fragment
      exact joined_singleton ' ' fragment
    rw [if_neg buffered, pushed, List.map_append, List.map_map, alone, map_text_fragmentsOf]
  · intro unbuffered
    exact absurd unbuffered buffered

/-- One word more keeps a greedy layout of the words so far. -/
theorem step (positive : 1 ≤ max) (wrapping : Wrapping max words cuts layout lines line)
    (filled : word ≠ []) :
    ∃ cuts' layout', Wrapping max (words ++ [word]) cuts' layout'
      (wrapWord max lines line word).1 (wrapWord max lines line word).2 := by
  by_cases room : line ≠ [] ∧ line.length + 1 + word.length ≤ max
  · rw [wrapWord_of_room room.1 room.2]
    exact wrapping.append room.1 filled room.2
  · exact wrapping.breakLine positive filled fun buffered => by
      simpa [buffered] using room

/-- The whole loop lays out all words. -/
theorem run (positive : 1 ≤ max) (rest : List Characters)
    (wrapping : Wrapping max words cuts layout lines line) (filled : ∀ word ∈ rest, word ≠ []) :
    ∃ cuts' layout', Wrapping max (words ++ rest) cuts' layout'
      (wrapWords max lines line rest).1 (wrapWords max lines line rest).2 := by
  induction rest generalizing words cuts layout lines line with
  | nil => exact ⟨cuts, layout, by simpa [wrapWords] using wrapping⟩
  | cons word rest ih =>
    obtain ⟨_, _, after⟩ := wrapping.step positive (filled word List.mem_cons_self)
    obtain ⟨cuts', layout', all⟩ :=
      ih after fun other member => filled other (List.mem_cons_of_mem word member)
    exact ⟨cuts', layout', by simpa using all⟩

/-- The lines that `wrap` returns after the loop over words.  Without words it is an empty
line. -/
theorem finish (wrapping : Wrapping max words cuts layout lines line) :
    (if line ≠ [] ∨ lines = [] then lines ++ [line] else lines) =
      if layout = [] then [[]] else layout.map (joined ' ') := by
  have pushed := wrapping.pushed
  by_cases unbuffered : line = []
  · have none := wrapping.started unbuffered
    have noLayout : layout = [] := by simpa [unbuffered, none] using pushed.symm
    simp [unbuffered, none, noLayout]
  · rw [if_neg unbuffered] at pushed
    have someLayout : layout ≠ [] := by
      intro noLayout
      simp [noLayout] at pushed
    simp [unbuffered, someLayout, pushed]

end Wrapping

/-- For every text and every limit from 1 on, the wrapped text is a greedy layout of the words
of the text, and a blank text is one empty line. -/
theorem wrap_lays_out (text : Characters) {max : Nat} (positive : 1 ≤ max) :
    (∀ line ∈ wrap text max, line.length ≤ max) ∧
      ((wrap text max).flatten.filter fun character => !isWhitespace character) =
        (text.filter fun character => !isWhitespace character) ∧
      (Blank text → wrap text max = [[]]) ∧
      (¬ Blank text → ∀ line ∈ wrap text max, line ≠ []) ∧
      (∀ line ∈ wrap text max, line.head? ≠ some ' ' ∧ line.getLast? ≠ some ' ') ∧
      ∃ cuts layout, List.Forall₂ (Cut max) (splitWhitespace text) cuts ∧
        Laid ' ' max cuts layout ∧
        (¬ Blank text → wrap text max = layout.map (joined ' ')) := by
  have words : ∀ word ∈ splitWhitespace text,
      word ≠ [] ∧ ∀ character ∈ word, isWhitespace character = false :=
    fun word member => of_mem_splitWhitespace member
  have filled : ∀ word ∈ splitWhitespace text, word ≠ [] := fun word member => (words word member).1
  have apart : ∀ word ∈ splitWhitespace text, ' ' ∉ word := by
    intro word member inWord
    exact absurd ((words word member).2 ' ' inWord) (by decide)
  obtain ⟨cuts, layout, wrapping⟩ := Wrapping.empty.run positive (splitWhitespace text) filled
  rw [List.nil_append] at wrapping
  have wrapped : wrap text max = if layout = [] then [[]] else layout.map (joined ' ') :=
    wrapping.finish
  have none_iff : layout = [] ↔ Blank text :=
    (wrapping.laid.eq_nil_iff wrapping.cut filled).trans (splitWhitespace_eq_nil_iff text)
  have content : ((layout.map (joined ' ')).flatten.filter fun character =>
      !isWhitespace character) = text.filter fun character => !isWhitespace character := by
    rw [← flatten_splitWhitespace text]
    apply wrapping.laid.filter_flatten wrapping.cut
    · rfl
    · intro word member character inWord
      simp [(words word member).2 character inWord]
  have shown : ∀ line ∈ wrap text max, line = [] ∧ layout = [] ∨
      ∃ fragments ∈ layout, joined ' ' fragments = line := by
    intro line member
    rw [wrapped] at member
    by_cases noLayout : layout = []
    · rw [if_pos noLayout] at member
      exact Or.inl ⟨List.mem_singleton.mp member, noLayout⟩
    · rw [if_neg noLayout] at member
      exact Or.inr (List.mem_map.mp member)
  refine ⟨?_, ?_, ?_, ?_, ?_, cuts, layout, wrapping.cut, wrapping.laid, ?_⟩
  · intro line member
    rcases shown line member with ⟨empty, _⟩ | ⟨fragments, inLayout, same⟩
    · simp [empty]
    · exact same ▸ wrapping.laid.fits fragments inLayout
  · by_cases noLayout : layout = []
    · rw [← content, wrapped, noLayout]
      rfl
    · rw [wrapped, if_neg noLayout, content]
  · intro blank
    rw [wrapped, if_pos (none_iff.mpr blank)]
  · intro notBlank line member
    rcases shown line member with ⟨_, noLayout⟩ | ⟨fragments, inLayout, same⟩
    · exact absurd (none_iff.mp noLayout) notBlank
    · exact same ▸ (wrapping.laid.ends_ne wrapping.cut apart inLayout).1
  · intro line member
    rcases shown line member with ⟨empty, _⟩ | ⟨fragments, inLayout, same⟩
    · simp [empty]
    · exact same ▸ (wrapping.laid.ends_ne wrapping.cut apart inLayout).2
  · intro notBlank
    rw [wrapped, if_neg (mt none_iff.mp notBlank)]

/-- A word that is too long is cut, and the next word goes on after its rest. -/
theorem wrap_lays_out_rest :
    wrap "a b  abcde f".toList 4 = ["a b".toList, "abcd".toList, "e f".toList] ∧
      ∀ line ∈ wrap "a b  abcde f".toList 4, line.length ≤ 4 :=
  ⟨by decide, (wrap_lays_out "a b  abcde f".toList (by decide)).1⟩

end PrinterSdk.Render
