import PrinterSdk.Brother.Wifi

/-!
# Replies cut short

A reply to an inquiry is one quoted line with the OID and its value.  Once the colon has
arrived, the parser takes whatever follows it for the value, so every beginning of the
reply from there on has a value of its own.
-/

namespace PrinterSdk.Brother

open PrinterSdk.Data PrinterSdk.Discovery

/-- The quote that encloses the line. -/
def quoteMark : UInt8 := 0x22

/-- The bytes that the parser takes for the end of a line. -/
def isLineEnd (byte : UInt8) : Prop := byte = 0x0d ∨ byte = 0x0a ∨ byte = 0x0c

instance : DecidablePred isLineEnd := fun _ => inferInstanceAs (Decidable (_ ∨ _ ∨ _))

/-- The value stays on its line. -/
def LineFree (value : Bytes) : Prop := ∀ byte ∈ value, ¬isLineEnd byte

/-- What a reply begins with. -/
def replyHeader (field : WirelessField) : Bytes := quoteMark :: asBytes field.oid ++ [0x3a]

/-- The line breaks a reply may end with. -/
def lineBreaks : List Bytes := [[0x0d], [0x0a], [0x0d, 0x0a]]

/-- A complete reply: `"oid:value"` and a line break. -/
def completeReply (field : WirelessField) (value lineBreak : Bytes) : Bytes :=
  replyHeader field ++ (value ++ quoteMark :: lineBreak)

/-- The text of a value: trimmed, and without the quotes around it. -/
def valueText (text : Characters) : Characters := trimMatches '"' (trim text)

/-- What the parser makes of a text after the colon. -/
def readValue (field : WirelessField) (text : Characters) : Characters :=
  if field = .ssid then decodeSsid (valueText text) else valueText text

/-! ## Lines -/

theorem mem_of_mem_splitOnP {ends : Char → Bool} {text line : Characters} {character : Char}
    (member : line ∈ text.splitOnP ends) (inside : character ∈ line) : character ∈ text := by
  induction text generalizing line with
  | nil =>
      rw [List.splitOnP_nil] at member
      rw [List.mem_singleton.mp member] at inside
      exact inside
  | cons first rest ih =>
      rw [List.splitOnP_cons_eq_if_modifyHead] at member
      split at member
      · rcases List.mem_cons.mp member with rfl | later
        · cases inside
        · exact List.mem_cons_of_mem _ (ih later inside)
      · obtain ⟨head, tail, parts⟩ := List.exists_cons_of_ne_nil (List.splitOnP_ne_nil ends rest)
        rw [parts, List.modifyHead_cons] at member
        rcases List.mem_cons.mp member with rfl | later
        · rcases List.mem_cons.mp inside with rfl | inner
          · exact List.mem_cons_self
          · exact List.mem_cons_of_mem _ (ih (by rw [parts]; exact List.mem_cons_self) inner)
        · exact List.mem_cons_of_mem _
            (ih (by rw [parts]; exact List.mem_cons_of_mem _ later) inside)

theorem lineValue_eq_none {oid line : Characters} (free : ':' ∉ line) :
    lineValue oid line = none := by
  have kept : ':' ∉ (trim line).dropWhile (· == '"') := by
    intro member
    obtain ⟨before, after, _, _, split⟩ := trim_split line
    apply free
    rw [split]
    have inside := (List.dropWhile_sublist _).mem member
    exact List.mem_append_left _ (List.mem_append_right _ inside)
  unfold lineValue
  rw [splitOnce_eq_none.mpr kept]
  rfl

/-- Without a colon there is no value. -/
theorem parseOidValue_eq_none {data : Bytes} (oid : Characters) (free : (0x3a : UInt8) ∉ data) :
    parseOidValue data oid = none := by
  unfold parseOidValue
  split
  · rfl
  · apply List.findSome?_eq_none_iff.mpr
    intro line member
    apply lineValue_eq_none
    intro inside
    have colon : Char.ofNat (0x3a : UInt8).toNat ∉ lossy data :=
      not_mem_lossy (by decide) (by decide) free
    exact colon (mem_of_mem_splitOnP member inside)

/-! ## The line of a field -/

/-- The characters before the colon. -/
def openingText (field : WirelessField) : Characters := '"' :: field.oid.toList

theorem lossy_opening (field : WirelessField) :
    lossy (quoteMark :: asBytes field.oid) = openingText field := by
  cases field <;> decide +kernel

theorem validOid_oid (field : WirelessField) : validOid field.oid.toList = true := by
  cases field <;> decide +kernel

theorem oid_text (field : WirelessField) : ':' ∉ field.oid.toList ∧
    trim field.oid.toList = field.oid.toList ∧
    (openingText field).dropWhile (· == '"') = field.oid.toList := by
  cases field <;> decide +kernel

theorem oid_injective {field other : WirelessField}
    (same : field.oid.toList = other.oid.toList) : field = other := by
  cases field <;> cases other <;> first | rfl | exact absurd same (by decide +kernel)

theorem lineValue_opening (field : WirelessField) (text : Characters) :
    lineValue field.oid.toList (openingText field ++ ':' :: text) = some (readValue field text) := by
  obtain ⟨free, trimmed, opened⟩ := oid_text field
  have solid : isWhitespace ':' = false := by decide
  have start : trimStart (openingText field) = openingText field :=
    trimStart_cons_of_solid _ (by decide)
  have line : (trim (openingText field ++ ':' :: text)).dropWhile (· == '"') =
      field.oid.toList ++ ':' :: trimEnd text := by
    rw [trim_append_of_solid _ _ solid, start, List.dropWhile_append, opened]
    have some : field.oid.toList.isEmpty = false := by cases field <;> decide +kernel
    rw [some]
    rfl
  have asked : field.oid.toList = WirelessField.ssid.oid.toList ↔ field = .ssid :=
    ⟨oid_injective, fun same => by rw [same]⟩
  unfold lineValue
  rw [line, splitOnce_append free]
  simp only [Option.bind_eq_bind, Option.bind_some, trimmed, ne_eq, not_true_eq_false, ↓reduceIte,
    trim_trimEnd, asked]
  rfl

theorem endsLine_of_lineEnd {byte : UInt8} (ends : byte = 0x0d ∨ byte = 0x0a) :
    byte < 0x80 ∧ endsLine (Char.ofNat byte.toNat) = true := by
  rcases ends with rfl | rfl <;> decide

theorem endsLine_lossy {body : Bytes} (free : LineFree body) :
    ∀ character ∈ lossy body, endsLine character = false := by
  intro character member
  have away : ∀ byte : UInt8, isLineEnd byte → byte < 0x80 → byte ≠ 0 →
      character ≠ Char.ofNat byte.toNat := by
    intro byte ends ascii nonzero same
    have outside : byte ∉ body := fun inside => free byte inside ends
    rw [same] at member
    exact not_mem_lossy ascii nonzero outside member
  have carriage : character ≠ '\r' := away 0x0d (.inl rfl) (by decide) (by decide)
  have feed : character ≠ '\n' := away 0x0a (.inr (.inl rfl)) (by decide) (by decide)
  have form : character ≠ '\x0c' := away 0x0c (.inr (.inr rfl)) (by decide) (by decide)
  simp [endsLine, carriage, feed, form]

/-- The bytes after a line: none, or a line break and what follows. -/
def Ended (tail : Bytes) : Prop :=
  tail = [] ∨ ∃ byte rest, tail = byte :: rest ∧ (byte = 0x0d ∨ byte = 0x0a)

/-- The parser takes the first line when it gives a value. -/
theorem parseOidValue_first {oid value : Characters} {body tail : Bytes}
    (valid : validOid oid = true) (free : LineFree body) (ended : Ended tail)
    (line : lineValue oid (lossy body) = some value) :
    parseOidValue (body ++ tail) oid = some value := by
  have lines : ∃ others, (lossy (body ++ tail)).splitOnP endsLine = lossy body :: others := by
    rcases ended with rfl | ⟨byte, rest, rfl, ends⟩
    · rw [List.append_nil]
      exact ⟨[], List.splitOnP_eq_singleton (endsLine_lossy free)⟩
    · obtain ⟨ascii, ending⟩ := endsLine_of_lineEnd ends
      rw [lossy_append ascii]
      exact ⟨_, List.splitOnP_append_cons_of_forall_mem (endsLine_lossy free) _ ending _⟩
  obtain ⟨others, lines⟩ := lines
  rw [parseOidValue, valid, lines, List.findSome?_cons, line]
  rfl

theorem lineFree_header (field : WirelessField) : LineFree (replyHeader field) := by
  have fixed : (replyHeader field).any (fun byte => decide (isLineEnd byte)) = false := by
    cases field <;> decide +kernel
  intro byte member
  simpa using List.any_eq_false.mp fixed byte member

/-- The parser takes the rest of the line after the colon for the value. -/
theorem parseOidValue_header (field : WirelessField) {body tail : Bytes} (free : LineFree body)
    (ended : Ended tail) :
    parseOidValue (replyHeader field ++ (body ++ tail)) field.oid.toList =
      some (readValue field (lossy body)) := by
  have whole : LineFree (replyHeader field ++ body) := by
    intro byte member
    cases List.mem_append.mp member with
    | inl header => exact lineFree_header field byte header
    | inr value => exact free byte value
  have colon : (0x3a : UInt8) < 0x80 := by decide
  have decoded : lossy (replyHeader field ++ body) = openingText field ++ ':' :: lossy body := by
    rw [replyHeader, List.append_assoc, List.singleton_append, lossy_append colon, lossy_opening]
    rfl
  rw [← List.append_assoc]
  apply parseOidValue_first (validOid_oid field) whole ended
  rw [decoded, lineValue_opening]

/-- What a field decodes depends only on the value of its OID. -/
theorem decodeField_congr {field : WirelessField} {left right : Bytes}
    (same : parseOidValue left field.oid.toList = parseOidValue right field.oid.toList) :
    decodeField field left = decodeField field right := by
  cases field with
  | ipv4 => simp only [decodeField, parseIpAddress, same]
  | encryption => simp only [decodeField, parseCode, same]
  | authentication => simp only [decodeField, parseCode, same]
  | infrastructure => simp only [decodeField, parseBooleanField, same]
  | wirelessDirect => simp only [decodeField, parseBooleanField, same]
  | _ => simp only [decodeField, same]

/-- What follows the line does not matter. -/
theorem decodeField_line (field : WirelessField) {body tail : Bytes} (free : LineFree body)
    (ended : Ended tail) :
    decodeField field (replyHeader field ++ (body ++ tail)) =
      decodeField field (replyHeader field ++ body) := by
  apply decodeField_congr
  have alone := parseOidValue_header field free (.inl rfl)
  rw [List.append_nil] at alone
  rw [parseOidValue_header field free ended, alone]

/-! ## Values that decode to nothing -/

theorem trimMatches_eq_nil {unwanted : Char} {text : Characters} :
    trimMatches unwanted text = [] ↔ ∀ character ∈ text, character = unwanted := by
  unfold trimMatches
  rw [List.rdropWhile_eq_nil_iff]
  constructor
  · intro rest
    by_contra other
    push Not at other
    obtain ⟨character, member, different⟩ := other
    have survives : character ∈ text.dropWhile (· == unwanted) := by
      rcases List.mem_append.mp
        ((List.takeWhile_append_dropWhile (p := (· == unwanted)) (l := text)).symm ▸ member) with
        taken | kept
      · have same := @List.mem_takeWhile_imp _ (· == unwanted) text character taken
        exact absurd (beq_iff_eq.mp same) different
      · exact kept
    exact different (beq_iff_eq.mp (rest character survives))
  · intro all character member
    rw [all character ((List.dropWhile_sublist _).mem member)]
    exact beq_self_eq_true unwanted

theorem eq_nil_of_fromUtf8 {bytes : Bytes} {text : String} (decoded : fromUtf8 bytes = some text)
    (empty : text.toList = []) : bytes = [] := by
  have none : text = "" := String.toList_eq_nil_iff.mp empty
  subst none
  unfold fromUtf8 String.fromUTF8? at decoded
  split at decoded
  · have same := congrArg String.toByteArray (Option.some.inj decoded)
    have data := congrArg (fun array => array.data.toList) same
    simpa [String.fromUTF8] using data
  · cases decoded

/-- An SSID of some characters decodes to some characters. -/
theorem decodeSsid_eq_nil {value : Characters} : decodeSsid value = [] ↔ value = [] := by
  constructor
  · intro decoded
    unfold decodeSsid at decoded
    simp only at decoded
    split at decoded
    · exact decoded
    · rename_i long
      split at decoded
      · exact decoded
      · rename_i bytes read
        cases utf8 : fromUtf8 bytes with
        | none =>
            rw [utf8] at decoded
            exact decoded
        | some text =>
            rw [utf8] at decoded
            have empty := eq_nil_of_fromUtf8 utf8 decoded
            rw [empty] at read
            cases parts : (trimMatches '-' value).splitOn '-' with
            | nil => exact absurd parts (List.splitOn_ne_nil _ _)
            | cons part rest =>
                rw [parts, List.mapM_cons] at read
                cases first : parseU8 16 part with
                | none =>
                    rw [first] at read
                    cases read
                | some byte =>
                    rw [first] at read
                    cases others : rest.mapM (parseU8 16) with
                    | none => simp [others] at read
                    | some bytes => simp [others] at read
  · rintro rfl
    decide +kernel

/-- The blanks that may stand on a line. -/
def isBlank (byte : UInt8) : Prop := byte = 0x20 ∨ byte = 0x09 ∨ byte = 0x0b

instance : DecidablePred isBlank := fun _ => inferInstanceAs (Decidable (_ ∨ _ ∨ _))

/-- A value without an SSID: blanks, and then quotes. -/
def BlankValue (value : Bytes) : Prop :=
  ∃ blanks quotes, value = blanks ++ quotes ∧ (∀ byte ∈ blanks, isBlank byte) ∧
    ∀ byte ∈ quotes, byte = quoteMark

theorem lossy_blanks {blanks : Bytes} (blank : ∀ byte ∈ blanks, isBlank byte) :
    ∀ character ∈ lossy blanks, isWhitespace character = true := by
  induction blanks with
  | nil =>
      intro character member
      cases member
  | cons byte rest ih =>
      have facts : byte < 0x80 ∧ isWhitespace (Char.ofNat byte.toNat) = true := by
        rcases blank byte List.mem_cons_self with rfl | rfl | rfl <;> decide
      have split := lossy_append facts.1 [] rest
      rw [List.nil_append] at split
      rw [split]
      intro character member
      rcases List.mem_cons.mp member with rfl | later
      · exact facts.2
      · exact ih (fun other inside => blank other (List.mem_cons_of_mem _ inside)) character later

theorem lossy_quotes {quotes : Bytes} (quoted : ∀ byte ∈ quotes, byte = quoteMark) :
    ∀ character ∈ lossy quotes, character = '"' := by
  induction quotes with
  | nil =>
      intro character member
      cases member
  | cons byte rest ih =>
      have ascii : quoteMark < 0x80 := by decide
      have split := lossy_append ascii [] rest
      rw [List.nil_append] at split
      rw [quoted byte List.mem_cons_self, split]
      intro character member
      rcases List.mem_cons.mp member with rfl | later
      · rfl
      · exact ih (fun other inside => quoted other (List.mem_cons_of_mem _ inside)) character later

/-- A text of blanks and then quotes is no value. -/
theorem valueText_blankValue {value : Bytes} (blank : BlankValue value) :
    valueText (lossy value) = [] := by
  obtain ⟨blanks, quotes, rfl, white, quoted⟩ := blank
  cases quotes with
  | nil =>
      rw [List.append_nil]
      have gone : trim (lossy blanks) = [] := by
        have only := trim_append_blank [] (lossy_blanks white)
        rw [List.nil_append] at only
        rw [only]
        rfl
      rw [valueText, gone]
      rfl
  | cons byte rest =>
      have ascii : quoteMark < 0x80 := by decide
      have solid : isWhitespace (Char.ofNat quoteMark.toNat) = false := by decide
      rw [quoted byte List.mem_cons_self, lossy_append ascii, valueText,
        trim_append_of_solid _ _ solid]
      apply trimMatches_eq_nil.mpr
      intro character member
      have gone : trimStart (lossy blanks) = [] :=
        List.dropWhile_eq_nil_iff.mpr (lossy_blanks white)
      rw [gone, List.nil_append] at member
      rcases List.mem_cons.mp member with rfl | later
      · rfl
      · have quotes := lossy_quotes fun other inside => quoted other (List.mem_cons_of_mem _ inside)
        obtain ⟨space, _, parts⟩ := trimEnd_split (lossy rest)
        apply quotes character
        rw [parts]
        exact List.mem_append_left _ later

theorem ascii_of_isBlank {byte : UInt8} (blank : isBlank byte) : byte < 0x80 := by
  rcases blank with rfl | rfl | rfl <;> decide

theorem lossy_ascii_append {bytes : Bytes} (ascii : ∀ byte ∈ bytes, byte < 0x80) (tail : Bytes) :
    lossy (bytes ++ tail) = lossy bytes ++ lossy tail := by
  induction bytes with
  | nil => rfl
  | cons byte rest ih =>
      have whole := lossy_append (ascii byte List.mem_cons_self) [] (rest ++ tail)
      have alone := lossy_append (ascii byte List.mem_cons_self) [] rest
      rw [List.nil_append] at whole alone
      rw [List.cons_append, whole, alone,
        ih fun other inside => ascii other (List.mem_cons_of_mem _ inside)]
      rfl

/-- A byte that is neither blank nor a quote nor the end of a line decodes alone to a
solid character that is no quote. -/
theorem lossy_single {byte : UInt8} (noBlank : ¬isBlank byte) (noQuote : byte ≠ quoteMark)
    (inLine : ¬isLineEnd byte) :
    ∃ character, lossy [byte] = [character] ∧ isWhitespace character = false ∧
      character ≠ '"' := by
  have alone : lossy [byte] = [(utf8Piece byte []).decoded] := by
    rw [lossy_cons]
    have width := (utf8Piece_width byte []).1
    have nothing : [byte].drop (utf8Piece byte []).width = [] :=
      List.drop_eq_nil_of_le width
    rw [nothing]
    rfl
  refine ⟨_, alone, ?_⟩
  by_cases ascii : byte < 0x80
  · rw [utf8Piece_ascii ascii]
    change isWhitespace (Char.ofNat byte.toNat) = false ∧ Char.ofNat byte.toNat ≠ '"'
    have scalar := toNat_ofNat_ascii ascii
    have away : ∀ other : UInt8, byte ≠ other → byte.toNat ≠ other.toNat :=
      fun other different same => different (UInt8.toNat_inj.mp same)
    have space := away 0x20 fun same => noBlank (.inl same)
    have tab := away 0x09 fun same => noBlank (.inr (.inl same))
    have vertical := away 0x0b fun same => noBlank (.inr (.inr same))
    have carriage := away 0x0d fun same => inLine (.inl same)
    have feed := away 0x0a fun same => inLine (.inr (.inl same))
    have form := away 0x0c fun same => inLine (.inr (.inr same))
    have small : byte.toNat < 0x80 := UInt8.lt_iff_toNat_lt.mp ascii
    constructor
    · simp only [isWhitespace, scalar, Bool.or_eq_false_iff, Bool.and_eq_false_iff,
        decide_eq_false_iff_not, beq_eq_false_iff_ne]
      simp at space tab vertical carriage feed form
      omega
    · intro same
      apply away quoteMark noQuote
      rw [← scalar, same]
      rfl
  · have broken : utf8Piece byte [] = .illFormed 1 := by
      unfold utf8Piece
      rw [if_neg ascii]
      split
      · rfl
      · split
        · rfl
        · split
          · rfl
          · rfl
    rw [broken]
    decide

/-- A text with a character other than a quote that trimming keeps is a value. -/
theorem valueText_ne_nil {text : Characters} {character : Char} (kept : character ∈ trim text)
    (noQuote : character ≠ '"') : valueText text ≠ [] := fun none =>
  noQuote (trimMatches_eq_nil.mp none character kept)

/-- The longest beginning of a list with a property. -/
theorem exists_span {α : Type} (holds : α → Prop) [DecidablePred holds] (list : List α) :
    ∃ before rest, list = before ++ rest ∧ (∀ value ∈ before, holds value) ∧
      ∀ value later, rest = value :: later → ¬holds value := by
  refine ⟨list.takeWhile fun value => holds value, list.dropWhile fun value => holds value,
    List.takeWhile_append_dropWhile.symm, ?_, ?_⟩
  · intro value member
    have held := @List.mem_takeWhile_imp _ (fun value => decide (holds value)) list value member
    exact of_decide_eq_true held
  · intro value later starts
    have filled : (list.dropWhile fun value => decide (holds value)) ≠ [] := by
      rw [starts]
      exact List.cons_ne_nil _ _
    have stops := List.head_dropWhile_not _ filled
    simp only [starts, List.head_cons] at stops
    exact of_decide_eq_false stops

/-- Any other value has a beginning that decodes to some characters, perhaps only with
the closing quote. -/
theorem exists_beginning {value : Bytes} (free : LineFree value) (filled : ¬BlankValue value) :
    ∃ beginning, beginning <+: value ++ [quoteMark] ∧ valueText (lossy beginning) ≠ [] := by
  obtain ⟨blanks, rest, rfl, white, solid⟩ := exists_span isBlank value
  obtain ⟨quotes, others, rfl, quoted, different⟩ := exists_span (· = quoteMark) rest
  have plain : ∀ byte ∈ blanks ++ quotes, byte < 0x80 := by
    intro byte member
    rcases List.mem_append.mp member with first | last
    · exact ascii_of_isBlank (white byte first)
    · rw [quoted byte last]
      decide
  have mark : quoteMark < 0x80 := by decide
  have firm : isWhitespace (Char.ofNat quoteMark.toNat) = false := by decide
  cases others with
  | nil =>
      rw [List.append_nil] at filled
      exact absurd ⟨blanks, quotes, rfl, white, quoted⟩ filled
  | cons byte more =>
      have noQuote := different byte more rfl
      by_cases blank : isBlank byte
      · -- the blank stands between two quotes, so that the whole value keeps it
        cases quotes with
        | nil => exact absurd blank (solid byte more rfl)
        | cons quote quotes =>
            refine ⟨_, List.prefix_rfl, ?_⟩
            have ascii := ascii_of_isBlank blank
            have split : (blanks ++ (quote :: quotes ++ byte :: more)) ++ [quoteMark] =
                blanks ++ quoteMark :: (quotes ++ byte :: (more ++ quoteMark :: [])) := by
              rw [quoted quote List.mem_cons_self]
              simp
            rw [split, lossy_append mark, lossy_append ascii, lossy_append mark]
            have inner : lossy quotes ++ Char.ofNat byte.toNat ::
                  (lossy more ++ Char.ofNat quoteMark.toNat :: lossy []) =
                (lossy quotes ++ Char.ofNat byte.toNat :: lossy more) ++
                  Char.ofNat quoteMark.toNat :: lossy [] := by simp
            have kept : Char.ofNat byte.toNat ≠ '"' := by
              rcases blank with rfl | rfl | rfl <;> decide
            rw [inner]
            apply valueText_ne_nil _ kept
            rw [trim_append_of_solid _ _ firm, trimEnd_append_of_solid _ _ firm]
            simp
      · have inLine : ¬isLineEnd byte := free byte (by simp)
        obtain ⟨character, alone, firm, kept⟩ := lossy_single blank noQuote inLine
        refine ⟨(blanks ++ quotes) ++ [byte], ⟨more ++ [quoteMark], by simp⟩, ?_⟩
        rw [lossy_ascii_append plain, alone]
        apply valueText_ne_nil _ kept
        rw [trim_append_of_solid _ _ firm]
        simp

/-! ## Replies whose beginnings agree -/

theorem decodeField_nothing (field : WirelessField) :
    decodeField field (replyHeader field) =
      if field = .ssid then some (.text "") else none := by
  cases field <;> rfl

end PrinterSdk.Brother
