import PrinterSdk.Brother.WifiReply

/-!
# Where a value begins

A text gives a field a value when it is a token of the field, inside the white space,
quotes and dashes that the parsers trim.  A beginning of a reply therefore gives a value
as soon as it ends with a token, whatever the rest of the reply is.
-/

namespace PrinterSdk.Brother

open PrinterSdk.Data PrinterSdk.Discovery

/-- The texts that give a field other than the SSID a value. -/
inductive Token : WirelessField → Characters → Prop where
  | state {number : Characters} {value : Int64} :
      parseI64 number = some value → Token .connected number
  | address {octets : List Characters} : octets.length = 4 →
      (∀ octet ∈ octets, (parseU8 16 octet).isSome = true) →
      Token .ipv4 (['-'].intercalate octets)
  | encryption {number : Characters} {code : UInt8} {name : String} :
      parseU8 10 number = some code → encryptionName code = some name → Token .encryption number
  | authentication {number : Characters} {code : UInt8} {name : String} :
      parseU8 10 number = some code → authenticationName code = some name →
      Token .authentication number
  | infrastructure {digit : Char} : digit = '0' ∨ digit = '1' → Token .infrastructure [digit]
  | wirelessDirect {digit : Char} : digit = '0' ∨ digit = '1' → Token .wirelessDirect [digit]

/-- What a field trims around its token, inside the quotes. -/
def isPadding (field : WirelessField) : Char → Bool :=
  if field = .ipv4 then (· == '-') else isWhitespace

/-- What a field parses of a value. -/
def tokenText (field : WirelessField) (value : Characters) : Characters :=
  (value.dropWhile (isPadding field)).rdropWhile (isPadding field)

/-- A text without what may stand before a token. -/
def openedText (field : WirelessField) (text : Characters) : Characters :=
  ((trimStart text).dropWhile (· == '"')).dropWhile (isPadding field)

/-- Behind white space and quotes, the text begins with a token of the field. -/
def Begins (field : WirelessField) (text : Characters) : Prop :=
  ∃ token, Token field token ∧ token <+: openedText field text

/-! ## Digits -/

theorem digits_of_digitsValue {radix number : Nat} {digits : Characters}
    (parsed : digitsValue radix digits = some number) :
    digits ≠ [] ∧ ∀ digit ∈ digits, (digitValue radix digit).isSome = true := by
  have step (start : Nat) (text : Characters)
      (folded : (text.foldlM (fun value digit =>
        (digitValue radix digit).map (value * radix + ·)) start).isSome = true) :
      ∀ digit ∈ text, (digitValue radix digit).isSome = true := by
    induction text generalizing start with
    | nil =>
        intro digit member
        cases member
    | cons first rest ih =>
        rw [List.foldlM_cons] at folded
        cases read : digitValue radix first with
        | none =>
            rw [read] at folded
            cases folded
        | some value =>
            rw [read] at folded
            intro digit member
            rcases List.mem_cons.mp member with rfl | later
            · rw [read]
              rfl
            · exact ih _ folded digit later
  unfold digitsValue at parsed
  cases digits with
  | nil => cases parsed
  | cons first rest =>
      refine ⟨List.cons_ne_nil _ _, step 0 _ ?_⟩
      rw [List.isEmpty_cons, if_neg Bool.false_ne_true] at parsed
      rw [parsed]
      rfl

theorem digitValue_hex {radix : Nat} {digit : Char} (read : (digitValue radix digit).isSome = true) :
    (digitValue 16 digit).isSome = true := by
  unfold digitValue at read ⊢
  grind

/-- The text ends with a digit of a number. -/
def EndsWithDigit (text : Characters) : Prop :=
  ∃ before last, text = before ++ [last] ∧ (digitValue 16 last).isSome = true

theorem EndsWithDigit.append {text : Characters} (ends : EndsWithDigit text)
    (before : Characters) : EndsWithDigit (before ++ text) := by
  obtain ⟨first, last, rfl, digit⟩ := ends
  exact ⟨before ++ first, last, (List.append_assoc ..).symm, digit⟩

theorem endsWithDigit_of_digitsValue {radix number : Nat} {digits : Characters}
    (parsed : digitsValue radix digits = some number) : EndsWithDigit digits := by
  obtain ⟨some, all⟩ := digits_of_digitsValue parsed
  refine ⟨digits.dropLast, digits.getLast some, (List.dropLast_append_getLast some).symm, ?_⟩
  exact digitValue_hex (all _ (List.getLast_mem some))

theorem undashed_of_digitsValue {radix number : Nat} {digits : Characters}
    (parsed : digitsValue radix digits = some number) : '-' ∉ digits := by
  intro member
  have read := digitValue_hex ((digits_of_digitsValue parsed).2 '-' member)
  exact absurd read (by decide)

/-- A part that gives an octet ends with a digit and has no dash. -/
theorem parseU8_text {radix : Nat} {text : Characters} {value : UInt8}
    (parsed : parseU8 radix text = some value) : EndsWithDigit text ∧ '-' ∉ text := by
  unfold parseU8 at parsed
  obtain ⟨number, read, -⟩ := Option.bind_eq_some_iff.mp parsed
  split at read
  · constructor
    · exact (endsWithDigit_of_digitsValue read).append ['+']
    · intro member
      rcases List.mem_cons.mp member with sign | later
      · cases sign
      · exact undashed_of_digitsValue read later
  · exact ⟨endsWithDigit_of_digitsValue read, undashed_of_digitsValue read⟩

theorem parseI64_text {text : Characters} {value : Int64} (parsed : parseI64 text = some value) :
    EndsWithDigit text := by
  unfold parseI64 at parsed
  split at parsed
  · obtain ⟨number, read, -⟩ := Option.bind_eq_some_iff.mp parsed
    exact (endsWithDigit_of_digitsValue read).append ['-']
  · obtain ⟨number, read, -⟩ := Option.bind_eq_some_iff.mp parsed
    exact (endsWithDigit_of_digitsValue read).append ['+']
  · obtain ⟨number, read, -⟩ := Option.bind_eq_some_iff.mp parsed
    exact endsWithDigit_of_digitsValue read

/-- Every token ends with a digit. -/
theorem Token.ends {field : WirelessField} {token : Characters} (whole : Token field token) :
    EndsWithDigit token := by
  cases whole with
  | state parsed => exact parseI64_text parsed
  | @address octets four parsed =>
      match octets, four with
      | [first, second, third, fourth], _ =>
          obtain ⟨octet, parsed⟩ := Option.isSome_iff_exists.mp (parsed fourth (by simp))
          have last := (parseU8_text parsed).1
          have split : ['-'].intercalate [first, second, third, fourth] =
              (first ++ '-' :: (second ++ '-' :: (third ++ ['-']))) ++ fourth := by
            simp [List.intercalate_cons_cons]
          rw [split]
          exact last.append _
  | encryption parsed _ => exact (parseU8_text parsed).1
  | authentication parsed _ => exact (parseU8_text parsed).1
  | infrastructure digit =>
      refine ⟨[], _, rfl, ?_⟩
      rcases digit with rfl | rfl <;> rfl
  | wirelessDirect digit =>
      refine ⟨[], _, rfl, ?_⟩
      rcases digit with rfl | rfl <;> rfl

/-- A digit is an ASCII byte that no parser trims. -/
theorem digit_solid {digit : Char} (read : (digitValue 16 digit).isSome = true) :
    ∃ byte : UInt8, byte < 0x80 ∧ byte ≠ 0 ∧ byte ≠ quoteMark ∧ digit = Char.ofNat byte.toNat ∧
      isWhitespace digit = false ∧ digit ≠ '"' ∧ digit ≠ '-' := by
  have range : 0x30 ≤ digit.toNat ∧ digit.toNat ≤ 0x66 := by
    unfold digitValue at read
    grind
  have same : (UInt8.ofNat digit.toNat).toNat = digit.toNat := by
    rw [UInt8.toNat_ofNat']
    omega
  have away (other : UInt8) (outside : other.toNat < 0x30) :
      UInt8.ofNat digit.toNat ≠ other := by
    intro equal
    rw [← equal, same] at outside
    omega
  have apart (other : Char) (outside : other.toNat < 0x30) : digit ≠ other := by
    rintro rfl
    omega
  refine ⟨UInt8.ofNat digit.toNat, ?_, away 0 (by decide), away quoteMark (by decide), ?_, ?_,
    apart '"' (by decide), apart '-' (by decide)⟩
  · rw [UInt8.lt_iff_toNat_lt, same]
    exact range.2.trans_lt (by decide)
  · rw [same, Char.ofNat_toNat]
  · simp only [isWhitespace, Bool.or_eq_false_iff, Bool.and_eq_false_iff,
      decide_eq_false_iff_not, beq_eq_false_iff_ne]
    omega

/-! ## What a beginning of a reply decodes to -/

theorem mapM_isSome {α β : Type} (read : α → Option β) (list : List α) (size : Nat) :
    (∃ values, list.mapM read = some values ∧ values.length = size) ↔
      list.length = size ∧ ∀ element ∈ list, (read element).isSome = true := by
  induction list generalizing size with
  | nil => simp
  | cons first rest ih =>
      rw [List.mapM_cons]
      constructor
      · rintro ⟨values, mapped, length⟩
        obtain ⟨value, head, mapped⟩ := Option.bind_eq_some_iff.mp mapped
        obtain ⟨others, tail, same⟩ := Option.bind_eq_some_iff.mp mapped
        cases same
        obtain ⟨count, all⟩ := (ih others.length).mp ⟨others, tail, rfl⟩
        refine ⟨?_, ?_⟩
        · rw [← length, List.length_cons, List.length_cons, count]
        · intro element member
          rcases List.mem_cons.mp member with rfl | later
          · rw [head]
            rfl
          · exact all element later
      · rintro ⟨count, all⟩
        obtain ⟨others, tail, length⟩ :=
          (ih rest.length).mpr ⟨rfl, fun element member => all element (List.mem_cons_of_mem _ member)⟩
        obtain ⟨value, head⟩ := Option.isSome_iff_exists.mp (all first List.mem_cons_self)
        refine ⟨value :: others, ?_, ?_⟩
        · rw [head, tail]
          rfl
        · rw [← count, List.length_cons, List.length_cons, length]

/-- The dashes of an address separate its octets. -/
theorem token_address {text : Characters} :
    Token .ipv4 text ↔ (text.splitOn '-').length = 4 ∧
      ∀ octet ∈ text.splitOn '-', (parseU8 16 octet).isSome = true := by
  constructor
  · intro whole
    cases whole with
    | @address octets four parsed =>
        have undashed : ∀ octet ∈ octets, '-' ∉ octet := by
          intro octet member
          obtain ⟨value, read⟩ := Option.isSome_iff_exists.mp (parsed octet member)
          exact (parseU8_text read).2
        have some : octets ≠ [] := by
          rintro rfl
          cases four
        rw [List.splitOn_intercalate '-' undashed some]
        exact ⟨four, parsed⟩
  · rintro ⟨four, parsed⟩
    have address := Token.address four parsed
    rwa [List.intercalate_splitOn] at address

theorem token_state {text : Characters} :
    Token .connected text ↔ (parseI64 text).isSome = true := by
  rw [Option.isSome_iff_exists]
  constructor
  · intro whole
    cases whole with
    | state read => exact ⟨_, read⟩
  · rintro ⟨number, read⟩
    exact .state read

theorem token_encryption {text : Characters} :
    Token .encryption text ↔ ((parseU8 10 text).bind encryptionName).isSome = true := by
  rw [Option.isSome_iff_exists]
  constructor
  · intro whole
    cases whole with
    | encryption read named => exact ⟨_, Option.bind_eq_some_iff.mpr ⟨_, read, named⟩⟩
  · rintro ⟨name, named⟩
    obtain ⟨code, read, named⟩ := Option.bind_eq_some_iff.mp named
    exact .encryption read named

theorem token_authentication {text : Characters} :
    Token .authentication text ↔ ((parseU8 10 text).bind authenticationName).isSome = true := by
  rw [Option.isSome_iff_exists]
  constructor
  · intro whole
    cases whole with
    | authentication read named => exact ⟨_, Option.bind_eq_some_iff.mpr ⟨_, read, named⟩⟩
  · rintro ⟨name, named⟩
    obtain ⟨code, read, named⟩ := Option.bind_eq_some_iff.mp named
    exact .authentication read named

/-- What a field that holds a boolean makes of a value. -/
def readBoolean (text : Characters) : Option Bool :=
  if text = ['0'] then some false else if text = ['1'] then some true else none

theorem readBoolean_isSome {text : Characters} :
    (readBoolean text).isSome = true ↔ ∃ digit, text = [digit] ∧ (digit = '0' ∨ digit = '1') := by
  unfold readBoolean
  by_cases zero : text = ['0']
  · simp [zero]
  · by_cases one : text = ['1']
    · simp [one]
    · simp only [zero, one, ↓reduceIte, Option.isSome_none, Bool.false_eq_true, false_iff]
      rintro ⟨digit, rfl, rfl | rfl⟩
      · exact zero rfl
      · exact one rfl

theorem token_infrastructure {text : Characters} :
    Token .infrastructure text ↔ (readBoolean text).isSome = true := by
  rw [readBoolean_isSome]
  constructor
  · intro whole
    cases whole with
    | infrastructure known => exact ⟨_, rfl, known⟩
  · rintro ⟨digit, rfl, known⟩
    exact .infrastructure known

theorem token_wirelessDirect {text : Characters} :
    Token .wirelessDirect text ↔ (readBoolean text).isSome = true := by
  rw [readBoolean_isSome]
  constructor
  · intro whole
    cases whole with
    | wirelessDirect known => exact ⟨_, rfl, known⟩
  · rintro ⟨digit, rfl, known⟩
    exact .wirelessDirect known

/-- After the colon, a field other than the SSID decodes just its tokens. -/
theorem decodeField_isSome {field : WirelessField} (other : field ≠ .ssid) {body : Bytes}
    (free : LineFree body) :
    (decodeField field (replyHeader field ++ body)).isSome = true ↔
      Token field (tokenText field (valueText (lossy body))) := by
  have parsed := parseOidValue_header field free (.inl rfl)
  rw [List.append_nil, readValue, if_neg other] at parsed
  generalize valueText (lossy body) = value at parsed
  cases field with
  | ssid => exact absurd rfl other
  | connected =>
      rw [decodeField, parsed, token_state, Option.bind_eq_bind, Option.bind_some,
        Option.isSome_map]
      rfl
  | ipv4 =>
      have decoded : (decodeField .ipv4 (replyHeader .ipv4 ++ body)).isSome = true ↔
          ∃ octets, ((trimMatches '-' value).splitOn '-').mapM (parseU8 16) = some octets ∧
            octets.length = 4 := by
        rw [decodeField, Option.isSome_map, parseIpAddress, parsed]
        cases read : ((trimMatches '-' value).splitOn '-').mapM (parseU8 16) with
        | none => simp [read]
        | some octets => by_cases four : octets.length = 4 <;> simp [read, four]
      rw [decoded, mapM_isSome]
      exact token_address.symm
  | encryption =>
      rw [decodeField, Option.isSome_map, parseCode, parsed]
      exact token_encryption.symm
  | authentication =>
      rw [decodeField, Option.isSome_map, parseCode, parsed]
      exact token_authentication.symm
  | infrastructure =>
      rw [decodeField, Option.isSome_map, parseBooleanField, parsed]
      exact token_infrastructure.symm
  | wirelessDirect =>
      rw [decodeField, Option.isSome_map, parseBooleanField, parsed]
      exact token_wirelessDirect.symm

/-! ## Where a token ends -/

section Lists

variable {α : Type} {dropped : α → Bool} {text kept more : List α}

theorem dropWhile_append_kept (starts : text.dropWhile dropped = kept) (some : kept ≠ []) :
    (text ++ more).dropWhile dropped = kept ++ more := by
  have filled : (text.dropWhile dropped).isEmpty = false := by
    rw [starts]
    exact List.isEmpty_eq_false_iff.mpr some
  rw [List.dropWhile_append, filled, starts]
  rfl

theorem prefix_dropWhile (begins : kept <+: text) :
    kept.dropWhile dropped <+: text.dropWhile dropped := by
  obtain ⟨more, rfl⟩ := begins
  by_cases none : kept.dropWhile dropped = []
  · rw [none]
    exact List.nil_prefix
  · rw [dropWhile_append_kept rfl none]
    exact List.prefix_append _ _

/-- A text can be cut where a part of what is kept ends. -/
theorem cut_dropWhile (starts : text.dropWhile dropped = kept ++ more) (some : kept ≠ []) :
    ∃ first, text = first ++ more ∧ first.dropWhile dropped = kept ∧ kept <:+ first := by
  refine ⟨text.takeWhile dropped ++ kept, ?_, ?_, List.suffix_append _ _⟩
  · rw [List.append_assoc, ← starts, List.takeWhile_append_dropWhile]
  · rw [List.dropWhile_append_of_pos fun character member => List.mem_takeWhile_imp member]
    cases kept with
    | nil => exact absurd rfl some
    | cons head kept =>
        have filled : text.dropWhile dropped ≠ [] := by simp [starts]
        have held := List.head_dropWhile_not dropped filled
        have first : (text.dropWhile dropped).head filled = head := by simp [starts]
        rw [first] at held
        rw [List.dropWhile_cons, held]
        rfl

theorem rdropWhile_of_suffix {last : α} (ends : [last] <:+ text) (solid : dropped last = false) :
    text.rdropWhile dropped = text := by
  obtain ⟨before, rfl⟩ := ends
  rw [List.rdropWhile_concat_neg]
  simp [solid]

end Lists

/-- What a field parses of a text stands where a token may begin. -/
theorem tokenText_begins (field : WirelessField) (text : Characters) :
    tokenText field (valueText text) <+: openedText field text := by
  have quoted : valueText text <+: (trimStart text).dropWhile (· == '"') :=
    (List.rdropWhile_prefix ..).trans (prefix_dropWhile (List.rdropWhile_prefix ..))
  exact (List.rdropWhile_prefix ..).trans (prefix_dropWhile quoted)

/-- A text that begins with a token has a beginning of which the field parses the token. -/
theorem Begins.cut {field : WirelessField} {text : Characters} (begins : Begins field text) :
    ∃ before last more, text = (before ++ [last]) ++ more ∧
      (digitValue 16 last).isSome = true ∧
      Token field (tokenText field (valueText (before ++ [last]))) := by
  obtain ⟨token, whole, more, opened⟩ := begins
  obtain ⟨start, last, split, digit⟩ := whole.ends
  obtain ⟨_, _, _, _, _, firm, unquoted, undashed⟩ := digit_solid digit
  have some : token ≠ [] := by simp [split]
  have ends : [last] <:+ token := ⟨start, split.symm⟩
  obtain ⟨third, opened, openedThird, suffixThird⟩ := cut_dropWhile opened.symm some
  have endsThird := ends.trans suffixThird
  have someThird : third ≠ [] := by
    rintro rfl
    cases List.suffix_nil.mp endsThird
  obtain ⟨second, opened, openedSecond, suffixSecond⟩ := cut_dropWhile opened someThird
  have endsSecond := endsThird.trans suffixSecond
  have someSecond : second ≠ [] := by
    rintro rfl
    cases List.suffix_nil.mp endsSecond
  obtain ⟨first, opened, openedFirst, suffixFirst⟩ := cut_dropWhile opened someSecond
  obtain ⟨before, rfl⟩ := endsSecond.trans suffixFirst
  refine ⟨before, last, more, opened, digit, ?_⟩
  have padding : isPadding field last = false := by
    unfold isPadding
    split
    · exact beq_eq_false_iff_ne.mpr undashed
    · exact firm
  have trimmed : trim (before ++ [last]) = second := by
    rw [trim, trimStart, openedFirst]
    exact rdropWhile_of_suffix endsSecond firm
  have value : valueText (before ++ [last]) = third := by
    rw [valueText, trimmed, trimMatches, openedSecond]
    exact rdropWhile_of_suffix endsThird (beq_eq_false_iff_ne.mpr unquoted)
  rw [value, tokenText, openedThird, rdropWhile_of_suffix ends padding]
  exact whole

theorem begins_append {field : WirelessField} {text : Characters}
    (whole : Token field (tokenText field (valueText text))) (more : Characters) :
    Begins field (text ++ more) := by
  refine ⟨_, whole, (tokenText_begins field text).trans ?_⟩
  exact prefix_dropWhile (prefix_dropWhile (prefix_dropWhile (List.prefix_append _ _)))

/-- An ASCII character of a decoded text is a byte of its own. -/
theorem lossy_cut {byte : UInt8} (ascii : byte < 0x80) (nonzero : byte ≠ 0) {data : Bytes}
    {before after : Characters} (decoded : lossy data = before ++ Char.ofNat byte.toNat :: after) :
    ∃ first rest, data = first ++ byte :: rest ∧ lossy first = before := by
  induction length : data.length using Nat.strong_induction_on generalizing data before with
  | _ size ih =>
      have member : byte ∈ data := by
        by_contra free
        apply not_mem_lossy ascii nonzero free
        rw [decoded]
        simp
      obtain ⟨first, rest, rfl, free⟩ := List.eq_append_cons_of_mem member
      have outside := not_mem_lossy ascii nonzero free
      rw [lossy_append ascii] at decoded
      rcases List.append_eq_append_iff.mp decoded with
        ⟨middle, same, remaining⟩ | ⟨middle, same, remaining⟩
      · cases middle with
        | nil =>
            rw [List.append_nil] at same
            exact ⟨first, rest, rfl, same.symm⟩
        | cons character middle =>
            obtain ⟨rfl, later⟩ := List.cons.inj remaining
            have shorter : rest.length < size := by
              rw [← length, List.length_append, List.length_cons]
              omega
            obtain ⟨inner, others, rfl, text⟩ := ih rest.length shorter later rfl
            refine ⟨first ++ byte :: inner, others, by simp, ?_⟩
            rw [lossy_append ascii, text, same]
      · cases middle with
        | nil =>
            rw [List.append_nil] at same
            exact ⟨first, rest, rfl, same⟩
        | cons character middle =>
            obtain ⟨rfl, later⟩ := List.cons.inj remaining
            rw [same] at outside
            exact absurd (by simp) outside

/-- A decoded text begins with a token when its bytes do, up to the last digit. -/
theorem begins_lossy {field : WirelessField} {data : Bytes} :
    Begins field (lossy data) ↔ ∃ first byte rest, data = first ++ byte :: rest ∧
      byte < 0x80 ∧ byte ≠ quoteMark ∧
      Token field (tokenText field (valueText (lossy (first ++ [byte])))) := by
  constructor
  · intro begins
    obtain ⟨before, last, more, text, digit, whole⟩ := begins.cut
    obtain ⟨byte, ascii, nonzero, unquoted, rfl, _, _, _⟩ := digit_solid digit
    rw [List.append_assoc, List.singleton_append] at text
    obtain ⟨first, rest, split, rfl⟩ := lossy_cut ascii nonzero text
    refine ⟨first, byte, rest, split, ascii, unquoted, ?_⟩
    rw [lossy_append ascii]
    exact whole
  · rintro ⟨first, byte, rest, rfl, ascii, _, whole⟩
    have decoded : lossy (first ++ byte :: rest) = lossy (first ++ [byte]) ++ lossy rest := by
      rw [lossy_append ascii, lossy_append ascii, List.append_assoc]
      rfl
    rw [decoded]
    exact begins_append whole _

/-! ## Values whose beginnings agree -/

/-- Every beginning of the value decodes like the value.  An SSID may only consist of
blanks and then quotes; a value of another field may not begin with a token. -/
def Stable (field : WirelessField) (value : Bytes) : Prop :=
  if field = .ssid then BlankValue value else ¬Begins field (lossy value)

theorem LineFree.of_beginning {value beginning : Bytes} (free : LineFree value)
    (begins : beginning <+: value ++ [quoteMark]) : LineFree beginning := by
  intro byte member
  rcases List.mem_append.mp (begins.subset member) with inside | last
  · exact free byte inside
  · rw [List.mem_singleton.mp last]
    decide

theorem BlankValue.of_beginning {value beginning : Bytes} (blank : BlankValue value)
    (begins : beginning <+: value ++ [quoteMark]) : BlankValue beginning := by
  obtain ⟨blanks, quotes, rfl, white, quoted⟩ := blank
  have ended : ∀ byte ∈ quotes ++ [quoteMark], byte = quoteMark := by
    intro byte member
    rcases List.mem_append.mp member with inside | last
    · exact quoted byte inside
    · exact List.mem_singleton.mp last
  rw [List.append_assoc] at begins
  rcases List.prefix_or_prefix_of_prefix begins (List.prefix_append _ _) with inside | beyond
  · refine ⟨beginning, [], (List.append_nil _).symm, ?_, by simp⟩
    exact fun byte member => white byte (inside.subset member)
  · obtain ⟨more, rfl⟩ := beyond
    rw [List.prefix_append_right_inj] at begins
    exact ⟨blanks, more, rfl, white, fun byte member => ended byte (begins.subset member)⟩

theorem ofList_eq_empty {text : Characters} : String.ofList text = "" ↔ text = [] := by
  constructor
  · intro same
    have characters := congrArg String.toList same
    rwa [String.toList_ofList] at characters
  · rintro rfl
    rfl

theorem decodeField_ssid {body : Bytes} (free : LineFree body) :
    decodeField .ssid (replyHeader .ssid ++ body) =
      some (.text (String.ofList (decodeSsid (valueText (lossy body))))) := by
  have parsed := parseOidValue_header .ssid free (.inl rfl)
  rw [List.append_nil, readValue, if_pos rfl] at parsed
  rw [decodeField, parsed]
  rfl

/-- The values of which every beginning decodes as the bare header does. -/
theorem stable_iff {field : WirelessField} {value : Bytes} (free : LineFree value) :
    (∀ beginning, beginning <+: value ++ [quoteMark] →
      decodeField field (replyHeader field ++ beginning) =
        decodeField field (replyHeader field)) ↔ Stable field value := by
  rw [decodeField_nothing, Stable]
  by_cases asked : field = .ssid
  · subst asked
    rw [if_pos rfl, if_pos rfl]
    constructor
    · intro agree
      by_contra filled
      obtain ⟨beginning, begins, some⟩ := exists_beginning free filled
      have decoded := agree beginning begins
      rw [decodeField_ssid (free.of_beginning begins), Option.some.injEq,
        SettingValue.text.injEq, ofList_eq_empty, decodeSsid_eq_nil] at decoded
      exact some decoded
    · intro blank beginning begins
      rw [decodeField_ssid (free.of_beginning begins),
        valueText_blankValue (blank.of_beginning begins), decodeSsid_eq_nil.mpr rfl]
  · rw [if_neg asked, if_neg asked]
    constructor
    · intro agree starts
      obtain ⟨first, byte, rest, rfl, _, _, whole⟩ := begins_lossy.mp starts
      have begins : first ++ [byte] <+: (first ++ byte :: rest) ++ [quoteMark] :=
        ⟨rest ++ [quoteMark], by simp⟩
      have read := (decodeField_isSome asked (free.of_beginning begins)).mpr whole
      rw [agree _ begins] at read
      cases read
    · intro none beginning begins
      rw [← Option.not_isSome_iff_eq_none, decodeField_isSome asked (free.of_beginning begins)]
      intro whole
      apply none
      have starts : Begins field (lossy beginning) := by
        have text := begins_append whole []
        rwa [List.append_nil] at text
      obtain ⟨first, byte, rest, rfl, ascii, unquoted, whole⟩ := begins_lossy.mp starts
      have shorter : first ++ [byte] <+: value ++ [quoteMark] :=
        List.IsPrefix.trans ⟨rest, by simp⟩ begins
      rcases List.prefix_concat_iff.mp shorter with same | inside
      · have last := congrArg List.getLast? same
        simp [unquoted] at last
      · obtain ⟨others, rfl⟩ := inside
        rw [List.append_assoc] 
        exact begins_lossy.mpr ⟨first, byte, others, rfl, ascii, unquoted, whole⟩

/-! ## Beginnings of a reply -/

section Replies

variable {field : WirelessField} {value lineBreak data : Bytes}

/-- Until its colon has arrived, a reply gives no OID a value. -/
theorem parseOidValue_short (begins : data <+: completeReply field value lineBreak)
    (short : data.length < (replyHeader field).length) (oid : Characters) :
    parseOidValue data oid = none := by
  have header : data <+: replyHeader field :=
    List.prefix_of_prefix_length_le begins (List.prefix_append _ _) short.le
  apply parseOidValue_eq_none
  intro colon
  rw [replyHeader] at header
  rcases List.prefix_concat_iff.mp header with whole | opening
  · rw [whole] at short
    exact lt_irrefl _ short
  · have free : (0x3a : UInt8) ∉ quoteMark :: asBytes field.oid := by
      cases field <;> decide +kernel
    exact free (opening.subset colon)

/-- From there on it is the header, a beginning of the value and perhaps the end of the
line. -/
theorem exists_line (ended : lineBreak ∈ lineBreaks)
    (begins : data <+: completeReply field value lineBreak)
    (long : (replyHeader field).length ≤ data.length) :
    ∃ beginning tail, data = replyHeader field ++ (beginning ++ tail) ∧
      beginning <+: value ++ [quoteMark] ∧ Ended tail := by
  obtain ⟨rest, rfl⟩ := List.prefix_of_prefix_length_le (List.prefix_append _ _) begins long
  rw [completeReply, List.prefix_append_right_inj] at begins
  have line : value ++ quoteMark :: lineBreak = (value ++ [quoteMark]) ++ lineBreak := by simp
  rw [line] at begins
  rcases List.prefix_or_prefix_of_prefix begins (List.prefix_append _ _) with inside | beyond
  · exact ⟨rest, [], by rw [List.append_nil], inside, .inl rfl⟩
  · obtain ⟨tail, rfl⟩ := beyond
    refine ⟨value ++ [quoteMark], tail, rfl, List.prefix_rfl, ?_⟩
    rw [List.prefix_append_right_inj] at begins
    cases tail with
    | nil => exact .inl rfl
    | cons byte tail =>
        obtain ⟨more, rfl⟩ := begins
        refine .inr ⟨byte, tail, rfl, ?_⟩
        simp only [lineBreaks, List.mem_cons, List.cons_append, List.cons.injEq,
          List.not_mem_nil, or_false] at ended
        rcases ended with ⟨rfl, _⟩ | ⟨rfl, _⟩ | ⟨rfl, _⟩
        · exact .inl rfl
        · exact .inr rfl
        · exact .inl rfl

end Replies

end PrinterSdk.Brother
