import PrinterSdk.Brother.WifiReply

/-!
# Encoded SSIDs

An SSID is sent and reported as the hexadecimal numbers of its octets, each behind a dash.
The decoder takes a value for an encoded SSID when it has at least two numbers, so it gives
an SSID of one octet back as it was encoded.
-/

namespace PrinterSdk.Brother

open PrinterSdk.Data PrinterSdk.Discovery

/-! ## The encoder -/

/-- `format!("{byte:x}")`. -/
def lowerHex (byte : UInt8) : Characters := Nat.toDigits 16 byte.toNat

/-- `encode_ssid`. -/
def encodeSsid (value : String) : Bytes :=
  (asBytes value).flatMap fun byte => asBytes (String.ofList ('-' :: lowerHex byte))

/-- The characters of an encoded SSID. -/
def ssidText (bytes : Bytes) : Characters := bytes.flatMap fun byte => '-' :: lowerHex byte

/-- The characters that nothing trims from a value, and nothing splits. -/
def isDigitText (character : Char) : Bool :=
  character != '-' && character != '"' && !isWhitespace character

/-- The number of an octet is one part of an encoded SSID. -/
theorem lowerHex_part (byte : UInt8) :
    isHexPart (lowerHex byte) = true ∧ parseU8 16 (lowerHex byte) = some byte ∧
      (lowerHex byte).all isDigitText = true ∧ lowerHex byte ≠ [] := by
  have every : ∀ number : Fin 256, isHexPart (Nat.toDigits 16 number) = true ∧
      parseU8 16 (Nat.toDigits 16 number) = some (UInt8.ofNat number) ∧
      (Nat.toDigits 16 number).all isDigitText = true ∧ Nat.toDigits 16 number ≠ [] := by
    decide +kernel
  have one := every ⟨byte.toNat, byte.toNat_lt⟩
  rw [UInt8.ofNat_toNat] at one
  exact one

/-- The octets from the dash to the last digit. -/
def isPlain (byte : UInt8) : Prop := 0x2d ≤ byte ∧ byte ≤ 0x66

instance : DecidablePred isPlain := fun _ => inferInstanceAs (Decidable (_ ∧ _))

theorem isPlain_of_all {bytes : Bytes}
    (all : bytes.all (fun byte => decide (isPlain byte)) = true) : ∀ byte ∈ bytes, isPlain byte :=
  fun byte member => of_decide_eq_true (List.all_eq_true.mp all byte member)

theorem ascii_of_isPlain {byte : UInt8} (plain : isPlain byte) : byte < 0x80 :=
  UInt8.lt_of_le_of_lt plain.2 (by decide)

/-- The octets of one number are its characters. -/
theorem asBytes_lowerHex (byte : UInt8) :
    (∀ octet ∈ asBytes (String.ofList ('-' :: lowerHex byte)), isPlain octet) ∧
      lossy (asBytes (String.ofList ('-' :: lowerHex byte))) = '-' :: lowerHex byte := by
  have every : ∀ number : Fin 256,
      (asBytes (String.ofList ('-' :: Nat.toDigits 16 number))).all
        (fun octet => decide (isPlain octet)) = true ∧
      lossy (asBytes (String.ofList ('-' :: Nat.toDigits 16 number))) =
        '-' :: Nat.toDigits 16 number := by
    decide +kernel
  obtain ⟨plain, text⟩ := every ⟨byte.toNat, byte.toNat_lt⟩
  exact ⟨isPlain_of_all plain, text⟩

theorem plain_encodeSsid (value : String) : ∀ byte ∈ encodeSsid value, isPlain byte := by
  intro byte member
  obtain ⟨origin, _, inside⟩ := List.mem_flatMap.mp member
  exact (asBytes_lowerHex origin).1 byte inside

theorem lossy_encodeSsid (value : String) : lossy (encodeSsid value) = ssidText (asBytes value) := by
  rw [encodeSsid, ssidText]
  induction asBytes value with
  | nil => rfl
  | cons byte rest ih =>
      obtain ⟨plain, text⟩ := asBytes_lowerHex byte
      rw [List.flatMap_cons, List.flatMap_cons, ← ih,
        lossy_ascii_append fun octet inside => ascii_of_isPlain (plain octet inside), text]

/-! ## The decoder -/

theorem notDash {byte : UInt8} {character : Char} (member : character ∈ lowerHex byte) :
    character ≠ '-' ∧ character ≠ '"' ∧ isWhitespace character = false := by
  have digit := List.all_eq_true.mp (lowerHex_part byte).2.2.1 character member
  simpa [isDigitText, and_assoc] using digit

/-- The dashes between the numbers split them. -/
theorem splitOn_ssidText (first : UInt8) (rest : Bytes) :
    (lowerHex first ++ ssidText rest).splitOn '-' = (first :: rest).map lowerHex := by
  have whole (byte : UInt8) : ∀ character ∈ lowerHex byte, (character == '-') = false :=
    fun character member => beq_eq_false_iff_ne.mpr (notDash member).1
  induction rest generalizing first with
  | nil =>
      rw [ssidText, List.flatMap_nil, List.append_nil]
      exact List.splitOnP_eq_singleton (whole first)
  | cons second rest ih =>
      have split := List.splitOnP_append_cons_of_forall_mem (whole first) '-' rfl
        (lowerHex second ++ ssidText rest)
      rw [List.map_cons, ← ih second]
      exact split

theorem mapM_lowerHex (bytes : Bytes) : (bytes.map lowerHex).mapM (parseU8 16) = some bytes := by
  induction bytes with
  | nil => rfl
  | cons byte rest ih =>
      rw [List.map_cons, List.mapM_cons, (lowerHex_part byte).2.1, ih]
      rfl

/-- Nothing is trimmed from a text that ends with a number. -/
theorem rdropWhile_lowerHex {unwanted : Char} (text : Characters) (byte : UInt8)
    (other : unwanted ∉ lowerHex byte) :
    (text ++ lowerHex byte).rdropWhile (· == unwanted) = text ++ lowerHex byte := by
  apply List.rdropWhile_eq_self_iff.mpr
  intro some same
  apply other
  rw [← beq_iff_eq.mp same, List.getLast_append_of_ne_nil some (lowerHex_part byte).2.2.2]
  exact List.getLast_mem _

/-- An encoded text is a dash, and ends with a number. -/
theorem ssidText_concat (bytes : Bytes) (byte : UInt8) :
    ssidText (bytes ++ [byte]) = ssidText bytes ++ ['-'] ++ lowerHex byte := by
  rw [ssidText, List.flatMap_append]
  simp [ssidText]

/-- Trimming removes the first dash only. -/
theorem trimMatches_dash (first : UInt8) (rest : Bytes) :
    trimMatches '-' (ssidText (first :: rest)) = lowerHex first ++ ssidText rest := by
  have dropped : (ssidText (first :: rest)).dropWhile (· == '-') =
      lowerHex first ++ ssidText rest := by
    change (lowerHex first ++ ssidText rest).dropWhile (· == '-') = _
    cases digits : lowerHex first with
    | nil => exact absurd digits (lowerHex_part first).2.2.2
    | cons digit more =>
        have differs : digit ≠ '-' := (notDash (digits ▸ List.mem_cons_self)).1
        rw [List.cons_append, List.dropWhile_cons, if_neg (by simpa using differs)]
  have free (byte : UInt8) : '-' ∉ lowerHex byte := fun member => (notDash member).1 rfl
  rw [trimMatches, dropped]
  rcases List.eq_nil_or_concat rest with rfl | ⟨before, last, rfl⟩
  · rw [ssidText, List.flatMap_nil, List.append_nil]
    exact rdropWhile_lowerHex [] first (free first)
  · rw [List.concat_eq_append, ssidText_concat, ← List.append_assoc]
    exact rdropWhile_lowerHex _ last (free last)

/-- What the decoder makes of the numbers of some octets. -/
theorem decodeSsid_ssidText (first : UInt8) (rest : Bytes) :
    decodeSsid (ssidText (first :: rest)) =
      if rest = [] then ssidText [first]
      else ((fromUtf8 (first :: rest)).map String.toList).getD (ssidText (first :: rest)) := by
  have parts : ((first :: rest).map lowerHex).any (fun part => !isHexPart part) = false := by
    apply List.any_eq_false.mpr
    intro part member
    obtain ⟨byte, _, rfl⟩ := List.mem_map.mp member
    rw [(lowerHex_part byte).1]
    exact Bool.false_ne_true
  rw [decodeSsid, trimMatches_dash, splitOn_ssidText, parts, mapM_lowerHex]
  cases rest with
  | nil => rfl
  | cons second rest =>
      have long : ¬(((first :: second :: rest).map lowerHex).length < 2 ∨ false = true) := by
        simp
      rw [if_neg long]
      rfl

/-- An SSID of two octets or more is decoded, one of a single octet is not. -/
theorem decodeSsid_encoded {ssid : String} (filled : ssid ≠ "") :
    decodeSsid (ssidText (asBytes ssid)) = ssid.toList ↔ (asBytes ssid).length ≠ 1 := by
  have decoded := fromUtf8_asBytes ssid
  cases octets : asBytes ssid with
  | nil =>
      rw [octets] at decoded
      exact absurd (Option.some.inj decoded).symm filled
  | cons first rest =>
      rw [octets] at decoded
      rw [decodeSsid_ssidText]
      cases rest with
      | nil =>
          -- the text has two octets or more, so it is not the SSID
          have long : ∀ number : Fin 256,
              (asBytes (String.ofList ('-' :: Nat.toDigits 16 number))).length ≠ 1 := by
            decide +kernel
          have same : ssidText [first] ≠ ssid.toList := by
            intro same
            apply long ⟨first.toNat, first.toNat_lt⟩
            have text : ssidText [first] = '-' :: lowerHex first := List.append_nil _
            change (asBytes (String.ofList ('-' :: lowerHex first))).length = 1
            rw [← text, same, String.ofList_toList, octets]
            rfl
          exact iff_of_false same (not_not.mpr rfl)
      | cons second rest =>
          have several : (first :: second :: rest).length ≠ 1 := by simp
          rw [if_neg (List.cons_ne_nil second rest), decoded]
          exact iff_of_true rfl several

/-! ## Lines that report an SSID -/

/-- What may stand around the OID and the value of a line: quotes at both ends, and blanks on
both sides of the colon. -/
structure ReplyLine where
  opening : Bytes
  gap : Bytes
  space : Bytes
  closing : Bytes
  quoted : ∀ byte ∈ opening, byte = quoteMark
  blankGap : ∀ byte ∈ gap, isBlank byte
  blankSpace : ∀ byte ∈ space, isBlank byte
  closed : ∀ byte ∈ closing, byte = quoteMark

namespace ReplyLine

/-- The line that reports a value for an OID. -/
def report (line : ReplyLine) (oid value : Bytes) : Bytes :=
  line.opening ++ (oid ++ (line.gap ++ 0x3a :: (line.space ++ (value ++ line.closing))))

end ReplyLine

/-- A text that is neither trimmed nor unquoted. -/
def Solid (text : Characters) : Prop :=
  text ≠ [] ∧ ∀ character ∈ text, character ≠ '"' ∧ isWhitespace character = false

theorem trimStart_solid {text : Characters} (solid : Solid text) (rest : Characters) :
    trimStart (text ++ rest) = text ++ rest := by
  obtain ⟨first, more, rfl⟩ := List.exists_cons_of_ne_nil solid.1
  exact trimStart_cons_of_solid _ (solid.2 first List.mem_cons_self).2

/-- The value of a line, without the blanks before it and the quotes behind it. -/
theorem valueText_solid {space text quotes : Characters} (solid : Solid text)
    (blank : ∀ character ∈ space, isWhitespace character = true)
    (quoted : ∀ character ∈ quotes, character = '"') :
    valueText (space ++ (text ++ quotes)) = text := by
  have start : trimStart (space ++ (text ++ quotes)) = text ++ quotes := by
    rw [trimStart, List.dropWhile_append_of_pos blank]
    exact trimStart_solid solid quotes
  have whole : ∀ character ∈ text ++ quotes, isWhitespace character = false := by
    intro character member
    cases List.mem_append.mp member with
    | inl inside => exact (solid.2 character inside).2
    | inr quote =>
        rw [quoted character quote]
        rfl
  have trimmed : trimEnd (text ++ quotes) = text ++ quotes := by
    apply List.rdropWhile_eq_self_iff.mpr
    intro some white
    rw [whole _ (List.getLast_mem some)] at white
    exact Bool.false_ne_true white
  have opened : (text ++ quotes).dropWhile (· == '"') = text ++ quotes := by
    obtain ⟨first, more, rfl⟩ := List.exists_cons_of_ne_nil solid.1
    have differs := (solid.2 first List.mem_cons_self).1
    rw [List.cons_append, List.dropWhile_cons, if_neg (by simpa using differs)]
  have removed : quotes.reverse.dropWhile (· == '"') = [] := by
    apply List.dropWhile_eq_nil_iff.mpr
    intro character member
    exact beq_iff_eq.mpr (quoted character (List.mem_reverse.mp member))
  have kept : text.rdropWhile (· == '"') = text := by
    apply List.rdropWhile_eq_self_iff.mpr
    intro some quote
    exact (solid.2 _ (List.getLast_mem some)).1 (beq_iff_eq.mp quote)
  rw [valueText, trim, start, trimmed, trimMatches, opened, List.rdropWhile, List.reverse_append,
    List.dropWhile_append, removed]
  exact kept

theorem solid_ssidText (first : UInt8) (rest : Bytes) : Solid (ssidText (first :: rest)) := by
  constructor
  · exact List.cons_ne_nil _ _
  · intro character member
    obtain ⟨byte, _, inside⟩ := List.mem_flatMap.mp member
    cases inside with
    | head => decide
    | tail _ digit => exact (notDash digit).2

/-- The parser finds the OID of a line and takes its value. -/
theorem lineValue_report (rest : Characters) {opening gap : Characters}
    (quoted : ∀ character ∈ opening, character = '"')
    (blank : ∀ character ∈ gap, isWhitespace character = true) :
    lineValue WirelessField.ssid.oid.toList
        (opening ++ (WirelessField.ssid.oid.toList ++ (gap ++ ':' :: rest))) =
      some (decodeSsid (valueText rest)) := by
  obtain ⟨free, trimmed, _⟩ := oid_text .ssid
  have colon : isWhitespace ':' = false := by decide
  have name : ':' ∉ WirelessField.ssid.oid.toList ++ gap := by
    intro member
    cases List.mem_append.mp member with
    | inl digit => exact free digit
    | inr white => exact Bool.false_ne_true (colon.symm.trans (blank ':' white))
  have start : trimStart (opening ++ (WirelessField.ssid.oid.toList ++ gap)) =
      opening ++ (WirelessField.ssid.oid.toList ++ gap) := by
    cases opening with
    | nil => rfl
    | cons quote more =>
        rw [quoted quote List.mem_cons_self]
        exact trimStart_cons_of_solid _ rfl
  have line : (trim (opening ++ (WirelessField.ssid.oid.toList ++ (gap ++ ':' :: rest)))).dropWhile
      (· == '"') = (WirelessField.ssid.oid.toList ++ gap) ++ ':' :: trimEnd rest := by
    have quotes : ∀ character ∈ opening, (character == '"') = true :=
      fun character member => beq_iff_eq.mpr (quoted character member)
    rw [← List.append_assoc _ gap, ← List.append_assoc opening, trim_append_of_solid _ _ colon,
      start, List.append_assoc opening, List.dropWhile_append_of_pos quotes]
    rfl
  rw [lineValue, line, splitOnce_append name]
  simp only [Option.bind_eq_bind, Option.bind_some, trim_append_blank _ blank, trimmed, ne_eq,
    not_true_eq_false, ↓reduceIte, trim_trimEnd]
  rfl

theorem ascii_quote {bytes : Bytes} (quoted : ∀ byte ∈ bytes, byte = quoteMark) :
    ∀ byte ∈ bytes, byte < 0x80 := by
  intro byte member
  rw [quoted byte member]
  decide

theorem lossy_report (line : ReplyLine) (value : String) :
    lossy (line.report (asBytes WirelessField.ssid.oid) (encodeSsid value)) =
      lossy line.opening ++ (WirelessField.ssid.oid.toList ++ (lossy line.gap ++
        ':' :: (lossy line.space ++ (ssidText (asBytes value) ++ lossy line.closing)))) := by
  have digits : lossy (asBytes WirelessField.ssid.oid) = WirelessField.ssid.oid.toList := by
    decide +kernel
  have ascii : ∀ byte ∈ asBytes WirelessField.ssid.oid, byte < 0x80 :=
    fun byte member => ascii_of_isPlain (isPlain_of_all (by decide +kernel) byte member)
  have colon : (0x3a : UInt8) < 0x80 := by decide
  have plain : ∀ byte ∈ encodeSsid value, byte < 0x80 :=
    fun byte member => ascii_of_isPlain (plain_encodeSsid value byte member)
  rw [ReplyLine.report, lossy_ascii_append (ascii_quote line.quoted), lossy_ascii_append ascii,
    digits, lossy_append colon,
    lossy_ascii_append fun byte member => ascii_of_isBlank (line.blankSpace byte member),
    lossy_ascii_append plain, lossy_encodeSsid]
  rfl

theorem lineFree_report (line : ReplyLine) (value : String) :
    LineFree (line.report (asBytes WirelessField.ssid.oid) (encodeSsid value)) := by
  have quote : ¬isLineEnd quoteMark := by decide
  have digits : ∀ byte ∈ asBytes WirelessField.ssid.oid, isPlain byte :=
    isPlain_of_all (by decide +kernel)
  have blank : ∀ byte, isBlank byte → ¬isLineEnd byte := by
    rintro byte (rfl | rfl | rfl) <;> decide
  have plain : ∀ byte, isPlain byte → ¬isLineEnd byte := by
    rintro byte ⟨least, _⟩ (rfl | rfl | rfl)
    all_goals exact absurd least (by decide)
  intro byte member
  simp only [ReplyLine.report, List.mem_append, List.mem_cons] at member
  rcases member with opening | oid | gap | rfl | space | inside | closing
  · rw [line.quoted byte opening]
    exact quote
  · exact plain byte (digits byte oid)
  · exact blank byte (line.blankGap byte gap)
  · decide
  · exact blank byte (line.blankSpace byte space)
  · exact plain byte (plain_encodeSsid value byte inside)
  · rw [line.closed byte closing]
    exact quote

/-- A line that reports an encoded SSID gives the SSID back, whatever quotes and blanks it has and
whatever follows it, exactly when the SSID is not a single octet. -/
theorem reported_ssid_iff (ssid : String) (filled : ssid ≠ "") (line : ReplyLine) (tail : Bytes)
    (ended : Ended tail) :
    (parseOidValue (line.report (asBytes WirelessField.ssid.oid) (encodeSsid ssid) ++ tail)
        WirelessField.ssid.oid.toList = some ssid.toList ↔ (asBytes ssid).length ≠ 1) ∧
      (decodeSsid (lossy (encodeSsid ssid)) = ssid.toList ↔ (asBytes ssid).length ≠ 1) := by
  have solid : Solid (ssidText (asBytes ssid)) := by
    cases octets : asBytes ssid with
    | nil =>
        have decoded := fromUtf8_asBytes ssid
        rw [octets] at decoded
        exact absurd (Option.some.inj decoded).symm filled
    | cons first rest => exact solid_ssidText first rest
  have parsed := lineValue_report
    (lossy line.space ++ (ssidText (asBytes ssid) ++ lossy line.closing))
    (lossy_quotes line.quoted) (lossy_blanks line.blankGap)
  rw [← lossy_report, valueText_solid solid (lossy_blanks line.blankSpace)
    (lossy_quotes line.closed)] at parsed
  rw [parseOidValue_first (validOid_oid .ssid) (lineFree_report line ssid) ended parsed,
    Option.some_inj, lossy_encodeSsid]
  exact ⟨decodeSsid_encoded filled, decodeSsid_encoded filled⟩

/-- A line in quotes, with a blank behind the colon. -/
def ReplyLine.sample : ReplyLine where
  opening := [quoteMark]
  gap := []
  space := [0x20]
  closing := [quoteMark]
  quoted := fun _ => List.mem_singleton.mp
  blankGap := nofun
  blankSpace := fun _ member => .inl (List.mem_singleton.mp member)
  closed := fun _ => List.mem_singleton.mp

theorem reported_ssid_cafe :
    parseOidValue (ReplyLine.sample.report (asBytes WirelessField.ssid.oid) (encodeSsid "Café") ++
      [0x0d, 0x0a]) WirelessField.ssid.oid.toList = some "Café".toList :=
  (reported_ssid_iff "Café" (by decide) .sample [0x0d, 0x0a] (.inr ⟨_, _, rfl, .inl rfl⟩)).1.mpr
    (by decide +kernel)

/-- The SSID `a` is sent as `-61` and comes back as `-61`. -/
theorem single_octet_ssid_lost :
    encodeSsid "a" = asBytes "-61" ∧
      parseOidValue (ReplyLine.sample.report (asBytes WirelessField.ssid.oid) (encodeSsid "a") ++
        [0x0d, 0x0a]) WirelessField.ssid.oid.toList = some "-61".toList ∧
      decodeSsid (lossy (encodeSsid "a")) = "-61".toList ∧ "-61".toList ≠ "a".toList := by
  decide +kernel

end PrinterSdk.Brother
