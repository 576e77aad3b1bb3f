import PrinterSdk.Data.Characters
import PrinterSdk.Data.Utf8

/-!
# Lossy decoding and ASCII separators

An ASCII octet never belongs to a longer sequence and ends every ill-formed one.
Lossy decoding therefore commutes with splitting at an ASCII separator.
-/

namespace PrinterSdk.Data

/-- The characters of `String::from_utf8_lossy`. -/
def lossy (bytes : Bytes) : Characters := lossyCharacters bytes.length bytes

/-! ## Pieces -/

/-- The width of a piece. -/
def Utf8Piece.width : Utf8Piece → Nat
  | .character _ width => width
  | .illFormed width => width

/-- The character a piece decodes to. -/
def Utf8Piece.decoded : Utf8Piece → Char
  | .character scalar _ => Char.ofNat scalar
  | .illFormed _ => Char.ofNat 0xfffd

theorem lossyCharacters_cons (fuel : Nat) (first : UInt8) (rest : Bytes) :
    lossyCharacters (fuel + 1) (first :: rest) =
      (utf8Piece first rest).decoded ::
        lossyCharacters fuel ((first :: rest).drop (utf8Piece first rest).width) := by
  rw [lossyCharacters]
  cases utf8Piece first rest <;> rfl

theorem utf8Piece_width (first : UInt8) (rest : Bytes) :
    0 < (utf8Piece first rest).width ∧
      (utf8Piece first rest).width ≤ rest.length + 1 := by
  unfold utf8Piece
  repeat' split
  all_goals simp only [Utf8Piece.width, List.length_cons, List.length_nil]
  all_goals omega

/-- More fuel than octets changes nothing. -/
theorem lossyCharacters_fuel (fuel : Nat) (bytes : Bytes) (enough : bytes.length ≤ fuel) :
    lossyCharacters fuel bytes = lossy bytes := by
  induction fuel using Nat.strong_induction_on generalizing bytes with
  | _ fuel ih =>
      cases bytes with
      | nil => cases fuel <;> rfl
      | cons first rest =>
          obtain ⟨less, rfl⟩ : ∃ less, fuel = less + 1 :=
            ⟨fuel - 1, by rw [List.length_cons] at enough; omega⟩
          obtain ⟨positive, bounded⟩ := utf8Piece_width first rest
          have short : ((first :: rest).drop (utf8Piece first rest).width).length ≤
              rest.length := by
            rw [List.length_drop, List.length_cons]
            omega
          rw [List.length_cons] at enough
          unfold lossy
          rw [List.length_cons, lossyCharacters_cons, lossyCharacters_cons,
            ih less (by omega) _ (by omega), ih rest.length (by omega) _ short]

theorem lossy_cons (first : UInt8) (rest : Bytes) :
    lossy (first :: rest) = (utf8Piece first rest).decoded ::
      lossy ((first :: rest).drop (utf8Piece first rest).width) := by
  obtain ⟨positive, bounded⟩ := utf8Piece_width first rest
  unfold lossy
  rw [List.length_cons, lossyCharacters_cons]
  congr 1
  apply lossyCharacters_fuel
  rw [List.length_drop, List.length_cons]
  omega

/-! ## ASCII octets -/

section

variable {separator : UInt8} (ascii : separator < 0x80)

include ascii

theorem ascii_lone : isContinuation separator = false := by
  have low : ¬0x80 ≤ separator := UInt8.not_le.mpr ascii
  simp [isContinuation, low]

theorem ascii_not_secondOfThree (first : UInt8) : secondOfThree first separator = false := by
  have low : ¬0x80 ≤ separator := UInt8.not_le.mpr ascii
  have lower : ¬0xa0 ≤ separator := fun high => low (UInt8.le_trans (by decide) high)
  simp [secondOfThree, ascii_lone ascii, low, lower]

theorem ascii_not_secondOfFour (first : UInt8) : secondOfFour first separator = false := by
  have low : ¬0x80 ≤ separator := UInt8.not_le.mpr ascii
  have lower : ¬0x90 ≤ separator := fun high => low (UInt8.le_trans (by decide) high)
  simp [secondOfFour, ascii_lone ascii, low, lower]

/-- An ASCII octet is not part of the piece before it. -/
theorem utf8Piece_append (first : UInt8) (rest tail : Bytes) :
    utf8Piece first (rest ++ separator :: tail) = utf8Piece first rest := by
  have lone := ascii_lone ascii
  have three := ascii_not_secondOfThree ascii first
  have four := ascii_not_secondOfFour ascii first
  -- a sequence has at most three octets after the first, so the separator is only
  -- looked at when it is one of the next three
  match rest with
  | [] => cases tail with
      | nil => simp [utf8Piece, lone, three, four]
      | cons next others => cases others <;> simp [utf8Piece, lone, three, four]
  | [second] => cases tail with
      | nil => cases held : secondOfThree first second <;>
          cases also : secondOfFour first second <;> simp [utf8Piece, lone, held, also]
      | cons next others => cases held : secondOfThree first second <;>
          cases also : secondOfFour first second <;> simp [utf8Piece, lone, held, also]
  | [second, third] => cases held : isContinuation third <;> simp [utf8Piece, lone, held]
  | second :: third :: fourth :: others => simp [utf8Piece]

/-- An ASCII octet decodes to itself. -/
theorem utf8Piece_ascii (rest : Bytes) :
    utf8Piece separator rest = .character separator.toNat 1 := by
  unfold utf8Piece
  rw [if_pos ascii]

/-- Lossy decoding splits at an ASCII octet. -/
theorem lossy_append (bytes tail : Bytes) :
    lossy (bytes ++ separator :: tail) =
      lossy bytes ++ Char.ofNat separator.toNat :: lossy tail := by
  induction length : bytes.length using Nat.strong_induction_on generalizing bytes with
  | _ size ih =>
      cases bytes with
      | nil =>
          rw [List.nil_append, lossy_cons, utf8Piece_ascii ascii]
          rfl
      | cons first rest =>
          obtain ⟨positive, bounded⟩ := utf8Piece_width first rest
          have shorter : ((first :: rest).drop (utf8Piece first rest).width).length < size := by
            rw [List.length_cons] at length
            rw [List.length_drop, List.length_cons]
            omega
          have split : (first :: (rest ++ separator :: tail)).drop (utf8Piece first rest).width =
              (first :: rest).drop (utf8Piece first rest).width ++ separator :: tail := by
            rw [← List.cons_append, List.drop_append_of_le_length]
            rw [List.length_cons]
            exact bounded
          rw [List.cons_append, lossy_cons, utf8Piece_append ascii, split, ih _ shorter _ rfl,
            lossy_cons first rest]
          rfl

end

/-! ## Characters other than ASCII -/

theorem secondOfThree_bits {first second : UInt8} (lead : 0xe0 ≤ first ∧ first ≤ 0xef)
    (follows : secondOfThree first second = true) :
    2 ≤ first.toNat % 16 * 64 + continuationBits second := by
  simp only [UInt8.le_iff_toNat_le] at lead
  unfold secondOfThree at follows
  unfold continuationBits
  by_cases least : first = 0xe0
  · rw [if_pos least] at follows
    simp only [Bool.and_eq_true, decide_eq_true_eq, UInt8.le_iff_toNat_le] at follows
    simp at follows
    omega
  · have more : first.toNat ≠ 0xe0 := fun same => least (UInt8.toNat_inj.mp same)
    simp at lead
    omega
theorem secondOfFour_bits {first second : UInt8} (lead : 0xf0 ≤ first ∧ first ≤ 0xf4)
    (follows : secondOfFour first second = true) :
    2 ≤ first.toNat % 8 * 64 + continuationBits second := by
  simp only [UInt8.le_iff_toNat_le] at lead
  unfold secondOfFour at follows
  unfold continuationBits
  by_cases least : first = 0xf0
  · rw [if_pos least] at follows
    simp only [Bool.and_eq_true, decide_eq_true_eq, UInt8.le_iff_toNat_le] at follows
    simp at follows
    omega
  · have more : first.toNat ≠ 0xf0 := fun same => least (UInt8.toNat_inj.mp same)
    simp at lead
    omega

/-- Only an ASCII octet decodes to an ASCII character. -/
theorem utf8Piece_scalar {first : UInt8} {rest : Bytes} {scalar width : Nat}
    (piece : utf8Piece first rest = .character scalar width) :
    scalar = first.toNat ∨ 0x80 ≤ scalar := by
  unfold utf8Piece at piece
  repeat' split at piece
  all_goals cases piece
  · exact .inl rfl
  · right
    next lead _ _ _ _ =>
      simp only [UInt8.le_iff_toNat_le] at lead
      simp at lead
      omega
  · right
    next follows _ =>
      have bits := secondOfThree_bits ‹_› (by simpa using follows)
      omega
  · right
    next follows _ _ =>
      have bits := secondOfFour_bits ‹_› (by simpa using follows)
      omega

/-- `Char.ofNat` gives zero for a number that is no scalar value. -/
theorem toNat_ofNat (scalar : Nat) :
    (Char.ofNat scalar).toNat = scalar ∨ (Char.ofNat scalar).toNat = 0 := by
  by_cases valid : scalar.isValidChar
  · left
    rw [Char.ofNat, dif_pos valid]
    rfl
  · right
    rw [Char.ofNat, dif_neg valid]
    rfl

theorem toNat_ofNat_ascii {byte : UInt8} (ascii : byte < 0x80) :
    (Char.ofNat byte.toNat).toNat = byte.toNat := by
  have small : byte.toNat < 0x80 := UInt8.lt_iff_toNat_lt.mp ascii
  rw [Char.ofNat, dif_pos (Or.inl (by omega))]
  rfl

theorem not_mem_lossy {separator : UInt8} (ascii : separator < 0x80) (nonzero : separator ≠ 0)
    {bytes : Bytes} (free : separator ∉ bytes) :
    Char.ofNat separator.toNat ∉ lossy bytes := by
  have small : separator.toNat < 0x80 := UInt8.lt_iff_toNat_lt.mp ascii
  have positive : separator.toNat ≠ 0 := fun zero => nonzero (UInt8.toNat_inj.mp zero)
  have own := toNat_ofNat_ascii ascii
  induction length : bytes.length using Nat.strong_induction_on generalizing bytes with
  | _ size ih =>
      cases bytes with
      | nil => simp [lossy, lossyCharacters]
      | cons first rest =>
          obtain ⟨forward, bounded⟩ := utf8Piece_width first rest
          have shorter : ((first :: rest).drop (utf8Piece first rest).width).length < size := by
            rw [List.length_cons] at length
            rw [List.length_drop, List.length_cons]
            omega
          have later := ih _ shorter (fun member => free (List.mem_of_mem_drop member)) rfl
          rw [lossy_cons, List.mem_cons, not_or]
          refine ⟨?_, later⟩
          intro same
          have scalar := congrArg Char.toNat same
          rw [own] at scalar
          cases piece : utf8Piece first rest with
          | illFormed width =>
              rw [piece] at scalar
              have high : (Utf8Piece.illFormed width).decoded.toNat = 0xfffd := rfl
              omega
          | character found width =>
              rw [piece] at scalar
              have decoded := toNat_ofNat found
              have read : separator.toNat = (Char.ofNat found).toNat := scalar
              rcases utf8Piece_scalar piece with plain | high
              · have equal : separator = first := UInt8.toNat_inj.mp (by omega)
                exact free (equal ▸ List.mem_cons_self ..)
              · omega

/-- Lossy decoding of the parts between separators. -/
theorem lossy_splitOn {separator : UInt8} (ascii : separator < 0x80) (bytes : Bytes) :
    lossy bytes =
      [Char.ofNat separator.toNat].intercalate ((bytes.splitOn separator).map lossy) := by
  have general (parts : List Bytes) : lossy ([separator].intercalate parts) =
      [Char.ofNat separator.toNat].intercalate (parts.map lossy) := by
    induction parts with
    | nil => rfl
    | cons first rest ih =>
        cases rest with
        | nil => simp
        | cons second rest =>
            rw [List.intercalate_cons_cons, List.map_cons, List.map_cons,
              List.intercalate_cons_cons, ← List.map_cons, ← ih, List.append_assoc,
              List.append_assoc, List.singleton_append, List.singleton_append,
              lossy_append ascii]
  rw [← general, List.intercalate_splitOn]

end PrinterSdk.Data
