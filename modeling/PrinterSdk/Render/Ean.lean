import PrinterSdk.Data.Bars
import PrinterSdk.Render.Barcode

/-!
# What an EAN-13 symbol reads as

A symbol of EAN-13 has 95 modules: guards of three modules at its ends and of five in the
middle, and six digits of seven modules on either side.  The digits on the left are drawn
in one of two codes, and the choice of codes spells the first digit.
-/

namespace PrinterSdk.Render

open PrinterSdk.Data

/-! ## The reader -/

/-- The widths of the four elements of a digit, a space first on the left. -/
def eanWidths : List (List Nat) := [
  [3, 2, 1, 1], [2, 2, 2, 1], [2, 1, 2, 2], [1, 4, 1, 1], [1, 1, 3, 2], [1, 2, 3, 1],
  [1, 1, 1, 4], [1, 3, 1, 2], [1, 2, 1, 3], [3, 1, 1, 2]]

/-- A code of a digit on the left: the second code has the elements of the first in
reverse order. -/
def leftCode (second : Bool) (widths : List Nat) : List Bool :=
  Bars.draw false (if second then widths.reverse else widths)

/-- The code of a digit on the right begins with a bar. -/
def rightCode (widths : List Nat) : List Bool := Bars.draw true widths

/-- The codes of the left half that stand for each first digit: true for the second
code. -/
def firstDigits : List (List Bool) := [
  [false, false, false, false, false, false], [false, false, true, false, true, true],
  [false, false, true, true, false, true], [false, false, true, true, true, false],
  [false, true, false, false, true, true], [false, true, true, false, false, true],
  [false, true, true, true, false, false], [false, true, false, true, false, true],
  [false, true, false, true, true, false], [false, true, true, false, true, false]]

/-- A digit of the left half, with its code. -/
def readLeftDigit (modules : List Bool) : Option (Bool × Nat) :=
  match eanWidths.findIdx? (fun widths => leftCode false widths = modules) with
  | some digit => some (false, digit)
  | none =>
      (eanWidths.findIdx? fun widths => leftCode true widths = modules).map fun digit =>
        (true, digit)

/-- A digit of the right half. -/
def readRightDigit (modules : List Bool) : Option Nat :=
  eanWidths.findIdx? fun widths => rightCode widths = modules

/-- A number of digits of seven modules each. -/
def readDigits {α : Type} (readDigit : List Bool → Option α) :
    Nat → List Bool → Option (List α × List Bool)
  | 0, modules => some ([], modules)
  | count + 1, modules =>
      (readDigit (modules.take 7)).bind fun digit =>
        (readDigits readDigit count (modules.drop 7)).map fun later =>
          (digit :: later.1, later.2)

/-- The modules behind a guard. -/
def readGuard (guard modules : List Bool) : Option (List Bool) :=
  if guard <+: modules then some (modules.drop guard.length) else none

/-- The outer and the inner guard. -/
def outerGuard : List Bool := [true, false, true]

def innerGuard : List Bool := [false, true, false, true, false]

/-- The thirteen digits of a symbol. -/
def readEan13 (modules : List Bool) : Option (List Nat) := do
  let modules ← readGuard outerGuard modules
  let (left, modules) ← readDigits readLeftDigit 6 modules
  let modules ← readGuard innerGuard modules
  let (right, modules) ← readDigits readRightDigit 6 modules
  let modules ← readGuard outerGuard modules
  let first ← firstDigits.findIdx? (· = left.map Prod.fst)
  if modules = [] then some (first :: left.map Prod.snd ++ right) else none

/-- The check digit of twelve digits: the digits at odd positions count three times. -/
def checkDigit (digits : List Nat) : Nat :=
  (10 - (digits.zipIdx.map fun digit => digit.1 * if digit.2 % 2 = 0 then 1 else 3).sum % 10) % 10

/-! ## Digits -/

/-- The value of a digit. -/
def digitValue (byte : UInt8) : Nat := (byte - 0x30).toNat

/-- A one stands for a black module. -/
def isBlack (byte : UInt8) : Bool := byte = 0x31

/-- The modules that a string of zeros and ones stands for. -/
def modulesOf (text : String) : List Bool := (asBytes text).map isBlack

theorem digitValue_lt {byte : UInt8} (digit : isAsciiDigit byte = true) : digitValue byte < 10 := by
  obtain ⟨least, most⟩ := Bool.and_eq_true_iff.mp digit
  have low := UInt8.le_iff_toNat_le.mp (of_decide_eq_true least)
  have high := UInt8.le_iff_toNat_le.mp (of_decide_eq_true most)
  rw [digitValue, UInt8.toNat_sub_of_le _ _ (of_decide_eq_true least)]
  change 48 ≤ byte.toNat at low
  change byte.toNat ≤ 57 at high
  change byte.toNat - 48 < 10
  omega

/-! ## Codes -/

/-- The code that is drawn on the left. -/
def drawnLeft (item : Bool × Nat) : List Bool :=
  modulesOf (if item.1 then eanG.getD item.2 "" else eanL.getD item.2 "")

/-- The code that is drawn on the right. -/
def drawnRight (digit : Nat) : List Bool := modulesOf (eanR.getD digit "")

theorem drawnLeft_spec : ∀ digit < 10, ∀ second,
    (drawnLeft (second, digit)).length = 7 ∧
      readLeftDigit (drawnLeft (second, digit)) = some (second, digit) := by
  decide +kernel

theorem drawnRight_spec : ∀ digit < 10,
    (drawnRight digit).length = 7 ∧ readRightDigit (drawnRight digit) = some digit := by
  decide +kernel

/-- The codes that `ean` chooses for a first digit. -/
def parityOf (first index : Nat) : Bool :=
  (asBytes (eanParity.getD first "")).getD index 0 = 0x47

theorem parityOf_spec : ∀ first < 10,
    firstDigits.findIdx? (· = (List.range 6).map (parityOf first)) = some first := by
  decide +kernel

theorem parityOf_zero : ∀ index < 6, parityOf 0 index = false := by
  decide

/-- Reading back the digits of one half. -/
theorem readDigits_flatMap {α β : Type} {readDigit : List Bool → Option α} {code : β → List Bool}
    {value : β → α} {items : List β}
    (codes : ∀ item ∈ items, (code item).length = 7 ∧ readDigit (code item) = some (value item))
    (rest : List Bool) :
    readDigits readDigit items.length (items.flatMap code ++ rest) =
      some (items.map value, rest) := by
  induction items with
  | nil => rfl
  | cons item items ih =>
      obtain ⟨⟨seven, reads⟩, later⟩ := List.forall_mem_cons.mp codes
      rw [List.length_cons, List.flatMap_cons, List.append_assoc, readDigits,
        List.take_left' seven, reads, Option.bind_some, List.drop_left' seven, ih later]
      rfl

theorem length_flatMap_code {β : Type} {code : β → List Bool} {items : List β}
    (codes : ∀ item ∈ items, (code item).length = 7) :
    (items.flatMap code).length = 7 * items.length := by
  induction items with
  | nil => rfl
  | cons item items ih =>
      obtain ⟨seven, later⟩ := List.forall_mem_cons.mp codes
      rw [List.flatMap_cons, List.length_append, seven, ih later, List.length_cons]
      omega

/-! ## Symbols -/

/-- The digits on the left with their codes. -/
def leftItems (first : Nat) (left : List Nat) (thirteen : Bool) : List (Bool × Nat) :=
  left.zipIdx.map fun digit => (thirteen && parityOf first digit.2, digit.1)

theorem eanSymbol_modules (first : Nat) (left right : List Nat) (thirteen : Bool) :
    (eanSymbol first left right thirteen).map isBlack =
      outerGuard ++ ((leftItems first left thirteen).flatMap drawnLeft ++
        (innerGuard ++ (right.flatMap drawnRight ++ outerGuard))) := by
  have codes : (left.zipIdx.flatMap fun digit =>
      if thirteen ∧ (asBytes (eanParity.getD first "")).getD digit.2 0 = 0x47 then
        asBytes (eanG.getD digit.1 "")
      else
        asBytes (eanL.getD digit.1 "")).map isBlack =
      (leftItems first left thirteen).flatMap drawnLeft := by
    rw [List.map_flatMap, leftItems, List.flatMap_map]
    apply List.flatMap_congr
    intro digit _
    unfold drawnLeft modulesOf parityOf
    cases thirteen with
    | false => simp
    | true => split <;> simp_all
  have numbers : (right.flatMap fun digit => asBytes (eanR.getD digit "")).map isBlack =
      right.flatMap drawnRight := by
    rw [List.map_flatMap]
    rfl
  rw [eanSymbol, List.map_append, List.map_append, List.map_append, List.map_append, codes, numbers,
    List.append_assoc, List.append_assoc, List.append_assoc]
  rfl

section

variable {first : Nat} {left right : List Nat} (least : first < 10)
  (leftDigits : ∀ digit ∈ left, digit < 10) (rightDigits : ∀ digit ∈ right, digit < 10)
  (leftLength : left.length = 6) (rightLength : right.length = 6)

theorem length_leftItems (thirteen : Bool) :
    (leftItems first left thirteen).length = left.length := by
  rw [leftItems, List.length_map, List.length_zipIdx]

include leftDigits in
theorem drawnLeft_leftItems {thirteen : Bool} :
    ∀ item ∈ leftItems first left thirteen,
      (drawnLeft item).length = 7 ∧ readLeftDigit (drawnLeft item) = some (id item) := by
  intro item member
  obtain ⟨digit, inside, rfl⟩ := List.mem_map.mp member
  exact drawnLeft_spec digit.1 (leftDigits _ (List.fst_mem_of_mem_zipIdx inside)) _

include leftLength in
theorem fst_leftItems :
    (leftItems first left true).map Prod.fst = (List.range 6).map (parityOf first) := by
  have indices : left.zipIdx.map Prod.snd = List.range 6 := by
    rw [List.zipIdx_map_snd, leftLength, List.range_eq_range']
  rw [← indices, leftItems, List.map_map, List.map_map]
  rfl

theorem snd_leftItems {thirteen : Bool} : (leftItems first left thirteen).map Prod.snd = left := by
  rw [leftItems, List.map_map]
  exact List.zipIdx_map_fst 0 left

theorem readGuard_append (guard rest : List Bool) : readGuard guard (guard ++ rest) = some rest := by
  rw [readGuard, if_pos (List.prefix_append _ _), List.drop_left]

include least leftDigits rightDigits leftLength rightLength in
/-- A symbol of thirteen digits reads as its digits. -/
theorem readEan13_eanSymbol :
    readEan13 ((eanSymbol first left right true).map isBlack) = some (first :: left ++ right) := by
  have readsLeft := readDigits_flatMap (@drawnLeft_leftItems first left leftDigits true)
    (innerGuard ++ (right.flatMap drawnRight ++ outerGuard))
  have readsRight := @readDigits_flatMap _ _ readRightDigit drawnRight id right
    (fun digit member => drawnRight_spec digit (rightDigits digit member)) outerGuard
  have found : firstDigits.findIdx? (· = (leftItems first left true).map Prod.fst) = some first := by
    rw [fst_leftItems leftLength]
    exact parityOf_spec first least
  have closing : readGuard outerGuard outerGuard = some [] := readGuard_append outerGuard []
  rw [length_leftItems, leftLength, List.map_id] at readsLeft
  rw [rightLength, List.map_id] at readsRight
  rw [eanSymbol_modules, readEan13, readGuard_append]
  simp only [Option.bind_eq_bind, Option.bind_some]
  rw [readsLeft]
  simp only [Option.bind_some, readGuard_append]
  rw [readsRight]
  simp only [Option.bind_some, closing]
  rw [found, Option.bind_some, if_pos trivial, snd_leftItems]

include leftDigits rightDigits leftLength rightLength in
theorem length_eanSymbol (thirteen : Bool) :
    ((eanSymbol first left right thirteen).map isBlack).length = 95 := by
  have leftCodes := length_flatMap_code
    (fun item member => (@drawnLeft_leftItems first left leftDigits thirteen item member).1)
  have rightCodes := @length_flatMap_code _ drawnRight right
    (fun digit member => (drawnRight_spec digit (rightDigits digit member)).1)
  rw [length_leftItems, leftLength] at leftCodes
  rw [rightLength] at rightCodes
  rw [eanSymbol_modules, List.length_append, List.length_append, List.length_append,
    List.length_append, leftCodes, rightCodes]
  rfl

include leftLength in
/-- The codes that stand for a first digit of zero are the codes of UPC-A. -/
theorem eanSymbol_zero :
    (eanSymbol 0 left right true).map isBlack = (eanSymbol 0 left right false).map isBlack := by
  have items : leftItems 0 left true = leftItems 0 left false := by
    apply List.map_congr_left
    intro digit member
    have inside : digit.2 < 6 := by
      have bound := List.snd_lt_of_mem_zipIdx member
      omega
    rw [parityOf_zero digit.2 inside, Bool.and_false, Bool.false_and]
  rw [eanSymbol_modules, eanSymbol_modules, items]

end

/-! ## Check digits -/

/-- The sum of the digits, those at even indices counted three times. -/
def weightedFrom (index : Nat) (digits : List Nat) : Nat :=
  ((digits.zipIdx index).map fun digit => digit.1 * if digit.2 % 2 = 0 then 3 else 1).sum

theorem weightedFrom_cons (index digit : Nat) (rest : List Nat) :
    weightedFrom index (digit :: rest) =
      digit * (if index % 2 = 0 then 3 else 1) + weightedFrom (index + 1) rest := rfl

theorem weightedFrom_append (index : Nat) (left right : List Nat) :
    weightedFrom index (left ++ right) =
      weightedFrom index left + weightedFrom (index + left.length) right := by
  rw [weightedFrom, List.zipIdx_append, List.map_append, List.sum_append]
  rfl

/-- Counting from the other end gives the same sum, if the index of the last digit has the
parity of the index the count began with. -/
theorem weightedFrom_reverse {index other : Nat} {digits : List Nat}
    (parity : (index + digits.length + other) % 2 = 1) :
    weightedFrom index digits.reverse = weightedFrom other digits := by
  induction digits generalizing other with
  | nil => rfl
  | cons digit rest ih =>
      rw [List.length_cons] at parity
      have same : (index + rest.length) % 2 = other % 2 := by omega
      have later : weightedFrom index rest.reverse = weightedFrom (other + 1) rest :=
        ih (by omega)
      rw [List.reverse_cons, weightedFrom_append, List.length_reverse, weightedFrom_cons,
        weightedFrom_cons, same, later, Nat.add_comm]
      rfl

theorem eanCheckSum_eq (digits : List Nat) : eanCheckSum digits = weightedFrom 0 digits.reverse := rfl

/-- The check digit of twelve digits, computed from the right. -/
theorem checkDigit_eq {digits : List Nat} (length : digits.length = 12) :
    checkDigit digits = (10 - eanCheckSum digits % 10) % 10 := by
  have aligned : eanCheckSum digits = weightedFrom 1 digits := by
    rw [eanCheckSum_eq]
    exact weightedFrom_reverse (by rw [length])
  have shifted : weightedFrom 1 digits =
      (digits.zipIdx.map fun digit => digit.1 * if digit.2 % 2 = 0 then 1 else 3).sum := by
    rw [weightedFrom, List.zipIdx_succ, List.map_map]
    congr 1
    apply List.map_congr_left
    intro digit _
    change digit.1 * (if (digit.2 + 1) % 2 = 0 then 3 else 1) = _
    by_cases even : digit.2 % 2 = 0
    · rw [if_pos even, if_neg (by omega)]
    · rw [if_neg even, if_pos (by omega)]
  rw [checkDigit, aligned, shifted]

theorem eanCheckSum_zero (digits : List Nat) : eanCheckSum (0 :: digits) = eanCheckSum digits := by
  rw [eanCheckSum_eq, eanCheckSum_eq, List.reverse_cons, weightedFrom_append, weightedFrom_cons,
    Nat.zero_mul]
  rfl

/-! ## Accepted data -/

section

variable {data : Bytes} {length : Nat} {modules : List Bool}

/-- What `ean` accepts, and what it draws. -/
theorem ean_eq_ok :
    ean data length = .ok modules ↔
      data.length = length ∧ data.all isAsciiDigit = true ∧
        (10 - eanCheckSum ((data.map digitValue).take (length - 1)) % 10) % 10 =
          (data.map digitValue).getD (length - 1) 0 ∧
        (if length = 13 then
          eanSymbol ((data.map digitValue).getD 0 0) (((data.map digitValue).drop 1).take 6)
            ((data.map digitValue).drop 7) true
        else
          eanSymbol 0 ((data.map digitValue).take 6) ((data.map digitValue).drop 6) false).map
            isBlack = modules := by
  simp only [ean, except_bind_eq_ok, except_pure_eq_ok, refuseIf_eq_ok, not_or, Decidable.not_not]
  constructor
  · rintro ⟨_, ⟨counted, digits⟩, _, checked, drawn⟩
    exact ⟨counted, digits, checked, drawn⟩
  · rintro ⟨counted, digits, checked, drawn⟩
    exact ⟨(), ⟨counted, digits⟩, (), checked, drawn⟩

theorem digitValue_lt_of_mem (digits : data.all isAsciiDigit = true) :
    ∀ digit ∈ data.map digitValue, digit < 10 := by
  intro digit member
  obtain ⟨byte, inside, rfl⟩ := List.mem_map.mp member
  exact digitValue_lt (List.all_eq_true.mp digits byte inside)

end

/-- Accepted data of thirteen digits is drawn as 95 modules that read as the digits. -/
theorem readEan13_of_accepted {data : Bytes} {modules : List Bool}
    (accepted : ean data 13 = .ok modules) :
    modules.length = 95 ∧ readEan13 modules = some (data.map digitValue) := by
  obtain ⟨counted, digits, -, drawn⟩ := ean_eq_ok.mp accepted
  have small := digitValue_lt_of_mem digits
  have total : (data.map digitValue).length = 13 := by
    rw [List.length_map, counted]
  generalize data.map digitValue = numbers at small total drawn
  cases numbers with
  | nil => cases total
  | cons first rest =>
      rw [List.length_cons] at total
      obtain ⟨least, others⟩ := List.forall_mem_cons.mp small
      have leftLength : (rest.take 6).length = 6 := by
        rw [List.length_take]
        omega
      have rightLength : (rest.drop 6).length = 6 := by
        rw [List.length_drop]
        omega
      have left : ∀ digit ∈ rest.take 6, digit < 10 :=
        fun digit member => others digit (List.mem_of_mem_take member)
      have right : ∀ digit ∈ rest.drop 6, digit < 10 :=
        fun digit member => others digit (List.mem_of_mem_drop member)
      rw [if_pos rfl] at drawn
      change (eanSymbol first (rest.take 6) (rest.drop 6) true).map isBlack = modules at drawn
      rw [← drawn]
      refine ⟨length_eanSymbol left right leftLength rightLength true, ?_⟩
      rw [readEan13_eanSymbol least left right leftLength rightLength, List.cons_append,
        List.take_append_drop]

/-- Thirteen digits with a wrong check digit are refused. -/
theorem ean_refuses {data : Bytes} (counted : data.length = 13)
    (digits : data.all isAsciiDigit = true)
    (wrong : (data.map digitValue).getD 12 0 ≠ checkDigit ((data.map digitValue).take 12)) :
    ean data 13 = .error (.barcode "check digit mismatch") := by
  have taken : ((data.map digitValue).take 12).length = 12 := by
    rw [List.length_take, List.length_map, counted]
    rfl
  rw [checkDigit_eq taken] at wrong
  simp only [ean, except_bind_eq_error, refuseIf_eq_error, refuseIf_eq_ok]
  have accepted : ¬(data.length ≠ 13 ∨ ¬data.all isAsciiDigit = true) := by
    simp [counted, digits]
  exact .inr ⟨(), accepted, .inl ⟨fun same => wrong same.symm, trivial⟩⟩

/-- UPC-A is EAN-13 with a leading zero. -/
theorem ean_leading_zero {data : Bytes} (counted : data.length = 12) (modules : List Bool) :
    ean data 12 = .ok modules ↔ ean (0x30 :: data) 13 = .ok modules := by
  have total : (data.map digitValue).length = 12 := by
    rw [List.length_map, counted]
  have leftLength : ((data.map digitValue).take 6).length = 6 := by
    rw [List.length_take, total]
    rfl
  have zero : (0x30 :: data).map digitValue = 0 :: data.map digitValue := rfl
  have leading : (0x30 :: data).all isAsciiDigit = data.all isAsciiDigit := rfl
  have longer : (0x30 :: data).length = 13 := by
    rw [List.length_cons, counted]
  rw [ean_eq_ok, ean_eq_ok, zero, leading, longer, if_neg (by decide), if_pos rfl]
  change _ ∧ _ ∧ _ ∧ _ ↔ 13 = 13 ∧ _ ∧
    (10 - eanCheckSum (0 :: (data.map digitValue).take 11) % 10) % 10 =
      (data.map digitValue).getD 11 0 ∧
    (eanSymbol 0 ((data.map digitValue).take 6) ((data.map digitValue).drop 6) true).map isBlack =
      modules
  rw [eanCheckSum_zero, eanSymbol_zero leftLength]
  simp [counted]

/-- Accepted data of thirteen digits is drawn as 95 modules that read as the digits, a wrong
check digit is refused, and UPC-A is EAN-13 with a leading zero. -/
theorem ean_reads_back :
    (∀ data modules, ean data 13 = .ok modules →
      modules.length = 95 ∧ readEan13 modules = some (data.map digitValue)) ∧
    (∀ data : Bytes, data.length = 13 → data.all isAsciiDigit = true →
      (data.map digitValue).getD 12 0 ≠ checkDigit ((data.map digitValue).take 12) →
      ean data 13 = .error (.barcode "check digit mismatch")) ∧
    ∀ data : Bytes, data.length = 12 → ∀ modules,
      ean data 12 = .ok modules ↔ ean (0x30 :: data) 13 = .ok modules :=
  ⟨fun _ _ => readEan13_of_accepted, fun _ => ean_refuses, fun _ => ean_leading_zero⟩

/-- A printed EAN-13 number and a printed UPC-A number. -/
theorem ean_reads_back_samples :
    (∃ modules, ean (asBytes "4006381333931") 13 = .ok modules ∧
      readEan13 modules = some [4, 0, 0, 6, 3, 8, 1, 3, 3, 3, 9, 3, 1]) ∧
    ean (asBytes "4006381333932") 13 = .error (.barcode "check digit mismatch") ∧
    ∃ modules, ean (asBytes "036000291452") 12 = .ok modules ∧
      ean (asBytes "0036000291452") 13 = .ok modules := by
  obtain ⟨reads, refuses, leads⟩ := ean_reads_back
  refine ⟨⟨_, rfl, (reads (asBytes "4006381333931") _ rfl).2⟩, ?_, ⟨_, rfl, ?_⟩⟩
  · exact refuses (asBytes "4006381333932") rfl (by decide +kernel) (by decide +kernel)
  · exact (leads (asBytes "036000291452") rfl _).mp rfl

end PrinterSdk.Render
