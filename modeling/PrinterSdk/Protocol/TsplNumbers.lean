import PrinterSdk.Data.Decimals
import PrinterSdk.Data.Rounding
import PrinterSdk.Protocol.Copies

/-!
# Numbers in TSPL

A TSPL job announces the size of the label, the gap behind it and an offset in
millimetres with at most one decimal.  They are read back here as a printer reads them, in
tenths of a millimetre.
-/

namespace PrinterSdk.Protocol

open PrinterSdk.Data

/-! ## What the printer reads -/

/-- A TSPL line that announces lengths, in tenths of a millimetre. -/
inductive Measure where
  | size (width height : Int)
  | gap (distance offset : Int)
  | offset (shift : Int)
  deriving DecidableEq, Repr

/-- A pair of lengths to the end of the line. -/
def readLengths (text : Characters) : Option (Int × Int) := do
  let (first, rest) ← readTenths text
  let rest ← readText " mm, ".toList rest
  let (second, rest) ← readTenths rest
  if rest = " mm\r\n".toList then some (first, second) else none

/-- One length to the end of the line. -/
def readLength (text : Characters) : Option Int := do
  let (length, rest) ← readTenths text
  if rest = " mm\r\n".toList then some length else none

/-- A line that announces lengths. -/
def readMeasure (line : Characters) : Option Measure :=
  match readText "SIZE ".toList line with
  | some rest => (readLengths rest).map fun lengths => .size lengths.1 lengths.2
  | none =>
      match readText "GAP ".toList line with
      | some rest => (readLengths rest).map fun lengths => .gap lengths.1 lengths.2
      | none => (readText "OFFSET ".toList line).bind fun rest =>
          (readLength rest).map .offset

/-- The lengths a command announces. -/
def measureOf : Action → Option Measure
  | .commandWrite _ bytes _ => (fromUtf8 bytes).bind fun text => readMeasure text.toList
  | _ => none

/-- The lengths a job announces, in order. -/
def measures (actions : List Action) : List Measure := actions.filterMap measureOf

/-! ## Printing and reading -/

theorem measureOf_tspl (line : String) :
    measureOf (cmd "TSPL" (tspl line)) = readMeasure (line.toList ++ "\r\n".toList) := by
  simp [measureOf, cmd, tspl, fromUtf8_asBytes]

theorem toList_decimal (value : Int16) :
    (decimal value).toList =
      if value < 0 then '-' :: printTenths value.toInt.natAbs
      else printTenths value.toInt.natAbs := by
  rw [decimal, printTenths]
  by_cases negative : value < 0 <;> by_cases whole : value.toInt.natAbs % 10 = 0 <;>
    simp [negative, whole]

theorem readTenths_decimal (value : Int16) {rest : Characters} (ends : EndsNumber rest) :
    readTenths ((decimal value).toList ++ rest) = some (value.toInt, rest) := by
  rw [toList_decimal]
  by_cases negative : value < 0
  · have below : value.toInt < 0 := Int16.lt_iff_toInt_lt.mp negative
    have exact : -(value.toInt.natAbs : Int) = value.toInt := by omega
    rw [if_pos negative, readTenths_printMinus _ ends, exact]
  · have above : ¬value.toInt < 0 := fun below => negative (Int16.lt_iff_toInt_lt.mpr below)
    have exact : (value.toInt.natAbs : Int) = value.toInt := by omega
    rw [if_neg negative, readTenths_print _ ends, exact]

theorem readLengths_fmtMm (first second : Int16) :
    readLengths ((decimal first).toList ++ " mm, ".toList ++ (decimal second).toList ++
      " mm\r\n".toList) = some (first.toInt, second.toInt) := by
  have comma : EndsNumber (" mm, ".toList ++ ((decimal second).toList ++ " mm\r\n".toList)) := by
    intro character head
    cases head
    decide
  have line : EndsNumber " mm\r\n".toList := by
    intro character head
    cases head
    decide
  simp only [List.append_assoc, readLengths, readTenths_decimal first comma, readText_append,
    readTenths_decimal second line, Option.bind_eq_bind, Option.bind_some]
  exact if_pos trivial

theorem readLength_decimal (length : Int16) :
    readLength ((decimal length).toList ++ " mm\r\n".toList) = some length.toInt := by
  have line : EndsNumber " mm\r\n".toList := by
    intro character head
    cases head
    decide
  simp only [readLength, readTenths_decimal length line, Option.bind_eq_bind, Option.bind_some]
  exact if_pos trivial

/-- `SIZE` is read as the two numbers it was printed from, signs included. -/
theorem readMeasure_size (width height : UInt16) :
    readMeasure ((fmtMm "SIZE" width (some height)).toList ++ "\r\n".toList) =
      some (.size width.toInt16.toInt height.toInt16.toInt) := by
  have shape : (fmtMm "SIZE" width (some height)).toList ++ "\r\n".toList =
      "SIZE ".toList ++ ((decimal width.toInt16).toList ++ " mm, ".toList ++
        (decimal height.toInt16).toList ++ " mm\r\n".toList) := by
    simp [fmtMm]
  rw [shape, readMeasure, readText_append]
  simp only [readLengths_fmtMm]
  rfl

theorem readMeasure_gap (distance offset : UInt16) :
    readMeasure ((fmtMm "GAP" distance (some offset)).toList ++ "\r\n".toList) =
      some (.gap distance.toInt16.toInt offset.toInt16.toInt) := by
  have shape : (fmtMm "GAP" distance (some offset)).toList ++ "\r\n".toList =
      "GAP ".toList ++ ((decimal distance.toInt16).toList ++ " mm, ".toList ++
        (decimal offset.toInt16).toList ++ " mm\r\n".toList) := by
    simp [fmtMm]
  have other : readText "SIZE ".toList ("GAP ".toList ++ ((decimal distance.toInt16).toList ++
      " mm, ".toList ++ (decimal offset.toInt16).toList ++ " mm\r\n".toList)) = none :=
    readText_of_head_ne (by decide) _ _
  rw [shape, readMeasure, other, readText_append]
  simp only [readLengths_fmtMm]
  rfl

theorem readMeasure_offset (shift : Int16) :
    readMeasure (("OFFSET " ++ decimal shift ++ " mm").toList ++ "\r\n".toList) =
      some (.offset shift.toInt) := by
  have shape : ("OFFSET " ++ decimal shift ++ " mm").toList ++ "\r\n".toList =
      "OFFSET ".toList ++ ((decimal shift).toList ++ " mm\r\n".toList) := by
    simp
  have notSize : readText "SIZE ".toList
      ("OFFSET ".toList ++ ((decimal shift).toList ++ " mm\r\n".toList)) = none :=
    readText_of_head_ne (by decide) _ _
  have notGap : readText "GAP ".toList
      ("OFFSET ".toList ++ ((decimal shift).toList ++ " mm\r\n".toList)) = none :=
    readText_of_head_ne (by decide) _ _
  rw [shape, readMeasure, notSize, notGap, readText_append]
  simp only [Option.bind_some, readLength_decimal]
  rfl

/-- Other lines announce no lengths. -/
theorem readMeasure_other {first : Char} (notSize : 'S' ≠ first) (notGap : 'G' ≠ first)
    (notOffset : 'O' ≠ first) (rest : Characters) : readMeasure (first :: rest) = none := by
  have size : readText "SIZE ".toList (first :: rest) = none := readText_of_head_ne notSize _ _
  have gap : readText "GAP ".toList (first :: rest) = none := readText_of_head_ne notGap _ _
  have offset : readText "OFFSET ".toList (first :: rest) = none :=
    readText_of_head_ne notOffset _ _
  rw [readMeasure, size, gap, offset]
  rfl

theorem readMeasure_speed (rest : Characters) :
    readMeasure ("SPEED ".toList ++ rest) = none := by
  simp [readMeasure, readText]

/-! ## What was asked for -/

/-- The length asked for: the given one, or the rounded length of the dots at the
resolution of the printer, of which a dot at 203 dpi is an eighth of a millimetre. -/
def requestedTenths (given : Option UInt16) (dots : Nat) (dpi : UInt16) : Int :=
  match given with
  | some tenths => tenths.toNat
  | none => rounded (dpi.toNat * 8) (dots * 2030)

/-- A label length is the one asked for up to the largest `u16`, and a resolution of zero
has none. -/
theorem labelTenthsMm_eq_ok {ε : Type} {given : Option UInt16} {dots : Nat} {dpi : UInt16}
    {tenths : UInt16} (few : dots < 2 ^ 32)
    (found : (labelTenthsMm given dots dpi : Outcome ε UInt16) = .ok tenths) :
    (tenths.toNat : Int) = min (requestedTenths given dots dpi) 0xffff ∧
      (given = none → dpi ≠ 0) := by
  cases given with
  | some given =>
      cases found
      have small : tenths.toNat < 2 ^ 16 := tenths.toNat_lt
      refine ⟨?_, fun absent => nomatch absent⟩
      rw [requestedTenths]
      omega
  | none =>
      simp only [labelTenthsMm, tsplTenthsMm] at found
      by_cases zero : dpi.toNat * 8 = 0
      · rw [if_pos zero] at found
        cases found
      · rw [if_neg zero] at found
        cases found
        refine ⟨?_, ?_⟩
        · have exact : min (dots * 2030) usizeMax = dots * 2030 := by
            apply Nat.min_eq_left
            exact Nat.le_trans (Nat.mul_le_mul_right 2030 (Nat.le_of_lt few)) (by decide)
          have small : min ((dots * 2030 + dpi.toNat * 8 / 2) / (dpi.toNat * 8)) 0xffff < 2 ^ 16 :=
            Nat.lt_of_le_of_lt (Nat.min_le_right _ _) (by decide)
          have quotient : (((dots * 2030 + dpi.toNat * 8 / 2) / (dpi.toNat * 8) : Nat) : Int) =
              requestedTenths none dots dpi := by
            rw [requestedTenths, rounded]
            push_cast
            rfl
          rw [exact, UInt16.toNat_ofNat_of_lt' small, ← quotient]
          omega
        · intro _ same
          rw [same] at zero
          exact zero rfl

/-- The cast to `i16` keeps a length exactly up to the largest `i16`. -/
theorem toInt16_eq_iff (tenths : UInt16) {requested : Int}
    (found : (tenths.toNat : Int) = min requested 0xffff) :
    tenths.toInt16.toInt = requested ↔ requested ≤ 32767 := by
  have cast : tenths.toInt16.toInt = (tenths.toNat : Int).bmod (2 ^ 16) := by
    change tenths.toBitVec.toInt = _
    rw [BitVec.toInt_eq_toNat_bmod]
    rfl
  have small : tenths.toNat < 2 ^ 16 := tenths.toNat_lt
  rw [cast, Int.bmod]
  omega

/-! ## Jobs -/

section

variable (printer : PrinterDefinition) (raster : Raster) (options : Options)

/-- The width a job asks for. -/
def requestedWidth : Int :=
  requestedTenths options.labelWidthTenthsMm (raster.widthBytes.toNat * 8) printer.dpi

/-- The height a job asks for. -/
def requestedHeight : Int :=
  requestedTenths options.labelHeightTenthsMm raster.height.toNat printer.dpi

/-- The lengths a job asks for. -/
def requestedMeasures : List Measure := [
  .size (requestedWidth printer raster options) (requestedHeight printer raster options),
  .gap (max options.gapTenthsMm.toInt 0) 0,
  .offset options.offsetTenthsMm.toInt]

/-- A size that is not given needs a resolution to divide by. -/
def Divisible : Prop :=
  options.labelWidthTenthsMm = none ∨ options.labelHeightTenthsMm = none → printer.dpi ≠ 0

variable {printer raster options}

@[simp] theorem measures_append (left right : List Action) :
    measures (left ++ right) = measures left ++ measures right := List.filterMap_append

/-- The lengths of lines that are written with a pause behind each. -/
theorem measures_lines (lines : List String) :
    measures (lines.flatMap fun line => [cmd "TSPL" (tspl line), delay 50]) =
      lines.filterMap fun line => readMeasure (line.toList ++ "\r\n".toList) := by
  induction lines with
  | nil => rfl
  | cons line rest ih =>
      have pause : measureOf (delay 50) = none := rfl
      rw [List.flatMap_cons, measures_append, ih, List.filterMap_cons, measures,
        List.filterMap_cons, measureOf_tspl, List.filterMap_cons, pause, List.filterMap_nil]
      cases readMeasure (line.toList ++ "\r\n".toList) <;> rfl

/-- The gap that is printed is never negative. -/
theorem toInt_gap (gap : Int16) : (max gap 0).toUInt16.toInt16.toInt = max gap.toInt 0 := by
  rw [Int16.toInt16_toUInt16]
  change (if gap ≤ 0 then 0 else gap).toInt = _
  by_cases closed : gap ≤ 0
  · rw [if_pos closed]
    exact (max_eq_right (Int16.le_iff_toInt_le.mp closed)).symm
  · have apart : ¬gap.toInt ≤ 0 := fun below => closed (Int16.le_iff_toInt_le.mpr below)
    rw [if_neg closed]
    exact (max_eq_left (Int.le_of_lt (Int.not_le.mp apart))).symm

/-- The lines that set up a label announce its lengths. -/
theorem measures_setup (width height : UInt16) (gap shift : Int16) (density speed : Nat) :
    ([fmtMm "SIZE" width (some height), fmtMm "GAP" (max gap 0).toUInt16 (some 0),
      "OFFSET " ++ decimal shift ++ " mm", "DENSITY " ++ toString density,
      "SPEED " ++ toString speed, "DIRECTION 0", "CLS"].filterMap
        fun line => readMeasure (line.toList ++ "\r\n".toList)) =
      [.size width.toInt16.toInt height.toInt16.toInt, .gap (max gap.toInt 0) 0,
        .offset shift.toInt] := by
  have densityLine : readMeasure (("DENSITY " ++ toString density).toList ++ "\r\n".toList) =
      none := by
    rw [String.toList_append]
    exact readMeasure_other (by decide) (by decide) (by decide) _
  have speedLine : readMeasure (("SPEED " ++ toString speed).toList ++ "\r\n".toList) =
      none := by
    rw [String.toList_append, List.append_assoc]
    exact readMeasure_speed _
  have directionLine : readMeasure ("DIRECTION 0".toList ++ "\r\n".toList) = none :=
    readMeasure_other (by decide) (by decide) (by decide) _
  have clearLine : readMeasure ("CLS".toList ++ "\r\n".toList) = none :=
    readMeasure_other (by decide) (by decide) (by decide) _
  simp only [List.filterMap_cons, List.filterMap_nil, readMeasure_size, readMeasure_gap,
    readMeasure_offset, densityLine, speedLine, directionLine, clearLine, toInt_gap]
  rfl

/-- A command that announces nothing. -/
theorem measureOf_other {name text : String} {first : Char} {rest : Characters}
    (shape : text.toList = first :: rest) (notSize : 'S' ≠ first) (notGap : 'G' ≠ first)
    (notOffset : 'O' ≠ first) : measureOf (cmd name (asBytes text)) = none := by
  simp only [measureOf, cmd, fromUtf8_asBytes, Option.bind_some, shape]
  exact readMeasure_other notSize notGap notOffset rest

/-- What a TSPL page announces. -/
theorem measures_tsplActions {body : List Action}
    (planned : tsplActions printer raster options = .ok body) :
    ∃ width height : UInt16,
      (width.toNat : Int) = min (requestedWidth printer raster options) 0xffff ∧
      (height.toNat : Int) = min (requestedHeight printer raster options) 0xffff ∧
      Divisible printer options ∧
      measures body = [.size width.toInt16.toInt height.toInt16.toInt,
        .gap (max options.gapTenthsMm.toInt 0) 0, .offset options.offsetTenthsMm.toInt] := by
  simp only [tsplActions, except_bind_eq_ok, except_pure_eq_ok] at planned
  obtain ⟨width, foundWidth, height, foundHeight, same⟩ := planned
  have fewColumns : raster.widthBytes.toNat * 8 < 2 ^ 32 := by
    have small : raster.widthBytes.toNat < 2 ^ 16 := raster.widthBytes.toNat_lt
    omega
  obtain ⟨exactWidth, widthDivides⟩ := labelTenthsMm_eq_ok fewColumns foundWidth
  obtain ⟨exactHeight, heightDivides⟩ := labelTenthsMm_eq_ok raster.height.toNat_lt foundHeight
  refine ⟨width, height, exactWidth, exactHeight, fun absent => ?_, ?_⟩
  · rcases absent with noWidth | noHeight
    · exact widthDivides noWidth
    · exact heightDivides noHeight
  · rw [← same, measures_append, measures_lines, measures_setup]
    have print : ∀ count : Nat,
        measureOf (cmd "TSPL" (tspl ("PRINT " ++ toString count))) = none := by
      intro count
      rw [measureOf_tspl, String.toList_append]
      exact readMeasure_other (by decide) (by decide) (by decide) _
    have finish : measureOf (cmd "TSPL" (tspl "END")) = none := by
      rw [measureOf_tspl]
      exact readMeasure_other (by decide) (by decide) (by decide) _
    have terminator : measureOf (cmd "bitmap terminator" (asBytes "\r\n")) = none :=
      measureOf_other rfl (by decide) (by decide) (by decide)
    have bitmap : ∀ text : String,
        measureOf (cmd "BITMAP header" (asBytes ("BITMAP " ++ text))) = none := by
      intro text
      exact measureOf_other String.toList_append (by decide) (by decide) (by decide)
    have pause : measureOf (delay 50) = none := rfl
    have image : ∀ data, measureOf (rasterPaced printer data options.streaming) = none :=
      fun _ => rfl
    simp only [String.append_assoc, measures, List.filterMap_cons, List.filterMap_nil, print,
      finish, terminator, bitmap, pause, image, List.append_nil]

theorem measures_jobPlan {body : List Action} (credited : Bool) :
    measures (jobPlan printer
      ((if credited then [.subscribeNotifications] else []) ++ body)).actions = measures body := by
  cases credited with
  | false => exact (measures_append body [.jobBoundary .end]).trans (List.append_nil _)
  | true => exact (measures_append body [.jobBoundary .end]).trans (List.append_nil _)

end

/-- The lengths a TSPL job announces are read back as the requested ones, and nothing is
divided by zero, exactly when the requested sizes fit an `i16`: the printed number passes
through one. -/
theorem tspl_numbers_iff (printer : PrinterDefinition) (raster : Raster) (options : Options)
    (planned : Plan) (family : printer.protocol = .tspl)
    (returned : plan printer raster options = .ok planned) :
    (measures planned.actions = requestedMeasures printer raster options ∧
        Divisible printer options) ↔
      requestedWidth printer raster options ≤ 32767 ∧
        requestedHeight printer raster options ≤ 32767 := by
  simp only [plan, planWithLimits, except_bind_eq_ok, except_pure_eq_ok] at returned
  obtain ⟨inner, returned, _, -, rfl⟩ := returned
  obtain ⟨-, page⟩ := planInner_eq_ok returned
  rw [if_pos family] at page
  obtain ⟨body, page, rfl⟩ := page
  simp only [pageBody, except_bind_eq_ok, except_pure_eq_ok] at page
  obtain ⟨actions, page, rfl⟩ := page
  rw [familyActions, family] at page
  obtain ⟨width, height, exactWidth, exactHeight, divisible, announced⟩ :=
    measures_tsplActions page
  rw [measures_jobPlan, announced, requestedMeasures, List.cons.injEq, Measure.size.injEq,
    toInt16_eq_iff width exactWidth, toInt16_eq_iff height exactHeight]
  constructor
  · intro holds
    exact holds.1.1
  · intro small
    exact ⟨⟨small, rfl⟩, divisible⟩

theorem tspl_numbers_label :
    ∃ planned, plan (gattPrinter "pm241" .tspl 203) dotRaster
        { labelHeightTenthsMm := some 301, gapTenthsMm := -5 } = .ok planned ∧
      measures planned.actions = [.size 10 301, .gap 0 0, .offset (-30)] ∧
      Divisible (gattPrinter "pm241" .tspl 203)
        { labelHeightTenthsMm := some 301, gapTenthsMm := -5 } := by
  have result : (plan (gattPrinter "pm241" .tspl 203) dotRaster
      { labelHeightTenthsMm := some 301, gapTenthsMm := -5 }).isOk = true := by decide +kernel
  obtain ⟨planned, returned⟩ := exists_of_isOk result
  exact ⟨planned, returned,
    (tspl_numbers_iff _ _ _ planned rfl returned).mpr ⟨by decide, by decide⟩⟩

/-- Four metres of label are announced as a negative width. -/
theorem wide_label_misprinted :
    ∃ planned, plan (gattPrinter "pm241" .tspl 203) dotRaster
        { labelWidthTenthsMm := some 40000 } = .ok planned ∧
      measures planned.actions = [.size (-25536) 1, .gap 30 0, .offset (-30)] ∧
      ¬(measures planned.actions = requestedMeasures (gattPrinter "pm241" .tspl 203) dotRaster
          { labelWidthTenthsMm := some 40000 } ∧
        Divisible (gattPrinter "pm241" .tspl 203) { labelWidthTenthsMm := some 40000 }) := by
  have run : (plan (gattPrinter "pm241" .tspl 203) dotRaster
      { labelWidthTenthsMm := some 40000 }).map (fun planned => measures planned.actions) =
        .ok [.size (-25536) 1, .gap 30 0, .offset (-30)] := by decide +kernel
  cases returned : plan (gattPrinter "pm241" .tspl 203) dotRaster
      { labelWidthTenthsMm := some 40000 } with
  | error failure =>
      rw [returned] at run
      cases run
  | ok planned =>
      rw [returned] at run
      have announced : measures planned.actions = _ := Except.ok.inj run
      refine ⟨planned, rfl, announced, ?_⟩
      rw [announced]
      intro both
      exact absurd both.1 (by decide)

end PrinterSdk.Protocol
