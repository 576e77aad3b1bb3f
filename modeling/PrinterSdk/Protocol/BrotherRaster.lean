import PrinterSdk.Data.RowBits
import PrinterSdk.Data.Records
import PrinterSdk.Protocol.BrotherPage
import PrinterSdk.Protocol.PackBits

/-!
# The framing of Brother rasters

A Brother raster is a sequence of lines, each behind a three-byte header whose last byte is
the number of bytes in the line.  The planner casts that number to a byte, so the framing is
right exactly when every line has at most 255 bytes.
-/

namespace PrinterSdk.Protocol

open PrinterSdk.Data

/-! ## Mirrored rows -/

/-- The row read from right to left, bit by bit. -/
structure Mirrors (row mirrored : Bytes) : Prop where
  length : mirrored.length = row.length
  bits : ∀ position, position < row.length * 8 →
    bitAt mirrored position = bitAt row (row.length * 8 - 1 - position)

theorem Mirrors.unique {row left right : Bytes} (first : Mirrors row left)
    (second : Mirrors row right) : left = right := by
  apply row_ext (first.length.trans second.length.symm)
  intro position inside
  rw [second.length] at inside
  rw [first.bits position inside, second.bits position inside]

/-- One turn of the loop of `brother_raster_lines` over the bits of a row. -/
def mirrorBit (row mirrored : Bytes) (bit : Nat) : Bytes :=
  if row.getD (bit / 8) 0 &&& bitMask bit ≠ 0 then
    setBit mirrored (row.length * 8 - 1 - bit)
  else
    mirrored

theorem mirrorRow_eq (row : Bytes) :
    mirrorRow row =
      (List.range (row.length * 8)).foldl (mirrorBit row) (List.replicate row.length 0) := rfl

/-- The first bits of the row have been mirrored. -/
structure Mirrored (row : Bytes) (count : Nat) (mirrored : Bytes) : Prop where
  length : mirrored.length = row.length
  bits : ∀ position, position < row.length * 8 →
    bitAt mirrored position = (bitAt row (row.length * 8 - 1 - position) &&
      decide (row.length * 8 - 1 - position < count))

theorem Mirrored.step {row mirrored : Bytes} {count : Nat} (more : count < row.length * 8)
    (before : Mirrored row count mirrored) :
    Mirrored row (count + 1) (mirrorBit row mirrored count) := by
  unfold mirrorBit
  by_cases black : row.getD (count / 8) 0 &&& bitMask count ≠ 0
  · have found : bitAt row count = true := (and_bitMask_ne_zero _ count).mp black
    rw [if_pos black]
    refine ⟨(length_setBit _ _).trans before.length, ?_⟩
    intro position inside
    have target : row.length * 8 - 1 - count < mirrored.length * 8 := by
      rw [before.length]
      omega
    rw [bitAt_setBit target, before.bits position inside]
    by_cases here : position = row.length * 8 - 1 - count
    · have back : row.length * 8 - 1 - position = count := by omega
      rw [back, found]
      simp [here]
    · have same : decide (row.length * 8 - 1 - position < count + 1) =
          decide (row.length * 8 - 1 - position < count) :=
        decide_eq_decide.mpr ⟨fun _ => by omega, fun _ => by omega⟩
      rw [decide_eq_false here, same, Bool.or_false]
  · have white : bitAt row count = false := by
      apply Bool.eq_false_iff.mpr
      intro found
      exact black ((and_bitMask_ne_zero _ count).mpr found)
    rw [if_neg black]
    refine ⟨before.length, ?_⟩
    intro position inside
    rw [before.bits position inside]
    by_cases here : row.length * 8 - 1 - position = count
    · rw [here, white]
      rfl
    · congr 1
      exact decide_eq_decide.mpr ⟨fun _ => by omega, fun _ => by omega⟩

theorem mirrored_range (row : Bytes) (count : Nat) (most : count ≤ row.length * 8) :
    Mirrored row count
      ((List.range count).foldl (mirrorBit row) (List.replicate row.length 0)) := by
  induction count with
  | zero =>
      refine ⟨List.length_replicate, ?_⟩
      intro position _
      rw [List.range_zero, List.foldl_nil, bitAt_replicate_zero]
      simp
  | succ count ih =>
      rw [List.range_succ, List.foldl_append, List.foldl_cons, List.foldl_nil]
      exact (ih (Nat.le_of_succ_le most)).step most

theorem mirrorRow_mirrors (row : Bytes) : Mirrors row (mirrorRow row) := by
  obtain ⟨length, bits⟩ := mirrored_range row (row.length * 8) (Nat.le_refl _)
  rw [← mirrorRow_eq] at length bits
  refine ⟨length, ?_⟩
  intro position inside
  have passed : row.length * 8 - 1 - position < row.length * 8 := by omega
  rw [bits position inside, decide_eq_true passed, Bool.and_true]

/-- White rows are their own mirror images. -/
theorem mirrorRow_replicate_zero (length : Nat) :
    mirrorRow (List.replicate length 0) = List.replicate length 0 := by
  refine (mirrorRow_mirrors _).unique ⟨rfl, ?_⟩
  intro position _
  rw [bitAt_replicate_zero, bitAt_replicate_zero]

/-! ## Lines -/

/-- A row of the raster. -/
def Raster.row (raster : Raster) (index : Nat) : Bytes :=
  (raster.data.drop (index * raster.widthBytes.toNat)).take raster.widthBytes.toNat

/-- The rows of the raster, from the top. -/
def Raster.rows (raster : Raster) : List Bytes :=
  (List.range raster.height.toNat).map raster.row

/-- The bytes behind the header of a line. -/
def brotherLineBytes (compress : Bool) (row : Bytes) : Bytes :=
  if compress then packbits (mirrorRow row) else mirrorRow row

/-- What stands before the length of a line. -/
def lineLead : Bytes := [0x67, 0]

/-- The pixels that a line stands for. -/
def lineData (compress : Bool) (record : Bytes) : Option Bytes :=
  if compress then PackBits.unpack .header record else some record

/-- The line stands for the mirrored row. -/
def LineOf (compress : Bool) (row record : Bytes) : Prop :=
  ∃ data, lineData compress record = some data ∧ Mirrors row data

/-- The number of bytes of a line fits its length byte. -/
def LineFits (compress : Bool) (row : Bytes) : Prop :=
  if compress then (packbits (mirrorRow row)).length ≤ 255 else row.length ≤ 255

instance (compress : Bool) (row : Bytes) : Decidable (LineFits compress row) := by
  unfold LineFits
  infer_instance

/-- The payload parses in exactly one way, into a line for every row of the raster. -/
def Framed (raster : Raster) (compress : Bool) (payload : Bytes) : Prop :=
  ∃ records, RecordsOf lineLead payload records ∧
    (∀ other, RecordsOf lineLead payload other → other = records) ∧
    records.length = raster.height.toNat ∧ List.Forall₂ (LineOf compress) raster.rows records

theorem lineFits_iff (compress : Bool) (row : Bytes) :
    LineFits compress row ↔ (brotherLineBytes compress row).length ≤ 255 := by
  cases compress with
  | true => exact Iff.rfl
  | false =>
      change row.length ≤ 255 ↔ (mirrorRow row).length ≤ 255
      rw [(mirrorRow_mirrors row).length]

theorem lineOf_brotherLineBytes (compress : Bool) (row : Bytes) :
    LineOf compress row (brotherLineBytes compress row) := by
  cases compress with
  | true => exact ⟨mirrorRow row, unpack_packbits _, mirrorRow_mirrors row⟩
  | false => exact ⟨mirrorRow row, rfl, mirrorRow_mirrors row⟩

/-- No proper beginning of a line stands for the row of the whole line. -/
theorem LineOf.eq_of_prefix {compress : Bool} {row part whole : Bytes} (starts : part <+: whole)
    (first : LineOf compress row part) (second : LineOf compress row whole) : part = whole := by
  obtain ⟨left, leftData, leftMirrors⟩ := first
  obtain ⟨right, rightData, rightMirrors⟩ := second
  rw [leftMirrors.unique rightMirrors] at leftData
  cases compress with
  | true => exact PackBits.unpack_inj_of_prefix starts leftData rightData
  | false => exact Option.some.inj (leftData.trans rightData.symm)

/-- The lines of the planner are framed when their lengths fit, and only then. -/
theorem framed_iff (raster : Raster) (compress : Bool) :
    Framed raster compress (raster.rows.flatMap (brotherRasterLine compress)) ↔
      ∀ row ∈ raster.rows, LineFits compress row := by
  have written : raster.rows.flatMap (brotherRasterLine compress) =
      (raster.rows.map (brotherLineBytes compress)).flatMap (writeRecord lineLead) := by
    rw [List.flatMap_map]
    rfl
  have lines : List.Forall₂ (LineOf compress) raster.rows
      (raster.rows.map (brotherLineBytes compress)) :=
    List.forall₂_map_right_iff.mpr
      (List.forall₂_same.mpr fun row _ => lineOf_brotherLineBytes compress row)
  rw [written]
  constructor
  · intro framed row member
    obtain ⟨records, parsed, -, -, found⟩ := framed
    have equal := parsed.eq_written (fun starts first second => first.eq_of_prefix starts second)
      found lines
    apply (lineFits_iff compress row).mpr
    apply parsed.short
    rw [equal]
    exact List.mem_map_of_mem member
  · intro fits
    have parsed : RecordsOf lineLead
        ((raster.rows.map (brotherLineBytes compress)).flatMap (writeRecord lineLead))
        (raster.rows.map (brotherLineBytes compress)) := by
      refine ⟨?_, rfl⟩
      intro record member
      obtain ⟨row, inside, rfl⟩ := List.mem_map.mp member
      exact (lineFits_iff compress row).mp (fits row inside)
    refine ⟨_, parsed, fun other read => read.unique parsed, ?_, lines⟩
    rw [List.length_map, Raster.rows, List.length_map, List.length_range]

/-- The lines of a checked raster are the lines of its rows. -/
theorem brotherRasterLines_eq_ok {ε : Type} {raster : Raster} {compress : Bool} {lines : Bytes}
    (length : raster.data.length = raster.widthBytes.toNat * raster.height.toNat)
    (encoded : (brotherRasterLines raster compress : Outcome ε Bytes) = .ok lines) :
    lines = raster.rows.flatMap (brotherRasterLine compress) := by
  unfold brotherRasterLines at encoded
  split at encoded
  · cases encoded
  · next wide =>
      have positive : 0 < raster.widthBytes.toNat :=
        Nat.pos_of_ne_zero fun zero => wide (UInt16.toNat_inj.mp zero)
      have count : (raster.data.length + raster.widthBytes.toNat - 1) / raster.widthBytes.toNat =
          raster.height.toNat := by
        rw [length, Nat.add_sub_assoc positive, Nat.add_comm, Nat.add_mul_div_left _ _ positive,
          Nat.div_eq_of_lt (Nat.sub_lt positive Nat.one_pos), Nat.zero_add]
      cases encoded
      rw [chunks, count]
      rfl

theorem length_of_checkRequest {raster : Raster} {options : Options} {limits : ProcessingLimits}
    {result : Unit} (checked : checkRequest raster options limits = .ok result) :
    raster.data.length = raster.widthBytes.toNat * raster.height.toNat := by
  simp only [checkRequest, except_bind_eq_ok, refuseIf_eq_ok, okOr_eq_ok] at checked
  obtain ⟨expected, size, _, length, -⟩ := checked
  rw [(checkedMul_eq_some.mp size).2]
  exact Decidable.not_not.mp length

/-! ## Plans -/

/-- The height that a print-information command announces. -/
def announcedHeight (information : Bytes) : UInt32 :=
  u32OfBytes ((information.drop 7).take 4).reverse

/-- Every raster of the actions is framed, and the print information announces its
height. -/
structure BrotherFraming (raster : Raster) (compress : Bool) (actions : List Action) : Prop where
  written : ∃ payload chunk pause, .rasterWrite payload chunk pause ∈ actions
  framed : ∀ payload chunk pause, .rasterWrite payload chunk pause ∈ actions →
    Framed raster compress payload
  informed : ∃ bytes atomic, .commandWrite "ESC i z print information" bytes atomic ∈ actions
  announced : ∀ bytes atomic, .commandWrite "ESC i z print information" bytes atomic ∈ actions →
    announcedHeight bytes = raster.height

section

variable {printer : PrinterDefinition} {raster : Raster} {options : Options}
  {media : BrotherMedia} {lines : Bytes}

theorem announcedHeight_brotherInformation :
    announcedHeight (brotherInformation raster options media) = raster.height := by
  have field : ((brotherInformation raster options media).drop 7).take 4 =
      (u32Bytes raster.height).reverse := by
    change ((u32Bytes raster.height).reverse ++ [0, 0]).take 4 = _
    exact List.take_left' (by rw [List.length_reverse, length_u32Bytes])
  rw [announcedHeight, field, List.reverse_reverse, u32OfBytes_u32Bytes]

/-- The framing of a job for some copies of a page is the framing of the page's raster. -/
theorem brotherFraming_iff {copies : Nat} (some : 1 ≤ copies) :
    BrotherFraming raster (brotherCompress printer options) (jobPlan printer (List.replicate copies
        (brotherBody printer raster options media lines)).flatten).actions ↔
      Framed raster (brotherCompress printer options) lines := by
  have inside : ∀ action, (∀ kind, action ≠ .jobBoundary kind) →
      (action ∈ (jobPlan printer (List.replicate copies
        (brotherBody printer raster options media lines)).flatten).actions ↔
      action ∈ brotherBody printer raster options media lines) := by
    intro action own
    have present : copies ≠ 0 := Nat.one_le_iff_ne_zero.mp some
    simp [jobPlan, own, present]
  have classified : ∀ part action, action ∈ brotherBody printer raster options media lines →
      action.brotherPart = part →
      action ∈ actionsOf (· = part) (brotherBody printer raster options media lines) := by
    intro part action member same
    exact List.mem_filter.mpr ⟨member, decide_eq_true same⟩
  have written : rasterPaced printer lines options.streaming ∈
      brotherBody printer raster options media lines := by
    simp [brotherBody, brotherPrint]
  have informed : brotherInfo raster options media ∈
      brotherBody printer raster options media lines :=
    List.mem_append_right _ List.mem_cons_self
  constructor
  · intro framing
    exact framing.framed lines _ _ ((inside _ (fun _ => Action.noConfusion)).mpr written)
  · intro framed
    refine ⟨⟨lines, _, _, (inside _ (fun _ => Action.noConfusion)).mpr written⟩, ?_,
      ⟨_, _, (inside _ (fun _ => Action.noConfusion)).mpr informed⟩, ?_⟩
    · intro payload chunk pause member
      have found := classified .raster _ ((inside _ (fun _ => Action.noConfusion)).mp member) rfl
      rw [actionsOf_brotherBody, actionsOf_brotherPrint] at found
      cases List.mem_singleton.mp found
      exact framed
    · intro bytes atomic member
      have found := classified .information _ ((inside _ (fun _ => Action.noConfusion)).mp member) rfl
      rw [actionsOf_brotherBody, actionsOf_brotherPrint] at found
      cases List.mem_singleton.mp found
      exact announcedHeight_brotherInformation

end

/-- A Brother plan repeats the body of its page. -/
theorem planInner_brother {printer : PrinterDefinition} {raster : Raster} {options : Options}
    {limits : ProcessingLimits} {planned : Plan} (brother : printer.protocol = .brother)
    (returned : planInner printer raster options limits = .ok planned) :
    ∃ media lines, options.brotherMedia = some media ∧
      lines = raster.rows.flatMap (brotherRasterLine (brotherCompress printer options)) ∧
      planned = jobPlan printer (List.replicate options.copies.toNat
        (brotherBody printer raster options media lines)).flatten := by
  obtain ⟨checked, page⟩ := planInner_eq_ok returned
  rw [if_neg (by rw [brother]; decide)] at page
  obtain ⟨body, page, repeated⟩ := page
  obtain ⟨media, lines, given, encoded, shape⟩ := pageBody_brother brother page
  have written : lines = raster.rows.flatMap (brotherRasterLine (brotherCompress printer options)) :=
    brotherRasterLines_eq_ok (length_of_checkRequest checked) encoded
  have single : body = brotherBody printer raster options media lines := shape
  exact ⟨media, lines, given, written, single ▸ repeated⟩

/-- A Brother plan is framed exactly when every line of the raster, packed when the job is,
has at most 255 bytes. -/
theorem brother_framing_iff (printer : PrinterDefinition) (raster : Raster) (options : Options)
    (planned : Plan) (brother : printer.protocol = .brother)
    (returned : plan printer raster options = .ok planned) :
    BrotherFraming raster (brotherCompress printer options) planned.actions ↔
      ∀ row ∈ raster.rows, LineFits (brotherCompress printer options) row := by
  simp only [plan, planWithLimits, except_bind_eq_ok, except_pure_eq_ok] at returned
  obtain ⟨found, inner, _, -, same⟩ := returned
  rw [same] at inner
  obtain ⟨media, lines, -, written, repeated⟩ := planInner_brother brother inner
  have some := (copies_of_checkRequest (planInner_eq_ok inner).1).1
  rw [repeated, brotherFraming_iff some, written]
  exact framed_iff raster (brotherCompress printer options)

/-- The options of a Brother job on a die-cut label, its lines not packed. -/
def plainBrother : Options := { brotherMedia := some ⟨62, 100, false, 0⟩, compress := false }

/-- One white row. -/
def whiteRow (widthBytes : UInt16) : Raster :=
  ⟨widthBytes, 1, List.replicate widthBytes.toNat 0⟩

theorem familyActions_whiteRow {options : Options} {widthBytes : UInt16}
    (given : options.brotherMedia = some ⟨62, 100, false, 0⟩) (plain : options.compress = false)
    (wide : widthBytes ≠ 0) :
    familyActions (brotherPrinter "ql-1100") (whiteRow widthBytes) options =
      .ok (brotherBody (brotherPrinter "ql-1100") (whiteRow widthBytes) options
        ⟨62, 100, false, 0⟩ (brotherRasterLine false (List.replicate widthBytes.toNat 0))) := by
  have brother : (brotherPrinter "ql-1100").protocol = .brother := rfl
  have positive : 0 < widthBytes.toNat :=
    Nat.pos_of_ne_zero fun zero => wide (UInt16.toNat_inj.mp zero)
  have single : chunks widthBytes.toNat (whiteRow widthBytes).data =
      [List.replicate widthBytes.toNat 0] := by
    have pixels : List.replicate widthBytes.toNat (0 : UInt8) ≠ [] := by
      rw [Ne, List.replicate_eq_nil_iff]
      exact positive.ne'
    rw [whiteRow, chunks_eq_cons positive pixels, List.take_of_length_le (by simp),
      List.drop_of_length_le (by simp), chunks_nil positive]
  have lines : (brotherRasterLines (whiteRow widthBytes) false : Outcome PlanError Bytes) =
      .ok (brotherRasterLine false (List.replicate widthBytes.toNat 0)) := by
    refine (if_neg wide).trans ?_
    change Except.ok ((chunks widthBytes.toNat (whiteRow widthBytes).data).flatMap _) = _
    rw [single, List.flatMap_singleton]
  have unpacked : (options.compress && (brotherPrinter "ql-1100").compression) = false := by
    rw [plain]
    rfl
  unfold familyActions
  rw [brother]
  simp only [brotherActions, given, unpacked]
  refine (except_bind_eq_ok _ _ _).mpr ⟨_, rfl, ?_⟩
  refine (except_bind_eq_ok _ _ _).mpr ⟨(), rfl, ?_⟩
  refine (except_bind_eq_ok _ _ _).mpr ⟨(), rfl, ?_⟩
  refine (except_bind_eq_ok _ _ _).mpr ⟨_, lines, ?_⟩
  rw [except_pure_eq_ok]
  simp [brotherBody, brotherSetup, brotherInfo, brotherCutter, brotherModes, brotherPrint,
    brotherCompress, plain]
  intro gatt found
  cases found

theorem planInner_whiteRow {options : Options} {limits : ProcessingLimits} {widthBytes : UInt16}
    (given : options.brotherMedia = some ⟨62, 100, false, 0⟩) (plain : options.compress = false)
    (one : options.copies = 1) (wide : widthBytes ≠ 0)
    (checked : checkRequest (whiteRow widthBytes) options limits = .ok ()) :
    planInner (brotherPrinter "ql-1100") (whiteRow widthBytes) options limits =
      .ok (jobPlan (brotherPrinter "ql-1100") (brotherBody (brotherPrinter "ql-1100")
        (whiteRow widthBytes) options ⟨62, 100, false, 0⟩
        (brotherRasterLine false (List.replicate widthBytes.toNat 0)))) := by
  have single : ¬(1 < options.copies) := by
    rw [one]
    decide
  unfold planInner pageBody
  rw [familyActions_whiteRow given plain wide, checked, if_neg fun both => single both.2]
  rfl

/-- White pixels stand behind their number, as the length byte has it. -/
theorem brotherRasterLine_replicate_zero (length : Nat) :
    brotherRasterLine false (List.replicate length 0) =
      [0x67, 0, UInt8.ofNat length] ++ List.replicate length 0 := by
  change [0x67, 0, UInt8.ofNat (mirrorRow _).length] ++ mirrorRow _ = _
  rw [mirrorRow_replicate_zero, List.length_replicate]

theorem brother_framing_iff_label :
    ∃ planned, plan (brotherPrinter "ql-1100") (whiteRow 90) plainBrother = .ok planned ∧
      BrotherFraming (whiteRow 90) false planned.actions := by
  have accepted : (plan (brotherPrinter "ql-1100") (whiteRow 90) plainBrother).isOk = true := by
    unfold plan planWithLimits
    rw [planInner_whiteRow rfl rfl rfl (by decide) (by decide +kernel),
      brotherRasterLine_replicate_zero]
    decide +kernel
  obtain ⟨planned, returned⟩ := exists_of_isOk accepted
  exact ⟨planned, returned, (brother_framing_iff _ _ _ _ rfl returned).mpr (by decide +kernel)⟩

/-- A row of 256 bytes is planned behind a length byte of zero. -/
theorem wide_row_misframed :
    ∃ planned, plan (brotherPrinter "ql-1100") (whiteRow 256) plainBrother = .ok planned ∧
      ¬BrotherFraming (whiteRow 256) false planned.actions := by
  have accepted : (plan (brotherPrinter "ql-1100") (whiteRow 256) plainBrother).toOption.map
      (fun planned => planned.actions.contains (rasterPaced (brotherPrinter "ql-1100")
        ([0x67, 0, 0] ++ List.replicate 256 0) false)) = some true := by
    unfold plan planWithLimits
    rw [planInner_whiteRow rfl rfl rfl (by decide) (by decide +kernel),
      brotherRasterLine_replicate_zero]
    decide +kernel
  cases returned : plan (brotherPrinter "ql-1100") (whiteRow 256) plainBrother with
  | error fault =>
      rw [returned] at accepted
      cases accepted
  | ok planned =>
      refine ⟨planned, rfl, ?_⟩
      intro framing
      rw [returned] at accepted
      have member := List.contains_iff_mem.mp (Option.some.inj accepted)
      obtain ⟨records, parsed, -⟩ := framing.framed _ _ _ member
      -- The length byte announces an empty record, and no record begins with a white pixel.
      cases records with
      | nil => cases parsed.written
      | cons record records =>
          have split : writeRecord lineLead [] ++ List.replicate 256 0 =
              writeRecord lineLead record ++ records.flatMap (writeRecord lineLead) :=
            parsed.written
          obtain ⟨low, rest⟩ := writeRecord_append_inj split
          have small := parsed.short record List.mem_cons_self
          rw [List.length_nil, Nat.mod_eq_of_lt (Nat.lt_succ_of_le small)] at low
          rw [List.eq_nil_of_length_eq_zero low.symm] at rest
          cases records with
          | nil => cases rest
          | cons next records => cases rest

end PrinterSdk.Protocol
