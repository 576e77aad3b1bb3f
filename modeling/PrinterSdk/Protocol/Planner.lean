import PrinterSdk.Protocol.Catalogue
import PrinterSdk.Protocol.Raster

/-!
# The protocol planner

`plan` turns a raster and the options of a job into the actions of one printer
family.  Every family but TSPL prints several copies by repeating the actions
between the job boundaries.
-/

namespace PrinterSdk.Protocol

open PrinterSdk.Data

/-- `PlanError`. -/
inductive PlanError where
  | rasterLength
  | range (field : String)
  | unsupported (operation : String)
  | limit (resource : String)
  deriving DecidableEq, Repr

/-- `SOURCE_COMMIT`. -/
def sourceCommit : String := "1f58d3f0e7f941b9143277cda828380149e56855"

/-! ## Command bytes -/

/-- `cmd`. -/
def cmd (name : String) (bytes : Bytes) : Action := .commandWrite name bytes true

/-- `delay`. -/
def delay (milliseconds : Nat) : Action := .delay milliseconds

/-- `raster_paced`. -/
def rasterPaced (printer : PrinterDefinition) (bytes : Bytes) (streaming : Bool) : Action :=
  .rasterWrite bytes printer.chunkSize (if streaming then 0 else printer.chunkDelayMs)

/-- An entry of a constant table; an index behind its end panics. -/
def tableEntry {ε α : Type} (table : List α) (index : Nat) : Outcome ε α :=
  okOr table[index]? .panic

/-- `heat`. -/
def heat {ε : Type} (density : UInt8) : Outcome ε Bytes := do
  let level ← tableEntry [40, 60, 80, 100, 120, 140, 160, 200] (density.toNat - 1)
  return [0x1b, 0x37, 7, level, 2]

/-- `u16::to_le_bytes`. -/
def u16LeBytes (value : UInt16) : Bytes := (u16Bytes value).reverse

/-- `header`. -/
def header (raster : Raster) : Bytes :=
  [0x1d, 0x76, 0x30, 0] ++ u16LeBytes raster.widthBytes ++ u16LeBytes raster.height.toUInt16

/-- `round_div`. -/
def roundDiv (dividend divisor : Nat) : Nat := (dividend + divisor / 2) / divisor

/-- `tspl`. -/
def tspl (line : String) : Bytes := asBytes (line ++ "\r\n")

/-- `decimal`. -/
def decimal (value : Int16) : String :=
  let sign := if value < 0 then "-" else ""
  let magnitude := value.toInt.natAbs
  if magnitude % 10 = 0 then
    sign ++ toString (magnitude / 10)
  else
    sign ++ toString (magnitude / 10) ++ "." ++ toString (magnitude % 10)

/-- `fmt_mm`. -/
def fmtMm (command : String) (first : UInt16) (second : Option UInt16) : String :=
  match second with
  | some second =>
      command ++ " " ++ decimal first.toInt16 ++ " mm, " ++ decimal second.toInt16 ++ " mm"
  | none => command ++ " " ++ decimal first.toInt16 ++ " mm"

/-- `tspl_tenths_mm`.  A resolution of zero divides by zero. -/
def tsplTenthsMm {ε : Type} (dots : Nat) (dpi : UInt16) : Outcome ε UInt16 :=
  let numerator := min (dots * 2030) usizeMax
  let denominator := dpi.toNat * 8
  if denominator = 0 then
    panics
  else
    .ok (UInt16.ofNat (min ((numerator + denominator / 2) / denominator) 0xffff))

/-- A given label size, or `unwrap_or_else(|| tspl_tenths_mm(dots, dpi))`. -/
def labelTenthsMm {ε : Type} (given : Option UInt16) (dots : Nat) (dpi : UInt16) :
    Outcome ε UInt16 :=
  match given with
  | some tenths => .ok tenths
  | none => tsplTenthsMm dots dpi

/-! ## Families -/

section

variable (printer : PrinterDefinition) (raster : Raster) (options : Options)

/-- `Protocol::MSeries`. -/
def mSeriesActions : Outcome PlanError (List Action) := do
  let heat ← heat options.density
  return [
    cmd "ESC @ init" [0x1b, 0x40],
    delay 100,
    cmd "ESC 7 heat" heat,
    delay 30,
    cmd "GS | density" [0x1d, 0x7c, options.density],
    delay 50,
    cmd "GS v 0 raster header" (header raster),
    rasterPaced printer raster.data options.streaming,
    delay 300,
    cmd "ESC J feed" [0x1b, 0x4a, options.feed],
    delay 800]

/-- `Protocol::M02`. -/
def m02Actions : Outcome PlanError (List Action) := do
  let heat ← heat options.density
  return [
    cmd "M02 prefix" [0x10, 0xff, 0xfe, 1],
    delay 50,
    cmd "ESC @ init" [0x1b, 0x40],
    delay 100,
    cmd "ESC 7 heat" heat,
    delay 30,
    cmd "GS v 0 raster header" (header raster),
    rasterPaced printer raster.data options.streaming,
    delay 300,
    cmd "ESC J feed" [0x1b, 0x4a, min options.feed 8],
    delay 500]

/-- `Protocol::M04`. -/
def m04Actions : Outcome PlanError (List Action) :=
  .ok ([
    cmd "M04 density" [0x1f, 0x11, 2, UInt8.ofNat (roundDiv (options.density.toNat * 15) 8)],
    delay 30,
    cmd "M04 heat" [0x1f, 0x11, 0x37,
      UInt8.ofNat (100 + roundDiv ((options.density.toNat - 1) * 50) 3)],
    delay 30,
    cmd "M04 init" [0x1f, 0x11, 0x0b],
    delay 30,
    cmd "M04 compression" [0x1f, 0x11, 0x35, 0],
    delay 30,
    cmd "GS v 0 raster header" (header raster),
    rasterPaced printer raster.data options.streaming,
    delay 300] ++
    (List.replicate (max (roundDiv (max options.feed.toNat 1) 16) 1)
      [cmd "M04 feed" [0x1b, 0x64, 2], delay 30]).flatten ++
    [delay 500])

/-- `Protocol::M110`. -/
def m110Actions : Outcome PlanError (List Action) := do
  let density ← tableEntry [0, 6, 8, 9, 10, 11, 12, 14, 15] options.density.toNat
  return [
    cmd "M110 speed" [0x1b, 0x4e, 0x0d, options.speed],
    delay 30,
    cmd "M110 density" [0x1b, 0x4e, 4, density],
    delay 30,
    cmd "media type" [0x1f, 0x11, (phomemoMedia options).command],
    delay 30,
    cmd "GS v 0 raster header" (header raster),
    rasterPaced printer raster.data options.streaming,
    delay 300,
    cmd "M110 footer" [0x1f, 0xf0, 5, 0, 0x1f, 0xf0, 3, 0],
    delay 500]

/-- The rows fed behind a raster on continuous media.  The row count is a `u32` that
wraps; a build with overflow checks aborts there. -/
def paddedRaster : Raster :=
  if options.continuous ∧ 0 < options.feed then
    let extraRows := 56 + options.feed.toUInt32
    { raster with
      height := raster.height + extraRows
      data := raster.data ++
        List.replicate (extraRows.toNat * raster.widthBytes.toNat) 0 }
  else
    raster

/-- `Protocol::DSeries`. -/
def dSeriesActions : Outcome PlanError (List Action) := do
  let heat ← heat options.density
  let padded := paddedRaster raster options
  return [
    cmd "ESC 7 heat" heat,
    delay 30,
    cmd "media type" [0x1f, 0x11, (phomemoMedia options).command],
    delay 30,
    cmd "ESC @ init + GS v 0 raster header" ([0x1b, 0x40] ++ header padded),
    rasterPaced printer padded.data options.streaming,
    delay 100,
    cmd "ESC d 0 print + gap detect" [0x1b, 0x64, 0]]

/-- The initialization packets of `Protocol::P12`. -/
def p12InitPackets : List Bytes := [
  [0x1f, 0x11, 0x38],
  [0x1f, 0x11, 0x11, 0x1f, 0x11, 0x12, 0x1f, 0x11, 9, 0x1f, 0x11, 0x13],
  [0x1f, 0x11, 9],
  [0x1f, 0x11, 0x19, 0x1f, 0x11, 0x11],
  [0x1f, 0x11, 0x19],
  [0x1f, 0x11, 7]]

/-- `Protocol::P12`. -/
def p12Actions : Outcome PlanError (List Action) :=
  .ok ([.subscribeNotifications] ++
    p12InitPackets.flatMap (fun packet =>
      [cmd "P12 init packet" packet, .waitForResponse 500 500 .anyNotification]) ++
    [cmd "ESC @ init + GS v 0 raster header" ([0x1b, 0x40] ++ header raster),
    rasterPaced printer raster.data options.streaming,
    delay 100,
    cmd "P12 feed" [0x1b, 0x64, 0x0d],
    delay 50,
    cmd "P12 feed" [0x1b, 0x64, 0x0d]])

/-- `Protocol::Tspl`. -/
def tsplActions : Outcome PlanError (List Action) := do
  let width ← labelTenthsMm options.labelWidthTenthsMm (raster.widthBytes.toNat * 8) printer.dpi
  let height ← labelTenthsMm options.labelHeightTenthsMm raster.height.toNat printer.dpi
  let setup := [
    fmtMm "SIZE" width (some height),
    fmtMm "GAP" (max options.gapTenthsMm 0).toUInt16 (some 0),
    "OFFSET " ++ decimal options.offsetTenthsMm ++ " mm",
    "DENSITY " ++ toString (roundDiv (options.density.toNat * 15) 8),
    "SPEED " ++ toString options.speed.toNat,
    "DIRECTION 0",
    "CLS"]
  return setup.flatMap (fun line => [cmd "TSPL" (tspl line), delay 50]) ++ [
    cmd "BITMAP header" (asBytes ("BITMAP " ++ toString options.offsetX.toNat ++ "," ++
      toString options.offsetY.toNat ++ "," ++ toString raster.widthBytes.toNat ++ "," ++
      toString raster.height.toNat ++ ",0,")),
    rasterPaced printer (raster.data.map (· ^^^ 0xff)) options.streaming,
    cmd "bitmap terminator" (asBytes "\r\n"),
    delay 50,
    cmd "TSPL" (tspl ("PRINT " ++ toString options.copies.toNat)),
    delay 50,
    cmd "TSPL" (tspl "END")]

/-- `ESC i z`: the print information of a Brother page. -/
def brotherInformation (media : BrotherMedia) : Bytes :=
  let flags : UInt8 := 0x80 ||| 0x02 ||| 0x04 ||| 0x08 |||
    (if options.highQuality then 0x40 else 0)
  [0x1b, 0x69, 0x7a, flags, if media.continuous then 0x0a else 0x0b, media.widthMm,
    if media.continuous then 0 else media.lengthMm] ++
    (u32Bytes raster.height).reverse ++ [0, 0]

/-- `Protocol::Brother`. -/
def brotherActions : Outcome PlanError (List Action) := do
  let media ← okOr options.brotherMedia (.error (.range "brother media"))
  let compress := options.compress && printer.compression
  refuseIf (0 < printer.minRows ∧ media.continuous ∧ raster.height < printer.minRows)
    (.error (.range "brother minimum rows"))
  refuseIf (0 < printer.maxRows ∧ printer.maxRows < raster.height)
    (.error (.range "brother maximum rows"))
  let lines ← brotherRasterLines raster compress
  return [
    cmd "switch to raster mode" [0x1b, 0x69, 0x61, 1],
    cmd "invalidate" (List.replicate printer.invalidateBytes.toNat 0),
    cmd "ESC @ init" [0x1b, 0x40],
    cmd "switch to raster mode" [0x1b, 0x69, 0x61, 1],
    cmd "ESC i S status request" [0x1b, 0x69, 0x53],
    .waitForResponse 3000 0 .brotherStatus32,
    cmd "ESC i z print information" (brotherInformation raster options media)] ++
    (if options.cut then [
      cmd "ESC i M autocut" [0x1b, 0x69, 0x4d, 0x40],
      cmd "ESC i A cut every" [0x1b, 0x69, 0x41, options.cutEvery]]
    else []) ++ [
    cmd "ESC i K expanded mode" [0x1b, 0x69, 0x4b, if options.cut then 8 else 0],
    cmd "ESC i d margins" ([0x1b, 0x69, 0x64] ++ u16LeBytes media.feedMargin)] ++
    (if compress then [cmd "M compression" [0x4d, 2]] else []) ++ [
    rasterPaced printer lines options.streaming,
    cmd "print" [0x1a]]

/-- The actions of the printer's family for one page. -/
def familyActions : Outcome PlanError (List Action) :=
  match printer.protocol with
  | .mSeries => mSeriesActions printer raster options
  | .m02 => m02Actions printer raster options
  | .m04 => m04Actions printer raster options
  | .m110 => m110Actions printer raster options
  | .dSeries => dSeriesActions printer raster options
  | .p12 => p12Actions printer raster options
  | .tspl => tsplActions printer raster options
  | .brother => brotherActions printer raster options

end

/-! ## Plans -/

/-- Put the job boundaries around the actions of a job. -/
def jobPlan (printer : PrinterDefinition) (body : List Action) : Plan where
  protocol := printer.protocol
  sourceCommit := sourceCommit
  actions := [.jobBoundary .start] ++ body ++ [.jobBoundary .end]

/-- The part of `plan_inner` that plans a page.  Credit-controlled GATT links subscribe
before their first write. -/
def pageBody (printer : PrinterDefinition) (raster : Raster) (options : Options) :
    Outcome PlanError (List Action) := do
  let credited := (printer.bleGatt.bind (·.flowControl)).isSome
  let actions ← familyActions printer raster options
  return (if credited then [.subscribeNotifications] else []) ++ actions

/-- The checks at the start of `plan_inner`. -/
def checkRequest (raster : Raster) (options : Options) (limits : ProcessingLimits) :
    Outcome PlanError Unit := do
  let expected ← okOr (checkedMul raster.widthBytes.toNat raster.height.toNat)
    (.error (.limit "raster bytes"))
  refuseIf (raster.data.length ≠ expected) (.error .rasterLength)
  refuseIf (¬(1 ≤ options.density ∧ options.density ≤ 8)) (.error (.range "density"))
  refuseIf (options.copies = 0) (.error (.range "copies"))
  refuseIf (limits.maxCopies < options.copies) (.error (.limit "copies"))
  refuseIf (options.cut ∧ options.cutEvery = 0) (.error (.range "cut every"))
  refuseIf (options.lzo = true)
    (.error (.unsupported "LZO compression is not qualified for bundled printers"))

/-- The bytes an action owns: the name and the bytes of a command, the bytes of a
raster. -/
def actionOwnedBytes : Action → Outcome PlanError Nat
  | .commandWrite name bytes _ =>
      okOr (checkedAdd name.utf8ByteSize bytes.length) (.error (.limit "owned bytes"))
  | .rasterWrite bytes _ _ => .ok bytes.length
  | _ => .ok 0

/-- The fold of `plan_owned_bytes`. -/
def ownedBytesFrom (total : Nat) : List Action → Outcome PlanError Nat
  | [] => .ok total
  | action :: rest => do
      let bytes ← actionOwnedBytes action
      let total ← okOr (checkedAdd total bytes) (.error (.limit "owned bytes"))
      ownedBytesFrom total rest

/-- `plan_owned_bytes`. -/
def planOwnedBytes (actions : List Action) : Outcome PlanError Nat := ownedBytesFrom 0 actions

/-- `enforce_plan_limits`. -/
def enforcePlanLimits (actions : List Action) (limits : ProcessingLimits) :
    Outcome PlanError Unit := do
  refuseIf (limits.maxPlanActions < actions.length) (.error (.limit "actions"))
  let owned ← planOwnedBytes actions
  refuseIf (limits.maxPlanBytes < owned) (.error (.limit "owned bytes"))

/-- `plan_inner`.  Several copies repeat the body of a plan for one copy, which the
recursive call of the source makes with `copies` set to one. -/
def planInner (printer : PrinterDefinition) (raster : Raster) (options : Options)
    (limits : ProcessingLimits) : Outcome PlanError Plan := do
  checkRequest raster options limits
  if printer.protocol ≠ .tspl ∧ 1 < options.copies then
    let single := { options with copies := 1 }
    checkRequest raster single limits
    let body ← pageBody printer raster single
    let copies := options.copies.toNat
    let actionCount ← okOr ((checkedMul body.length copies).bind (checkedAdd · 2))
      (.error (.limit "actions"))
    refuseIf (limits.maxPlanActions < actionCount) (.error (.limit "actions"))
    let bodyBytes ← planOwnedBytes body
    let expandedBytes ← okOr (checkedMul bodyBytes copies) (.error (.limit "owned bytes"))
    refuseIf (limits.maxPlanBytes < expandedBytes) (.error (.limit "owned bytes"))
    return jobPlan printer (List.replicate copies body).flatten
  else
    let body ← pageBody printer raster options
    return jobPlan printer body

/-- `plan_with_limits`. -/
def planWithLimits (printer : PrinterDefinition) (raster : Raster) (options : Options)
    (limits : ProcessingLimits) : Outcome PlanError Plan := do
  let plan ← planInner printer raster options limits
  enforcePlanLimits plan.actions limits
  return plan

/-- `plan`. -/
def plan (printer : PrinterDefinition) (raster : Raster) (options : Options) :
    Outcome PlanError Plan :=
  planWithLimits printer raster options .default

/-! ## Several copies -/

/-- The exact number of bytes an action owns. -/
def Action.ownedBytes : Action → Nat
  | .commandWrite name bytes _ => name.utf8ByteSize + bytes.length
  | .rasterWrite bytes _ _ => bytes.length
  | _ => 0

/-- The exact number of bytes a list of actions owns. -/
def ownedTotal (actions : List Action) : Nat := (actions.map Action.ownedBytes).sum

theorem actionOwnedBytes_eq {action : Action} (machine : action.ownedBytes ≤ usizeMax) :
    actionOwnedBytes action = .ok action.ownedBytes := by
  cases action with
  | commandWrite name bytes atomic =>
      exact (okOr_eq_ok _ _ _).mpr (checkedAdd_eq_some.mpr ⟨machine, rfl⟩)
  | _ => rfl

theorem ownedTotal_cons (action : Action) (rest : List Action) :
    ownedTotal (action :: rest) = action.ownedBytes + ownedTotal rest := by
  simp [ownedTotal]

theorem ownedTotal_append (left right : List Action) :
    ownedTotal (left ++ right) = ownedTotal left + ownedTotal right := by
  simp [ownedTotal]

theorem ownedTotal_replicate (copies : Nat) (body : List Action) :
    ownedTotal (List.replicate copies body).flatten = ownedTotal body * copies := by
  induction copies with
  | zero => rfl
  | succ copies ih =>
      rw [List.replicate_succ, List.flatten_cons, ownedTotal_append, ih, Nat.mul_succ,
        Nat.add_comm]

theorem ownedBytesFrom_eq {total : Nat} {actions : List Action}
    (machine : total + ownedTotal actions ≤ usizeMax) :
    ownedBytesFrom total actions = .ok (total + ownedTotal actions) := by
  induction actions generalizing total with
  | nil => rfl
  | cons action rest ih =>
      rw [ownedTotal_cons, ← Nat.add_assoc] at machine ⊢
      simp only [ownedBytesFrom, except_bind_eq_ok, okOr_eq_ok]
      refine ⟨_, actionOwnedBytes_eq (by omega), _, ?_, ih machine⟩
      exact checkedAdd_eq_some.mpr ⟨by omega, rfl⟩

theorem planOwnedBytes_eq {actions : List Action} (machine : ownedTotal actions ≤ usizeMax) :
    planOwnedBytes actions = .ok (ownedTotal actions) := by
  have counted := @ownedBytesFrom_eq 0 actions (by omega)
  rw [Nat.zero_add] at counted
  exact counted

theorem length_copies (printer : PrinterDefinition) (copies : Nat) (body : List Action) :
    (jobPlan printer (List.replicate copies body).flatten).actions.length =
      body.length * copies + 2 := by
  simp [jobPlan, Nat.mul_comm]

theorem ownedTotal_copies (printer : PrinterDefinition) (copies : Nat) (body : List Action) :
    ownedTotal (jobPlan printer (List.replicate copies body).flatten).actions =
      ownedTotal body * copies := by
  simp only [jobPlan, ownedTotal_append, ownedTotal_replicate]
  simp [ownedTotal, Action.ownedBytes]

/-- Several copies are planned whenever one page is and the repetition stays within
the limits. -/
theorem planWithLimits_copies {printer : PrinterDefinition} {raster : Raster}
    {options : Options} {limits : ProcessingLimits} {body : List Action}
    (several : printer.protocol ≠ .tspl ∧ 1 < options.copies)
    (checked : checkRequest raster options limits = .ok ())
    (rechecked : checkRequest raster { options with copies := 1 } limits = .ok ())
    (page : pageBody printer raster { options with copies := 1 } = .ok body)
    (actions : body.length * options.copies.toNat + 2 ≤ limits.maxPlanActions)
    (owned : ownedTotal body * options.copies.toNat ≤ limits.maxPlanBytes)
    (machine : limits.maxPlanActions ≤ usizeMax ∧ limits.maxPlanBytes ≤ usizeMax) :
    planWithLimits printer raster options limits =
      .ok (jobPlan printer (List.replicate options.copies.toNat body).flatten) := by
  have positive : 1 < options.copies.toNat := UInt16.lt_iff_toNat_lt.mp several.2
  have single : ownedTotal body ≤ ownedTotal body * options.copies.toNat :=
    Nat.le_mul_of_pos_right _ (by omega)
  have count : (checkedMul body.length options.copies.toNat).bind (checkedAdd · 2) =
      some (body.length * options.copies.toNat + 2) := by
    rw [checkedMul, if_pos (by omega)]
    exact checkedAdd_eq_some.mpr ⟨by omega, rfl⟩
  have expanded : checkedMul (ownedTotal body) options.copies.toNat =
      some (ownedTotal body * options.copies.toNat) :=
    checkedMul_eq_some.mpr ⟨by omega, rfl⟩
  have length := length_copies printer options.copies.toNat body
  have total := ownedTotal_copies printer options.copies.toNat body
  apply (except_bind_eq_ok _ _ _).mpr
  refine ⟨_, ?_, (except_bind_eq_ok _ _ _).mpr ⟨(), ?_, rfl⟩⟩
  · simp only [planInner, except_bind_eq_ok]
    refine ⟨(), checked, ?_⟩
    rw [if_pos several]
    simp only [except_bind_eq_ok, except_pure_eq_ok, okOr_eq_ok, refuseIf_eq_ok]
    exact ⟨(), rechecked, body, page, _, count, (), Nat.not_lt.mpr actions, _,
      planOwnedBytes_eq (by omega), _, expanded, (), Nat.not_lt.mpr owned, rfl⟩
  · simp only [enforcePlanLimits, except_bind_eq_ok, refuseIf_eq_ok]
    refine ⟨(), by omega, _, planOwnedBytes_eq (by omega), by omega⟩

end PrinterSdk.Protocol
