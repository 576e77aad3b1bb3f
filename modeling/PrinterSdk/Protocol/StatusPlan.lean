import PrinterSdk.Protocol.Planner

/-!
# Status plans

Document-free plans that only ask a printer for its status.  Brother printers answer one
request with a 32-byte report; the Phomemo families answer one query at a time on the
notification channel.
-/

namespace PrinterSdk.Protocol

open PrinterSdk.Data

/-- The plan of `brother::status`. -/
def brotherStatusPlan (printer : PrinterDefinition) : Plan where
  protocol := .brother
  sourceCommit := sourceCommit
  actions := [
    cmd "invalidate" (List.replicate printer.invalidateBytes.toNat 0),
    cmd "ESC @ init" [0x1b, 0x40],
    cmd "switch to raster mode" [0x1b, 0x69, 0x61, 1],
    .delay 100,
    cmd "ESC i S status request" [0x1b, 0x69, 0x53],
    .waitForResponse 3000 0 .brotherStatus32]

/-- `BrotherStatus`. -/
structure BrotherStatus where
  seriesCode : UInt8
  modelCode : UInt8
  countryCode : UInt8
  errorBytes : List UInt8
  mediaWidthMm : UInt8
  mediaLengthMm : UInt8
  mediaType : String
  statusByte14 : UInt8
  statusType : String
  phase : String
  phaseNumber : Nat
  notificationNumber : UInt8
  extensionStatus : UInt8
  tapeInfo : List UInt8
  errors : List String

/-- The names of the bits of the first error byte. -/
def firstErrors : List (UInt8 × String) :=
  [(0, "no media"), (1, "end of media"), (2, "cutter jam"), (4, "unit in use"),
    (5, "printer off"), (7, "fan failure")]

/-- The names of the bits of the second error byte. -/
def secondErrors : List (UInt8 × String) :=
  [(0, "replace media"), (1, "expansion buffer full"), (2, "transmission error"),
    (4, "cover opened while printing"), (6, "media cannot be fed"), (7, "system error")]

/-- The errors whose bits are set. -/
def errorsOf (byte : UInt8) (names : List (UInt8 × String)) : List String :=
  names.filterMap fun (bit, name) => if byte &&& (1 <<< bit) ≠ 0 then some name else none

/-- The names of the media types. -/
def mediaTypeName (byte : UInt8) : String :=
  if byte = 0 then "no media" else if byte = 0x0a then "continuous"
  else if byte = 0x0b then "die-cut" else "unknown"

/-- The names of the status types. -/
def statusTypeName (byte : UInt8) : String :=
  if byte = 0 then "reply to status request" else if byte = 1 then "printing completed"
  else if byte = 2 then "error" else if byte = 4 then "turned off"
  else if byte = 5 then "notification" else if byte = 6 then "phase change" else "unknown"

/-- The names of the phases. -/
def phaseName (byte : UInt8) : String :=
  if byte = 0 then "waiting to receive" else if byte = 1 then "printing" else "unknown"

/-- `parse_status`. -/
def parseStatus (data : Bytes) : Except String BrotherStatus :=
  let byteAt (offset : Nat) : UInt8 := data.getD offset 0
  if data.length ≠ 32 then
    .error "Brother status must be exactly 32 bytes"
  else if data.take 3 ≠ [0x80, 0x20, 0x42] then
    .error "unexpected Brother status header"
  else .ok {
    seriesCode := byteAt 3
    modelCode := byteAt 4
    countryCode := byteAt 5
    errorBytes := [byteAt 8, byteAt 9]
    mediaWidthMm := byteAt 10
    mediaLengthMm := byteAt 17
    mediaType := mediaTypeName (byteAt 11)
    statusByte14 := byteAt 14
    statusType := statusTypeName (byteAt 18)
    phase := phaseName (byteAt 19)
    phaseNumber := (byteAt 20).toNat + 256 * (byteAt 21).toNat
    notificationNumber := byteAt 22
    extensionStatus := byteAt 24
    tapeInfo := [byteAt 27, byteAt 28, byteAt 29]
    errors := errorsOf (byteAt 8) firstErrors ++ errorsOf (byteAt 9) secondErrors }

/-- `PHOMEMO_QUERIES`. -/
def phomemoQueries : List (String × UInt8) := [
  ("battery query", 0x08),
  ("paper query", 0x11),
  ("cover query", 0x12),
  ("firmware query", 0x07),
  ("serial query", 0x09),
  ("label query", 0x19)]

/-- One query and the wait for its reply.  A model that does not answer one query must
not fail the rest. -/
def phomemoQuery (query : String × UInt8) : List Action := [
  cmd query.1 [0x1f, 0x11, query.2],
  .waitForResponse 800 100 .phomemoNotification]

/-- The actions of a Phomemo status plan. -/
def phomemoStatusActions : List Action :=
  .subscribeNotifications :: phomemoQueries.flatMap phomemoQuery

/-- `status_plan`. -/
def statusPlan (printer : PrinterDefinition) : Except PlanError Plan :=
  match printer.protocol with
  | .brother => .ok (brotherStatusPlan printer)
  | .mSeries | .m02 | .m04 | .m110 | .dSeries | .p12 =>
      .ok { protocol := printer.protocol, sourceCommit, actions := phomemoStatusActions }
  | .tspl => .error (.unsupported "status request")

/-- The printers that answer on the notification channel. -/
def PrinterDefinition.isPhomemo (printer : PrinterDefinition) : Prop :=
  printer.protocol ≠ .brother ∧ printer.protocol ≠ .tspl

theorem statusPlan_phomemo {printer : PrinterDefinition} (phomemo : printer.isPhomemo) :
    statusPlan printer =
      .ok { protocol := printer.protocol, sourceCommit, actions := phomemoStatusActions } := by
  unfold statusPlan
  cases family : printer.protocol with
  | brother => exact absurd family phomemo.1
  | tspl => exact absurd family phomemo.2
  | _ => rfl

end PrinterSdk.Protocol
