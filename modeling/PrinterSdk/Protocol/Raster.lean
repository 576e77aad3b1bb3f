import PrinterSdk.Data.BigEndian
import PrinterSdk.Data.Chunks
import PrinterSdk.Data.Outcome

/-!
# Rasters and print options

The monochrome page handed to the planner, the options of a print job, and the
Brother raster encoding: mirrored rows behind a three-byte line header, optionally
packed.
-/

namespace PrinterSdk.Protocol

open PrinterSdk.Data

/-- `Raster`. -/
structure Raster where
  widthBytes : UInt16
  height : UInt32
  data : Bytes
  deriving DecidableEq, Repr

/-- `PhomemoMedia`. -/
inductive PhomemoMedia where
  | gap
  | continuous
  | blackMark
  deriving DecidableEq, Repr

/-- `PhomemoMedia::command`. -/
def PhomemoMedia.command : PhomemoMedia → UInt8
  | .gap => 0x0a
  | .continuous => 0x0b
  | .blackMark => 0x26

/-- `BrotherMedia`. -/
structure BrotherMedia where
  widthMm : UInt8
  lengthMm : UInt8
  continuous : Bool
  feedMargin : UInt16
  deriving DecidableEq, Repr

/-- `Options`, with the values of `Options::default`. -/
structure Options where
  density : UInt8 := 6
  feed : UInt8 := 32
  continuous : Bool := false
  speed : UInt8 := 5
  copies : UInt16 := 1
  gapTenthsMm : Int16 := 30
  offsetTenthsMm : Int16 := -30
  offsetX : UInt16 := 0
  offsetY : UInt16 := 0
  labelWidthTenthsMm : Option UInt16 := none
  labelHeightTenthsMm : Option UInt16 := none
  brotherMedia : Option BrotherMedia := none
  cut : Bool := true
  cutEvery : UInt8 := 1
  compress : Bool := true
  highQuality : Bool := true
  streaming : Bool := false
  lzo : Bool := false
  phomemoMedia : Option PhomemoMedia := none
  deriving DecidableEq, Repr

/-- `phomemo_media`. -/
def phomemoMedia (options : Options) : PhomemoMedia :=
  match options.phomemoMedia with
  | some media => media
  | none => if options.continuous then .continuous else .gap

/-! ## PackBits -/

/-- The variables of the loop of `packbits`. -/
structure PackState where
  result : Bytes := []
  literal : Bytes := []
  repeats : Nat := 0
  inRepeat : Bool := false

namespace PackState

/-- `flush_literal`. -/
def flushLiteral (state : PackState) : PackState :=
  if state.literal.isEmpty then
    state
  else
    { state with
      result := state.result ++ UInt8.ofNat (state.literal.length - 1) :: state.literal
      literal := [] }

/-- Push the run of `state.repeats` copies of `byte`. -/
def pushRun (state : PackState) (byte : UInt8) : PackState :=
  { state with result := state.result ++ [UInt8.ofNat (257 - state.repeats), byte] }

/-- One turn of the loop, at a byte and the byte behind it. -/
def turn (state : PackState) (byte next : UInt8) : PackState :=
  if byte = next then
    if !state.inRepeat then
      { state.flushLiteral with inRepeat := true, repeats := 1 }
    else
      let state := if state.repeats = 127 then { state.pushRun byte with repeats := 0 } else state
      { state with repeats := state.repeats + 1 }
  else if state.inRepeat then
    let state := { state with repeats := state.repeats + 1 }
    { state.pushRun byte with inRepeat := false, repeats := 0 }
  else
    let state := if state.literal.length = 127 then state.flushLiteral else state
    { state with literal := state.literal ++ [byte] }

/-- The loop and what follows it, at the last byte. -/
def pack (state : PackState) : Bytes → Bytes
  | [] => state.result
  | [last] =>
      if state.inRepeat then
        ({ state with repeats := state.repeats + 1 }.pushRun last).result
      else
        ({ state with literal := state.literal ++ [last] }.flushLiteral).result
  | byte :: next :: rest => (state.turn byte next).pack (next :: rest)

end PackState

/-- `packbits`. -/
def packbits (data : Bytes) : Bytes :=
  match data with
  | [] => []
  | [byte] => [0, byte]
  | data => ({} : PackState).pack data

/-! ## Brother raster lines -/

/-- The row with its bits in reverse order. -/
def mirrorRow (row : Bytes) : Bytes :=
  (List.range (row.length * 8)).foldl (fun mirrored bit =>
    if row.getD (bit / 8) 0 &&& ((0x80 : UInt8) >>> UInt8.ofNat (bit % 8)) ≠ 0 then
      let destination := row.length * 8 - 1 - bit
      mirrored.modify (destination / 8) fun byte =>
        byte ||| ((0x80 : UInt8) >>> UInt8.ofNat (destination % 8))
    else
      mirrored) (List.replicate row.length 0)

/-- One line of `brother_raster_lines`. -/
def brotherRasterLine (compress : Bool) (row : Bytes) : Bytes :=
  let bytes := if compress then packbits (mirrorRow row) else mirrorRow row
  [0x67, 0, UInt8.ofNat bytes.length] ++ bytes

/-- `brother_raster_lines`.  `slice::chunks` panics on a chunk size of zero. -/
def brotherRasterLines {ε : Type} (raster : Raster) (compress : Bool) : Outcome ε Bytes :=
  if raster.widthBytes = 0 then
    panics
  else
    .ok ((chunks raster.widthBytes.toNat raster.data).flatMap (brotherRasterLine compress))

end PrinterSdk.Protocol
