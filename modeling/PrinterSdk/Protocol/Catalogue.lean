import PrinterSdk.Data.Machine
import PrinterSdk.Protocol.Action

/-!
# Printer definitions and processing limits

The part of a printer definition the planner reads, the bundled catalogue, and the
resource limits of the core crate.
-/

namespace PrinterSdk.Protocol

open PrinterSdk.Data

/-- `BleFlowControl`. -/
inductive BleFlowControl where
  | phomemoCredit
  deriving DecidableEq, Repr

/-- `BleGattCapabilities`. -/
structure BleGattCapabilities where
  flowControl : Option BleFlowControl
  deriving DecidableEq, Repr

/-- `BleSupport`. -/
inductive BleSupport where
  | unsupported
  | gatt (capabilities : BleGattCapabilities)
  deriving DecidableEq, Repr

/-- `PrinterDefinition`. -/
structure PrinterDefinition where
  id : String
  protocol : WireProtocol
  ble : BleSupport
  dpi : UInt16 := 203
  invalidateBytes : UInt16 := 200
  compression : Bool := false
  minRows : UInt32 := 0
  maxRows : UInt32 := 0
  deriving DecidableEq, Repr

namespace PrinterDefinition

/-- `PrinterDefinition::ble_gatt`. -/
def bleGatt (printer : PrinterDefinition) : Option BleGattCapabilities :=
  match printer.ble with
  | .gatt capabilities => some capabilities
  | .unsupported => none

/-- `PrinterDefinition::chunk_size`. -/
def chunkSize (printer : PrinterDefinition) : Nat :=
  match printer.protocol with
  | .brother => 1024
  | .m04 => 256
  | .tspl => 512
  | _ => 128

/-- `PrinterDefinition::chunk_delay_ms`. -/
def chunkDelayMs (printer : PrinterDefinition) : Nat :=
  match printer.protocol with
  | .brother => 0
  | .tspl => 10
  | _ => 20

theorem chunkSize_ne_zero (printer : PrinterDefinition) : printer.chunkSize ≠ 0 := by
  unfold chunkSize
  cases printer.protocol <;> decide

end PrinterDefinition

/-- A GATT printer without flow control. -/
def gattPrinter (id : String) (protocol : WireProtocol) (dpi : UInt16) : PrinterDefinition :=
  { id, protocol, ble := .gatt ⟨none⟩, dpi }

/-- A Brother QL printer of the catalogue. -/
def brotherPrinter (id : String) : PrinterDefinition where
  id
  protocol := .brother
  ble := .unsupported
  dpi := 300
  compression := true
  minRows := 301
  maxRows := 35434

/-- `bundled`. -/
def bundled : List PrinterDefinition := [
  gattPrinter "p12" .p12 203,
  gattPrinter "a30" .p12 203,
  gattPrinter "m02" .m02 203,
  gattPrinter "m02-pro" .m02 300,
  gattPrinter "m03" .mSeries 203,
  gattPrinter "t02" .mSeries 203,
  gattPrinter "m04s-53" .m04 300,
  gattPrinter "m04s-80" .m04 300,
  gattPrinter "m04s-110" .m04 300,
  gattPrinter "m110" .m110 203,
  { gattPrinter "m110s" .m110 203 with ble := .gatt ⟨some .phomemoCredit⟩ },
  gattPrinter "m200" .mSeries 203,
  gattPrinter "m250" .mSeries 203,
  gattPrinter "m220" .mSeries 203,
  gattPrinter "m221" .mSeries 203,
  gattPrinter "m260" .mSeries 203,
  gattPrinter "pm241" .tspl 203,
  gattPrinter "d-series" .dSeries 203,
  brotherPrinter "ql-1110nwb",
  brotherPrinter "ql-1115nwb",
  brotherPrinter "ql-1100"]

/-- `ProcessingLimits`, as far as the planner reads them. -/
structure ProcessingLimits where
  maxCopies : UInt16 := 1000
  maxPlanActions : Nat := 100000
  maxPlanBytes : Nat := 128 * 1024 * 1024

/-- `ProcessingLimits::default`. -/
def ProcessingLimits.default : ProcessingLimits := {}

end PrinterSdk.Protocol
