import Mathlib.Data.Char
import Mathlib.Data.List.Lex
import PrinterSdk.Data.Characters
import PrinterSdk.Data.OrderedMap
import PrinterSdk.Data.Utf8Lines

/-!
# Brother system reports

A system report is text in lines.  A line in brackets opens a section, and the lines
after it are read as keys and values.  The redacted report hides the values of
sensitive keys, both in the text and in the sections.
-/

namespace PrinterSdk.Brother

open PrinterSdk.Data

/-- `SYSTEM_REPORT_MARKER`. -/
def systemReportMarker : String := "<<PRINTER CONFIGURATION>>"

/-- `MAX_SYSTEM_REPORT_BYTES`. -/
def maxSystemReportBytes : Nat := 64 * 1024

/-- `REDACTED`. -/
def redactedValue : Characters := "[REDACTED]".toList

/-- `SystemReportError`. -/
inductive SystemReportError where
  | tooLarge
  | missingMarker
  deriving DecidableEq, Repr

/-- The keys and values of a section. -/
abbrev Section := OrderedMap Characters Characters

/-- The sections of a report by their names. -/
abbrev Sections := OrderedMap Characters Section

/-- `SystemReport`. -/
structure SystemReport where
  text : Characters
  sections : Sections
  deriving DecidableEq

/-! ## Reading -/

/-- `String::from_utf8_lossy(data).replace('\0', "")`. -/
def decodedText (data : Bytes) : Characters :=
  (lossy data).filter fun character => character ≠ '\x00'

/-- `decode_system_report`. -/
def decodeSystemReport (data : Bytes) : Except SystemReportError Characters :=
  if data.length > maxSystemReportBytes then
    .error .tooLarge
  else
    match findText systemReportMarker.toList (decodedText data) with
    | none => .error .missingMarker
    | some text => .ok (trim text)

/-- The name of the section that a trimmed line opens. -/
def heading : Characters → Option Characters
  | '[' :: rest => if rest.getLast? = some ']' then some (trim rest.dropLast) else none
  | _ => none

/-- The sections read so far, and the name of the last one. -/
structure ReportState where
  sections : Sections
  current : Option Characters

/-- One step of the loop over the lines. -/
def readLine (state : ReportState) (rawLine : Characters) : ReportState :=
  let line := trim rawLine
  match heading line with
  | some name => {
      sections := state.sections.alter name fun present => present.getD .empty
      current := some name }
  | none =>
      match state.current, splitOnce '=' line with
      | some name, some (key, value) =>
          { state with
            sections := state.sections.alter name fun present =>
              (present.getD .empty).insert (trim key) (trim value) }
      | _, _ => state

/-- `parse_system_report`. -/
def parseSystemReport (data : Bytes) : Except SystemReportError SystemReport :=
  match decodeSystemReport data with
  | .error error => .error error
  | .ok text => .ok ⟨text, ((lines text).foldl readLine ⟨.empty, none⟩).sections⟩

/-! ## Redaction -/

/-- The parts of a key that make it sensitive. -/
def sensitiveParts : List String :=
  ["serial", "ssid", "ipaddress", "ipv4", "ipv6", "gateway", "subnet", "macaddress", "nodename",
    "bluetoothaddress", "password", "networkkey"]

/-- `sensitive_key`. -/
def sensitiveKey (key : Characters) : Bool :=
  let normalized := (key.filter isAsciiAlphanumeric).map lowerAscii
  sensitiveParts.any fun part => decide (part.toList <:+: normalized)

/-- One line of `redact_text`. -/
def redactLine (line : Characters) : Characters :=
  match splitOnce '=' line with
  | none => line
  | some (key, _) => if sensitiveKey key then trimEnd key ++ '=' :: redactedValue else line

/-- `redact_text`. -/
def redactText (text : Characters) : Characters :=
  ['\n'].intercalate ((lines text).map redactLine)

/-- Hide the values of the sensitive keys of a section. -/
def redactSection (values : Section) : Section :=
  values.mapValues fun key value => if sensitiveKey key then redactedValue else value

/-- `SystemReport::redacted`. -/
def SystemReport.redacted (report : SystemReport) : SystemReport where
  text := redactText report.text
  sections := report.sections.mapValues fun _ values => redactSection values

end PrinterSdk.Brother
