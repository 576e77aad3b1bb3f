import Mathlib.Data.String.Basic
import PrinterSdk.Agent.Guarded
import PrinterSdk.Brother.Report
import PrinterSdk.Data.Delimited
import PrinterSdk.Discovery.DeviceId
import PrinterSdk.Discovery.Output
import PrinterSdk.Protocol.StatusPlan

/-!
# Registered probes

A probe is reviewed code under an identifier.  A registry takes only definitions that
read, and the agent runs a probe for a request only when it is registered, applies to the
target and fits the limits of the request.  What the printer answers is redacted before
it leaves the agent.
-/

namespace PrinterSdk.Agent

open PrinterSdk.Data PrinterSdk.Interaction PrinterSdk.Discovery PrinterSdk.Protocol
open PrinterSdk.Brother PrinterSdk.Native

/-! ## Definitions -/

/-- `PjlInfoKind`. -/
inductive PjlInfoKind where
  | id | status | config | variables

/-- `ProbeKind`. -/
inductive ProbeKind where
  | ieee1284DeviceId
  | brotherRasterStatus
  | brotherSystemReport
  | brotherWirelessStatus
  | pjlInfo (info : PjlInfoKind)
  | pjlDinquire (name : String)

/-- `ProbeRisk`. -/
inductive ProbeRisk where
  | readOnly | benignStateChange | configurationWrite | destructive
  deriving DecidableEq

/-- `ProbeLimits`. -/
structure ProbeLimits where
  timeoutMs : UInt64
  idleTimeoutMs : UInt64
  maximumResponseBytes : Nat

/-- `ProbeQualification`. -/
structure ProbeQualification where
  qualificationId : String
  manufacturers : List String
  models : List String
  firmwareVersions : List String

/-- `ProbeDefinition`. -/
structure ProbeDefinition where
  id : String
  kind : ProbeKind
  protocols : List ProtocolFamily
  transports : List TransportKind
  risk : ProbeRisk
  limits : ProbeLimits
  qualification : ProbeQualification

/-- `RegistryError`. -/
inductive RegistryError where
  | emptyId
  | missingApplicability
  | invalidLimits
  | unsafeAutomaticProbe
  | duplicate (id : String)
  | invalidPjlVariable

/-- `ProbeRegistry`. -/
abbrev ProbeRegistry := OrderedMap String ProbeDefinition

/-- `valid_pjl_identifier`. -/
def validPjlIdentifier (name : String) : Bool :=
  let bytes := asBytes name
  !bytes.isEmpty && decide (bytes.length ≤ 64) && bytes.all fun byte =>
    (0x41 ≤ byte && byte ≤ 0x5a) || (0x30 ≤ byte && byte ≤ 0x39) || byte == 0x5f

/-- Whether a kind names a PJL variable that is no identifier. -/
def ProbeKind.invalidVariable : ProbeKind → Bool
  | .pjlDinquire name => !validPjlIdentifier name
  | _ => false

/-- `ProbeRegistry::register`. -/
def ProbeRegistry.register (registry : ProbeRegistry) (definition : ProbeDefinition) :
    Except RegistryError ProbeRegistry := do
  refuseIf (definition.id = "") .emptyId
  refuseIf (definition.protocols = [] ∨ definition.transports = []) .missingApplicability
  refuseIf (definition.limits.timeoutMs = 0 ∨
    definition.limits.timeoutMs < definition.limits.idleTimeoutMs ∨
    definition.limits.maximumResponseBytes = 0) .invalidLimits
  refuseIf (definition.risk ≠ .readOnly ∨ definition.qualification.qualificationId = "")
    .unsafeAutomaticProbe
  refuseIf (definition.kind.invalidVariable = true) .invalidPjlVariable
  refuseIf (definition.id ∈ registry.keys) (.duplicate definition.id)
  return registry.insert definition.id definition

/-- The limits and the qualification of a definition of `brother_read_only_registry`. -/
def builtinProbe (id : String) (kind : ProbeKind) (protocol : ProtocolFamily)
    (transports : List TransportKind) (maximumResponseBytes : Nat) : ProbeDefinition where
  id
  kind
  protocols := [protocol]
  transports
  risk := .readOnly
  limits := ⟨5000, 300, maximumResponseBytes⟩
  qualification := ⟨id ++ ".qualified", ["Brother"], [], []⟩

/-- The definitions that `brother_read_only_registry` registers. -/
def builtinProbes : List ProbeDefinition :=
  [builtinProbe "ieee1284.device-id.v1" .ieee1284DeviceId .ieee1284 [.usb, .ippOverUsb]
      maxDeviceIdBytes,
    builtinProbe "brother.raster-status.v1" .brotherRasterStatus .brother [.usb, .rawTcp] 32,
    builtinProbe "brother.system-report.v1" .brotherSystemReport .brother [.usb, .rawTcp]
      maxSystemReportBytes,
    builtinProbe "brother.wireless-status.v1" .brotherWirelessStatus .brother [.usb, .rawTcp]
      (4 * 1024),
    builtinProbe "pjl.info-id.v1" (.pjlInfo .id) .pjl [.usb, .rawTcp] (64 * 1024),
    builtinProbe "pjl.info-status.v1" (.pjlInfo .status) .pjl [.usb, .rawTcp] (64 * 1024),
    builtinProbe "pjl.info-config.v1" (.pjlInfo .config) .pjl [.usb, .rawTcp] (64 * 1024),
    builtinProbe "pjl.info-variables.v1" (.pjlInfo .variables) .pjl [.usb, .rawTcp] (64 * 1024)]

/-- `brother_read_only_registry`, where an error is a panic. -/
def brotherReadOnlyRegistry : Except RegistryError ProbeRegistry :=
  builtinProbes.foldlM ProbeRegistry.register .empty

/-! ## Requests and responses -/

/-- `ProbeRequest`. -/
inductive ProbeRequest where
  | ieee1284DeviceId
  | protocolPlan (plan : Plan)
  | command (bytes : Bytes)

/-- `ProbeResponse`. -/
inductive ProbeResponse where
  | ieee1284DeviceId (value : DeviceId)
  | brotherRasterStatus (value : BrotherStatus)
  | brotherSystemReport (value : SystemReport)
  | brotherWirelessStatus (connected : Bool)
  | pjlText (text : Characters)

/-- `ProbeCodecError`. -/
inductive ProbeCodecError where
  | unknownProbe (id : String)
  | responseTooLarge
  | missingPrinterDefinition
  | malformed (text : String)

/-- `brother::report::system_report_plan`. -/
def systemReportPlan : Plan where
  protocol := .brother
  sourceCommit := sourceCommit
  actions := [
    .commandWrite "ESC i X G system report" [0x1b, 0x69, 0x58, 0x47] true,
    .collectResponse 5000 300 maxSystemReportBytes .brotherSystemReport]

/-- The names of the kinds of information. -/
def PjlInfoKind.name : PjlInfoKind → String
  | .id => "ID"
  | .status => "STATUS"
  | .config => "CONFIG"
  | .variables => "VARIABLES"

/-- `pjl_info_command`. -/
def pjlInfoCommand (info : PjlInfoKind) : Bytes :=
  asBytes ("\x1b%-12345X@PJL\r\n@PJL INFO " ++ info.name ++ "\r\n\x1b%-12345X")

/-- `pjl_dinquire_command`. -/
def pjlDinquireCommand (name : String) : Bytes :=
  asBytes ("\x1b%-12345X@PJL\r\n@PJL DINQUIRE " ++ name ++ "\r\n\x1b%-12345X")

/-- `prepare_registered_probe`. -/
def prepareRegisteredProbe (registry : ProbeRegistry) (id : String)
    (printer : Option PrinterDefinition) : Except ProbeCodecError ProbeRequest := do
  let definition ← okOr (registry.get id) (.unknownProbe id)
  match definition.kind with
  | .ieee1284DeviceId => return .ieee1284DeviceId
  | .brotherRasterStatus =>
      let printer ← okOr printer .missingPrinterDefinition
      return .protocolPlan (brotherStatusPlan printer)
  | .brotherSystemReport => return .protocolPlan systemReportPlan
  | .brotherWirelessStatus => return .command WirelessField.connected.command
  | .pjlInfo info => return .command (pjlInfoCommand info)
  | .pjlDinquire name => return .command (pjlDinquireCommand name)

/-- The message of a `DeviceIdError`. -/
def deviceIdErrorText : DeviceIdError → String
  | .tooShort => "short IEEE-1284 device ID"
  | .tooLarge => "IEEE-1284 device ID exceeds limit"
  | .invalidLength => "invalid IEEE-1284 device ID length"
  | .invalidUtf8 => "IEEE-1284 device ID is not UTF-8"
  | .malformed => "malformed IEEE-1284 device ID"

/-- The message of a `SystemReportError`. -/
def systemReportErrorText : SystemReportError → String
  | .tooLarge => "Brother system report exceeds the 64 KiB limit"
  | .missingMarker => "response is not a Brother printer configuration report"

/-- `parse_wifi_status`. -/
def parseWifiStatus (data : Bytes) : Option Bool :=
  parseBooleanField data .connected

/-- `decode_pjl_text`. -/
def decodePjlText (response : Bytes) : Except ProbeCodecError Characters := do
  let text ← okOr (fromUtf8 response) (.malformed "PJL response is not UTF-8")
  let blank (character : Char) : Bool := character == '\x00' || isWhitespace character
  let text := (text.toList.dropWhile blank).rdropWhile blank
  refuseIf (text = []) (.malformed "empty PJL response")
  return text

/-- `decode_registered_response`. -/
def decodeRegisteredResponse (registry : ProbeRegistry) (id : String) (response : Bytes) :
    Except ProbeCodecError ProbeResponse := do
  let definition ← okOr (registry.get id) (.unknownProbe id)
  refuseIf (definition.limits.maximumResponseBytes < response.length) .responseTooLarge
  match definition.kind with
  | .ieee1284DeviceId =>
      (parseDeviceId response |>.map .ieee1284DeviceId).mapError fun error =>
        .malformed (deviceIdErrorText error)
  | .brotherRasterStatus =>
      (parseStatus response |>.map .brotherRasterStatus).mapError .malformed
  | .brotherSystemReport =>
      (parseSystemReport response |>.map .brotherSystemReport).mapError fun error =>
        .malformed (systemReportErrorText error)
  | .brotherWirelessStatus =>
      okOr (parseWifiStatus response |>.map .brotherWirelessStatus)
        (.malformed "invalid wireless status")
  | .pjlInfo _ | .pjlDinquire _ => (decodePjlText response).map .pjlText

/-! ## Reports -/

/-- The fields of a device ID that are not reported. -/
def privateFields : List Characters :=
  ["SERIALNUMBER", "SERN", "SN", "MAC", "MACADDRESS"].map String.toList

/-- `BTreeMap::retain` on the keys. -/
def retainKeys {κ ν : Type} [LinearOrder κ] (map : OrderedMap κ ν) (keep : κ → Bool) :
    OrderedMap κ ν where
  entries := map.entries.filter fun entry => keep entry.1
  ordered := map.ordered.filter _

/-- `redact_probe_response`. -/
def redactProbeResponse : ProbeResponse → ProbeResponse
  | .ieee1284DeviceId value =>
      .ieee1284DeviceId { value with
        raw := redactedValue
        fields := retainKeys value.fields fun key => !privateFields.contains key }
  | .brotherSystemReport value => .brotherSystemReport value.redacted
  | .pjlText _ => .pjlText redactedValue
  | value => value

/-- `ProbeExecutionReport`. -/
structure ProbeExecutionReport where
  probeId : String
  qualificationId : String
  printerId : String
  endpoint : String
  endpointGeneration : UInt64
  transport : TransportKind
  protocol : ProtocolFamily
  durationMs : UInt64
  limits : ProbeLimits
  responseBytes : Nat
  responseHash : String
  configurationChanged : Bool
  result : ProbeResponse
  origin : ObservationOrigin

/-- `build_read_only_probe_report`. -/
def buildReadOnlyProbeReport (sha256 : Sha256) (registry : ProbeRegistry) (id : String)
    (response : Bytes) (origin : ObservationOrigin) (durationMs : UInt64) :
    Except ProbeCodecError ProbeExecutionReport := do
  let definition ← okOr (registry.get id) (.unknownProbe id)
  let result := redactProbeResponse (← decodeRegisteredResponse registry id response)
  let responseHash := hexBytes (sha256 response).1
  let origin := { origin with
    probeId := some id
    qualification := some {
      qualificationId := definition.qualification.qualificationId
      firmware := origin.qualification.bind QualificationMetadata.firmware
      responseHash := some responseHash } }
  return {
    probeId := id
    qualificationId := definition.qualification.qualificationId
    printerId := origin.printerId
    endpoint := origin.endpoint
    endpointGeneration := origin.endpointGeneration
    transport := origin.transport
    protocol := origin.protocol
    durationMs
    limits := definition.limits
    responseBytes := response.length
    responseHash
    configurationChanged := false
    result
    origin }

/-! ## Applicability -/

/-- `str::eq_ignore_ascii_case`. -/
def eqIgnoreAsciiCase (left right : String) : Bool :=
  (asBytes left).map asciiLowercase == (asBytes right).map asciiLowercase

/-- `matches_allowlist`. -/
def matchesAllowlist (allowlist : List String) (actual : Option String) : Bool :=
  allowlist.isEmpty || actual.any fun actual => allowlist.any (eqIgnoreAsciiCase · actual)

/-- `ProbeDefinition::applies_to`. -/
def ProbeDefinition.appliesTo (definition : ProbeDefinition) (protocol : ProtocolFamily)
    (transport : TransportKind) (manufacturer model firmware : Option String) : Bool :=
  definition.risk = .readOnly && definition.protocols.contains protocol &&
    definition.transports.contains transport &&
    matchesAllowlist definition.qualification.manufacturers manufacturer &&
    matchesAllowlist definition.qualification.models model &&
    matchesAllowlist definition.qualification.firmwareVersions firmware

/-! ## Registration -/

/-- What is asked of a definition before it is registered: it reads, under an identifier
and within limits, and names no variable that is more than an identifier. -/
structure ProbeDefinition.Safe (definition : ProbeDefinition) : Prop where
  named : definition.id ≠ ""
  applicable : definition.protocols ≠ [] ∧ definition.transports ≠ []
  limited : definition.limits.timeoutMs ≠ 0 ∧
    definition.limits.idleTimeoutMs ≤ definition.limits.timeoutMs ∧
    definition.limits.maximumResponseBytes ≠ 0
  readOnly : definition.risk = .readOnly ∧ definition.qualification.qualificationId ≠ ""
  identifier : definition.kind.invalidVariable = false

instance (definition : ProbeDefinition) : Decidable definition.Safe :=
  decidable_of_iff (definition.id ≠ "" ∧
      (definition.protocols ≠ [] ∧ definition.transports ≠ []) ∧
      (definition.limits.timeoutMs ≠ 0 ∧
        definition.limits.idleTimeoutMs ≤ definition.limits.timeoutMs ∧
        definition.limits.maximumResponseBytes ≠ 0) ∧
      (definition.risk = .readOnly ∧ definition.qualification.qualificationId ≠ "") ∧
      definition.kind.invalidVariable = false)
    ⟨fun ⟨named, applicable, limited, readOnly, identifier⟩ =>
      ⟨named, applicable, limited, readOnly, identifier⟩,
    fun ⟨named, applicable, limited, readOnly, identifier⟩ =>
      ⟨named, applicable, limited, readOnly, identifier⟩⟩

theorem register_eq_ok {registry next : ProbeRegistry} {definition : ProbeDefinition} :
    registry.register definition = .ok next ↔
      definition.Safe ∧ definition.id ∉ registry.keys ∧
        registry.insert definition.id definition = next := by
  simp only [ProbeRegistry.register, except_bind_eq_ok, refuseIf_eq_ok, except_pure_eq_ok]
  constructor
  · rintro ⟨-, named, -, applicable, -, limited, -, readOnly, -, identifier, -, fresh, made⟩
    simp only [not_or, not_not, UInt64.not_lt] at applicable limited readOnly
    exact ⟨⟨named, applicable, limited, readOnly, by simpa using identifier⟩, fresh, made⟩
  · rintro ⟨safe, fresh, made⟩
    refine ⟨(), safe.named, (), ?_, (), ?_, (), ?_, (), ?_, (), fresh, made⟩
    · exact not_or.mpr safe.applicable
    · simpa only [not_or, UInt64.not_lt] using safe.limited
    · simpa only [not_or, not_not] using safe.readOnly
    · simp [safe.identifier]

/-- The registry after definitions were offered; a refused one leaves it as it is. -/
def registered (offers : List ProbeDefinition) : ProbeRegistry :=
  offers.foldl (fun registry definition =>
    match registry.register definition with
    | .ok next => next
    | .error _ => registry) .empty

theorem registered_snoc (offers : List ProbeDefinition) (definition : ProbeDefinition) :
    registered (offers ++ [definition]) =
      match (registered offers).register definition with
      | .ok next => next
      | .error _ => registered offers := by
  rw [registered, List.foldl_append]
  rfl

/-- Offers of which none is refused register all of them. -/
theorem registered_of_ok {offers : List ProbeDefinition} {registry : ProbeRegistry}
    (accepted : offers.foldlM ProbeRegistry.register .empty = .ok registry) :
    registered offers = registry := by
  induction offers using List.reverseRecOn generalizing registry with
  | nil => cases accepted; rfl
  | append_singleton offers definition ih =>
      rw [List.foldlM_append, except_bind_eq_ok] at accepted
      obtain ⟨middle, before, last⟩ := accepted
      rw [registered_snoc, ih before]
      have last : middle.register definition = .ok registry := by simpa using last
      rw [last]

/-- The built-in definitions are registered without a panic. -/
theorem registered_builtinProbes :
    brotherReadOnlyRegistry = .ok (registered builtinProbes) := by
  have accepted : brotherReadOnlyRegistry.isOk = true := by decide +kernel
  cases made : brotherReadOnlyRegistry with
  | ok registry => rw [registered_of_ok made]
  | error error => rw [made] at accepted; cases accepted

/-- Whatever is offered in whatever order, an identifier is registered with the first
safe definition that has it. -/
theorem get_registered (offers : List ProbeDefinition) (id : String) :
    (registered offers).get id =
      offers.find? fun definition => definition.id = id ∧ definition.Safe := by
  induction offers using List.reverseRecOn generalizing id with
  | nil => rfl
  | append_singleton offers definition ih =>
      rw [registered_snoc, List.find?_append, ← ih]
      cases made : (registered offers).register definition with
      | ok next =>
          obtain ⟨safe, fresh, rfl⟩ := register_eq_ok.mp made
          rw [OrderedMap.get_insert]
          by_cases same : id = definition.id
          · have none : (registered offers).get id = none := by
              rw [Option.eq_none_iff_forall_not_mem]
              intro other found
              apply fresh
              rw [← same]
              exact OrderedMap.mem_keys.mpr ⟨other, OrderedMap.get_eq_some.mp found⟩
            rw [if_pos same, none]
            simp [same, safe]
          · rw [if_neg same]
            simp [Ne.symm same]
      | error error =>
          by_cases offered : definition.id = id ∧ definition.Safe
          · obtain ⟨rfl, safe⟩ := offered
            -- a safe definition is only refused when its identifier is taken
            have taken : definition.id ∈ (registered offers).keys := by
              by_contra fresh
              rw [register_eq_ok.mpr ⟨safe, fresh, rfl⟩] at made
              cases made
            obtain ⟨other, found⟩ := OrderedMap.mem_keys.mp taken
            rw [OrderedMap.get_eq_some.mpr found]
            rfl
          · simp [offered]

/-- A registered definition is safe and has the identifier it is registered under. -/
theorem safe_of_registered {offers : List ProbeDefinition} {id : String}
    {definition : ProbeDefinition} (found : (registered offers).get id = some definition) :
    definition.id = id ∧ definition.Safe := by
  rw [get_registered] at found
  simpa using List.find?_some found

/-! ## Commands -/

/-- A PJL identifier has no control characters. -/
theorem not_mem_of_validPjlIdentifier {name : String} (valid : validPjlIdentifier name = true)
    {byte : UInt8} (control : byte < 0x20) : byte ∉ asBytes name := by
  intro member
  simp only [validPjlIdentifier, Bool.and_eq_true, List.all_eq_true] at valid
  have letter := valid.2 byte member
  simp only [Bool.or_eq_true, Bool.and_eq_true, decide_eq_true_eq, beq_iff_eq] at letter
  have small : byte.toNat < 0x20 := UInt8.lt_iff_toNat_lt.mp control
  rcases letter with (⟨first, -⟩ | ⟨first, -⟩) | rfl
  · have large : 0x41 ≤ byte.toNat := UInt8.le_iff_toNat_le.mp first
    omega
  · have large : 0x30 ≤ byte.toNat := UInt8.le_iff_toNat_le.mp first
    omega
  · exact absurd small (by decide)

/-- The line with which a PJL probe asks. -/
def ProbeKind.pjlLine : ProbeKind → Option String
  | .pjlInfo info => some ("@PJL INFO " ++ info.name)
  | .pjlDinquire name => some ("@PJL DINQUIRE " ++ name)
  | _ => none

theorem asBytes_append (left right : String) :
    asBytes (left ++ right) = asBytes left ++ asBytes right := by
  simp [asBytes]

/-- The line of a kind that names a valid variable has no control characters. -/
theorem printable_pjlLine {kind : ProbeKind} (valid : kind.invalidVariable = false)
    {line : String} (asks : kind.pjlLine = some line) {byte : UInt8} (control : byte < 0x20) :
    byte ∉ asBytes line := by
  have printable (text : String) (fixed : (asBytes text).all (0x20 ≤ ·) = true) :
      byte ∉ asBytes text := by
    intro member
    have large := UInt8.le_iff_toNat_le.mp (of_decide_eq_true (List.all_eq_true.mp fixed _ member))
    have small := UInt8.lt_iff_toNat_lt.mp control
    omega
  cases kind with
  | pjlInfo info =>
      cases asks
      exact printable _ (by cases info <;> decide +kernel)
  | pjlDinquire name =>
      cases asks
      rw [asBytes_append, List.mem_append, not_or]
      have isValid : validPjlIdentifier name = true := by
        simpa [ProbeKind.invalidVariable] using valid
      exact ⟨printable _ (by decide +kernel), not_mem_of_validPjlIdentifier isValid control⟩
  | _ => cases asks

/-- A line without control characters is one line between the ends of a PJL job. -/
theorem splitOnPair_pjl {line : String} (free : 0x0d ∉ asBytes line) :
    splitOnPair 0x0d 0x0a (asBytes ("\x1b%-12345X@PJL\r\n" ++ line ++ "\r\n\x1b%-12345X")) =
      [asBytes "\x1b%-12345X@PJL", asBytes line, asBytes "\x1b%-12345X"] := by
  have header : asBytes "\x1b%-12345X@PJL\r\n" =
      asBytes "\x1b%-12345X@PJL" ++ [0x0d, 0x0a] := by decide +kernel
  have footer : asBytes "\r\n\x1b%-12345X" = [0x0d, 0x0a] ++ asBytes "\x1b%-12345X" := by
    decide +kernel
  have ends : 0x0d ∉ asBytes "\x1b%-12345X@PJL" ∧ 0x0d ∉ asBytes "\x1b%-12345X" := by
    decide +kernel
  have joined : asBytes ("\x1b%-12345X@PJL\r\n" ++ line ++ "\r\n\x1b%-12345X") =
      joinLines 0x0d 0x0a [asBytes "\x1b%-12345X@PJL", asBytes line] ++ asBytes "\x1b%-12345X" := by
    rw [asBytes_append, asBytes_append, header, footer]
    simp [joinLines]
  rw [joined, splitOnPair_joinLines _ ends.2]
  · rfl
  · simp [ends.1, free]

/-- The request of a PJL probe is its line. -/
theorem prepare_pjl {registry : ProbeRegistry} {id : String} {definition : ProbeDefinition}
    (found : registry.get id = some definition) {line : String}
    (asks : definition.kind.pjlLine = some line) (printer : Option PrinterDefinition) :
    prepareRegisteredProbe registry id printer = .ok (.command
      (asBytes ("\x1b%-12345X@PJL\r\n" ++ line ++ "\r\n\x1b%-12345X"))) := by
  have info : "\x1b%-12345X@PJL\r\n@PJL INFO " = "\x1b%-12345X@PJL\r\n" ++ "@PJL INFO " := by
    decide +kernel
  have inquire : "\x1b%-12345X@PJL\r\n@PJL DINQUIRE " =
      "\x1b%-12345X@PJL\r\n" ++ "@PJL DINQUIRE " := by
    decide +kernel
  cases definition with
  | mk own kind protocols transports risk limits qualification =>
      cases kind with
      | pjlInfo kind =>
          cases asks
          simp only [prepareRegisteredProbe, found, okOr, pjlInfoCommand, info, String.append_assoc]
          rfl
      | pjlDinquire name =>
          cases asks
          simp only [prepareRegisteredProbe, found, okOr, pjlDinquireCommand, inquire,
            String.append_assoc]
          rfl
      | _ => cases asks

/-- Registered probes only read.  Whatever definitions are offered in whatever order, an
identifier is registered with the first safe one that has it; and a registered PJL probe
sends one inquiry: a line without control characters between the ends of the job, so that
no name of a variable begins another command. -/
theorem registered_probes_read (offers : List ProbeDefinition) (id : String)
    (printer : Option PrinterDefinition) :
    (registered offers).get id =
        offers.find? (fun definition => definition.id = id ∧ definition.Safe) ∧
      ∀ definition, (registered offers).get id = some definition →
        ∀ line, definition.kind.pjlLine = some line →
          ∃ bytes, prepareRegisteredProbe (registered offers) id printer = .ok (.command bytes) ∧
            splitOnPair 0x0d 0x0a bytes =
              [asBytes "\x1b%-12345X@PJL", asBytes line, asBytes "\x1b%-12345X"] ∧
            ∀ byte ∈ asBytes line, 0x20 ≤ byte := by
  refine ⟨get_registered offers id, ?_⟩
  intro definition found line asks
  have valid := (safe_of_registered found).2.identifier
  refine ⟨_, prepare_pjl found asks printer, ?_, ?_⟩
  · exact splitOnPair_pjl (printable_pjlLine valid asks (by decide))
  · intro byte member
    exact UInt8.not_lt.mp fun control => printable_pjlLine valid asks control member

/-! ## Execution -/

/-- `PublishedProbeTarget`. -/
structure PublishedProbeTarget where
  printerId : String
  endpointGeneration : UInt64
  endpointIdentity : String
  transport : TransportKind
  protocol : ProtocolFamily
  manufacturer : Option String
  model : Option String
  firmware : Option String
  printerDefinition : Option PrinterDefinition

/-- `ProbeRunOutput`. -/
structure ProbeRunOutput where
  response : Bytes
  durationMs : UInt64

/-- The lookup of a published printer, `cancellation.is_cancelled()`, and a run of the
probe against cancellation, which comes first when nothing is answered. -/
inductive ProbeOperation where
  | printer (printerId : String)
  | isCancelled
  | run (request : ProbeRequest) (limits : ProbeLimits)

/-- The answers of these operations. -/
abbrev ProbeOperation.Reply : ProbeOperation → Type
  | .printer _ => Option PublishedPrinter
  | .isCancelled => Bool
  | .run _ _ => Option (Except String ProbeRunOutput)

/-- The signature of the programs that run probes. -/
abbrev probing : Signature := ⟨ProbeOperation, ProbeOperation.Reply⟩

/-- One call of `execute_registered_probe`; `probeId` is what a RunProbe operation of the
request carries. -/
structure ProbeSubmission where
  request : ProtocolRequest
  probeId : String
  nowUnixMs : UInt64
  target : PublishedProbeTarget

/-- The guards of `execute_registered_probe`, up to the limits of the request. -/
def authorizeProbe (policy : AgentPolicy) (registry : ProbeRegistry)
    (submission : ProbeSubmission) : Fallible probing ProtocolRequestRejected
      (ProbeDefinition × ProbeRequest × ProtocolOperationLimits) := do
  let request := submission.request
  let target := submission.target
  Fallible.mapError (rejection request.requestId) (Fallible.ofExcept
    (validateRequest request submission.nowUnixMs policy.maximumTimeoutMs
      policy.maximumResponseBytes [.runProbe]))
  Fallible.ofExcept (refuseIf (request.contractVersion ≠ policy.contractVersion)
    (reject request.requestId .unsupportedVersion "unsupported contract version"))
  let found ← @Fallible.perform probing _ (.printer request.printerId)
  let published ← Fallible.ofExcept (okOr found
    (reject request.requestId .unknownPrinter "unknown published printer"))
  Fallible.ofExcept (refuseIf (published.endpointGeneration ≠ request.endpointGeneration ∨
    target.printerId ≠ request.printerId ∨
    target.endpointGeneration ≠ request.endpointGeneration)
    (reject request.requestId .staleEndpoint "stale endpoint generation"))
  Fallible.ofExcept (refuseIf (request.operation ≠ some .runProbe)
    (rejection request.requestId .missingOperation))
  let definition ← Fallible.ofExcept (okOr (registry.get submission.probeId)
    (reject request.requestId .unsupportedOperation "probe is not registered"))
  Fallible.ofExcept (refuseIf (definition.appliesTo target.protocol target.transport
    target.manufacturer target.model target.firmware = false)
    (reject request.requestId .policy "probe is not qualified for this target"))
  let prepared ← Fallible.ofExcept
    ((prepareRegisteredProbe registry submission.probeId target.printerDefinition).mapError
      fun _ => reject request.requestId .policy "registered probe could not be prepared")
  let limits ← Fallible.ofExcept (okOr request.limits
    (rejection request.requestId .invalidLimits))
  Fallible.ofExcept (refuseIf (limits.timeoutMs < definition.limits.timeoutMs ∨
    limits.maximumResponseBytes.toNat < definition.limits.maximumResponseBytes)
    (reject request.requestId .limitExceeded
      "request limits are below the registered probe limits"))
  return (definition, prepared, limits)

/-- Where a probe was observed. -/
def probeOrigin (policy : AgentPolicy) (submission : ProbeSubmission)
    (definition : ProbeDefinition) : ObservationOrigin where
  agentId := some policy.agentId
  printerId := submission.request.printerId
  endpoint := submission.target.endpointIdentity
  endpointGeneration := submission.target.endpointGeneration
  transport := submission.target.transport
  protocol := submission.target.protocol
  requestId := submission.request.requestId
  probeId := some submission.probeId
  observedAt := toString submission.nowUnixMs.toNat
  qualification := submission.target.firmware.map fun firmware => {
    qualificationId := definition.qualification.qualificationId
    firmware := some firmware
    responseHash := none }

/-- The report with its endpoint redacted. -/
def publicReport (sha256 : Sha256) (report : ProbeExecutionReport) : ProbeExecutionReport :=
  let endpoint := redactIdentifier sha256 report.endpoint
  { report with endpoint, origin := { report.origin with endpoint } }

/-- What the agent makes of the answer of the runner. -/
def probeResult (sha256 : Sha256) (reportJson : ProbeExecutionReport → Option Bytes)
    (policy : AgentPolicy) (registry : ProbeRegistry) (submission : ProbeSubmission)
    (definition : ProbeDefinition) (limits : ProtocolOperationLimits) :
    Option (Except String ProbeRunOutput) → ProtocolResult
  | none => terminal submission.request.requestId .cancelled "cancelled"
  | some (.error _) =>
      terminal submission.request.requestId .failed "registered probe execution failed"
  | some (.ok output) =>
      if output.response.length ≤ definition.limits.maximumResponseBytes then
        match buildReadOnlyProbeReport sha256 registry submission.probeId output.response
            (probeOrigin policy submission definition) output.durationMs with
        | .error _ => terminal submission.request.requestId .failed
            "registered probe response was malformed"
        | .ok report => boundedJsonResult submission.request.requestId
            (reportJson (publicReport sha256 report)) limits.maximumResponseBytes
      else
        terminal submission.request.requestId .responseTooLarge
          "probe response exceeded its registered limit"

/-- `AgentExecutor::execute_registered_probe`. -/
def executeRegisteredProbe (sha256 : Sha256) (reportJson : ProbeExecutionReport → Option Bytes)
    (policy : AgentPolicy) (registry : ProbeRegistry) (submission : ProbeSubmission) :
    Program probing InitialExecution :=
  ExceptT.run (do
    let (definition, prepared, limits) ← authorizeProbe policy registry submission
    let accepted : ProtocolRequestAccepted :=
      ⟨submission.request.requestId, submission.nowUnixMs⟩
    if ← @Fallible.perform probing _ .isCancelled then
      return ⟨accepted, terminal submission.request.requestId .cancelled "cancelled"⟩
    let output ← @Fallible.perform probing _ (.run prepared definition.limits)
    return ⟨accepted, probeResult sha256 reportJson policy registry submission definition
      limits output⟩)

/-! ## The contract of a run -/

/-- Whether an operation runs a probe. -/
def runsProbe : ProbeOperation → Bool
  | .run _ _ => true
  | _ => false

/-- The probes run in a history. -/
def probeRuns (history : List (Event probing)) : Nat :=
  history.countP fun event => runsProbe event.op

/-- What is established about a request before its probe is run. -/
structure ProbeAllowed (policy : AgentPolicy) (registry : ProbeRegistry)
    (submission : ProbeSubmission) (history : List (Event probing))
    (definition : ProbeDefinition) (prepared : ProbeRequest)
    (limits : ProtocolOperationLimits) : Prop where
  unexpired : submission.nowUnixMs < submission.request.expiresAtUnixMs
  version : submission.request.contractVersion = policy.contractVersion
  requested : submission.request.operation = some .runProbe
  published : ∃ printer,
    ⟨ProbeOperation.printer submission.request.printerId, some printer⟩ ∈ history ∧
    printer.endpointGeneration = submission.request.endpointGeneration
  targeted : submission.target.printerId = submission.request.printerId ∧
    submission.target.endpointGeneration = submission.request.endpointGeneration
  registered : registry.get submission.probeId = some definition
  applies : definition.appliesTo submission.target.protocol submission.target.transport
    submission.target.manufacturer submission.target.model submission.target.firmware = true
  prepared : prepareRegisteredProbe registry submission.probeId
    submission.target.printerDefinition = .ok prepared
  limited : submission.request.limits = some limits ∧
    definition.limits.timeoutMs ≤ limits.timeoutMs ∧
    definition.limits.maximumResponseBytes ≤ limits.maximumResponseBytes.toNat

/-- A probe is run once, within the guards and the registered limits. -/
def ProbePermitted (policy : AgentPolicy) (registry : ProbeRegistry)
    (submission : ProbeSubmission) (history : List (Event probing)) (op : ProbeOperation) : Prop :=
  ∀ prepared limits, op = .run prepared limits → probeRuns history = 0 ∧
    ⟨ProbeOperation.isCancelled, false⟩ ∈ history ∧
    ∃ definition requestLimits, limits = definition.limits ∧
      ProbeAllowed policy registry submission history definition prepared requestLimits

variable {policy : AgentPolicy} {registry : ProbeRegistry} {submission : ProbeSubmission}
variable {history : List (Event probing)}

theorem probePermitted_quiet (op : ProbeOperation) (quiet : runsProbe op = false) :
    ProbePermitted policy registry submission history op := by
  rintro prepared limits rfl
  cases quiet

theorem authorizeProbe_meets :
    Fallible.Meets (ProbePermitted policy registry submission)
      (fun later authorized => probeRuns later = 0 ∧ ProbeAllowed policy registry submission later
        authorized.1 authorized.2.1 authorized.2.2)
      (fun later _ => probeRuns later = 0) [] (authorizeProbe policy registry submission) := by
  unfold authorizeProbe
  dsimp only
  rw [Fallible.meets_bind, Fallible.meets_mapError]
  apply Fallible.meets_ofExcept _ _ fun _ _ => rfl
  intro _ valid
  apply Fallible.Meets.ofExcept_bind fun _ _ => rfl
  intro _ version
  apply Fallible.Meets.perform_bind (probePermitted_quiet _ rfl)
  intro (found : Option PublishedPrinter)
  apply Fallible.Meets.ofExcept_bind fun _ _ => rfl
  intro published foundEq
  apply Fallible.Meets.ofExcept_bind fun _ _ => rfl
  intro _ generation
  apply Fallible.Meets.ofExcept_bind fun _ _ => rfl
  intro _ requested
  apply Fallible.Meets.ofExcept_bind fun _ _ => rfl
  intro definition registered
  apply Fallible.Meets.ofExcept_bind fun _ _ => rfl
  intro _ applies
  apply Fallible.Meets.ofExcept_bind fun _ _ => rfl
  intro prepared preparedEq
  apply Fallible.Meets.ofExcept_bind fun _ _ => rfl
  intro limits limitsEq
  apply Fallible.Meets.ofExcept_bind fun _ _ => rfl
  intro _ limited
  rw [okOr_eq_ok] at foundEq registered limitsEq
  rw [except_mapError_eq_ok] at preparedEq
  simp only [refuseIf_eq_ok, not_or, not_not, UInt64.not_lt, Nat.not_lt]
    at version generation requested limited
  rw [refuseIf_eq_ok, Bool.not_eq_false] at applies
  rw [Fallible.meets_pure]
  exact ⟨rfl, {
    unexpired := validateRequest_eq_ok valid
    version := version
    requested := requested
    published := ⟨published, by simp [foundEq], generation.1⟩
    targeted := generation.2
    registered := registered
    applies := applies
    prepared := preparedEq
    limited := ⟨limitsEq, limited⟩ }⟩

/-- A response that tells nothing of private values. -/
def ProbeResponse.Redacted : ProbeResponse → Prop
  | .ieee1284DeviceId value =>
      value.raw = redactedValue ∧ ∀ key ∈ value.fields.keys, key ∉ privateFields
  | .brotherSystemReport value =>
      (∃ text, value.text = redactText text) ∧
        ∀ values ∈ value.sections.entries, ∀ entry ∈ values.2.entries,
          sensitiveKey entry.1 = true → entry.2 = redactedValue
  | .pjlText text => text = redactedValue
  | .brotherRasterStatus _ | .brotherWirelessStatus _ => True

theorem redacted_redactProbeResponse (response : ProbeResponse) :
    (redactProbeResponse response).Redacted := by
  cases response with
  | ieee1284DeviceId value =>
      refine ⟨rfl, ?_⟩
      intro key member isPrivate
      obtain ⟨content, found⟩ := OrderedMap.mem_keys.mp member
      have kept := (List.mem_filter.mp found).2
      simp [isPrivate] at kept
  | brotherSystemReport value =>
      refine ⟨⟨value.text, rfl⟩, ?_⟩
      intro values shown entry member sensitive
      obtain ⟨original, -, rfl⟩ := List.mem_map.mp shown
      obtain ⟨secret, -, rfl⟩ := List.mem_map.mp member
      exact if_pos sensitive
  | pjlText text => rfl
  | brotherRasterStatus value => trivial
  | brotherWirelessStatus connected => trivial

/-- Where a successful result comes from: the probe that was allowed was run and its answer
decoded within the registered limits, and the result is the report of what is left of it
when it is redacted. -/
def ProbeReported (sha256 : Sha256) (reportJson : ProbeExecutionReport → Option Bytes)
    (policy : AgentPolicy) (registry : ProbeRegistry) (submission : ProbeSubmission)
    (history : List (Event probing)) (result : ProtocolResult) : Prop :=
  ∃ definition prepared limits output response report,
    ProbeAllowed policy registry submission history definition prepared limits ∧
    ⟨ProbeOperation.run prepared definition.limits, some (.ok output)⟩ ∈ history ∧
    output.response.length ≤ definition.limits.maximumResponseBytes ∧
    decodeRegisteredResponse registry submission.probeId output.response = .ok response ∧
    report.result = redactProbeResponse response ∧ report.result.Redacted ∧
    report.endpoint = redactIdentifier sha256 submission.target.endpointIdentity ∧
    report.origin.endpoint = report.endpoint ∧ report.configurationChanged = false ∧
    reportJson report = some result.boundedResponse ∧
    result.boundedResponse.length ≤ limits.maximumResponseBytes.toNat

theorem build_eq_ok {sha256 : Sha256} {id : String} {response : Bytes} {origin : ObservationOrigin}
    {durationMs : UInt64} {report : ProbeExecutionReport}
    (built : buildReadOnlyProbeReport sha256 registry id response origin durationMs = .ok report) :
    ∃ decoded, decodeRegisteredResponse registry id response = .ok decoded ∧
      report.result = redactProbeResponse decoded ∧ report.endpoint = origin.endpoint ∧
      report.configurationChanged = false := by
  simp only [buildReadOnlyProbeReport, except_bind_eq_ok, except_pure_eq_ok] at built
  obtain ⟨definition, -, decoded, decodes, rfl⟩ := built
  exact ⟨decoded, decodes, rfl, rfl, rfl⟩

theorem boundedJsonResult_succeeded {requestId : String} {json : Option Bytes} {limit : UInt64}
    (succeeded : (boundedJsonResult requestId json limit).outcome = .succeeded) :
    json = some (boundedJsonResult requestId json limit).boundedResponse ∧
      (boundedJsonResult requestId json limit).boundedResponse.length ≤ limit.toNat := by
  unfold boundedJsonResult at succeeded ⊢
  cases json with
  | none => cases succeeded
  | some bytes =>
      by_cases fits : bytes.length ≤ limit.toNat
      · simp [fits]
      · simp [fits, terminal] at succeeded

/-- A successful result was reported, whatever the runner answered. -/
theorem reported_of_succeeded {sha256 : Sha256}
    {reportJson : ProbeExecutionReport → Option Bytes} {definition : ProbeDefinition}
    {prepared : ProbeRequest} {limits : ProtocolOperationLimits}
    (allowed : ProbeAllowed policy registry submission history definition prepared limits)
    {output : Option (Except String ProbeRunOutput)}
    (answered : ⟨ProbeOperation.run prepared definition.limits, output⟩ ∈ history)
    (succeeded : (probeResult sha256 reportJson policy registry submission definition limits
      output).outcome = .succeeded) :
    ProbeReported sha256 reportJson policy registry submission history
      (probeResult sha256 reportJson policy registry submission definition limits output) := by
  rcases output with - | error | output
  · cases succeeded
  · cases succeeded
  · unfold probeResult at succeeded ⊢
    dsimp only at succeeded ⊢
    split at succeeded
    · next short =>
        rw [if_pos short]
        split at succeeded
        · cases succeeded
        · next report built =>
            obtain ⟨decoded, decodes, shown, endpoint, unchanged⟩ := build_eq_ok built
            obtain ⟨written, fits⟩ := boundedJsonResult_succeeded succeeded
            exact ⟨definition, prepared, limits, output, decoded, publicReport sha256 report,
              allowed, answered, short, decodes, shown,
              shown ▸ redacted_redactProbeResponse decoded,
              congrArg (redactIdentifier sha256) endpoint, rfl, unchanged, written, fits⟩
    · cases succeeded

theorem ProbeAllowed.later {later : List (Event probing)} {definition : ProbeDefinition}
    {prepared : ProbeRequest} {limits : ProtocolOperationLimits}
    (allowed : ProbeAllowed policy registry submission history definition prepared limits)
    (continues : history ⊆ later) :
    ProbeAllowed policy registry submission later definition prepared limits :=
  { allowed with
    published := by
      obtain ⟨printer, found, generation⟩ := allowed.published
      exact ⟨printer, continues found, generation⟩ }

theorem executeRegisteredProbe_meets (sha256 : Sha256)
    (reportJson : ProbeExecutionReport → Option Bytes) :
    Fallible.Meets (ProbePermitted policy registry submission)
      (fun later execution => execution.result.outcome = .succeeded →
        ProbeReported sha256 reportJson policy registry submission later execution.result)
      (fun later _ => probeRuns later = 0) []
      (ExceptT.mk (executeRegisteredProbe sha256 reportJson policy registry submission)) := by
  refine Fallible.Meets.bind authorizeProbe_meets ?_
  rintro later ⟨definition, prepared, limits⟩ ⟨unrun, allowed⟩
  apply Fallible.Meets.perform_bind (probePermitted_quiet _ rfl)
  rintro (cancelled : Bool)
  cases cancelled with
  | true =>
      intro succeeded
      cases succeeded
  | false =>
      have continued := allowed.later (List.subset_append_left later [⟨.isCancelled, false⟩])
      refine Fallible.Meets.perform_bind ?_ ?_
      · rintro _ _ ⟨⟩
        refine ⟨?_, by simp, definition, limits, rfl, continued⟩
        simpa [probeRuns, runsProbe] using unrun
      · intro output
        exact reported_of_succeeded (continued.later (List.subset_append_left _ _)) (by simp)

/-- Execution of a registered probe, whatever the lookup, the cancellation and the printer
answer.  A probe is run at most once, and only a safe definition that was registered for a
request in force: its limits are those of the definition and not above those of the
request.  A rejected request ran nothing; a successful result is the redacted report of an
answer within the limits. -/
theorem registered_probe_execution (sha256 : Sha256)
    (reportJson : ProbeExecutionReport → Option Bytes) (policy : AgentPolicy)
    (offers : List ProbeDefinition) (submission : ProbeSubmission) (trace : List (Event probing))
    (residual : Program probing InitialExecution)
    (reached : (executeRegisteredProbe sha256 reportJson policy (registered offers)
      submission).After trace residual) :
    (∀ before prepared limits, Program.Issued trace residual before (.run prepared limits) →
        probeRuns before = 0 ∧ ⟨.isCancelled, false⟩ ∈ before ∧
          ∃ definition requestLimits, definition.Safe ∧ limits = definition.limits ∧
            ProbeAllowed policy (registered offers) submission before definition prepared
              requestLimits) ∧
      (∀ rejected, residual = .done (.error rejected) → probeRuns trace = 0) ∧
      ∀ execution, residual = .done (.ok execution) → execution.result.outcome = .succeeded →
        ProbeReported sha256 reportJson policy (registered offers) submission trace
          execution.result := by
  have meets := @executeRegisteredProbe_meets policy (registered offers) submission sha256
    reportJson
  unfold Fallible.Meets at meets
  refine ⟨?_, ?_, ?_⟩
  · intro before prepared limits issued
    obtain ⟨first, uncancelled, definition, requestLimits, same, allowed⟩ :=
      meets.issued reached issued prepared limits rfl
    exact ⟨first, uncancelled, definition, requestLimits,
      (safe_of_registered allowed.registered).2, same, allowed⟩
  · rintro rejected rfl
    exact meets.after reached
  · rintro execution rfl
    exact meets.after reached

/-- A request for the wireless status of a label printer. -/
def wirelessSubmission : ProbeSubmission where
  request := {
    requestId := "r1", contractVersion := 1, authenticatedPrincipal := "user"
    printerId := "p1", endpointGeneration := 1, expiresAtUnixMs := 10
    limits := some ⟨5000, 4096⟩, operation := some .runProbe }
  probeId := "brother.wireless-status.v1"
  nowUnixMs := 5
  target := {
    printerId := "p1", endpointGeneration := 1, endpointIdentity := "usb-1", transport := .usb
    protocol := .brother, manufacturer := some "BROTHER", model := none, firmware := none
    printerDefinition := none }

/-- An agent that publishes the printer, and a printer that is connected. -/
def wirelessAnswer : Unit → (op : ProbeOperation) → op.Reply × Unit
  | _, .printer printerId => (some ⟨printerId, 1, ⟨.ipp, "host", 631, "/ipp"⟩⟩, ())
  | _, .isCancelled => (false, ())
  | _, .run _ _ => (some (.ok ⟨asBytes "458867:1", 7⟩), ())

/-- The digests of the endpoint and of the answer. -/
def wirelessSha256 : Sha256 := fun input =>
  if input = asBytes "usb-1" then
    ⟨[0xfc, 0x4e, 0xf6, 0xc8, 0x4d, 0x3c, 0x1d, 0xb6, 0x9c, 0x44, 0x02,
      0x91, 0x31, 0x86, 0xae, 0xe4, 0xaf, 0x58, 0x11, 0x37, 0x4a, 0xc1,
      0xb3, 0x2a, 0x35, 0x7d, 0xce, 0x80, 0x01, 0xd5, 0x06, 0x4b], rfl⟩
  else
    ⟨[0xd5, 0xfd, 0x26, 0x2a, 0x19, 0x9f, 0x60, 0x37, 0x51, 0xa4, 0x27,
      0x2e, 0x26, 0x1b, 0x95, 0xcf, 0x95, 0xdb, 0x06, 0x17, 0xc8, 0xba,
      0xf6, 0xb9, 0xac, 0x1f, 0x0b, 0x85, 0x26, 0xd6, 0x87, 0x35], rfl⟩

/-- A JSON text without a character to escape. -/
def jsonText (text : String) : String := "\"" ++ text ++ "\""

/-- A JSON object, from the names of its members and their JSON. -/
def jsonObject (members : List (String × String)) : String :=
  let written := members.map fun (name, json) => jsonText name ++ ":" ++ json
  "\x7b" ++ String.intercalate "," written ++ "\x7d"

/-- The JSON of the origin of a report, for an answer of a label printer over USB. -/
def wirelessOriginJson (origin : ObservationOrigin) : String :=
  jsonObject [("agentId", origin.agentId.elim "null" jsonText),
    ("printerId", jsonText origin.printerId), ("endpoint", jsonText origin.endpoint),
    ("endpointGeneration", toString origin.endpointGeneration.toNat),
    ("transport", jsonText "usb"), ("protocol", jsonText "brother"),
    ("requestId", jsonText origin.requestId), ("probeId", origin.probeId.elim "null" jsonText),
    ("observedAt", jsonText origin.observedAt),
    ("qualification", origin.qualification.elim "null" fun qualification => jsonObject [
      ("qualificationId", jsonText qualification.qualificationId),
      ("firmware", qualification.firmware.elim "null" jsonText),
      ("responseHash", qualification.responseHash.elim "null" jsonText)])]

/-- The JSON of the report of a wireless status, for an answer of a label printer over USB. -/
def wirelessReportJson (report : ProbeExecutionReport) : Option Bytes :=
  if let .brotherWirelessStatus connected := report.result then
    some (asBytes (jsonObject [("probeId", jsonText report.probeId),
      ("qualificationId", jsonText report.qualificationId),
      ("printerId", jsonText report.printerId), ("endpoint", jsonText report.endpoint),
      ("endpointGeneration", toString report.endpointGeneration.toNat),
      ("transport", jsonText "usb"), ("protocol", jsonText "brother"),
      ("durationMs", toString report.durationMs.toNat),
      ("limits", jsonObject [("timeoutMs", toString report.limits.timeoutMs.toNat),
        ("idleTimeoutMs", toString report.limits.idleTimeoutMs.toNat),
        ("maximumResponseBytes", toString report.limits.maximumResponseBytes)]),
      ("responseBytes", toString report.responseBytes),
      ("responseHash", jsonText report.responseHash),
      ("configurationChanged", toString report.configurationChanged),
      ("result", jsonObject [("kind", jsonText "brother-wireless-status"),
        ("value", toString connected)]),
      ("origin", wirelessOriginJson report.origin)]))
  else
    none

/-- The run of the request. -/
def wirelessRun : List (Event probing) × InitialExecution :=
  (executeRegisteredProbe wirelessSha256 wirelessReportJson ⟨"a1", 1, 60000, 4096⟩
    (registered builtinProbes) wirelessSubmission).run wirelessAnswer ()

theorem registered_probe_execution_wireless :
    ∃ execution : AcceptedExecution, wirelessRun.2 = .ok execution ∧
      execution.result.outcome = .succeeded ∧ probeRuns wirelessRun.1 = 1 ∧
      ProbeReported wirelessSha256 wirelessReportJson ⟨"a1", 1, 60000, 4096⟩
        (registered builtinProbes) wirelessSubmission wirelessRun.1 execution.result := by
  have counted : probeRuns wirelessRun.1 = 1 := by decide +kernel
  have succeeds : (wirelessRun.2.toOption.any fun execution =>
      execution.result.outcome = .succeeded) = true := by decide +kernel
  cases ran : wirelessRun.2 with
  | error rejected => rw [ran] at succeeds; cases succeeds
  | ok execution =>
      rw [ran] at succeeds
      have succeeded := of_decide_eq_true succeeds
      have reached := Program.after_run wirelessAnswer () (executeRegisteredProbe wirelessSha256
        wirelessReportJson ⟨"a1", 1, 60000, 4096⟩ (registered builtinProbes) wirelessSubmission)
      exact ⟨execution, rfl, succeeded, counted,
        (registered_probe_execution _ _ _ _ _ _ _ reached).2.2 execution
          (congrArg Program.done ran) succeeded⟩

end PrinterSdk.Agent
