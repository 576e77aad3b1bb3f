import PrinterSdk.Data.Digest
import PrinterSdk.Discovery.Snapshot
import PrinterSdk.Native.BrotherSession

/-!
# Brother device settings

The retrieval of `brother_device_settings.rs`: a fixed model profile, an identity that
must match it, then one query at a time inside the settings mode, which is left again
at the end.
-/

namespace PrinterSdk.Native

open PrinterSdk.Data PrinterSdk.Interaction PrinterSdk.Executor PrinterSdk.Discovery

/-! ## Commands and profiles -/

/-- `STATUS_REQUEST`. -/
def statusRequest : Bytes := [0x1b, 0x40, 0x1b, 0x69, 0x53]

/-- `ENTER_SETTINGS_MODE`. -/
def enterSettingsMode : Bytes := [0x1b, 0x69, 0x61, 0x01]

/-- `EXIT_SETTINGS_MODE`. -/
def exitSettingsMode : Bytes := [0x1b, 0x69, 0x61, 0xff]

/-- `RESPONSE_TIMEOUT`. -/
def settingsResponseTimeout : Duration := fromMillis 3000

/-- `DeviceSettingKind`. -/
inductive DeviceSettingKind where
  | commandMode
  | autoCut
  | printDensityColor1
  | printDensityColor2
  | serializeMode
  deriving DecidableEq, Repr

namespace DeviceSettingKind

/-- `COMMON`. -/
def common : List DeviceSettingKind := [commandMode, autoCut, printDensityColor1, serializeMode]

/-- `MULTICOLOR`. -/
def multicolor : List DeviceSettingKind :=
  [commandMode, autoCut, printDensityColor1, printDensityColor2, serializeMode]

/-- `DeviceSettingKind::id`. -/
def id : DeviceSettingKind → String
  | commandMode => "command-mode"
  | autoCut => "auto-cut"
  | printDensityColor1 => "print-density-color-1"
  | printDensityColor2 => "print-density-color-2"
  | serializeMode => "serialize-mode"

/-- `DeviceSettingKind::command`. -/
def command : DeviceSettingKind → Bytes
  | commandMode => [0x1b, 0x69, 0x55, 0x61, 0x01]
  | autoCut => [0x1b, 0x69, 0x58, 0x63, 0x31, 0, 0]
  | printDensityColor1 => [0x1b, 0x69, 0x58, 0x65, 0x31, 0, 0, 1]
  | printDensityColor2 => [0x1b, 0x69, 0x58, 0x65, 0x31, 0, 0, 2]
  | serializeMode => [0x1b, 0x69, 0x58, 0x4f, 0x31, 0, 0]

/-- `DeviceSettingKind::response_size`. -/
def responseSize : DeviceSettingKind → Nat
  | commandMode => 32
  | _ => 3

end DeviceSettingKind

/-- `BrotherModelProfile`. -/
structure BrotherModelProfile where
  id : String
  displayName : String
  seriesCode : UInt8
  modelCode : UInt8
  settings : List DeviceSettingKind
  deriving DecidableEq, Repr

/-- `MODEL_PROFILES`. -/
def modelProfiles : List BrotherModelProfile := [
  ⟨"ql-800", "Brother QL-800", 0x34, 0x38, DeviceSettingKind.multicolor⟩,
  ⟨"ql-810w", "Brother QL-810W", 0x34, 0x39, DeviceSettingKind.multicolor⟩,
  ⟨"ql-820nwb", "Brother QL-820NWB", 0x34, 0x41, DeviceSettingKind.multicolor⟩,
  ⟨"ql-1100", "Brother QL-1100", 0x34, 0x43, DeviceSettingKind.common⟩,
  ⟨"ql-1110nwb", "Brother QL-1110NWB", 0x34, 0x44, DeviceSettingKind.common⟩,
  ⟨"ql-1115nwb", "Brother QL-1115NWB", 0x34, 0x45, DeviceSettingKind.common⟩,
  ⟨"ql-1115nwb-cp", "Brother QL-1115NWB CP", 0x34, 0x45, DeviceSettingKind.common⟩,
  ⟨"pt-p710bt", "Brother PT-P710BT", 0x30, 0x76, DeviceSettingKind.common⟩,
  ⟨"pt-p715ebt", "Brother PT-P715eBT", 0x30, 0x77, DeviceSettingKind.common⟩,
  ⟨"pt-e720bt", "Brother PT-E720BT", 0x30, 0x81, DeviceSettingKind.common⟩]

/-! ## Observations -/

/-- `DeviceSettingObservation`. -/
structure DeviceSettingObservation where
  setting : DeviceSettingKind
  id : String
  value : Option SettingValue := none
  rawResponse : Option Bytes := none
  error : Option String := none

/-- `DeviceSettingsInspection`. -/
structure DeviceSettingsInspection where
  model : String
  identityResponse : Option Bytes := none
  observations : List DeviceSettingObservation := []
  error : Option String := none

/-- `command_mode`. -/
def commandModeName (value : UInt8) : Option String :=
  match value with
  | 0 => some "esc-p"
  | 1 => some "raster"
  | 3 => some "p-touch-template"
  | 4 => some "cpcl-emulation"
  | 5 => some "cpcl-line-print-emulation"
  | 6 => some "sbpl-emulation"
  | 7 => some "epl"
  | 8 => some "dpl"
  | _ => none

/-- `auto_cut`. -/
def autoCutName (value : UInt8) : Option String :=
  match value with
  | 0 => some "off"
  | 1 => some "auto-cut"
  | 8 => some "cut-at-end"
  | 9 => some "auto-cut-and-cut-at-end"
  | _ => none

/-- The byte of a response that holds the value. -/
def valueByte (setting : DeviceSettingKind) (response : Bytes) : Option UInt8 :=
  match setting with
  | .commandMode => response[30]?
  | _ => response[2]?

/-- `decode`. -/
def decodeSetting (setting : DeviceSettingKind) (response : Bytes) : Option SettingValue := do
  let value ← valueByte setting response
  match setting with
  | .commandMode => (commandModeName value).map .keyword
  | .autoCut => (autoCutName value).map .keyword
  | .printDensityColor1 | .printDensityColor2 =>
      if 123 ≤ value ∧ value ≤ 133 then some (.integer (Int64.ofInt (Int.ofNat value.toNat - 128)))
      else none
  | .serializeMode =>
      match value with
      | 0 => some (.keyword "from-starting-value")
      | 1 => some (.keyword "continue-from-last")
      | _ => none

/-! ## The session -/

/-- `write_command`.  The limit is read again for the text of the error. -/
def writeCommand (command : Bytes) : Session Unit := do
  if command.length > (← operate .commandLimit) then
    let limit ← operate .commandLimit
    throw ("command is " ++ toString command.length ++
      " bytes but transport command limit is " ++ toString limit)
  else
    writeBytes command

/-- The end of `read_exact_response`. -/
def exactly (expected : Nat) (response : Bytes) : Session Bytes :=
  if response.length ≠ expected then
    throw ("response was " ++ toString response.length ++ " bytes, expected " ++
      toString expected)
  else
    return response

/-- The loop of `read_exact_response`. -/
def readExactly (expected : Nat) : Nat → Bytes → Session Bytes
  | 0, _ => exhausted
  | rounds + 1, response => do
      if response.length < expected then
        if (← operate .elapsed) < settingsResponseTimeout then
          let clock ← operate .elapsed
          match ← waitFor (waitMillis settingsResponseTimeout clock) with
          | .response bytes =>
              if saturatingAdd response.length bytes.length > expected then
                throw ("response exceeded expected " ++ toString expected ++ "-byte size")
              else
                readExactly expected rounds (response ++ bytes)
          | _ => exactly expected response
        else
          exactly expected response
      else
        exactly expected response

/-- `read_exact_response`. -/
def readExactResponse (rounds expected : Nat) : Session Bytes := readExactly expected rounds []

/-- One query and its response. -/
def querySetting (rounds : Nat) (setting : DeviceSettingKind) : Session Bytes := do
  writeCommand setting.command
  readExactResponse rounds setting.responseSize

/-- What a response of the right size says. -/
def observedSetting (setting : DeviceSettingKind) (response : Bytes) : DeviceSettingObservation where
  setting
  id := setting.id
  value := decodeSetting setting response
  rawResponse := some response
  error :=
    if (decodeSetting setting response).isNone then some "response contained an unknown value"
    else none

/-- A query that failed. -/
def failedSetting (setting : DeviceSettingKind) (error : String) : DeviceSettingObservation where
  setting
  id := setting.id
  error := some error

/-- The loop over the settings of a profile: a failed query ends it, since what arrives
later can no longer be safely correlated. -/
def querySettings (rounds : Nat) :
    List DeviceSettingKind → DeviceSettingsInspection →
      Program sessionOperations DeviceSettingsInspection
  | [], inspection => return inspection
  | setting :: rest, inspection => do
      match ← (querySetting rounds setting).run with
      | .ok response =>
          querySettings rounds rest { inspection with
            observations := inspection.observations ++ [observedSetting setting response] }
      | .error error =>
          return { inspection with
            observations := inspection.observations ++ [failedSetting setting error]
            error := some ("stopped after " ++ setting.id ++
              " because the response stream can no longer be safely correlated") }

/-- The text of a failed exit. -/
def exitFailure (previous : Option String) (error : String) : String :=
  let message := "could not exit device-settings mode: " ++ error
  match previous with
  | some previous => previous ++ "; " ++ message
  | none => message

/-- Leave the settings mode. -/
def leaveSettings (inspection : DeviceSettingsInspection) :
    Program sessionOperations DeviceSettingsInspection := do
  match ← (writeCommand exitSettingsMode).run with
  | .ok () => return inspection
  | .error error => return { inspection with error := some (exitFailure inspection.error error) }

/-- The text of an identity that does not match. -/
def identityMismatch (profile : BrotherModelProfile) (status : Bytes) : String :=
  "printer identity mismatch: expected series/model " ++ hexByte profile.seriesCode ++ "/" ++
    hexByte profile.modelCode ++ ", got " ++ hexByte (status.getD 3 0) ++ "/" ++
    hexByte (status.getD 4 0)

/-- The steps before the settings mode: drain, identify, enter. -/
def enterSettings (rounds : Nat) (profile : BrotherModelProfile) :
    Fallible sessionOperations DeviceSettingsInspection DeviceSettingsInspection := do
  let inspection : DeviceSettingsInspection := { model := profile.id }
  Fallible.mapError (fun error => { inspection with
      error := some ("input drain failed: " ++ error) }) (drainStaleResponses rounds)
  Fallible.mapError (fun error => { inspection with error := some error })
    (writeCommand statusRequest)
  let status ← Fallible.mapError (fun error => { inspection with
      error := some ("status request failed: " ++ error) }) (readExactResponse rounds 32)
  let inspection := { inspection with identityResponse := some status }
  -- the response has 32 bytes, so both are there
  if status.getD 3 0 ≠ profile.seriesCode ∨ status.getD 4 0 ≠ profile.modelCode then
    throw { inspection with error := some (identityMismatch profile status) }
  Fallible.mapError (fun error => { inspection with
      error := some ("could not enter device-settings mode: " ++ error) })
    (writeCommand enterSettingsMode)
  return inspection

/-- `retrieve_device_settings`. -/
def retrieveDeviceSettings (rounds : Nat) (profile : BrotherModelProfile) :
    Program sessionOperations DeviceSettingsInspection := do
  match ← (enterSettings rounds profile).run with
  | .error inspection => return inspection
  | .ok inspection =>
      let inspection ← querySettings rounds profile.settings inspection
      leaveSettings inspection

end PrinterSdk.Native
