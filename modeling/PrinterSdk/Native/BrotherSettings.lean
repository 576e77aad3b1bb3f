import PrinterSdk.Brother.Wifi
import PrinterSdk.Native.BrotherSession

/-!
# Brother wireless settings

The read-only retrieval of `brother_settings.rs`: one inquiry for a known field, and a
reader that takes what has arrived for the reply as soon as it gives the field a value.
-/

namespace PrinterSdk.Native

open PrinterSdk.Data PrinterSdk.Interaction PrinterSdk.Executor PrinterSdk.Discovery
open PrinterSdk.Brother

/-- `MAX_RESPONSE_BYTES`. -/
def maxObjbrnetBytes : Nat := 4000

/-- `RESPONSE_TIMEOUT`. -/
def objbrnetTimeout : Duration := fromMillis 10000

/-- `MAX_ATTEMPTS`. -/
def maxAttempts : Nat := 2

/-- The invalidation bytes that make the firmware process the inquiry. -/
def invalidateBytes : Bytes := List.replicate 200 0

/-- `STATUS_PREAMBLE`. -/
def statusPreamble : Bytes := [0x1b, 0x40, 0x1b, 0x69, 0x61, 0x01]

/-- `STATUS_REQUEST` of this inspection. -/
def objbrnetStatusRequest : Bytes := [0x1b, 0x69, 0x53]

/-- `field_id`. -/
def fieldId : WirelessField → String
  | .connected => "wireless-state"
  | .ipv4 => "ipv4-address"
  | .ssid => "ssid"
  | .encryption => "encryption"
  | .authentication => "authentication"
  | .infrastructure => "infrastructure-enabled"
  | .wirelessDirect => "wireless-direct-enabled"

/-- `is_sensitive`. -/
def isSensitive : WirelessField → Bool
  | .ipv4 | .ssid => true
  | _ => false

/-- `BrotherSettingObservation`. -/
structure BrotherSettingObservation where
  field : WirelessField
  id : String
  oid : String
  sensitive : Bool
  value : Option SettingValue := none
  rawResponse : Option Bytes := none
  error : Option String := none

/-- `base_observation`. -/
def baseObservation (field : WirelessField) : BrotherSettingObservation where
  field
  id := fieldId field
  oid := field.oid
  sensitive := isSensitive field

/-- `failed_observation`. -/
def failedObservation (field : WirelessField) (error : String) : BrotherSettingObservation :=
  { baseObservation field with error := some error }

/-- The observation of a response. -/
def observedResponse (field : WirelessField) (response : Bytes) : BrotherSettingObservation :=
  { baseObservation field with
    rawResponse := some response
    value := decodeField field response
    error :=
      if (decodeField field response).isNone then
        some "response did not contain a valid value for the requested OID"
      else none }

/-- A complete late response for another OID. -/
def answersOther (field : WirelessField) (response : Bytes) : Bool :=
  WirelessField.all.any fun other =>
    decide (other ≠ field) && (parseOidValue response other.oid.toList).isSome

/-- The loop of `read_matching_response`. -/
def readMatching (field : WirelessField) : Nat → Bytes → Session Bytes
  | 0, _ => exhausted
  | rounds + 1, response => do
      if (← operate .elapsed) < objbrnetTimeout then
        let clock ← operate .elapsed
        match ← waitFor (waitMillis objbrnetTimeout clock) with
        | .response bytes =>
            if saturatingAdd response.length bytes.length > maxObjbrnetBytes then
              throw "response exceeded 4000-byte limit"
            else if (parseOidValue (response ++ bytes) field.oid.toList).isSome then
              return response ++ bytes
            else if answersOther field (response ++ bytes) then
              readMatching field rounds []
            else
              readMatching field rounds (response ++ bytes)
        | _ => throw "response timed out"
      else
        throw "response timed out"

/-- One attempt of the loop in `retrieve_field`. -/
def attemptField (rounds : Nat) (field : WirelessField) : Session Bytes := do
  writeBytes field.command
  writeBytes invalidateBytes
  writeBytes statusPreamble
  operate (.delay 100)
  writeBytes objbrnetStatusRequest
  readMatching field rounds []

/-- The attempts of `retrieve_field`; the last error is reported. -/
def attemptsField (rounds : Nat) (field : WirelessField) :
    Nat → String → Program sessionOperations BrotherSettingObservation
  | 0, lastError => return failedObservation field lastError
  | attempts + 1, _ => do
      match ← (attemptField rounds field).run with
      | .ok response => return observedResponse field response
      | .error error => attemptsField rounds field attempts error

/-- `retrieve_field`.  The limit is read again for the text of the error. -/
def retrieveField (rounds : Nat) (field : WirelessField) :
    Program sessionOperations BrotherSettingObservation := do
  let allowed : Nat ← @Program.perform sessionOperations .commandLimit
  if field.command.length > allowed then
    let limit : Nat ← @Program.perform sessionOperations .commandLimit
    return failedObservation field ("query is " ++ toString field.command.length ++
      " bytes but transport command limit is " ++ toString limit)
  else
    attemptsField rounds field maxAttempts "response timed out"

/-- `retrieve_wireless_setting`. -/
def retrieveWirelessSetting (rounds : Nat) (field : WirelessField) :
    Program sessionOperations BrotherSettingObservation := do
  match ← (drainStaleResponses rounds).run with
  | .ok () => retrieveField rounds field
  | .error error => return failedObservation field ("input drain failed: " ++ error)

end PrinterSdk.Native
