import PrinterSdk.Ipp.EncodeSpec

/-!
# IPP requests

The requests the clients of the repository build, and the operation that an encoded
request asks for.
-/

namespace PrinterSdk.Ipp

open PrinterSdk.Data

/-- `Attribute::new`. -/
def Attribute.single (name : Bytes) (value : Value) : Attribute := ⟨name, [value]⟩

/-- `get_printer_attributes_request`. -/
def getPrinterAttributesRequest (printerUri : Bytes) (requestedAttributes : List Bytes)
    (documentFormat : Option Bytes) (requestId : UInt32) : Message where
  version := ⟨2, 0⟩
  code := getPrinterAttributes
  requestId
  groups := [{
    tag := operationAttributesTag
    attributes := [
      .single (asBytes "attributes-charset") (.raw .charset (asBytes "utf-8")),
      .single (asBytes "attributes-natural-language") (.raw .naturalLanguage (asBytes "en")),
      .single (asBytes "printer-uri") (.raw .uri printerUri)] ++
      (documentFormat.map fun format =>
        .single (asBytes "document-format") (.raw .mimeMediaType format)).toList ++
      (if requestedAttributes.isEmpty then []
      else [⟨asBytes "requested-attributes", requestedAttributes.map (.raw .keyword)⟩]) }]
  originalBytes := []

/-- `SupportedValuesRequestError`. -/
inductive SupportedValuesRequestError where
  | invalidRequestedAttribute
  | missingRequestedAttribute
  deriving DecidableEq, Repr

/-- `get_printer_supported_values_request`. -/
def getPrinterSupportedValuesRequest (printerUri : Bytes) (requestedAttributes : List Bytes)
    (requestId : UInt32) : Except SupportedValuesRequestError Message := do
  refuseIf requestedAttributes.isEmpty .missingRequestedAttribute
  refuseIf (requestedAttributes.any fun attr =>
    !endsWith attr (asBytes "-supported") || attr == asBytes "all") .invalidRequestedAttribute
  return { getPrinterAttributesRequest printerUri requestedAttributes none requestId with
    code := getPrinterSupportedValues }

/-- `administration::set_printer_attributes_request`. -/
def setPrinterAttributesRequest (printerUri setting : Bytes) (requestedValue : Value)
    (requestId : UInt32) : Message :=
  let request := getPrinterAttributesRequest printerUri [] none requestId
  { request with
    code := setPrinterAttributes
    groups := request.groups ++
      [⟨printerAttributesTag, [Attribute.single setting requestedValue]⟩] }

/-- The operation of a request on the wire: the third and fourth octet. -/
def operationCode (body : Bytes) : UInt16 := u16OfBytes ((body.drop 2).take 2)

/-- An encoded request asks for the operation of its message. -/
theorem operationCode_encode {message : Message} {limits : Limits} {body : Bytes}
    (encoded : encode message limits = .ok body) : operationCode body = message.code := by
  obtain ⟨-, -, -, rfl⟩ := (encode_eq_ok _ _ _).mp encoded
  have octets : (message.wire.drop 2).take 2 = u16Bytes message.code := by
    simp only [Message.wire, Message.header, List.cons_append, List.drop_succ_cons,
      List.drop_zero, List.append_assoc]
    exact List.take_left' (length_u16Bytes _)
  rw [operationCode, octets, u16OfBytes_u16Bytes]

end PrinterSdk.Ipp
