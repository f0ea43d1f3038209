import KnxRs.ApduCodec
import KnxRs.InterfaceObjects

set_option autoImplicit false

/-!
# Incoming application-layer services

The indications a device serves and their parsing from an APDU. Every parser
checks the length of its fixed part before it reads a field.
-/
namespace KnxRs.AppParse
open CoreTypes ApduCodec InterfaceObjects

inductive AppLayerError where
  | unsupportedApdu (apduType : ApduType)
  | truncatedPayload (expected got : Nat)
  | malformedData
  deriving DecidableEq

inductive AppIndication where
  | groupValueWrite (asap : UInt16) (data : List UInt8)
  | groupValueResponse (asap : UInt16) (data : List UInt8)
  | groupValueRead (asap : UInt16)
  | propertyValueRead (objectIndex propertyId count : UInt8) (startIndex : UInt16)
  | propertyValueWrite (objectIndex propertyId count : UInt8) (startIndex : UInt16)
      (data : List UInt8)
  | deviceDescriptorRead (descriptorType : UInt8)
  | memoryRead (count : UInt8) (address : UInt16)
  | memoryWrite (count : UInt8) (address : UInt16) (data : List UInt8)
  | restart
  | individualAddressWrite (address : UInt16)
  | individualAddressRead
  | authorizeRequest (key : UInt32)
  | restartMasterReset (eraseCode channel : UInt8)
  | propertyDescriptionRead (objectIndex propertyId propertyIndex : UInt8)
  | memoryExtRead (count : UInt8) (address : UInt32)
  | memoryExtWrite (count : UInt8) (address : UInt32) (data : List UInt8)
  | individualAddressSerialNumberRead (serial : Bytes6)
  | individualAddressSerialNumberWrite (serial : Bytes6) (address : UInt16)
  | keyWrite (level : UInt8) (key : UInt32)
  | functionPropertyCommand (objectIndex propertyId : UInt8) (data : List UInt8)
  | functionPropertyState (objectIndex propertyId : UInt8) (data : List UInt8)
  | systemNetworkParameterRead (objectType propertyId : UInt16) (testInfo : List UInt8)
  | adcRead (channel count : UInt8)
  | propertyValueExtRead (objectType objectInstance propertyId : UInt16) (count : UInt8)
      (startIndex : UInt16)
  | propertyValueExtWriteCon (objectType objectInstance propertyId : UInt16) (count : UInt8)
      (startIndex : UInt16) (data : List UInt8)
  | propertyValueExtWriteUnCon (objectType objectInstance propertyId : UInt16) (count : UInt8)
      (startIndex : UInt16) (data : List UInt8)
  | propertyExtDescriptionRead (objectType objectInstance propertyId : UInt16)
      (descriptionType : UInt8) (propertyIndex : UInt16)
  deriving DecidableEq

def mask6Bit : UInt8 := 0x3F
def mask4Bit : UInt8 := 0x0F

/-- `check_len(data, expected)?`, and then the indication. -/
def withLen (data : List UInt8) (expected : Nat) (indication : AppIndication) :
    Except AppLayerError AppIndication :=
  if expected ≤ data.length then .ok indication
  else .error (.truncatedPayload expected data.length)

def word (data : List UInt8) (i : Nat) : UInt16 := be16 (data.getD i 0) (data.getD (i + 1) 0)

def startIndex12 (hi lo : UInt8) : UInt16 := ((hi &&& mask4Bit).toUInt16 <<< 8) ||| lo.toUInt16

def parsePropertyValueRead (data : List UInt8) : Except AppLayerError AppIndication :=
  withLen data 4 (.propertyValueRead (data.getD 0 0) (data.getD 1 0)
    ((data.getD 2 0 >>> 4) &&& mask4Bit) (startIndex12 (data.getD 2 0) (data.getD 3 0)))

def parsePropertyValueWrite (data : List UInt8) : Except AppLayerError AppIndication :=
  withLen data 4 (.propertyValueWrite (data.getD 0 0) (data.getD 1 0)
    ((data.getD 2 0 >>> 4) &&& mask4Bit) (startIndex12 (data.getD 2 0) (data.getD 3 0))
    (data.drop 4))

def parseMemoryRead (data : List UInt8) : Except AppLayerError AppIndication :=
  withLen data 3 (.memoryRead (data.getD 0 0 &&& mask6Bit) (word data 1))

def parseMemoryWrite (data : List UInt8) : Except AppLayerError AppIndication :=
  withLen data 3 (.memoryWrite (data.getD 0 0 &&& mask6Bit) (word data 1) (data.drop 3))

def parseIndividualAddressWrite (data : List UInt8) : Except AppLayerError AppIndication :=
  withLen data 2 (.individualAddressWrite (word data 0))

def parseAuthorizeRequest (data : List UInt8) : Except AppLayerError AppIndication :=
  withLen data 5 (.authorizeRequest
    (be32 (data.getD 1 0) (data.getD 2 0) (data.getD 3 0) (data.getD 4 0)))

/-- Two octets are erase code and channel; of three or more, the second and third are. -/
def parseRestartMasterReset (data : List UInt8) : Except AppLayerError AppIndication :=
  match data with
  | [eraseCode, channel] => .ok (.restartMasterReset eraseCode channel)
  | _ :: eraseCode :: channel :: _ => .ok (.restartMasterReset eraseCode channel)
  | _ => .error (.truncatedPayload 2 data.length)

def parsePropertyDescriptionRead (data : List UInt8) : Except AppLayerError AppIndication :=
  withLen data 3 (.propertyDescriptionRead (data.getD 0 0) (data.getD 1 0) (data.getD 2 0))

def extAddress (data : List UInt8) : UInt32 :=
  be32 0 (data.getD 1 0) (data.getD 2 0) (data.getD 3 0)

def parseMemoryExtRead (data : List UInt8) : Except AppLayerError AppIndication :=
  withLen data 4 (.memoryExtRead (data.getD 0 0) (extAddress data))

def parseMemoryExtWrite (data : List UInt8) : Except AppLayerError AppIndication :=
  withLen data 4 (.memoryExtWrite (data.getD 0 0) (extAddress data) (data.drop 4))

def parseIndividualAddressSerialNumberRead (data : List UInt8) :
    Except AppLayerError AppIndication :=
  withLen data 6 (.individualAddressSerialNumberRead (.ofList data))

def parseIndividualAddressSerialNumberWrite (data : List UInt8) :
    Except AppLayerError AppIndication :=
  withLen data 8 (.individualAddressSerialNumberWrite (.ofList data) (word data 6))

def parseKeyWrite (data : List UInt8) : Except AppLayerError AppIndication :=
  withLen data 5 (.keyWrite (data.getD 0 0)
    (be32 (data.getD 1 0) (data.getD 2 0) (data.getD 3 0) (data.getD 4 0)))

def parseFunctionPropertyCommand (data : List UInt8) : Except AppLayerError AppIndication :=
  withLen data 2 (.functionPropertyCommand (data.getD 0 0) (data.getD 1 0) (data.drop 2))

def parseFunctionPropertyState (data : List UInt8) : Except AppLayerError AppIndication :=
  withLen data 2 (.functionPropertyState (data.getD 0 0) (data.getD 1 0) (data.drop 2))

def parseSystemNetworkParameterRead (data : List UInt8) : Except AppLayerError AppIndication :=
  withLen data 4 (.systemNetworkParameterRead (word data 0) (word data 2 >>> 4) (data.drop 4))

def parseAdcRead (data : List UInt8) : Except AppLayerError AppIndication :=
  withLen data 2 (.adcRead (data.getD 0 0 &&& mask6Bit) (data.getD 1 0))

/-! ## Extended property services -/

structure ExtOtOiPid where
  objectType : UInt16
  objectInstance : UInt16
  propertyId : UInt16

def parseExtOtOiPid (data : List UInt8) : ExtOtOiPid where
  objectType := word data 0
  objectInstance := ((data.getD 2 0).toUInt16 <<< 4) ||| ((data.getD 3 0).toUInt16 >>> 4)
  propertyId := startIndex12 (data.getD 3 0) (data.getD 4 0)

def parsePropertyValueExtRead (data : List UInt8) : Except AppLayerError AppIndication :=
  let h := parseExtOtOiPid data
  withLen data 8 (.propertyValueExtRead h.objectType h.objectInstance h.propertyId
    (data.getD 5 0) (word data 6))

def parsePropertyValueExtWriteCon (data : List UInt8) : Except AppLayerError AppIndication :=
  let h := parseExtOtOiPid data
  withLen data 8 (.propertyValueExtWriteCon h.objectType h.objectInstance h.propertyId
    (data.getD 5 0) (word data 6) (data.drop 8))

def parsePropertyValueExtWriteUncon (data : List UInt8) : Except AppLayerError AppIndication :=
  let h := parseExtOtOiPid data
  withLen data 8 (.propertyValueExtWriteUnCon h.objectType h.objectInstance h.propertyId
    (data.getD 5 0) (word data 6) (data.drop 8))

def parsePropertyExtDescriptionRead (data : List UInt8) : Except AppLayerError AppIndication :=
  let h := parseExtOtOiPid data
  withLen data 8 (.propertyExtDescriptionRead h.objectType h.objectInstance h.propertyId
    (data.getD 5 0 >>> 4) (startIndex12 (data.getD 6 0) (data.getD 7 0)))

/-! ## Dispatch -/

def parseIndication (apduType : ApduType) (data : List UInt8) :
    Except AppLayerError AppIndication :=
  match apduType with
  | .groupValueWrite => .ok (.groupValueWrite 0 data)
  | .groupValueResponse => .ok (.groupValueResponse 0 data)
  | .groupValueRead => .ok (.groupValueRead 0)
  | .propertyValueRead => parsePropertyValueRead data
  | .propertyValueWrite => parsePropertyValueWrite data
  | .deviceDescriptorRead => .ok (.deviceDescriptorRead (data.headD 0 &&& mask6Bit))
  | .memoryRead => parseMemoryRead data
  | .memoryWrite => parseMemoryWrite data
  | .restart => .ok .restart
  | .individualAddressWrite => parseIndividualAddressWrite data
  | .individualAddressRead => .ok .individualAddressRead
  | .authorizeRequest => parseAuthorizeRequest data
  | .restartMasterReset => parseRestartMasterReset data
  | .propertyDescriptionRead => parsePropertyDescriptionRead data
  | .memoryExtRead => parseMemoryExtRead data
  | .memoryExtWrite => parseMemoryExtWrite data
  | .individualAddressSerialNumberRead => parseIndividualAddressSerialNumberRead data
  | .individualAddressSerialNumberWrite => parseIndividualAddressSerialNumberWrite data
  | .keyWrite => parseKeyWrite data
  | .functionPropertyCommand => parseFunctionPropertyCommand data
  | .functionPropertyState => parseFunctionPropertyState data
  | .systemNetworkParameterRead => parseSystemNetworkParameterRead data
  | .adcRead => parseAdcRead data
  | .propertyValueExtRead => parsePropertyValueExtRead data
  | .propertyValueExtWriteCon => parsePropertyValueExtWriteCon data
  | .propertyValueExtWriteUnCon => parsePropertyValueExtWriteUncon data
  | .propertyExtDescriptionRead => parsePropertyExtDescriptionRead data
  | _ => .error (.unsupportedApdu apduType)

/-- The APDU of a connection's data, back from the octets the transport layer has kept. -/
def parseRawApdu (data : List UInt8) : Except AppLayerError AppIndication :=
  let npduLength : UInt8 := if data.length - 1 ≤ 255 then UInt8.ofNat (data.length - 1) else 255
  match Apdu.parse data npduLength with
  | some apdu => parseIndication apdu.apduType apdu.data
  | none => .error .malformedData

end KnxRs.AppParse
