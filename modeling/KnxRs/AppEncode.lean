import KnxRs.AppParse

set_option autoImplicit false

/-!
# Outgoing application-layer payloads

The response encoders, and how long what they encode can be.
-/
namespace KnxRs.AppEncode
open CoreTypes ApduCodec DptCodec Properties InterfaceObjects AppParse

def apciHi (t : ApduType) : UInt8 := (t.raw >>> 8).toUInt8

def apciLo (t : ApduType) : UInt8 := t.raw.toUInt8

def service (t : ApduType) (rest : List UInt8) : List UInt8 := apciHi t :: apciLo t :: rest

def memoryResponseMaxLen : Nat := 15
def mask12Bit : UInt16 := 0x0FFF
def writeEnableFlag : UInt8 := 0x80
def descriptorTypeUnsupported : UInt8 := 0x3F

def encodeGroupValue (t : ApduType) (data : List UInt8) : List UInt8 :=
  match data with
  | [value] =>
    if value ≤ mask6Bit then [apciHi t, apciLo t ||| (value &&& mask6Bit)] else service t data
  | _ => service t data

def encodeGroupValueWrite (data : List UInt8) : List UInt8 :=
  encodeGroupValue .groupValueWrite data

def encodeGroupValueResponse (data : List UInt8) : List UInt8 :=
  encodeGroupValue .groupValueResponse data

inductive GroupValueService where
  | response | write
  deriving DecidableEq

def encodeGroupValueForDpt (dpt : Option Dpt) (data : List UInt8)
    (s : GroupValueService) : Except ApduEncodeError (List UInt8) :=
  match dpt with
  | none => .ok (match s with
    | .response => encodeGroupValueResponse data
    | .write => encodeGroupValueWrite data)
  | some dpt =>
    match GroupValuePayload.fromDptEncoded dpt data with
    | .error e => .error e
    | .ok payload =>
      let apdu := match s with
        | .response => GroupValueApdu.response payload
        | .write => GroupValueApdu.write payload
      apdu.tryToBytes 0

def encodeGroupValueWriteForDpt (dpt : Option Dpt) (data : List UInt8) :
    Except ApduEncodeError (List UInt8) := encodeGroupValueForDpt dpt data .write

def encodeGroupValueResponseForDpt (dpt : Option Dpt) (data : List UInt8) :
    Except ApduEncodeError (List UInt8) := encodeGroupValueForDpt dpt data .response

def encodeGroupValueRead : List UInt8 := service .groupValueRead []

def encodeIndividualAddressResponse : List UInt8 := service .individualAddressResponse []

def encodeDeviceDescriptorResponse (maskVersion : UInt16) : List UInt8 :=
  service .deviceDescriptorResponse (be16Bytes maskVersion)

def encodeDeviceDescriptorUnsupported : List UInt8 :=
  [apciHi .deviceDescriptorResponse, descriptorTypeUnsupported]

def encodePropertyResponse (objectIndex propertyId count : UInt8) (startIndex : UInt16)
    (data : List UInt8) : List UInt8 :=
  let countStart := ((count &&& mask4Bit).toUInt16 <<< 12) ||| (startIndex &&& mask12Bit)
  service .propertyValueResponse (objectIndex :: propertyId :: (be16Bytes countStart ++ data))

def encodeMemoryResponse (address : UInt16) (data : List UInt8) : List UInt8 :=
  let data := data.take (min data.length memoryResponseMaxLen)
  apciHi .memoryResponse :: (apciLo .memoryResponse ||| (UInt8.ofNat data.length &&& mask4Bit)) ::
    (be16Bytes address ++ data)

def encodeAuthorizeResponse (level : UInt8) : List UInt8 := service .authorizeResponse [level]

def encodeKeyResponse (level : UInt8) : List UInt8 := service .keyResponse [level]

def encodeRestartResponse (errorCode : UInt8) (processTime : UInt16) : List UInt8 :=
  apciHi .restartMasterReset :: (apciLo .restartMasterReset ||| 0x20) :: errorCode ::
    be16Bytes processTime

def propertyDescriptionFields (writeEnable : Bool) (pdt : UInt8) (maxElements : UInt16)
    (access : UInt8) : List UInt8 :=
  [if writeEnable then writeEnableFlag ||| (pdt &&& mask6Bit) else pdt &&& mask6Bit,
    ((maxElements >>> 8) &&& mask4Bit.toUInt16).toUInt8, (maxElements &&& 0xFF).toUInt8, access]

def encodePropertyDescriptionResponse (objectIndex propertyId propertyIndex : UInt8)
    (writeEnable : Bool) (pdt : UInt8) (maxElements : UInt16) (access : UInt8) : List UInt8 :=
  service .propertyDescriptionResponse (objectIndex :: propertyId :: propertyIndex ::
    propertyDescriptionFields writeEnable pdt maxElements access)

def encodeMemoryExtReadResponse (returnCode : UInt8) (address : UInt32) (data : List UInt8) :
    List UInt8 :=
  service .memoryExtReadResponse (returnCode :: ((be32Bytes address).drop 1 ++ data))

def encodeMemoryExtWriteResponse (returnCode : UInt8) (address : UInt32) : List UInt8 :=
  service .memoryExtWriteResponse (returnCode :: (be32Bytes address).drop 1)

def encodeIndividualAddressSerialNumberResponse (serial : Bytes6) (domainAddress : UInt16) :
    List UInt8 :=
  service .individualAddressSerialNumberResponse (serial.octets ++ be16Bytes domainAddress)

def encodeSystemNetworkParameterResponse (objectType propertyId : UInt16)
    (testInfo testResult : List UInt8) : List UInt8 :=
  service .systemNetworkParameterResponse
    (be16Bytes objectType ++ be16Bytes (propertyId <<< 4) ++ testInfo ++ testResult)

def encodeAdcResponse (channel count : UInt8) (value : UInt16) : List UInt8 :=
  apciHi .adcResponse :: (apciLo .adcResponse ||| (channel &&& mask6Bit)) :: count ::
    be16Bytes value

def encodeFunctionPropertyStateResponse (objectIndex propertyId : UInt8)
    (resultData : List UInt8) : List UInt8 :=
  service .functionPropertyStateResponse (objectIndex :: propertyId :: resultData)

def encodeExtOtOiPid (objectType objectInstance propertyId : UInt16) : List UInt8 :=
  be16Bytes objectType ++
    [((objectInstance >>> 4) &&& 0xFF).toUInt8,
      (((objectInstance &&& mask4Bit.toUInt16) <<< 4) |||
        ((propertyId >>> 8) &&& mask4Bit.toUInt16)).toUInt8,
      (propertyId &&& 0xFF).toUInt8]

def encodeExtPropertyHeader (objectType objectInstance propertyId : UInt16) (count : UInt8)
    (startIndex : UInt16) : List UInt8 :=
  encodeExtOtOiPid objectType objectInstance propertyId ++ count :: be16Bytes startIndex

def encodePropertyValueExtResponse (objectType objectInstance propertyId : UInt16)
    (count : UInt8) (startIndex : UInt16) (data : List UInt8) : List UInt8 :=
  service .propertyValueExtResponse
    (encodeExtPropertyHeader objectType objectInstance propertyId count startIndex ++ data)

def encodePropertyValueExtWriteConResponse (objectType objectInstance propertyId : UInt16)
    (count : UInt8) (startIndex : UInt16) (returnCode : UInt8) : List UInt8 :=
  let noOfElem := if returnCode = 0 then count else 0
  service .propertyValueExtWriteConResponse
    (encodeExtPropertyHeader objectType objectInstance propertyId noOfElem startIndex ++
      [returnCode])

def encodePropertyExtDescriptionResponse (objectType objectInstance propertyId : UInt16)
    (propertyIndex : UInt16) (descriptionType : UInt8) (desc : PropertyDescription) :
    List UInt8 :=
  service .propertyExtDescriptionResponse (encodeExtOtOiPid objectType objectInstance propertyId ++
    ((descriptionType &&& mask4Bit) <<< 4 ||| ((propertyIndex >>> 8).toUInt8 &&& mask4Bit)) ::
    (propertyIndex &&& 0xFF).toUInt8 ::
    propertyDescriptionFields desc.writeEnable desc.dataType.raw desc.maxElements desc.access.raw)

/-- The services that keep the second APCI octet carry it as the first octet of their data. -/
def encodeRawApdu (apdu : Apdu) : List UInt8 :=
  if apdu.apduType.keepsLowOctet ∧ apdu.data ≠ [] then apciHi apdu.apduType :: apdu.data
  else service apdu.apduType apdu.data

/-! ## Lengths -/

theorem be16Bytes_length (v : UInt16) : (be16Bytes v).length = 2 := rfl

theorem be32Bytes_length (v : UInt32) : (be32Bytes v).length = 4 := rfl

theorem encodeGroupValue_length (t : ApduType) (data : List UInt8) :
    (encodeGroupValue t data).length ≤ data.length + 2 := by
  unfold encodeGroupValue
  split
  · split_ifs <;> simp [service]
  · simp [service]

theorem encodeGroupValueForDpt_length {dpt : Option Dpt} {data bytes : List UInt8}
    {s : GroupValueService} (h : encodeGroupValueForDpt dpt data s = .ok bytes) :
    bytes.length ≤ data.length + 2 := by
  unfold encodeGroupValueForDpt at h
  split at h
  · cases h
    cases s <;> exact encodeGroupValue_length _ data
  · split at h
    · cases h
    · next hp =>
      cases s with
      | response => exact GroupValueApdu.tryToBytes_length hp (.inl rfl) h
      | write => exact GroupValueApdu.tryToBytes_length hp (.inr rfl) h

theorem encodePropertyResponse_length (objectIndex propertyId count : UInt8)
    (startIndex : UInt16) (data : List UInt8) :
    (encodePropertyResponse objectIndex propertyId count startIndex data).length =
      data.length + 6 := by
  simp [encodePropertyResponse, service, be16Bytes_length]
  omega

theorem encodeMemoryResponse_length (address : UInt16) (data : List UInt8) :
    (encodeMemoryResponse address data).length ≤ 19 := by
  simp only [encodeMemoryResponse, List.length_cons, List.length_append, be16Bytes_length,
    List.length_take, memoryResponseMaxLen]
  omega

theorem encodeMemoryExtReadResponse_length (returnCode : UInt8) (address : UInt32)
    (data : List UInt8) :
    (encodeMemoryExtReadResponse returnCode address data).length = data.length + 6 := by
  simp [encodeMemoryExtReadResponse, service, be32Bytes_length]
  omega

theorem encodeSystemNetworkParameterResponse_length (objectType propertyId : UInt16)
    (testInfo testResult : List UInt8) :
    (encodeSystemNetworkParameterResponse objectType propertyId testInfo testResult).length =
      testInfo.length + testResult.length + 6 := by
  simp [encodeSystemNetworkParameterResponse, service, be16Bytes_length]
  omega

theorem encodePropertyValueExtResponse_length (objectType objectInstance propertyId : UInt16)
    (count : UInt8) (startIndex : UInt16) (data : List UInt8) :
    (encodePropertyValueExtResponse objectType objectInstance propertyId count startIndex
      data).length = data.length + 10 := by
  simp [encodePropertyValueExtResponse, encodeExtPropertyHeader, encodeExtOtOiPid, service,
    be16Bytes_length]
  omega

end KnxRs.AppEncode
