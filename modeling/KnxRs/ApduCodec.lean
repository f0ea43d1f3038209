import KnxRs.CoreTypes
import KnxRs.DptCodec
import Mathlib.Data.List.Basic

set_option autoImplicit false

/-!
# Application protocol data units

The services with their ten-bit codes, decoding of an APDU from a TPDU payload,
and encoding of group values.
-/
namespace KnxRs.ApduCodec
open CoreTypes DptCodec

inductive ApduType where
  | groupValueRead | groupValueResponse | groupValueWrite
  | individualAddressWrite | individualAddressRead | individualAddressResponse
  | individualAddressSerialNumberRead | individualAddressSerialNumberResponse
  | individualAddressSerialNumberWrite
  | systemNetworkParameterRead | systemNetworkParameterResponse | systemNetworkParameterWrite
  | domainAddressWrite | domainAddressRead | domainAddressResponse | domainAddressSelectiveRead
  | domainAddressSerialNumberRead | domainAddressSerialNumberResponse
  | domainAddressSerialNumberWrite
  | adcRead | adcResponse
  | propertyValueExtRead | propertyValueExtResponse | propertyValueExtWriteCon
  | propertyValueExtWriteConResponse | propertyValueExtWriteUnCon
  | propertyExtDescriptionRead | propertyExtDescriptionResponse
  | functionPropertyExtCommand | functionPropertyExtState | functionPropertyExtStateResponse
  | memoryExtWrite | memoryExtWriteResponse | memoryExtRead | memoryExtReadResponse
  | memoryRead | memoryResponse | memoryWrite
  | userMemoryRead | userMemoryResponse | userMemoryWrite
  | userManufacturerInfoRead | userManufacturerInfoResponse
  | functionPropertyCommand | functionPropertyState | functionPropertyStateResponse
  | deviceDescriptorRead | deviceDescriptorResponse
  | restart | restartMasterReset
  | routingTableOpen | routingTableRead | routingTableReadResponse | routingTableWrite
  | memoryRouterWrite | memoryRouterReadResponse
  | authorizeRequest | authorizeResponse | keyWrite | keyResponse
  | propertyValueRead | propertyValueResponse | propertyValueWrite
  | propertyDescriptionRead | propertyDescriptionResponse
  | secureService
  deriving DecidableEq

def ApduType.raw : ApduType → UInt16
  | .groupValueRead => 0x000
  | .groupValueResponse => 0x040
  | .groupValueWrite => 0x080
  | .individualAddressWrite => 0x0C0
  | .individualAddressRead => 0x100
  | .individualAddressResponse => 0x140
  | .individualAddressSerialNumberRead => 0x3DC
  | .individualAddressSerialNumberResponse => 0x3DD
  | .individualAddressSerialNumberWrite => 0x3DE
  | .systemNetworkParameterRead => 0x1C8
  | .systemNetworkParameterResponse => 0x1C9
  | .systemNetworkParameterWrite => 0x1CA
  | .domainAddressWrite => 0x3E0
  | .domainAddressRead => 0x3E1
  | .domainAddressResponse => 0x3E2
  | .domainAddressSelectiveRead => 0x3E3
  | .domainAddressSerialNumberRead => 0x3EC
  | .domainAddressSerialNumberResponse => 0x3ED
  | .domainAddressSerialNumberWrite => 0x3EE
  | .adcRead => 0x180
  | .adcResponse => 0x1C0
  | .propertyValueExtRead => 0x1CC
  | .propertyValueExtResponse => 0x1CD
  | .propertyValueExtWriteCon => 0x1CE
  | .propertyValueExtWriteConResponse => 0x1CF
  | .propertyValueExtWriteUnCon => 0x1D0
  | .propertyExtDescriptionRead => 0x1D2
  | .propertyExtDescriptionResponse => 0x1D3
  | .functionPropertyExtCommand => 0x1D4
  | .functionPropertyExtState => 0x1D5
  | .functionPropertyExtStateResponse => 0x1D6
  | .memoryExtWrite => 0x1FB
  | .memoryExtWriteResponse => 0x1FC
  | .memoryExtRead => 0x1FD
  | .memoryExtReadResponse => 0x1FE
  | .memoryRead => 0x200
  | .memoryResponse => 0x240
  | .memoryWrite => 0x280
  | .userMemoryRead => 0x2C0
  | .userMemoryResponse => 0x2C1
  | .userMemoryWrite => 0x2C2
  | .userManufacturerInfoRead => 0x2C5
  | .userManufacturerInfoResponse => 0x2C6
  | .functionPropertyCommand => 0x2C7
  | .functionPropertyState => 0x2C8
  | .functionPropertyStateResponse => 0x2C9
  | .deviceDescriptorRead => 0x300
  | .deviceDescriptorResponse => 0x340
  | .restart => 0x380
  | .restartMasterReset => 0x381
  | .routingTableOpen => 0x3C0
  | .routingTableRead => 0x3C1
  | .routingTableReadResponse => 0x3C2
  | .routingTableWrite => 0x3C3
  | .memoryRouterWrite => 0x3CA
  | .memoryRouterReadResponse => 0x3C9
  | .authorizeRequest => 0x3D1
  | .authorizeResponse => 0x3D2
  | .keyWrite => 0x3D3
  | .keyResponse => 0x3D4
  | .propertyValueRead => 0x3D5
  | .propertyValueResponse => 0x3D6
  | .propertyValueWrite => 0x3D7
  | .propertyDescriptionRead => 0x3D8
  | .propertyDescriptionResponse => 0x3D9
  | .secureService => 0x3F1

/-- The source's `match_apdu_type`, in its order. -/
def apduTypes : List (UInt16 × ApduType) :=
  [(0x000, .groupValueRead), (0x040, .groupValueResponse), (0x080, .groupValueWrite),
    (0x0C0, .individualAddressWrite), (0x100, .individualAddressRead),
    (0x140, .individualAddressResponse), (0x180, .adcRead), (0x1C0, .adcResponse),
    (0x1C8, .systemNetworkParameterRead), (0x1C9, .systemNetworkParameterResponse),
    (0x1CA, .systemNetworkParameterWrite), (0x1CC, .propertyValueExtRead),
    (0x1CD, .propertyValueExtResponse), (0x1CE, .propertyValueExtWriteCon),
    (0x1CF, .propertyValueExtWriteConResponse), (0x1D0, .propertyValueExtWriteUnCon),
    (0x1D2, .propertyExtDescriptionRead), (0x1D3, .propertyExtDescriptionResponse),
    (0x1D4, .functionPropertyExtCommand), (0x1D5, .functionPropertyExtState),
    (0x1D6, .functionPropertyExtStateResponse), (0x1FB, .memoryExtWrite),
    (0x1FC, .memoryExtWriteResponse), (0x1FD, .memoryExtRead), (0x1FE, .memoryExtReadResponse),
    (0x200, .memoryRead), (0x240, .memoryResponse), (0x280, .memoryWrite),
    (0x2C0, .userMemoryRead), (0x2C1, .userMemoryResponse), (0x2C2, .userMemoryWrite),
    (0x2C5, .userManufacturerInfoRead), (0x2C6, .userManufacturerInfoResponse),
    (0x2C7, .functionPropertyCommand), (0x2C8, .functionPropertyState),
    (0x2C9, .functionPropertyStateResponse), (0x300, .deviceDescriptorRead),
    (0x340, .deviceDescriptorResponse), (0x380, .restart), (0x381, .restartMasterReset),
    (0x3C0, .routingTableOpen), (0x3C1, .routingTableRead), (0x3C2, .routingTableReadResponse),
    (0x3C3, .routingTableWrite), (0x3C9, .memoryRouterReadResponse), (0x3CA, .memoryRouterWrite),
    (0x3D1, .authorizeRequest), (0x3D2, .authorizeResponse), (0x3D3, .keyWrite),
    (0x3D4, .keyResponse), (0x3D5, .propertyValueRead), (0x3D6, .propertyValueResponse),
    (0x3D7, .propertyValueWrite), (0x3D8, .propertyDescriptionRead),
    (0x3D9, .propertyDescriptionResponse), (0x3DC, .individualAddressSerialNumberRead),
    (0x3DD, .individualAddressSerialNumberResponse), (0x3DE, .individualAddressSerialNumberWrite),
    (0x3E0, .domainAddressWrite), (0x3E1, .domainAddressRead), (0x3E2, .domainAddressResponse),
    (0x3E3, .domainAddressSelectiveRead), (0x3EC, .domainAddressSerialNumberRead),
    (0x3ED, .domainAddressSerialNumberResponse), (0x3EE, .domainAddressSerialNumberWrite),
    (0x3F1, .secureService)]

def matchApduType (bits : UInt16) : Option ApduType := apduTypes.lookup bits

theorem matchApduType_raw (t : ApduType) : matchApduType t.raw = some t := by
  cases t <;> rfl

theorem matchApduType_some {bits : UInt16} {t : ApduType} (h : matchApduType bits = some t) :
    bits = t.raw := by
  have codes : ∀ e ∈ apduTypes, e.1 = e.2.raw := by decide
  obtain ⟨before, after, hsplit, -⟩ := List.lookup_eq_some_iff.mp h
  exact codes (bits, t) (by simp [hsplit])

/-! ## Codes -/

def apciMask : UInt16 := 0x03FF
def apciShortTypeMask : UInt16 := 0x03C0
def apciShortDataMask : UInt8 := 0x3F

def isShortApci (apci : UInt16) : Bool :=
  let family := apci >>> 6
  family < 11 && family != 7

def normalizeApci (raw : UInt16) : UInt16 :=
  let apci := raw &&& apciMask
  if isShortApci apci then apci &&& apciShortTypeMask else apci

/-- The services that keep the second APCI octet, with its six-bit field, as data. -/
def ApduType.keepsLowOctet : ApduType → Bool
  | .memoryRead | .memoryWrite | .memoryResponse | .adcRead | .adcResponse => true
  | _ => false

/-! ## APDUs -/

structure Apdu where
  apduType : ApduType
  data : List UInt8
  deriving DecidableEq

def Apdu.parse (payload : List UInt8) (npduLength : UInt8) : Option Apdu :=
  match payload with
  | hi :: lo :: rest =>
    let apciRaw := be16 hi lo &&& apciMask
    match matchApduType (normalizeApci apciRaw) with
    | none => none
    | some apduType =>
      if isShortApci apciRaw ∧ npduLength ≤ 1 then
        some ⟨apduType, [lo &&& apciShortDataMask]⟩
      else if apduType.keepsLowOctet then some ⟨apduType, lo :: rest⟩
      else some ⟨apduType, rest⟩
  | _ => none

theorem Apdu.parse_length {payload : List UInt8} {npduLength : UInt8} {apdu : Apdu}
    (h : Apdu.parse payload npduLength = some apdu) : apdu.data.length + 1 ≤ payload.length := by
  unfold Apdu.parse at h
  split at h
  · dsimp only at h
    split at h
    · cases h
    · split_ifs at h <;> cases h <;> simp
  · cases h

def encodeApciHeader (apduType : ApduType) (tpciBits : UInt8) : UInt8 × UInt8 :=
  let apci := apduType.raw
  let high : UInt8 := (apci >>> 8).toUInt8
  (tpciBits &&& 0xFC ||| high &&& 0x03, apci.toUInt8)

def usesShortForm (apci : UInt16) (data : List UInt8) : Bool :=
  if !isShortApci apci || 1 < data.length then false
  else match data.head? with
  | some value => value ≤ apciShortDataMask
  | none => true

def Apdu.toBytes (apdu : Apdu) (tpciBits : UInt8) : List UInt8 :=
  let (byte0, apciLow) := encodeApciHeader apdu.apduType tpciBits
  if usesShortForm apdu.apduType.raw apdu.data then
    let value := apdu.data.headD 0
    [byte0, (apciLow &&& 0xC0) ||| (value &&& apciShortDataMask)]
  else byte0 :: apciLow :: apdu.data

/-! ## Group values -/

inductive GroupValuePayload where
  | inline (value : UInt8)
  | bytes (data : List UInt8)
  deriving DecidableEq

inductive ApduEncodeError where
  | inlineValueOutOfRange (value max : UInt8)
  | emptyBytePayload
  | payloadLengthMismatch (expected actual : Nat)
  | unsupportedGroupValueSize
  deriving DecidableEq

def GroupValuePayload.fromDptEncoded (dpt : Dpt) (data : List UInt8) :
    Except ApduEncodeError GroupValuePayload :=
  if dpt.main = 31 then .error .unsupportedGroupValueSize
  else match dpt.wireSize with
  | .bits n =>
    if 1 ≤ n ∧ n ≤ 6 then
      match data with
      | [value] =>
        let max := apciShortDataMask >>> (6 - n)
        if value > max then .error (.inlineValueOutOfRange value max) else .ok (.inline value)
      | _ => .error (.payloadLengthMismatch 1 data.length)
    else .error .unsupportedGroupValueSize
  | .bytes expected =>
    if data.length = expected.toNat then .ok (.bytes data)
    else .error (.payloadLengthMismatch expected.toNat data.length)
  | .variableBytes => .ok (.bytes data)
  | .unknown => .error .unsupportedGroupValueSize

inductive GroupValueApdu where
  | read
  | response (payload : GroupValuePayload)
  | write (payload : GroupValuePayload)
  deriving DecidableEq

def GroupValueApdu.tryToBytes (apdu : GroupValueApdu) (tpciBits : UInt8) :
    Except ApduEncodeError (List UInt8) :=
  let (apduType, payload) := match apdu with
    | .read => (ApduType.groupValueRead, none)
    | .response payload => (ApduType.groupValueResponse, some payload)
    | .write payload => (ApduType.groupValueWrite, some payload)
  let (byte0, apciLow) := encodeApciHeader apduType tpciBits
  match payload with
  | none => .ok [byte0, apciLow]
  | some (.inline value) =>
    if value > apciShortDataMask then
      .error (.inlineValueOutOfRange value apciShortDataMask)
    else .ok [byte0, apciLow ||| value]
  | some (.bytes data) =>
    if data = [] then .error .emptyBytePayload else .ok (byte0 :: apciLow :: data)

theorem GroupValuePayload.fromDptEncoded_bytes {dpt : Dpt} {data octets : List UInt8}
    (h : fromDptEncoded dpt data = .ok (.bytes octets)) : octets = data := by
  unfold fromDptEncoded at h
  split_ifs at h
  split at h
  · split_ifs at h
    split at h
    · dsimp only at h
      split_ifs at h
      cases h
    · cases h
  · split_ifs at h
    cases h
    rfl
  · cases h
    rfl
  · cases h

theorem GroupValueApdu.tryToBytes_length {dpt : Dpt} {data bytes : List UInt8}
    {payload : GroupValuePayload} {tpciBits : UInt8} {apdu : GroupValueApdu}
    (hp : GroupValuePayload.fromDptEncoded dpt data = .ok payload)
    (ha : apdu = .response payload ∨ apdu = .write payload)
    (h : apdu.tryToBytes tpciBits = .ok bytes) : bytes.length ≤ data.length + 2 := by
  have octets {xs : List UInt8} (e : payload = .bytes xs) : xs = data := by
    subst e
    exact GroupValuePayload.fromDptEncoded_bytes hp
  rcases ha with rfl | rfl <;> cases payload with
  | inline value =>
    simp only [GroupValueApdu.tryToBytes] at h
    split_ifs at h
    cases h
    simp
  | bytes xs =>
    simp only [GroupValueApdu.tryToBytes] at h
    split_ifs at h
    cases h
    simp [octets rfl]

end KnxRs.ApduCodec
