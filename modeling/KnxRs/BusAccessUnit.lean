import KnxRs.AppEncode
import KnxRs.CemiCodec
import KnxRs.DeviceState
import KnxRs.Transport

set_option autoImplicit false

/-!
# The bus access unit

The device controller of `bau.rs`: frames and polls come in, and what it sends is
queued, by itself or through the transport layer. A call that would panic, or that
would not return, is a `Fault`.
-/
namespace KnxRs.BusAccessUnit
open CoreTypes Properties GroupObjects InterfaceObjects ApduCodec TpduCodec CemiCodec AppParse
open AppEncode DptCodec GroupTables Transport MemoryStore DeviceState

structure Bau extends Device where
  transport : TransportLayer (List UInt8)
  outbox : List CemiFrame
  nowMs : UInt64
  answeringConnection : Option IndividualAddress

def pidSerialNumber : UInt16 := 11
def nmReadSerialByProgMode : UInt8 := 0x01
def objectTypeDevice : UInt16 := 0
def domainAddressIp : UInt16 := 0
def restartErrorCodeOk : UInt8 := 0
def restartErrorCodeUnsupported : UInt8 := 0x02
def restartProcessTimeZero : UInt16 := 0
def restartProcessTimeDefault : UInt16 := 3
def adcValueDefault : UInt16 := 0
def authLevelFull : UInt8 := 0
def memExtReturnOk : UInt8 := 0x00
def memExtReturnError : UInt8 := 0xFD
def broadcastGa : UInt16 := 0

namespace Bau

def ofDevice (d : Device) : Bau where
  toDevice := d
  transport := .new
  outbox := []
  nowMs := 0
  answeringConnection := none

def new (device : InterfaceObject) (groupObjectCount : UInt16) (defaultGoSize : Nat) : Bau :=
  ofDevice (.new device groupObjectCount defaultGoSize)

/-! ## Frames to send -/

/-- `outbox.push_back(CemiFrame::new_l_data(..))`. -/
def pushFrame (b : Bau) (destination : DestinationAddress) (priority : Priority)
    (payload : List UInt8) : Except Fault Bau :=
  (CemiFrame.newLData .lDataReq b.individualAddress destination priority payload).map
    (fun frame => { b with outbox := b.outbox ++ [frame] })

def queueGroupFrame (b : Bau) (ga : UInt16) (priority : Priority) (payload : List UInt8) :
    Except Fault Bau :=
  b.pushFrame (.group ⟨ga⟩) priority payload

def queueBroadcastFrame (b : Bau) (payload : List UInt8) : Except Fault Bau :=
  b.queueGroupFrame broadcastGa .system payload

/-- A reply to the peer of the connection being answered goes out on the connection. -/
def queueIndividualFrame (b : Bau) (destination : IndividualAddress) (priority : Priority)
    (payload : List UInt8) : Except Fault Bau :=
  if b.answeringConnection = some destination then
    .ok { b with transport := b.transport.dataConnectedRequest priority payload b.nowMs }
  else b.pushFrame (.individual destination) priority payload

def queueControlFrame (b : Bau) (destination : IndividualAddress) (tpduType : TpduType)
    (seqNo : UInt8) : Except Fault Bau :=
  b.pushFrame (.individual destination) .system (encodeControl tpduType seqNo)

def queueDataConnectedFrame (b : Bau) (destination : IndividualAddress) (seqNo : UInt8)
    (priority : Priority) (apdu : List UInt8) : Except Fault Bau :=
  b.pushFrame (.individual destination) priority (encodeDataConnected seqNo apdu)

/-- Whether the value could be encoded, and so was queued. -/
def queueGroupValueWrite (b : Bau) (ga : UInt16) (dpt : Option Dpt) (data : List UInt8) :
    Except Fault (Bau × Bool) :=
  match encodeGroupValueWriteForDpt dpt data with
  | .error _ => .ok (b, false)
  | .ok payload => (b.queueGroupFrame ga .low payload).map (fun b => (b, true))

def queueGroupValueRead (b : Bau) (ga : UInt16) : Except Fault Bau :=
  b.queueGroupFrame ga .low encodeGroupValueRead

def queueGroupValueResponse (b : Bau) (ga : UInt16) (dpt : Option Dpt) (data : List UInt8) :
    Except Fault Bau :=
  match encodeGroupValueResponseForDpt dpt data with
  | .error _ => .ok b
  | .ok payload => b.queueGroupFrame ga .low payload

def queueIndividualAddressResponse (b : Bau) : Except Fault Bau :=
  b.queueGroupFrame broadcastGa .system encodeIndividualAddressResponse

def queueDeviceDescriptorResponse (b : Bau) (destination : IndividualAddress) :
    Except Fault Bau :=
  b.queueIndividualFrame destination .system (encodeDeviceDescriptorResponse maskVersionIp)

def queueDeviceDescriptorUnsupported (b : Bau) (destination : IndividualAddress) :
    Except Fault Bau :=
  b.queueIndividualFrame destination .system encodeDeviceDescriptorUnsupported

def queuePropertyResponse (b : Bau) (destination : IndividualAddress)
    (objectIndex propertyId count : UInt8) (startIndex : UInt16) (data : List UInt8) :
    Except Fault Bau :=
  b.queueIndividualFrame destination .system
    (encodePropertyResponse objectIndex propertyId count startIndex data)

def queueMemoryResponse (b : Bau) (destination : IndividualAddress) (address : UInt16)
    (data : List UInt8) : Except Fault Bau :=
  b.queueIndividualFrame destination .system (encodeMemoryResponse address data)

def queuePropertyDescriptionError (b : Bau) (source : IndividualAddress) (objectIndex : UInt8) :
    Except Fault Bau :=
  b.queueIndividualFrame source .system
    (encodePropertyDescriptionResponse objectIndex 0 0 false 0 0 0)

def queueExtPropertyError (b : Bau) (source : IndividualAddress)
    (objectType objectInstance propertyId startIndex : UInt16) : Except Fault Bau :=
  b.queueIndividualFrame source .system
    (encodePropertyValueExtResponse objectType objectInstance propertyId 0 startIndex [])

def queueAuthorizeResponse (b : Bau) (destination : IndividualAddress) (level : UInt8) :
    Except Fault Bau :=
  b.queueIndividualFrame destination .system (encodeAuthorizeResponse level)

def queueKeyResponse (b : Bau) (destination : IndividualAddress) (level : UInt8) :
    Except Fault Bau :=
  b.queueIndividualFrame destination .system (encodeKeyResponse level)

def queueFunctionPropertyStateResponse (b : Bau) (destination : IndividualAddress)
    (objectIndex propertyId : UInt8) (result : List UInt8) : Except Fault Bau :=
  b.queueIndividualFrame destination .system
    (encodeFunctionPropertyStateResponse objectIndex propertyId result)

def queueAdcResponse (b : Bau) (destination : IndividualAddress) (channel : UInt8) :
    Except Fault Bau :=
  b.queueIndividualFrame destination .system (encodeAdcResponse channel 0 adcValueDefault)

/-! ## Group services -/

def handleGroupValueRead (b : Bau) (frame : CemiFrame) : Except Fault Bau :=
  let gaRaw := frame.destinationAddressRaw
  match b.addressTable.getTsap gaRaw with
  | none => .ok b
  | some tsap =>
    match b.readableObject tsap with
    | none => .ok b
    | some go => b.queueGroupValueResponse gaRaw go.dpt go.data

def handleGroupValueWrite (b : Bau) (frame : CemiFrame) (data : List UInt8) : Bau :=
  { b with
    toDevice := b.toDevice.updateGroupObjectFromBus frame.destinationAddressRaw data
      GroupObjectDescriptor.writeEnable }

def handleGroupValueResponse (b : Bau) (frame : CemiFrame) (data : List UInt8) : Bau :=
  { b with
    toDevice := b.toDevice.updateGroupObjectFromBus frame.destinationAddressRaw data
      GroupObjectDescriptor.updateEnable }

/-! ## Properties -/

def handlePropertyRead (b : Bau) (source : IndividualAddress)
    (objectIndex propertyId count : UInt8) (startIndex : UInt16) : Except Fault Bau :=
  match PropertyId.tryFrom propertyId with
  | none => b.queuePropertyResponse source objectIndex propertyId 0 startIndex []
  | some pid =>
    match b.tryInterceptTableProperty objectIndex pid startIndex with
    | some data => b.queuePropertyResponse source objectIndex propertyId 1 startIndex data
    | none =>
      match b.object objectIndex with
      | none => b.queuePropertyResponse source objectIndex propertyId 0 startIndex []
      | some o =>
        if startIndex = 0 then
          let elemCount := ((o.property pid).map Property.maxElements).getD 0
          b.queuePropertyResponse source objectIndex propertyId 1 0 (be16Bytes elemCount)
        else
          let (readCount, data) := o.readProperty pid startIndex count
          b.queuePropertyResponse source objectIndex propertyId readCount startIndex data

def handlePropertyWrite (b : Bau) (source : IndividualAddress)
    (objectIndex propertyId count : UInt8) (startIndex : UInt16) (data : List UInt8) :
    Except Fault Bau :=
  match PropertyId.tryFrom propertyId with
  | none => .ok b
  | some pid =>
    let b := { b with
      toDevice := b.toDevice.writePropertyValue objectIndex pid count startIndex data }
    b.handlePropertyRead source objectIndex propertyId count startIndex

def handlePropertyDescriptionRead (b : Bau) (source : IndividualAddress)
    (objectIndex propertyId propertyIndex : UInt8) : Except Fault Bau :=
  match b.object objectIndex with
  | none => b.queuePropertyDescriptionError source objectIndex
  | some o =>
    match o.readPropertyDescription propertyId propertyIndex with
    | none => b.queuePropertyDescriptionError source objectIndex
    | some (idx, desc) =>
      b.queueIndividualFrame source .system
        (encodePropertyDescriptionResponse objectIndex desc.id.raw idx desc.writeEnable
          desc.dataType.raw desc.maxElements desc.access.raw)

def handlePropertyExtDescriptionRead (b : Bau) (source : IndividualAddress)
    (objectType objectInstance propertyId : UInt16) (descriptionType : UInt8)
    (propertyIndex : UInt16) : Except Fault Bau :=
  if descriptionType ≠ 0 then .ok b
  else if 255 < propertyId.toNat then .ok b
  else if 255 < propertyIndex.toNat then .ok b
  else
    let found := ((b.findObjectByType objectType objectInstance).bind b.object).bind
      (fun o => o.readPropertyDescription propertyId.toUInt8 propertyIndex.toUInt8)
    let desc := (found.map Prod.snd).getD default
    b.queueIndividualFrame source .system
      (encodePropertyExtDescriptionResponse objectType objectInstance propertyId propertyIndex
        descriptionType desc)

def handlePropertyValueExtRead (b : Bau) (source : IndividualAddress)
    (objectType objectInstance propertyId : UInt16) (count : UInt8) (startIndex : UInt16) :
    Except Fault Bau :=
  let error := b.queueExtPropertyError source objectType objectInstance propertyId startIndex
  match b.findObjectByType objectType objectInstance with
  | none => error
  | some idx =>
    match propertyIdOfWord propertyId with
    | none => error
    | some pid =>
      match b.object idx with
      | none => error
      | some o =>
        let (readCount, data) := o.readProperty pid startIndex count
        b.queueIndividualFrame source .system
          (encodePropertyValueExtResponse objectType objectInstance propertyId readCount
            startIndex data)

def handlePropertyValueExtWrite (b : Bau) (source : IndividualAddress)
    (params : ExtPropertyParams) (data : List UInt8) (confirmed : Bool) : Except Fault Bau :=
  let (device, returnCode) := b.toDevice.applyExtPropertyWrite params data
  let b := { b with toDevice := device }
  if confirmed then
    b.queueIndividualFrame source .system
      (encodePropertyValueExtWriteConResponse params.objectType params.objectInstance
        params.propertyId params.count params.startIndex returnCode)
  else .ok b

/-! ## Memory -/

def handleMemoryRead (b : Bau) (source : IndividualAddress) (count : UInt8) (address : UInt16) :
    Except Fault Bau :=
  let data :=
    if count.toNat > memoryResponseMaxLen then []
    else (b.memSlice address.toNat count.toNat).getD []
  b.queueMemoryResponse source address data

def handleMemoryWrite (b : Bau) (address : UInt16) (data : List UInt8) : Bau :=
  { b with toStore := (b.toStore.writeToMemory address.toNat data).1 }

def handleMemoryExtRead (b : Bau) (source : IndividualAddress) (count : UInt8)
    (address : UInt32) : Except Fault Bau :=
  let (returnCode, data) := match b.memSlice address.toNat count.toNat with
    | none => (memExtReturnError, [])
    | some octets => (memExtReturnOk, octets)
  b.queueIndividualFrame source .system (encodeMemoryExtReadResponse returnCode address data)

def handleMemoryExtWrite (b : Bau) (source : IndividualAddress) (address : UInt32)
    (data : List UInt8) : Except Fault Bau :=
  let (store, written) := b.toStore.writeToMemory address.toNat data
  let b := { b with toStore := store }
  if written then
    b.queueIndividualFrame source .system (encodeMemoryExtWriteResponse memExtReturnOk address)
  else .ok b

/-! ## Restart -/

def handleBasicRestart (b : Bau) : Bau :=
  { b with transport := b.transport.disconnectRequest, restartPending := true }

def masterResetErrorCode (eraseCode : UInt8) : UInt8 :=
  if eraseConfirmedRestart ≤ eraseCode ∧ eraseCode ≤ eraseFactoryResetWithoutIa then
    restartErrorCodeOk
  else restartErrorCodeUnsupported

def handleRestartMasterReset (b : Bau) (source : IndividualAddress) (eraseCode : UInt8) :
    Except Fault Bau := do
  let errorCode := masterResetErrorCode eraseCode
  let processTime :=
    if errorCode = restartErrorCodeOk then restartProcessTimeDefault else restartProcessTimeZero
  let b ← b.queueIndividualFrame source .system (encodeRestartResponse errorCode processTime)
  if errorCode ≠ restartErrorCodeOk then .ok b
  else
    .ok { b with
      toDevice := { b.toDevice.applyMasterReset eraseCode with restartPending := true }
      transport := b.transport.disconnectRequest }

/-! ## Broadcast services -/

def handleIndividualAddressSerialNumberRead (b : Bau) (serial : Bytes6) : Except Fault Bau :=
  if serial = serialNumber b.device then
    b.queueBroadcastFrame (encodeIndividualAddressSerialNumberResponse serial domainAddressIp)
  else .ok b

def handleIndividualAddressSerialNumberWrite (b : Bau) (serial : Bytes6) (address : UInt16) :
    Bau :=
  if serial = serialNumber b.device then
    { b with toDevice := b.toDevice.setIndividualAddress address }
  else b

/-- The request is answered: the device's serial number is asked for, by the operand for
    devices in programming mode, and it is in programming mode. -/
def answersSystemNetworkParameter (d : Device) (objectType propertyId : UInt16)
    (testInfo : List UInt8) : Bool :=
  testInfo.getD 1 0 = nmReadSerialByProgMode ∧ objectType = objectTypeDevice ∧
    propertyId = pidSerialNumber ∧ progMode d.device = true

def handleSystemNetworkParameterRead (b : Bau) (objectType propertyId : UInt16)
    (testInfo : List UInt8) : Except Fault Bau :=
  if answersSystemNetworkParameter b.toDevice objectType propertyId testInfo then
    b.queueBroadcastFrame (encodeSystemNetworkParameterResponse objectType propertyId testInfo
      (serialNumber b.device).octets)
  else .ok b

/-! ## Dispatch -/

def dispatchGroupServices (b : Bau) (frame : CemiFrame) :
    AppIndication → Except Fault Bau
  | .groupValueWrite _ data => .ok (b.handleGroupValueWrite frame data)
  | .groupValueResponse _ data => .ok (b.handleGroupValueResponse frame data)
  | .groupValueRead _ => b.handleGroupValueRead frame
  | _ => .ok b

def dispatchDeviceManagement (b : Bau) (source : IndividualAddress) :
    AppIndication → Except Fault Bau
  | .deviceDescriptorRead descriptorType =>
    if descriptorType = 0 then b.queueDeviceDescriptorResponse source
    else b.queueDeviceDescriptorUnsupported source
  | .restartMasterReset eraseCode _ => b.handleRestartMasterReset source eraseCode
  | .individualAddressWrite address =>
    if progMode b.device then .ok { b with toDevice := b.toDevice.setIndividualAddress address }
    else .ok b
  | .individualAddressRead =>
    if progMode b.device then b.queueIndividualAddressResponse else .ok b
  | .authorizeRequest _ => b.queueAuthorizeResponse source authLevelFull
  | .keyWrite level _ => b.queueKeyResponse source level
  | .restart => .ok b.handleBasicRestart
  | _ => .ok b

def dispatchPropertyServices (b : Bau) (source : IndividualAddress) :
    AppIndication → Except Fault Bau
  | .propertyValueRead objectIndex propertyId count startIndex =>
    b.handlePropertyRead source objectIndex propertyId count startIndex
  | .propertyValueWrite objectIndex propertyId count startIndex data =>
    b.handlePropertyWrite source objectIndex propertyId count startIndex data
  | .propertyDescriptionRead objectIndex propertyId propertyIndex =>
    b.handlePropertyDescriptionRead source objectIndex propertyId propertyIndex
  | _ => .ok b

def dispatchMemoryServices (b : Bau) (source : IndividualAddress) :
    AppIndication → Except Fault Bau
  | .memoryRead count address => b.handleMemoryRead source count address
  | .memoryWrite _ address data => .ok (b.handleMemoryWrite address data)
  | .memoryExtRead count address => b.handleMemoryExtRead source count address
  | .memoryExtWrite _ address data => b.handleMemoryExtWrite source address data
  | _ => .ok b

def dispatchExtPropertyServices (b : Bau) (source : IndividualAddress) :
    AppIndication → Except Fault Bau
  | .propertyValueExtRead objectType objectInstance propertyId count startIndex =>
    b.handlePropertyValueExtRead source objectType objectInstance propertyId count startIndex
  | .propertyValueExtWriteCon objectType objectInstance propertyId count startIndex data =>
    b.handlePropertyValueExtWrite source
      ⟨objectType, objectInstance, propertyId, count, startIndex⟩ data true
  | .propertyValueExtWriteUnCon objectType objectInstance propertyId count startIndex data =>
    b.handlePropertyValueExtWrite source
      ⟨objectType, objectInstance, propertyId, count, startIndex⟩ data false
  | .functionPropertyCommand objectIndex propertyId _ =>
    b.queueFunctionPropertyStateResponse source objectIndex propertyId []
  | .functionPropertyState objectIndex propertyId _ =>
    b.queueFunctionPropertyStateResponse source objectIndex propertyId []
  | .systemNetworkParameterRead objectType propertyId testInfo =>
    b.handleSystemNetworkParameterRead objectType propertyId testInfo
  | .adcRead channel _ => b.queueAdcResponse source channel
  | .individualAddressSerialNumberRead serial =>
    b.handleIndividualAddressSerialNumberRead serial
  | .individualAddressSerialNumberWrite serial address =>
    .ok (b.handleIndividualAddressSerialNumberWrite serial address)
  | _ => .ok b

def dispatchIndication (b : Bau) (frame : CemiFrame) (source : IndividualAddress)
    (indication : AppIndication) : Except Fault Bau :=
  match indication with
  | .groupValueWrite .. | .groupValueResponse .. | .groupValueRead .. =>
    b.dispatchGroupServices frame indication
  | .deviceDescriptorRead .. | .restart | .restartMasterReset .. | .individualAddressWrite ..
  | .individualAddressRead | .authorizeRequest .. | .keyWrite .. =>
    b.dispatchDeviceManagement source indication
  | .propertyValueRead .. | .propertyValueWrite .. | .propertyDescriptionRead .. =>
    b.dispatchPropertyServices source indication
  | .memoryRead .. | .memoryWrite .. | .memoryExtRead .. | .memoryExtWrite .. =>
    b.dispatchMemoryServices source indication
  | .propertyValueExtRead .. | .propertyValueExtWriteCon .. | .propertyValueExtWriteUnCon ..
  | .functionPropertyCommand .. | .functionPropertyState .. | .systemNetworkParameterRead ..
  | .adcRead .. | .individualAddressSerialNumberRead ..
  | .individualAddressSerialNumberWrite .. =>
    b.dispatchExtPropertyServices source indication
  | .propertyExtDescriptionRead objectType objectInstance propertyId descriptionType
      propertyIndex =>
    b.handlePropertyExtDescriptionRead source objectType objectInstance propertyId
      descriptionType propertyIndex

/-- The handlers get a frame to the device itself in place of the one received. -/
def dispatchConnectedIndication (b : Bau) (source : IndividualAddress)
    (indication : AppIndication) : Except Fault Bau := do
  let dummyFrame ←
    CemiFrame.newLData .lDataInd source (.individual b.individualAddress) .system []
  let b : Bau := { b with answeringConnection := some source }
  let b ← b.dispatchIndication dummyFrame source indication
  .ok { b with answeringConnection := none }

/-! ## Transport actions -/

def runAction (b : Bau) : Action (List UInt8) → Except Fault Bau
  | .sendControl destination tpduType seqNo => b.queueControlFrame destination tpduType seqNo
  | .sendDataConnected destination seqNo priority apdu =>
    b.queueDataConnectedFrame destination seqNo priority apdu
  | .connectIndication _ | .connectConfirm _ | .disconnectIndication _
  | .dataConnectedConfirm => .ok b
  | .dataConnectedIndication source _ apdu =>
    match parseRawApdu apdu with
    | .ok parsed => b.dispatchConnectedIndication source parsed
    | .error _ => .ok b

/-- Three rounds are enough: a served request queues actions, but none that is served. -/
def drainRounds : Nat := 3

/-- The loop of `drain_transport_actions`, for at most `rounds` rounds. -/
def drainTransportActions : (rounds : Nat) → Bau → Except Fault Bau
  | 0, _ => .error .outOfFuel
  | rounds + 1, b =>
    let (actions, transport) := b.transport.takeActions
    if actions = [] then .ok { b with transport := transport }
    else
      actions.foldlM runAction { b with transport := transport } >>= drainTransportActions rounds

/-! ## Incoming frames -/

inductive AddrScope where
  | group | broadcast | individual
  deriving DecidableEq

def requiredScope : AppIndication → AddrScope
  | .groupValueWrite .. | .groupValueRead .. | .groupValueResponse .. => .group
  | .individualAddressWrite .. | .individualAddressRead
  | .individualAddressSerialNumberRead .. | .individualAddressSerialNumberWrite ..
  | .systemNetworkParameterRead .. => .broadcast
  | _ => .individual

def indicationInScope (b : Bau) (frame : CemiFrame) (indication : AppIndication) : Bool :=
  let isGroup : Bool := frame.addressType = .group
  let dst := frame.destinationAddressRaw
  match requiredScope indication with
  | .group => isGroup && dst ≠ 0
  | .broadcast => isGroup && dst = 0
  | .individual => !isGroup && dst = b.individualAddress.raw

def processControlTpdu (b : Bau) (frame : CemiFrame) (tpduType : TpduType) (seqNo : UInt8)
    (nowMs : UInt64) : Bau :=
  let source := frame.sourceAddress
  match tpduType with
  | .connect => { b with transport := b.transport.connectIndication source nowMs }
  | .disconnect => { b with transport := b.transport.disconnectIndication source }
  | .ack => { b with transport := b.transport.ackIndication source seqNo nowMs }
  | .nack => { b with transport := b.transport.nackIndication source seqNo nowMs }
  | _ => b

def processDataTpdu (b : Bau) (frame : CemiFrame) (tpduType : TpduType) (seqNo : UInt8)
    (apdu : Apdu) (nowMs : UInt64) : Except Fault Bau :=
  let source := frame.sourceAddress
  if tpduType = .dataConnected then
    .ok { b with
      transport := b.transport.dataConnectedIndication source seqNo frame.priority
        (encodeRawApdu apdu) nowMs }
  else
    match parseIndication apdu.apduType apdu.data with
    | .error _ => .ok b
    | .ok indication =>
      if b.indicationInScope frame indication then b.dispatchIndication frame source indication
      else .ok b

def handleTransmitConfirmation (b : Bau) (frame : CemiFrame) : Bau :=
  if frame.addressType ≠ .group then b
  else
    { b with
      toDevice := b.toDevice.confirmTransmission frame.destinationAddressRaw
        (frame.confirm = .noError) }

def processFrame (b : Bau) (frame : CemiFrame) (nowMs : UInt64) : Except Fault Bau :=
  let b := { b with nowMs := nowMs }
  if frame.messageCodeRaw = MessageCode.lDataCon.raw then .ok (b.handleTransmitConfirmation frame)
  else
    match frame.tpdu with
    | none => .ok b
    | some (.control tpduType seqNo) =>
      drainTransportActions drainRounds (b.processControlTpdu frame tpduType seqNo nowMs)
    | some (.data tpduType seqNo apdu) =>
      b.processDataTpdu frame tpduType seqNo apdu nowMs >>= drainTransportActions drainRounds

/-! ## Polling -/

def sendPending (b : Bau) (asap : UInt16) (writeData : Option (Option Dpt × List UInt8)) :
    Except Fault (Bau × ComFlag) :=
  match b.resolveGroupAddress asap with
  | none => .ok (b, .error)
  | some ga =>
    match writeData with
    | some (dpt, data) =>
      (b.queueGroupValueWrite ga dpt data).map
        (fun (b, queued) => (b, if queued then .transmitting else .error))
    | none => (b.queueGroupValueRead ga).map (fun b => (b, .transmitting))

def servePending (b : Bau) (asap : UInt16) (writeData : Option (Option Dpt × List UInt8)) :
    Except Fault Bau :=
  (b.sendPending asap writeData).map (fun (b, flag) =>
    { b with
      groupObjects := b.groupObjects.modify asap (fun go => go.setCommFlag flag)
        (fun go => go.setCommFlag_asap flag) })

/-- The loop of `poll` over the pending objects, for at most `rounds` rounds. -/
def pollPending : (rounds : Nat) → Bau → Except Fault Bau
  | 0, _ => .error .outOfFuel
  | rounds + 1, b =>
    match b.groupObjects.nextPending with
    | none => .ok b
    | some asap =>
      match b.groupObjects.get asap with
      | none => .ok b
      | some go =>
        match go.commFlag with
        | .writeRequest =>
          b.servePending asap (some (go.dpt, go.data)) >>= pollPending rounds
        | .readRequest => b.servePending asap none >>= pollPending rounds
        | _ => .ok b

def poll (b : Bau) (nowMs : UInt64) : Except Fault Bau := do
  let b := { b with nowMs := nowMs, transport := b.transport.poll nowMs }
  let b ← drainTransportActions drainRounds b
  if b.configured then pollPending (b.groupObjects.objects.length + 1) b else .ok b

end Bau
end KnxRs.BusAccessUnit
