import KnxRs.MemoryStore
import KnxRs.GroupObjects
import KnxRs.InterfaceObjects

set_option autoImplicit false

/-!
# The state of a device

The store with the interface objects and the group objects: what the handlers of
the bus access unit read and change, without what they send.
-/
namespace KnxRs.DeviceState
open CoreTypes Properties TableObjects GroupTables GroupObjects InterfaceObjects MemoryStore

/-- The source's `objects` is `device :: others`; it is never empty. -/
structure Device extends Store where
  device : InterfaceObject
  others : List InterfaceObject
  groupObjectTable : GroupObjectTable
  groupObjects : GroupObjectStore
  restartPending : Bool

def defaultIndividualAddress : UInt16 := 0xFFFF
def returnCodeSuccess : UInt8 := 0x00
def returnCodeAccessReadOnly : UInt8 := 0xFB
def returnCodeAddressVoid : UInt8 := 0xFD
def returnCodeWriteFailed : UInt8 := 0xFF

structure ExtPropertyParams where
  objectType : UInt16
  objectInstance : UInt16
  propertyId : UInt16
  count : UInt8
  startIndex : UInt16

/-- `u8::try_from(property_id)`, then `PropertyId::try_from`. -/
def propertyIdOfWord (propertyId : UInt16) : Option PropertyId :=
  if propertyId.toNat < 256 then PropertyId.tryFrom propertyId.toUInt8 else none

namespace Device

def objects (d : Device) : List InterfaceObject := d.device :: d.others

def object (d : Device) (index : UInt8) : Option InterfaceObject := d.objects[index.toNat]?

def setObject (d : Device) (index : UInt8) (o : InterfaceObject) : Device :=
  match index.toNat with
  | 0 => { d with device := o }
  | i + 1 => { d with others := d.others.set i o }

def individualAddress (d : Device) : IndividualAddress :=
  InterfaceObjects.individualAddress d.device

def setIndividualAddress (d : Device) (addr : UInt16) : Device :=
  { d with device := InterfaceObjects.setIndividualAddress d.device addr }

/-! ## Construction -/

def installIoList (d : Device) : Device :=
  let bytes := d.objects.flatMap (fun o => be16Bytes o.objectType.raw)
  let count : UInt16 :=
    if d.objects.length < 2 ^ 16 then UInt16.ofNat d.objects.length else 0xFFFF
  { d with device := d.device.addData ⟨.ioList, false, .unsignedInt, count, .none, bytes⟩ }

def new (device : InterfaceObject) (groupObjectCount : UInt16) (defaultGoSize : Nat) : Device :=
  installIoList
    { Store.new with
      device := device
      others := [.new .addressTable, .new .associationTable, newGroupObjectTableObject,
        newApplicationProgramObject]
      groupObjectTable := .new
      groupObjects := .new groupObjectCount defaultGoSize
      restartPending := false }

/-! ## Group objects -/

/-- No descriptor, or one that enables communication and the service. -/
def accepts (d : Device) (asap : UInt16) (checkFlag : GroupObjectDescriptor → Bool) : Bool :=
  match d.groupObjectTable.getDescriptor asap with
  | some desc => desc.communicationEnable && checkFlag desc
  | none => true

def updateGroupObjectFromBus (d : Device) (gaRaw : UInt16) (data : List UInt8)
    (checkFlag : GroupObjectDescriptor → Bool) : Device :=
  match d.addressTable.getTsap gaRaw with
  | none => d
  | some tsap =>
    { d with
      groupObjects := (d.associationTable.asapsForTsap tsap).foldl (fun objects asap =>
        if d.accepts asap checkFlag then
          objects.modify asap (fun go => go.valueFromBus data) (fun go => go.valueFromBus_asap data)
        else objects) d.groupObjects }

def readableObject (d : Device) (tsap : UInt16) : Option GroupObject :=
  (d.associationTable.asapsForTsap tsap).findSome? (fun asap =>
    if d.accepts asap GroupObjectDescriptor.readEnable then
      (d.groupObjects.get asap).filter GroupObject.initialized
    else none)

def transmittingTo (d : Device) (ga asap : UInt16) : Bool :=
  (d.groupObjects.get asap).any (fun go => go.commFlag = .transmitting) &&
    d.resolveGroupAddress asap = some ga

/-- The loop of `handle_transmit_confirmation` over `1..=count`. -/
def confirmTransmission (d : Device) (ga : UInt16) (success : Bool) : Device :=
  match ((List.range' 1 d.groupObjects.count.toNat).map UInt16.ofNat).find?
      (d.transmittingTo ga) with
  | some asap =>
    { d with
      groupObjects := d.groupObjects.modify asap (fun go => go.transmitDone success)
        (fun go => go.transmitDone_asap success) }
  | none => d

/-! ## Properties -/

/-- The loop of `find_object_by_type`: the index reached and the instances counted. -/
def findObjectFrom (target : ObjectType) (instanceNo : UInt16) :
    List InterfaceObject → Nat → UInt16 → Option UInt8
  | [], _, _ => none
  | o :: os, i, instanceCount =>
    if 255 < i then none
    else if o.objectType = target then
      if instanceCount + 1 = instanceNo then some (UInt8.ofNat i)
      else findObjectFrom target instanceNo os (i + 1) (instanceCount + 1)
    else findObjectFrom target instanceNo os (i + 1) instanceCount

def findObjectByType (d : Device) (objectType instanceNo : UInt16) : Option UInt8 :=
  match ObjectType.tryFrom objectType with
  | some target => findObjectFrom target instanceNo d.objects 0 0
  | none => none

def tryInterceptTableProperty (d : Device) (objectIndex : UInt8) (pid : PropertyId)
    (startIndex : UInt16) : Option (List UInt8) :=
  if startIndex ≠ 1 then none
  else match d.tableObject objectIndex with
  | none => none
  | some t =>
    match pid with
    | .loadStateControl => some [t.state.raw]
    | .tableReference => some (be32Bytes t.tableReference)
    | .mcbTable => some (t.mcbTable d.memoryArea)
    | .errorCode => some [t.error.raw]
    | _ => none

/-- What `handle_property_write` changes before it reads the property back. -/
def writePropertyValue (d : Device) (objectIndex : UInt8) (pid : PropertyId) (count : UInt8)
    (startIndex : UInt16) (data : List UInt8) : Device :=
  if pid = .loadStateControl then
    { d with toStore := d.toStore.loadControl objectIndex data }
  else match d.object objectIndex with
  | some o => d.setObject objectIndex (o.writeProperty pid startIndex count data).2
  | none => d

def applyExtPropertyWrite (d : Device) (params : ExtPropertyParams) (data : List UInt8) :
    Device × UInt8 :=
  match d.findObjectByType params.objectType params.objectInstance with
  | none => (d, returnCodeAddressVoid)
  | some idx =>
    match propertyIdOfWord params.propertyId with
    | none => (d, returnCodeAddressVoid)
    | some pid =>
      match d.object idx with
      | none => (d, returnCodeAddressVoid)
      | some o =>
        match (o.property pid).map Property.writeEnable with
        | none => (d, returnCodeAddressVoid)
        | some false => (d, returnCodeAccessReadOnly)
        | some true =>
          let written := o.writeProperty pid params.startIndex params.count data
          (d.setObject idx written.2,
            if written.1 > 0 then returnCodeSuccess else returnCodeWriteFailed)

/-! ## Master reset -/

def applyMasterReset (d : Device) (eraseCode : UInt8) : Device :=
  let d := { d with toStore := d.toStore.masterReset eraseCode }
  if eraseCode = eraseResetIa ∨ eraseCode = eraseFactoryReset then
    d.setIndividualAddress defaultIndividualAddress
  else d

end Device
end KnxRs.DeviceState
