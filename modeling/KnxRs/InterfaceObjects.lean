import KnxRs.CoreTypes
import KnxRs.Properties

set_option autoImplicit false

/-!
# Interface objects

Objects as lists of properties, and the standard objects of a device: the device
object, the group object table object and the application program object.
-/
namespace KnxRs.InterfaceObjects
open CoreTypes Properties Octets

inductive ObjectType where
  | device | addressTable | associationTable | applicationProgram | interfaceProgram
  | objectAssociationTable | router | cemiServer | groupObjectTable | ipParameter | security
  | rfMedium
  deriving DecidableEq

def ObjectType.raw : ObjectType → UInt16
  | .device => 0
  | .addressTable => 1
  | .associationTable => 2
  | .applicationProgram => 3
  | .interfaceProgram => 4
  | .objectAssociationTable => 5
  | .router => 6
  | .cemiServer => 8
  | .groupObjectTable => 9
  | .ipParameter => 11
  | .security => 17
  | .rfMedium => 19

def objectTypes : List (UInt16 × ObjectType) :=
  [(0, .device), (1, .addressTable), (2, .associationTable), (3, .applicationProgram),
    (4, .interfaceProgram), (5, .objectAssociationTable), (6, .router), (8, .cemiServer),
    (9, .groupObjectTable), (11, .ipParameter), (17, .security), (19, .rfMedium)]

def ObjectType.tryFrom (v : UInt16) : Option ObjectType := objectTypes.lookup v

theorem ObjectType.tryFrom_raw (t : ObjectType) : ObjectType.tryFrom t.raw = some t := by
  cases t <;> rfl

/-- `[u8; 6]`. -/
structure Bytes6 where
  octets : List UInt8
  length_eq : octets.length = 6
  deriving DecidableEq

/-- The first six octets of a buffer, with zeros where it is shorter. -/
def Bytes6.ofList (buf : List UInt8) : Bytes6 where
  octets := (buf ++ List.replicate 6 0).take 6
  length_eq := by
    simp only [List.length_take, List.length_append, List.length_replicate]
    omega

/-! ## Objects -/

structure InterfaceObject where
  objectType : ObjectType
  properties : List Property

namespace InterfaceObject

def addProperty (o : InterfaceObject) (p : Property) : InterfaceObject :=
  { o with properties := o.properties ++ [p] }

def addData (o : InterfaceObject) (p : DataProperty) : InterfaceObject :=
  o.addProperty (.ofData p)

def new (objectType : ObjectType) : InterfaceObject :=
  addData ⟨objectType, []⟩ (.readOnly .objectType .unsignedInt (be16Bytes objectType.raw))

def property (o : InterfaceObject) (id : PropertyId) : Option Property :=
  o.properties.find? (fun p => p.id = id)

def readProperty (o : InterfaceObject) (id : PropertyId) (start : UInt16) (count : UInt8) :
    UInt8 × List UInt8 :=
  match o.property id with
  | some p => p.read start count
  | none => (0, [])

def writeFirst (id : PropertyId) (start : UInt16) (count : UInt8) (data : List UInt8) :
    List Property → UInt8 × List Property
  | [] => (0, [])
  | p :: ps =>
    if p.id = id then
      let written := p.write start count data
      (written.1, written.2 :: ps)
    else
      let written := writeFirst id start count data ps
      (written.1, p :: written.2)

def writeProperty (o : InterfaceObject) (id : PropertyId) (start : UInt16) (count : UInt8)
    (data : List UInt8) : UInt8 × InterfaceObject :=
  let written := writeFirst id start count data o.properties
  (written.1, { o with properties := written.2 })

/-- The index and description of a property, by identifier or, where that is 0, by index. -/
def readPropertyDescription (o : InterfaceObject) (propertyId propertyIndex : UInt8) :
    Option (UInt8 × PropertyDescription) :=
  if propertyId ≠ 0 then
    match PropertyId.tryFrom propertyId with
    | none => none
    | some pid =>
      match o.properties.findIdx? (fun p => p.id = pid), o.property pid with
      | some idx, some p => if idx ≤ 255 then some (UInt8.ofNat idx, p.description) else none
      | _, _ => none
  else
    (o.properties[propertyIndex.toNat]?).map (fun p => (propertyIndex, p.description))

theorem writeFirst_find? (id id' : PropertyId) (start : UInt16) (count : UInt8)
    (data : List UInt8) (ps : List Property) :
    (writeFirst id start count data ps).2.find? (fun p => p.id = id') =
      if id' = id then (ps.find? (fun p => p.id = id)).map (fun p => (p.write start count data).2)
      else ps.find? (fun p => p.id = id') := by
  induction ps with
  | nil => split_ifs <;> rfl
  | cons p ps ih =>
    unfold writeFirst
    by_cases hp : p.id = id
    · have hw := p.write_id start count data
      by_cases he : id' = id
      · simp [hp, he, hw]
      · have hne : ¬ p.id = id' := fun h => he (h.symm.trans hp)
        rw [if_pos hp, if_neg he, List.find?_cons_of_neg (by simp [hw, hne]),
          List.find?_cons_of_neg (by simp [hne])]
    · by_cases he : id' = id
      · simp only [he, ↓reduceIte] at ih
        simp [hp, he, ih]
      · simp only [he, ↓reduceIte] at ih
        simp [hp, he, ih, List.find?_cons]

theorem property_writeProperty (o : InterfaceObject) (id id' : PropertyId) (start : UInt16)
    (count : UInt8) (data : List UInt8) :
    (o.writeProperty id start count data).2.property id' =
      if id' = id then (o.property id).map (fun p => (p.write start count data).2)
      else o.property id' :=
  writeFirst_find? id id' start count data o.properties

def FullWithin (n : Nat) (o : InterfaceObject) : Prop :=
  ∀ p ∈ o.properties, ∃ d, p.storage = .data d ∧ d.Full ∧ d.data.length ≤ n

theorem writeFirst_fullWithin {n : Nat} {ps : List Property}
    (h : ∀ p ∈ ps, ∃ d, p.storage = .data d ∧ d.Full ∧ d.data.length ≤ n) (id : PropertyId)
    (start : UInt16) (count : UInt8) (data : List UInt8) :
    ∀ p ∈ (writeFirst id start count data ps).2,
      ∃ d, p.storage = .data d ∧ d.Full ∧ d.data.length ≤ n := by
  induction ps with
  | nil => intro p hp; cases hp
  | cons q ps ih =>
    have hq := h q (by simp)
    have hps := fun p hp => h p (List.mem_cons_of_mem q hp)
    unfold writeFirst
    split_ifs with hid
    · intro p hp
      rcases List.mem_cons.mp hp with rfl | hp
      · obtain ⟨d, hd, hfull, hlen⟩ := hq
        unfold Property.write
        split_ifs
        · exact ⟨d, hd, hfull, hlen⟩
        · obtain ⟨octets, hw, hoctets⟩ := hfull.elim fun h1 h2 =>
            DataProperty.write_full ⟨h1, h2⟩ start count data
          simp only [hd]
          refine ⟨_, rfl, ?_⟩
          rw [hw]
          exact ⟨⟨hfull.1, hoctets.trans hfull.2⟩, hoctets ▸ hlen⟩
      · exact hps p hp
    · intro p hp
      rcases List.mem_cons.mp hp with rfl | hp
      · exact hq
      · exact ih hps p hp

theorem FullWithin.writeProperty {n : Nat} {o : InterfaceObject} (h : o.FullWithin n)
    (id : PropertyId) (start : UInt16) (count : UInt8) (data : List UInt8) :
    (o.writeProperty id start count data).2.FullWithin n :=
  writeFirst_fullWithin h id start count data

theorem FullWithin.readProperty {n : Nat} {o : InterfaceObject} (h : o.FullWithin n)
    (id : PropertyId) (start : UInt16) (count : UInt8) :
    (o.readProperty id start count).2.length ≤ n := by
  unfold InterfaceObject.readProperty
  split
  · next p hp =>
    obtain ⟨d, hd, _, hlen⟩ := h p (List.mem_of_find?_eq_some hp)
    unfold Property.read
    simp only [hd]
    exact Nat.le_trans (d.read_length start count) hlen
  · exact Nat.zero_le n

end InterfaceObject

/-! ## The device object -/

def maskVersionIp : UInt16 := 0x57B0

def addIdentityProperties (o : InterfaceObject) (serial : Bytes6) : InterfaceObject :=
  (((((o.addData ⟨.serialNumber, false, .generic06, 1, .none, serial.octets⟩).addData
    (.readOnly .manufacturerId .unsignedInt (serial.octets.take 2))).addData
    (.readWrite .deviceControl .unsignedChar [0x00])).addData
    ⟨.orderInfo, false, .generic10, 1, .none, List.replicate 10 0⟩).addData
    (.readOnly .version .unsignedInt [0x00, 0x03])).addData
    (.readOnly .firmwareRevision .unsignedChar [0x01])

def addConfigProperties (o : InterfaceObject) (hwType : Bytes6) : InterfaceObject :=
  ((((((o.addData (.readWrite .routingCount .unsignedChar [0x60])).addData
    (.readWrite .progMode .unsignedChar [0x00])).addData
    (.readOnly .maxApduLength .unsignedInt [0x00, 0xFE])).addData
    (.readWrite .subnetAddr .unsignedChar [0xFF])).addData
    (.readWrite .deviceAddr .unsignedChar [0xFF])).addData
    ⟨.hardwareType, false, .generic06, 1, .none, hwType.octets⟩).addData
    (.readOnly .deviceDescriptor .unsignedInt (be16Bytes maskVersionIp))

def newDeviceObject (serialNumber hardwareType : Bytes6) : InterfaceObject :=
  addConfigProperties (addIdentityProperties (.new .device) serialNumber) hardwareType

def individualAddress (o : InterfaceObject) : IndividualAddress :=
  let s := ((o.readProperty .subnetAddr 1 1).2.head?).getD 0xFF
  let d := ((o.readProperty .deviceAddr 1 1).2.head?).getD 0xFF
  ⟨(s.toUInt16 <<< 8) ||| d.toUInt16⟩

def setIndividualAddress (o : InterfaceObject) (addr : UInt16) : InterfaceObject :=
  let o := (o.writeProperty .subnetAddr 1 1 [(addr >>> 8).toUInt8]).2
  (o.writeProperty .deviceAddr 1 1 [(addr &&& 0xFF).toUInt8]).2

def progMode (o : InterfaceObject) : Bool :=
  ((o.readProperty .progMode 1 1).2.head?).getD 0 ≠ 0

def serialNumber (o : InterfaceObject) : Bytes6 :=
  .ofList (o.readProperty .serialNumber 1 1).2

/-! ## The other standard objects -/

/-- `LoadStateControl`, `TableReference`, `McbTable` and `ErrorCode`, in that order. -/
def addTableProperties (o : InterfaceObject) : InterfaceObject :=
  (((o.addData (.readWrite .loadStateControl .unsignedChar [LoadState.unloaded.raw])).addData
    (.readWrite .tableReference .unsignedLong (List.replicate 4 0))).addData
    (.readWrite .mcbTable .generic08 (List.replicate 8 0))).addData
    (.readOnly .errorCode .unsignedChar [0x00])

def newGroupObjectTableObject : InterfaceObject := addTableProperties (.new .groupObjectTable)

def newApplicationProgramObject : InterfaceObject :=
  addTableProperties ((InterfaceObject.new .applicationProgram |>.addData
    ⟨.programVersion, true, .generic05, 1, .writeHigh, List.replicate 5 0⟩).addData
    (.readOnly .peiType .unsignedChar [0x00]))

end KnxRs.InterfaceObjects
