import KnxRs.Octets

set_option autoImplicit false

/-!
# Properties

Identifiers, data types and load states with their wire values, and the two kinds
of property: octets held in memory, and a pair of callbacks. The callbacks share
a state that a write may change, so that what is read depends on what was written.
-/
namespace KnxRs.Properties
open Octets

/-! ## Wire values -/

inductive PropertyDataType where
  | control | char | unsignedChar | int | unsignedInt | knxFloat | date | time | long
  | unsignedLong | float | double | charBlock | pollGroupSetting | shortCharBlock | dateTime
  | variableLength | generic01 | generic02 | generic03 | generic04 | generic05 | generic06
  | generic07 | generic08 | generic09 | generic10 | function
  deriving DecidableEq

def PropertyDataType.raw : PropertyDataType → UInt8
  | .control => 0x00
  | .char => 0x01
  | .unsignedChar => 0x02
  | .int => 0x03
  | .unsignedInt => 0x04
  | .knxFloat => 0x05
  | .date => 0x06
  | .time => 0x07
  | .long => 0x08
  | .unsignedLong => 0x09
  | .float => 0x0A
  | .double => 0x0B
  | .charBlock => 0x0C
  | .pollGroupSetting => 0x0D
  | .shortCharBlock => 0x0E
  | .dateTime => 0x0F
  | .variableLength => 0x10
  | .generic01 => 0x11
  | .generic02 => 0x12
  | .generic03 => 0x13
  | .generic04 => 0x14
  | .generic05 => 0x15
  | .generic06 => 0x16
  | .generic07 => 0x17
  | .generic08 => 0x18
  | .generic09 => 0x19
  | .generic10 => 0x1A
  | .function => 0x3E

def PropertyDataType.size : PropertyDataType → UInt8
  | .control | .char | .unsignedChar | .generic01 => 1
  | .int | .unsignedInt | .knxFloat | .generic02 => 2
  | .date | .time | .pollGroupSetting | .generic03 => 3
  | .long | .unsignedLong | .float | .generic04 => 4
  | .shortCharBlock | .generic05 => 5
  | .generic06 => 6
  | .generic07 => 7
  | .double | .dateTime | .generic08 => 8
  | .generic09 => 9
  | .charBlock | .generic10 => 10
  | .variableLength | .function => 0

inductive PropertyId where
  | objectType | loadStateControl | runStateControl | tableReference | serviceControl
  | firmwareRevision | serialNumber | manufacturerId | programVersion | deviceControl
  | orderInfo | peiType | portConfiguration | table | version | mcbTable | errorCode
  | objectIndex | downloadCounter | routingCount | progMode | maxApduLength | subnetAddr
  | deviceAddr | ioList | hardwareType | deviceDescriptor
  deriving DecidableEq

def PropertyId.raw : PropertyId → UInt8
  | .objectType => 1
  | .loadStateControl => 5
  | .runStateControl => 6
  | .tableReference => 7
  | .serviceControl => 8
  | .firmwareRevision => 9
  | .serialNumber => 11
  | .manufacturerId => 12
  | .programVersion => 13
  | .deviceControl => 14
  | .orderInfo => 15
  | .peiType => 16
  | .portConfiguration => 17
  | .table => 23
  | .version => 25
  | .mcbTable => 27
  | .errorCode => 28
  | .objectIndex => 29
  | .downloadCounter => 30
  | .routingCount => 51
  | .progMode => 54
  | .maxApduLength => 56
  | .subnetAddr => 57
  | .deviceAddr => 58
  | .ioList => 71
  | .hardwareType => 78
  | .deviceDescriptor => 83

def propertyIds : List (UInt8 × PropertyId) :=
  [(1, .objectType), (5, .loadStateControl), (6, .runStateControl), (7, .tableReference),
    (8, .serviceControl), (9, .firmwareRevision), (11, .serialNumber), (12, .manufacturerId),
    (13, .programVersion), (14, .deviceControl), (15, .orderInfo), (16, .peiType),
    (17, .portConfiguration), (23, .table), (25, .version), (27, .mcbTable), (28, .errorCode),
    (29, .objectIndex), (30, .downloadCounter), (51, .routingCount), (54, .progMode),
    (56, .maxApduLength), (57, .subnetAddr), (58, .deviceAddr), (71, .ioList),
    (78, .hardwareType), (83, .deviceDescriptor)]

def PropertyId.tryFrom (v : UInt8) : Option PropertyId := propertyIds.lookup v

theorem PropertyId.tryFrom_raw (id : PropertyId) : PropertyId.tryFrom id.raw = some id := by
  cases id <;> rfl

inductive LoadState where
  | unloaded | loaded | loading | error | unloading | loadCompleting
  deriving DecidableEq

def LoadState.raw : LoadState → UInt8
  | .unloaded => 0
  | .loaded => 1
  | .loading => 2
  | .error => 3
  | .unloading => 4
  | .loadCompleting => 5

/-- `LoadState::from`. -/
def LoadState.ofByte (v : UInt8) : LoadState :=
  if v = 1 then .loaded
  else if v = 2 then .loading
  else if v = 3 then .error
  else if v = 4 then .unloading
  else if v = 5 then .loadCompleting
  else .unloaded

theorem LoadState.ofByte_raw (s : LoadState) : LoadState.ofByte s.raw = s := by
  cases s <;> rfl

inductive LoadEvent where
  | noop | startLoading | loadCompleted | additionalLoadControls | unload
  deriving DecidableEq

def LoadEvent.fromByte (v : UInt8) : Option LoadEvent :=
  if v = 0 then some .noop
  else if v = 1 then some .startLoading
  else if v = 2 then some .loadCompleted
  else if v = 3 then some .additionalLoadControls
  else if v = 4 then some .unload
  else none

inductive AccessLevel where
  | none | writeLow | writeMedium | writeHigh
  deriving DecidableEq

def AccessLevel.raw : AccessLevel → UInt8
  | .none => 0x00
  | .writeLow => 0x01
  | .writeMedium => 0x02
  | .writeHigh => 0x03

structure PropertyDescription where
  id : PropertyId
  writeEnable : Bool
  dataType : PropertyDataType
  maxElements : UInt16
  access : AccessLevel
  deriving DecidableEq

instance : Inhabited PropertyDescription :=
  ⟨{ id := .objectType, writeEnable := false, dataType := .control, maxElements := 0,
     access := .none }⟩

/-! ## Data properties -/

structure DataProperty where
  id : PropertyId
  writeEnable : Bool
  dataType : PropertyDataType
  maxElements : UInt16
  access : AccessLevel
  data : List UInt8
  deriving DecidableEq

namespace DataProperty

def readOnly (id : PropertyId) (dataType : PropertyDataType) (value : List UInt8) :
    DataProperty := ⟨id, false, dataType, 1, .none, value⟩

def readWrite (id : PropertyId) (dataType : PropertyDataType) (value : List UInt8) :
    DataProperty := ⟨id, true, dataType, 1, .none, value⟩

/-- The loop of `read`: how many elements it has read, and their octets. -/
def readFrom (data : List UInt8) (size : Nat) : (remaining elemIdx : Nat) → UInt8 × List UInt8
  | 0, _ => (0, [])
  | remaining + 1, elemIdx =>
    if elemIdx ≥ data.length / size then (0, [])
    else
      let rest := readFrom data size remaining (elemIdx + 1)
      if elemIdx * size + size ≤ data.length then
        (rest.1 + 1, slice data (elemIdx * size) size ++ rest.2)
      else rest

def read (p : DataProperty) (start : UInt16) (count : UInt8) : UInt8 × List UInt8 :=
  let elemSize := p.dataType.size.toNat
  if elemSize = 0 then (1, p.data)
  else readFrom p.data elemSize count.toNat (start.toNat - 1)

/-- The loop of `write`: how many elements it has written, and the property's octets. -/
def writeFrom (input : List UInt8) (maxElements size startIdx : Nat) :
    (remaining i : Nat) → List UInt8 → UInt8 × List UInt8
  | 0, _, data => (0, data)
  | remaining + 1, i, data =>
    let elemIdx := startIdx + i
    if i * size + size > input.length then (0, data)
    else if elemIdx * size + size > data.length ∧ elemIdx ≥ maxElements then (0, data)
    else
      let data := overwrite (grow data (elemIdx * size + size) 0) (elemIdx * size)
        (slice input (i * size) size)
      let rest := writeFrom input maxElements size startIdx remaining (i + 1) data
      (rest.1 + 1, rest.2)

def write (p : DataProperty) (start : UInt16) (count : UInt8) (data : List UInt8) :
    UInt8 × DataProperty :=
  if p.writeEnable = false then (0, p)
  else
    let elemSize := p.dataType.size.toNat
    if elemSize = 0 then (1, { p with data := data })
    else
      let written := writeFrom data p.maxElements.toNat elemSize (start.toNat - 1) count.toNat 0
        p.data
      (written.1, { p with data := written.2 })

def Full (p : DataProperty) : Prop :=
  0 < p.dataType.size.toNat ∧ p.data.length = p.maxElements.toNat * p.dataType.size.toNat

theorem readFrom_length (data : List UInt8) (size remaining elemIdx : Nat) (h : 0 < size) :
    (readFrom data size remaining elemIdx).2.length ≤ data.length - elemIdx * size := by
  induction remaining generalizing elemIdx with
  | zero => simp [readFrom]
  | succ n ih =>
    have hrest := ih (elemIdx + 1)
    unfold readFrom
    dsimp only
    split_ifs with hend hfit
    · simp
    · have hslice := slice_length hfit
      rw [Nat.add_mul, Nat.one_mul] at hrest
      simp only [List.length_append, hslice]
      omega
    · rw [Nat.add_mul, Nat.one_mul] at hrest
      omega

theorem read_length (p : DataProperty) (start : UInt16) (count : UInt8) :
    (p.read start count).2.length ≤ p.data.length := by
  unfold read
  dsimp only
  split_ifs with h
  · exact Nat.le_refl _
  · have := readFrom_length p.data p.dataType.size.toNat count.toNat (start.toNat - 1) (by omega)
    omega

theorem writeFrom_length {input : List UInt8} {maxElements size startIdx remaining i : Nat}
    {data : List UInt8} (full : data.length = maxElements * size) :
    (writeFrom input maxElements size startIdx remaining i data).2.length = data.length := by
  induction remaining generalizing i data with
  | zero => rfl
  | succ n ih =>
    unfold writeFrom
    dsimp only
    split_ifs with hin hend
    · rfl
    · rfl
    · have hle : (startIdx + i) * size + size ≤ data.length := by
        by_contra hgt
        have hmax : ¬ startIdx + i ≥ maxElements := fun hm => hend ⟨by omega, hm⟩
        have hstep : (startIdx + i + 1) * size ≤ maxElements * size :=
          Nat.mul_le_mul_right size (by omega)
        rw [Nat.add_mul, Nat.one_mul] at hstep
        omega
      have hslice : (slice input (i * size) size).length = size := slice_length (by omega)
      have hgrow := grow_length data ((startIdx + i) * size + size) (0 : UInt8)
      have hover : (overwrite (grow data ((startIdx + i) * size + size) 0) ((startIdx + i) * size)
          (slice input (i * size) size)).length = data.length := by
        rw [overwrite_length (by omega)]
        omega
      rw [ih (hover.trans full), hover]

theorem write_full {p : DataProperty} (h : p.Full) (start : UInt16) (count : UInt8)
    (data : List UInt8) : ∃ octets, (p.write start count data).2 = { p with data := octets } ∧
      octets.length = p.data.length := by
  have hsize : ¬ p.dataType.size.toNat = 0 := by
    have := h.1
    omega
  unfold write
  dsimp only
  rw [if_neg hsize]
  split_ifs
  · exact ⟨p.data, rfl, rfl⟩
  · exact ⟨_, rfl, writeFrom_length h.2⟩

end DataProperty

/-! ## Properties -/

/-- The state of a pair of callbacks is what their closures share, as octets. -/
inductive PropertyStorage where
  | data (property : DataProperty)
  | callback (state : List UInt8) (readFn : List UInt8 → UInt16 → UInt8 → List UInt8)
      (writeFn : Option (List UInt8 → UInt16 → UInt8 → List UInt8 → UInt8 × List UInt8))

structure Property where
  id : PropertyId
  writeEnable : Bool
  dataType : PropertyDataType
  maxElements : UInt16
  access : AccessLevel
  storage : PropertyStorage

namespace Property

def ofData (p : DataProperty) : Property :=
  ⟨p.id, p.writeEnable, p.dataType, p.maxElements, p.access, .data p⟩

def read (p : Property) (start : UInt16) (count : UInt8) : UInt8 × List UInt8 :=
  match p.storage with
  | .data d => d.read start count
  | .callback state readFn _ =>
    let data := readFn state start count
    if data = [] then (0, [])
    else
      let elemSize := p.dataType.size.toNat
      let readCount := if elemSize = 0 then 1 else data.length / elemSize
      (if readCount ≤ 255 then UInt8.ofNat readCount else 255, data)

def write (p : Property) (start : UInt16) (count : UInt8) (data : List UInt8) :
    UInt8 × Property :=
  if p.writeEnable = false then (0, p)
  else match p.storage with
  | .data d =>
    let written := d.write start count data
    (written.1, { p with storage := .data written.2 })
  | .callback _ _ none => (0, p)
  | .callback state readFn (some writeFn) =>
    let written := writeFn state start count data
    (written.1, { p with storage := .callback written.2 readFn (some writeFn) })

/-- A counter that its two callbacks share. -/
example : (Property.write ⟨.progMode, true, .unsignedChar, 1, .none,
    .callback [0] (fun state _ _ => state.take 1)
      (some fun state _ _ data => (1, data.take 1 ++ state.drop data.length))⟩ 1 1 [42]).2.read 1 1 =
    (1, [42]) := by decide

def description (p : Property) : PropertyDescription :=
  ⟨p.id, p.writeEnable, p.dataType, p.maxElements, p.access⟩

theorem write_description (p : Property) (start : UInt16) (count : UInt8) (data : List UInt8) :
    (p.write start count data).2.description = p.description := by
  unfold write
  split_ifs
  · rfl
  · split <;> rfl

theorem write_id (p : Property) (start : UInt16) (count : UInt8) (data : List UInt8) :
    (p.write start count data).2.id = p.id :=
  congrArg PropertyDescription.id (p.write_description start count data)

end Property
end KnxRs.Properties
