import KnxRs.DeviceState
import KnxRs.DptConvert

set_option autoImplicit false

/-!
# Values of group objects

What the application does with a group object, how the group object table sizes the
objects, and the reads that are requested at initialisation.
-/
namespace KnxRs.GroupObjects
open DptCodec DptConvert GroupTables Octets

namespace GroupObject

/-- `data[..len].copy_from_slice(&octets[..len])` for the smaller of the two lengths. -/
def copyFrom (go : GroupObject) (octets : List UInt8) : GroupObject :=
  { go with data := overwrite go.data 0 (octets.take (min octets.length go.data.length)) }

def withDpt (asap : UInt16) (dpt : Dpt) : GroupObject :=
  ⟨asap, .uninitialized, List.replicate dpt.dataLength.toNat 0, some dpt⟩

def setDpt (go : GroupObject) (dpt : Dpt) : GroupObject :=
  { go with data := grow go.data dpt.dataLength.toNat 0, dpt := some dpt }

def requestObjectRead (go : GroupObject) : GroupObject := go.setCommFlag .readRequest

def objectWritten (go : GroupObject) : GroupObject := go.setCommFlag .writeRequest

def resizeData (go : GroupObject) (newSize : Nat) : GroupObject :=
  { go with data := (grow go.data newSize 0).take newSize }

def writeValue (go : GroupObject) (data : List UInt8) : GroupObject :=
  (go.copyFrom data).setCommFlag .writeRequest

def writeValueNoSend (go : GroupObject) (data : List UInt8) : GroupObject :=
  if go.commFlag = .uninitialized then (go.copyFrom data).setCommFlag .ok else go.copyFrom data

def setValue (go : GroupObject) (value : DptValue) : Except DptError GroupObject :=
  match go.dpt with
  | none => .error .noDpt
  | some dpt => (encode dpt value).map go.writeValue

def setValueIfChanged (go : GroupObject) (value : DptValue) :
    Except DptError (GroupObject × Bool) :=
  match go.dpt with
  | none => .error .noDpt
  | some dpt => (encode dpt value).map fun encoded =>
    let len := min encoded.length go.data.length
    if go.data.take len = encoded.take len then (go, false) else (go.writeValue encoded, true)

theorem copyFrom_data {go : GroupObject} {octets : List UInt8}
    (h : go.data.length = octets.length) : (go.copyFrom octets).data = octets := by
  unfold copyFrom overwrite
  rw [h, Nat.min_self, List.take_length, List.take_zero, List.nil_append, Nat.zero_add,
    List.drop_eq_nil_of_le (Nat.le_of_eq h), List.append_nil]

theorem copyFrom_length (go : GroupObject) (octets : List UInt8) :
    (go.copyFrom octets).data.length = go.data.length := by
  refine overwrite_length ?_
  rw [List.length_take]
  omega

theorem setValue_ok {go go' : GroupObject} {value : DptValue} (h : go.setValue value = .ok go') :
    ∃ dpt octets, go.dpt = some dpt ∧ encode dpt value = .ok octets ∧
      go' = go.writeValue octets := by
  unfold setValue at h
  split at h
  · cases h
  · next dpt hdpt =>
    cases hencode : encode dpt value with
    | error e =>
      rw [hencode] at h
      cases h
    | ok octets =>
      rw [hencode] at h
      exact ⟨dpt, octets, hdpt, hencode, (Except.ok.inj h).symm⟩

end GroupObject

/-- The calls on an object through the reference the host is given. A slice that is given out
to be written may be written anywhere, so its octets are given as a whole. -/
inductive ObjectCall where
  | setDpt (dpt : Dpt)
  | setCommFlag (flag : ComFlag)
  | requestObjectRead
  | objectWritten
  | valueMut (octets : List UInt8)
  | resizeData (newSize : Nat)
  | writeValue (data : List UInt8)
  | writeValueNoSend (data : List UInt8)
  | valueFromBus (data : List UInt8)
  | setValue (value : DptValue)
  | setValueIfChanged (value : DptValue)
  | transmitDone (success : Bool)

def GroupObject.call (go : GroupObject) : ObjectCall → GroupObject
  | .setDpt dpt => go.setDpt dpt
  | .setCommFlag flag => go.setCommFlag flag
  | .requestObjectRead => go.requestObjectRead
  | .objectWritten => go.objectWritten
  | .valueMut octets => go.copyFrom octets
  | .resizeData newSize => go.resizeData newSize
  | .writeValue data => go.writeValue data
  | .writeValueNoSend data => go.writeValueNoSend data
  | .valueFromBus data => go.valueFromBus data
  | .setValue value => (go.setValue value).toOption.getD go
  | .setValueIfChanged value => ((go.setValueIfChanged value).toOption.map Prod.fst).getD go
  | .transmitDone success => go.transmitDone success

theorem GroupObject.setValueIfChanged_ok {go go' : GroupObject} {value : DptValue}
    {changed : Bool} (h : go.setValueIfChanged value = .ok (go', changed)) :
    (go' = go ∧ changed = false) ∨ (changed = true ∧ go.setValue value = .ok go') := by
  unfold setValueIfChanged at h
  unfold setValue
  split at h
  · cases h
  · next dpt hdpt =>
    cases hencode : encode dpt value with
    | error e =>
      rw [hencode] at h
      cases h
    | ok octets =>
      rw [hencode] at h
      have h := Except.ok.inj h
      dsimp only at h
      split_ifs at h
      · cases h
        exact .inl ⟨rfl, rfl⟩
      · cases h
        exact .inr ⟨rfl, rfl⟩

theorem GroupObject.call_asap (go : GroupObject) (call : ObjectCall) :
    (go.call call).asap = go.asap := by
  have set {value : DptValue} {go' : GroupObject} (h : go.setValue value = .ok go') :
      go'.asap = go.asap := by
    obtain ⟨dpt, octets, _, _, rfl⟩ := setValue_ok h
    rfl
  cases call with
  | writeValueNoSend data =>
    dsimp only [call, writeValueNoSend]
    split_ifs <;> rfl
  | setValue value =>
    dsimp only [call]
    cases h : go.setValue value with
    | error e => rfl
    | ok go' => exact set h
  | setValueIfChanged value =>
    dsimp only [call]
    cases h : go.setValueIfChanged value with
    | error e => rfl
    | ok r =>
      rcases setValueIfChanged_ok h with ⟨hsame, _⟩ | ⟨_, hset⟩
      · exact congrArg asap hsame
      · exact set hset
  | _ => rfl

end KnxRs.GroupObjects

namespace KnxRs.GroupTables

def flagReadOnInit : UInt16 := (1 : UInt16) <<< 13
def valueTypeMask : UInt16 := 0xFF

namespace GroupObjectDescriptor

def readOnInit (d : GroupObjectDescriptor) : Bool := d.raw &&& flagReadOnInit ≠ 0

def valueType (d : GroupObjectDescriptor) : UInt8 := (d.raw &&& valueTypeMask).toUInt8

def valueSizeBytes (d : GroupObjectDescriptor) : Nat :=
  let code := d.valueType.toNat
  if code ≤ 6 then 0
  else match code with
  | 7 => 1
  | 11 => 6
  | 12 => 8
  | 13 => 10
  | 14 => 14
  | 15 => 5
  | 16 => 7
  | 17 => 9
  | 18 => 11
  | 19 => 12
  | 20 => 13
  | 255 => 252
  | code => code - 6

def goSize (d : GroupObjectDescriptor) : Nat :=
  if d.valueSizeBytes = 0 then 1 else d.valueSizeBytes

end GroupObjectDescriptor

namespace GroupObjectTable

def load (_ : GroupObjectTable) (data : List UInt8) : GroupObjectTable := ⟨data⟩

/-- `1..=count`. -/
def asaps (t : GroupObjectTable) : List UInt16 :=
  (List.range' 1 t.entryCount.toNat).map UInt16.ofNat

end GroupObjectTable
end KnxRs.GroupTables

namespace KnxRs.GroupObjects
open GroupTables Octets

namespace GroupObjectStore

/-- New objects of one octet are added up to the count, and those after it dropped. -/
def resizedTo (s : GroupObjectStore) (count : UInt16) : GroupObjectStore where
  objects := (s.objects ++ (List.range' s.objects.length (count.toNat - s.objects.length)).map
    (fun i => GroupObject.new (UInt16.ofNat (i + 1)) 1)).take count.toNat
  numbered := by
    intro i h
    have hcount := count.toNat_lt
    have hi : i < count.toNat := by
      rw [List.length_take] at h
      omega
    rw [List.get_eq_getElem, List.getElem_take]
    by_cases hold : i < s.objects.length
    · rw [List.getElem_append_left hold]
      exact s.numbered i hold
    · rw [List.getElem_append_right (Nat.not_lt.mp hold), List.getElem_map, List.getElem_range',
        GroupObject.new, UInt16.toNat_ofNat']
      omega

/-- An object gets the size that its descriptor, where there is one, has for it. -/
def sizeFrom (table : GroupObjectTable) (s : GroupObjectStore) (asap : UInt16) :
    GroupObjectStore :=
  match table.getDescriptor asap with
  | some desc =>
    s.modify asap (fun go => if go.data.length ≠ desc.goSize then go.resizeData desc.goSize else go)
      (fun go => by split_ifs <;> rfl)
  | none => s

def reinitializeFromTable (s : GroupObjectStore) (table : GroupObjectTable) : GroupObjectStore :=
  table.asaps.foldl (sizeFrom table) (s.resizedTo table.entryCount)

end GroupObjectStore
end KnxRs.GroupObjects

namespace KnxRs.DeviceState
open GroupTables GroupObjects

namespace Device

def loadGroupObjectTable (d : Device) (data : List UInt8) : Device :=
  let table := d.groupObjectTable.load data
  { d with
    groupObjectTable := table
    groupObjects := d.groupObjects.reinitializeFromTable table }

def readsOnInit (d : Device) (asap : UInt16) : Bool :=
  match d.groupObjectTable.getDescriptor asap with
  | some desc => desc.communicationEnable && desc.readOnInit
  | none => false

def callObject (d : Device) (asap : UInt16) (call : ObjectCall) : Device :=
  { d with
    groupObjects := d.groupObjects.modify asap (fun go => go.call call)
      (fun go => go.call_asap call) }

def initReadRequests (d : Device) : Device :=
  { d with
    groupObjects := d.groupObjectTable.asaps.foldl (fun objects asap =>
      if d.readsOnInit asap then
        objects.modify asap GroupObject.requestObjectRead (fun _ => rfl)
      else objects) d.groupObjects }

end Device
end KnxRs.DeviceState
