import KnxRs.MemoryServices
import KnxRs.PropertyElements

set_option autoImplicit false

/-!
# Extended property writes

What the device reports of a write, against what the property holds afterwards.
-/
namespace KnxRs.Properties.DataProperty
open Octets

variable {d : DataProperty} {start : UInt16} {count : UInt8} {data : List UInt8}

def capacity (d : DataProperty) : Nat := max d.elements d.maxElements.toNat

/-- All the elements of a request are stored, or none of them. -/
def WholeOrNothing (d : DataProperty) (start : UInt16) (count : UInt8) (data : List UInt8) : Prop :=
  0 < count.toNat ∧
    (count.toNat * d.elementSize ≤ data.length ∧ place start + count.toNat ≤ d.capacity ∨
      data.length < d.elementSize ∨ d.capacity ≤ place start)

theorem wholeOrNothing_iff (hsize : 0 < d.elementSize) : d.WholeOrNothing start count data ↔
    0 < count.toNat ∧
      (d.writable start count data = count.toNat ∨ d.writable start count data = 0) := by
  have hgiven : count.toNat * d.elementSize ≤ data.length ↔
      count.toNat ≤ data.length / d.elementSize := (Nat.le_div_iff_mul_le hsize).symm
  have hnone : data.length < d.elementSize ↔ data.length / d.elementSize = 0 := by
    rw [Nat.div_eq_zero_iff]
    omega
  unfold WholeOrNothing writable storable
  rw [hgiven, hnone, ← capacity]
  generalize data.length / d.elementSize = given
  omega

theorem write_refused (h : d.writeEnable = false) (start : UInt16) (count : UInt8)
    (data : List UInt8) : d.write start count data = (0, d) := by
  unfold write
  rw [if_pos h]

theorem write_whole (henabled : d.writeEnable = true) (hsize : d.elementSize = 0) (start : UInt16)
    (count : UInt8) (data : List UInt8) :
    d.write start count data = (1, { d with data := data }) := by
  have hzero : d.dataType.size.toNat = 0 := hsize
  unfold write
  dsimp only
  rw [if_neg (by rw [henabled]; decide), if_pos hzero]

theorem read_whole (hsize : d.elementSize = 0) (start : UInt16) (count : UInt8) :
    d.read start count = (1, d.data) := if_pos hsize

/-- After a write, the property reads as was sent if all the elements have been stored. -/
theorem write_reads_iff (henabled : d.writeEnable = true) (hsize : 0 < d.elementSize) :
    (((d.write start count data).2.read start count).1 = count ∧
      ((d.write start count data).2.read start count).2 <+: data) ↔
        d.writable start count data = count.toNat := by
  have hkept := write_kept henabled hsize start count data
  have hn := writable_le d start count data
  have hwritten : (d.write start count data).1 = UInt8.ofNat (d.writable start count data) := by
    rw [write_eq henabled hsize]
  have hsame : (d.write start count data).2.elementSize = d.elementSize := by
    rw [hkept.rest]
    rfl
  constructor
  · intro hread
    have hsound := read_sound (p := (d.write start count data).2) (by rw [hsame]; exact hsize)
      start count
    have hpresent := hsound.present
    have hgiven : count.toNat ≤ data.length / d.elementSize := by
      refine (Nat.le_div_iff_mul_le hsize).mpr ?_
      have hlen := hsound.agrees
      rw [hread.1, hsame] at hlen
      exact hlen ▸ hread.2.length_le
    rw [hread.1] at hpresent
    by_cases hzero : d.writable start count data = 0
    · -- nothing was stored, so the elements had been there and there was room for them
      have hnothing := hkept.nothing (by rw [hwritten, hzero]; rfl)
      rw [hnothing] at hpresent
      unfold writable storable at hzero ⊢
      generalize data.length / d.elementSize = given at hgiven hzero ⊢
      omega
    · have hgrown := hkept.grown (by rw [hwritten, hn]; omega)
      have helements : (d.write start count data).2.elements =
          max d.elements (place start + d.writable start count data) := by
        rw [elements, hsame, hgrown, hwritten, hn]
        rcases Nat.le_total d.data.length
          ((place start + d.writable start count data) * d.elementSize) with hle | hle
        · rw [Nat.max_eq_right hle, Nat.mul_div_cancel _ hsize, Nat.max_eq_right]
          exact Nat.div_le_of_le_mul (by rw [Nat.mul_comm]; exact hle)
        · rw [Nat.max_eq_left hle, Nat.max_eq_left]
          · rfl
          · exact (Nat.le_div_iff_mul_le hsize).mpr hle
      rw [helements] at hpresent
      unfold writable storable at hzero hpresent ⊢
      generalize data.length / d.elementSize = given at hgiven hzero hpresent ⊢
      omega
  · intro hall
    have hcount : (d.write start count data).1 = count := by
      rw [hwritten, hall]
      exact UInt8.ofNat_toNat
    have hback := hkept.readBack
    rw [hcount] at hback
    rw [hback]
    exact ⟨rfl, List.take_prefix _ _⟩

end KnxRs.Properties.DataProperty

namespace KnxRs.Properties.Property

variable {p : Property} {start : UInt16} {count : UInt8} {data : List UInt8}

/-- The property can be written, and what it gives for a request is what was sent for it. -/
def Holds (p : Property) (start : UInt16) (count : UInt8) (data : List UInt8) : Prop :=
  p.writeEnable = true ∧ (p.read start count).1 = count ∧ (p.read start count).2 <+: data

/-- When a write to the property is reported as it is carried out: where its octets are held,
it stores all the elements or none, and an octet string is written as its one element;
where there is no way to store them, they are not there already; and a callback reports
elements exactly when they can be read from the state it leaves, and none only when that
is the state it found. -/
def ReportsWrite (p : Property) (start : UInt16) (count : UInt8) (data : List UInt8) : Prop :=
  match p.storage with
  | .data d =>
    if d.writeEnable = false then ¬ p.Holds start count data
    else if d.elementSize = 0 then count = 1
    else d.WholeOrNothing start count data
  | .callback _ _ none => ¬ p.Holds start count data
  | .callback state readFn (some writeFn) =>
    let written := writeFn state start count data
    (written.1 > 0 ↔
      Holds { p with storage := .callback written.2 readFn (some writeFn) } start count data) ∧
    (written.1 = 0 → written.2 = state)

theorem write_nothing {d : DataProperty} (hs : p.storage = .data d)
    (h : (p.write start count data).1 = 0) : (p.write start count data).2 = p := by
  unfold write at h ⊢
  split_ifs at h ⊢ with henabled
  · rfl
  · rw [hs] at h ⊢
    dsimp only at h ⊢
    have hsame : (d.write start count data).2 = d := by
      by_cases hd : d.writeEnable = false
      · rw [DataProperty.write_refused hd]
      · have hd : d.writeEnable = true := by simpa using hd
        rcases Nat.eq_zero_or_pos d.elementSize with hsize | hsize
        · rw [DataProperty.write_whole hd hsize] at h
          exact absurd h (show ¬(1 : UInt8) = 0 by decide)
        · exact (DataProperty.write_kept hd hsize start count data).nothing h
    rw [hsame, ← hs]

/-- Elements are reported exactly if the property then holds what was sent, and none only if
it is as it was. -/
structure WriteReported (p : Property) (start : UInt16) (count : UInt8) (data : List UInt8)
    (n : UInt8) (p' : Property) : Prop where
  holds : n > 0 ↔ p'.Holds start count data
  kept : n = 0 → p' = p

theorem refused_reported_iff :
    p.WriteReported start count data 0 p ↔ ¬ p.Holds start count data :=
  ⟨fun h hp => absurd (h.holds.mpr hp) (by decide),
    fun h => ⟨⟨fun h0 => absurd h0 (by decide), fun hp => absurd hp h⟩, fun _ => rfl⟩⟩

theorem write_data {d : DataProperty} (henabled : p.writeEnable = true)
    (hs : p.storage = .data d) : p.write start count data =
      ((d.write start count data).1, { p with storage := .data (d.write start count data).2 }) := by
  unfold write
  rw [if_neg (by rw [henabled]; decide), hs]

theorem data_reported_iff {d : DataProperty} (henabled : p.writeEnable = true)
    (hs : p.storage = .data d) :
    p.WriteReported start count data (p.write start count data).1 (p.write start count data).2 ↔
      p.ReportsWrite start count data := by
  have hdata : p.write start count data = _ := write_data henabled hs
  have hkept : (p.write start count data).1 = 0 → (p.write start count data).2 = p :=
    write_nothing hs
  have hholds : (p.write start count data).2.Holds start count data ↔
      ((d.write start count data).2.read start count).1 = count ∧
        ((d.write start count data).2.read start count).2 <+: data := by
    rw [hdata]
    exact and_iff_right henabled
  have hiff : p.WriteReported start count data (p.write start count data).1
      (p.write start count data).2 ↔
        ((d.write start count data).1 > 0 ↔
          ((d.write start count data).2.read start count).1 = count ∧
            ((d.write start count data).2.read start count).2 <+: data) := by
    rw [← hholds, show (d.write start count data).1 = (p.write start count data).1 by rw [hdata]]
    exact ⟨fun h => h.holds, fun h => ⟨h, hkept⟩⟩
  unfold ReportsWrite
  rw [hs]
  dsimp only
  by_cases hd : d.writeEnable = false
  · have hrefused := DataProperty.write_refused hd start count data
    have hsame : (p.write start count data).2 = p := hkept (by rw [hdata, hrefused])
    rw [if_pos hd, hsame, hdata, hrefused]
    exact refused_reported_iff
  · rw [if_neg hd, hiff]
    have hd' : d.writeEnable = true := by simpa using hd
    rcases Nat.eq_zero_or_pos d.elementSize with hsize | hsize
    · have hone : (1 : UInt8) > 0 := by decide
      rw [if_pos hsize, DataProperty.write_whole hd' hsize,
        DataProperty.read_whole (d := { d with data := data }) hsize]
      exact ⟨fun h => (h.mp hone).1.symm,
        fun h => ⟨fun _ => ⟨h.symm, List.prefix_rfl⟩, fun _ => hone⟩⟩
    · have hn := DataProperty.writable_le d start count data
      rw [if_neg (by omega), DataProperty.write_reads_iff hd' hsize,
        DataProperty.wholeOrNothing_iff hsize, DataProperty.write_eq hd' hsize]
      dsimp only
      rw [gt_iff_lt, UInt8.lt_iff_toNat_lt, hn]
      have hle : d.writable start count data ≤ count.toNat := Nat.min_le_left _ _
      have hzero : (0 : UInt8).toNat = 0 := rfl
      omega

theorem callback_reported_iff {state : List UInt8}
    {readFn : List UInt8 → UInt16 → UInt8 → List UInt8}
    {writeFn : Option (List UInt8 → UInt16 → UInt8 → List UInt8 → UInt8 × List UInt8)}
    (henabled : p.writeEnable = true) (hs : p.storage = .callback state readFn writeFn) :
    p.WriteReported start count data (p.write start count data).1 (p.write start count data).2 ↔
      p.ReportsWrite start count data := by
  have hwrite : ¬p.writeEnable = false := by
    rw [henabled]
    decide
  unfold ReportsWrite
  cases writeFn with
  | none =>
    have hkeep : p.write start count data = (0, p) := by
      unfold write
      rw [if_neg hwrite, hs]
    rw [hkeep, hs]
    exact refused_reported_iff
  | some writeFn =>
    have hcalled : p.write start count data = ((writeFn state start count data).1,
        { p with
          storage := .callback (writeFn state start count data).2 readFn (some writeFn) }) := by
      unfold write
      rw [if_neg hwrite, hs]
    rw [hcalled, hs]
    refine ⟨fun h => ⟨h.holds, fun hzero => ?_⟩, fun h => ⟨h.1, fun hzero => ?_⟩⟩
    · have hsame := congrArg storage (h.kept hzero)
      rw [hs] at hsame
      exact (PropertyStorage.callback.inj hsame).1
    · dsimp only
      rw [h.2 hzero, ← hs]

theorem write_reported_iff (henabled : p.writeEnable = true) :
    p.WriteReported start count data (p.write start count data).1 (p.write start count data).2 ↔
      p.ReportsWrite start count data := by
  cases hs : p.storage with
  | data d => exact data_reported_iff henabled hs
  | callback state readFn writeFn => exact callback_reported_iff henabled hs

end KnxRs.Properties.Property

namespace KnxRs.InterfaceObjects.InterfaceObject
open Properties

variable {id : PropertyId} {start : UInt16} {count : UInt8} {data : List UInt8}

theorem writeFirst_count {ps : List Property} {p : Property}
    (h : ps.find? (fun p => p.id = id) = some p) :
    (writeFirst id start count data ps).1 = (p.write start count data).1 := by
  induction ps with
  | nil => cases h
  | cons q ps ih =>
    unfold writeFirst
    by_cases hq : q.id = id
    · rw [List.find?_cons_of_pos (by simpa using hq), Option.some_inj] at h
      rw [if_pos hq, h]
    · rw [List.find?_cons_of_neg (by simpa using hq)] at h
      rw [if_neg hq]
      exact ih h

theorem writeFirst_same {ps : List Property} {p : Property}
    (h : ps.find? (fun p => p.id = id) = some p) (hsame : (p.write start count data).2 = p) :
    (writeFirst id start count data ps).2 = ps := by
  induction ps with
  | nil => cases h
  | cons q ps ih =>
    unfold writeFirst
    by_cases hq : q.id = id
    · rw [List.find?_cons_of_pos (by simpa using hq), Option.some_inj] at h
      rw [if_pos hq, h]
      exact congrArg (· :: ps) hsame
    · rw [List.find?_cons_of_neg (by simpa using hq)] at h
      rw [if_neg hq]
      exact congrArg (q :: ·) (ih h)

end KnxRs.InterfaceObjects.InterfaceObject

namespace KnxRs.DeviceState.Device
open Properties InterfaceObjects

variable {d : Device}

/-! ## One property of a device -/

def extProperty (d : Device) (objectType objectInstance propertyId : UInt16) : Option Property := do
  let idx ← d.findObjectByType objectType objectInstance
  let pid ← propertyIdOfWord propertyId
  let o ← d.object idx
  o.property pid

theorem findObjectFrom_types (target : ObjectType) (instanceNo : UInt16)
    {os os' : List InterfaceObject}
    (h : os.map InterfaceObject.objectType = os'.map InterfaceObject.objectType) (i : Nat)
    (n : UInt16) :
    findObjectFrom target instanceNo os i n = findObjectFrom target instanceNo os' i n := by
  induction os generalizing os' i n with
  | nil =>
    rw [List.map_nil] at h
    rw [List.map_eq_nil_iff.mp h.symm]
  | cons o os ih =>
    cases os' with
    | nil => cases h
    | cons o' os' =>
      rw [List.map_cons, List.map_cons, List.cons.injEq] at h
      unfold findObjectFrom
      rw [h.1, ih h.2, ih h.2]

theorem setObject_objects (d : Device) (index : UInt8) (o : InterfaceObject) :
    (d.setObject index o).objects = d.objects.set index.toNat o := by
  unfold setObject
  cases index.toNat <;> rfl

theorem findObjectByType_setObject {index : UInt8} {o o' : InterfaceObject}
    (ho : d.object index = some o) (htype : o'.objectType = o.objectType)
    (objectType instanceNo : UInt16) :
    (d.setObject index o').findObjectByType objectType instanceNo =
      d.findObjectByType objectType instanceNo := by
  have hmap : (d.setObject index o').objects.map InterfaceObject.objectType =
      d.objects.map InterfaceObject.objectType := by
    obtain ⟨hlt, ho⟩ := List.getElem?_eq_some_iff.mp ho
    rw [setObject_objects, List.map_set, htype, ← ho, ← List.getElem_map InterfaceObject.objectType]
    · exact List.set_getElem_self _
    · rw [List.length_map]
      exact hlt
  unfold findObjectByType
  cases ObjectType.tryFrom objectType with
  | none => rfl
  | some target => exact findObjectFrom_types target instanceNo hmap 0 0

theorem object_setObject {index : UInt8} {o : InterfaceObject} (ho : d.object index = some o)
    (o' : InterfaceObject) : (d.setObject index o').object index = some o' := by
  have hlt := (List.getElem?_eq_some_iff.mp ho).1
  unfold object
  rw [setObject_objects, List.getElem?_set_self hlt]

theorem setObject_self {index : UInt8} {o : InterfaceObject} (ho : d.object index = some o) :
    d.setObject index o = d := by
  unfold object objects at ho
  unfold setObject
  cases hi : index.toNat with
  | zero =>
    rw [hi, List.getElem?_cons_zero, Option.some_inj] at ho
    rw [← ho]
  | succ i =>
    rw [hi, List.getElem?_cons_succ] at ho
    obtain ⟨hlt, ho⟩ := List.getElem?_eq_some_iff.mp ho
    dsimp only
    rw [← ho, List.set_getElem_self]

/-! ## Reports -/

/-- Success is reported exactly if the property then holds what was sent, and what is not
reported as a success has changed nothing. -/
structure WriteReported (d : Device) (params : ExtPropertyParams) (data : List UInt8) (d' : Device)
    (returnCode : UInt8) : Prop where
  success : returnCode = returnCodeSuccess ↔
    ∃ p ∈ d'.extProperty params.objectType params.objectInstance params.propertyId,
      p.Holds params.startIndex params.count data
  failure : returnCode ≠ returnCodeSuccess → d' = d

/-- There is no such property, or it is read only, or it reports the write as it carries it out. -/
def ReportsWrite (d : Device) (params : ExtPropertyParams) (data : List UInt8) : Prop :=
  ∀ p ∈ d.extProperty params.objectType params.objectInstance params.propertyId,
    p.writeEnable = true → p.ReportsWrite params.startIndex params.count data

variable {params : ExtPropertyParams} {data : List UInt8}

theorem extProperty_eq_some {objectType objectInstance propertyId : UInt16} {p : Property} :
    d.extProperty objectType objectInstance propertyId = some p ↔
      ∃ idx pid o, d.findObjectByType objectType objectInstance = some idx ∧
        propertyIdOfWord propertyId = some pid ∧ d.object idx = some o ∧
        o.property pid = some p := by
  unfold extProperty
  simp only [Option.bind_eq_bind, Option.bind_eq_some_iff]
  constructor
  · rintro ⟨idx, hidx, pid, hpid, o, ho, hp⟩
    exact ⟨idx, pid, o, hidx, hpid, ho, hp⟩
  · rintro ⟨idx, pid, o, hidx, hpid, ho, hp⟩
    exact ⟨idx, hidx, pid, hpid, o, ho, hp⟩

theorem applyExtPropertyWrite_missing
    (h : d.extProperty params.objectType params.objectInstance params.propertyId = none) :
    d.applyExtPropertyWrite params data = (d, returnCodeAddressVoid) := by
  unfold applyExtPropertyWrite
  cases hidx : d.findObjectByType params.objectType params.objectInstance with
  | none => rfl
  | some idx =>
    dsimp only
    cases hpid : propertyIdOfWord params.propertyId with
    | none => rfl
    | some pid =>
      dsimp only
      cases ho : d.object idx with
      | none => rfl
      | some o =>
        dsimp only
        cases hp : o.property pid with
        | none => rfl
        | some p =>
          have := extProperty_eq_some.mpr ⟨idx, pid, o, hidx, hpid, ho, hp⟩
          rw [h] at this
          cases this

section
variable {idx : UInt8} {pid : PropertyId} {o : InterfaceObject} {p : Property}

theorem applyExtPropertyWrite_found
    (hidx : d.findObjectByType params.objectType params.objectInstance = some idx)
    (hpid : propertyIdOfWord params.propertyId = some pid) (ho : d.object idx = some o)
    (hp : o.property pid = some p) : d.applyExtPropertyWrite params data =
      if p.writeEnable = false then (d, returnCodeAccessReadOnly)
      else (d.setObject idx (o.writeProperty pid params.startIndex params.count data).2,
        if (p.write params.startIndex params.count data).1 > 0 then returnCodeSuccess
        else returnCodeWriteFailed) := by
  have hcount : (o.writeProperty pid params.startIndex params.count data).1 =
      (p.write params.startIndex params.count data).1 := InterfaceObject.writeFirst_count hp
  unfold applyExtPropertyWrite
  rw [hidx]
  dsimp only
  rw [hpid]
  dsimp only
  rw [ho]
  dsimp only
  rw [hp, Option.map_some]
  cases p.writeEnable with
  | false => rfl
  | true =>
    dsimp only
    rw [hcount]
    rfl

theorem extProperty_written
    (hidx : d.findObjectByType params.objectType params.objectInstance = some idx)
    (hpid : propertyIdOfWord params.propertyId = some pid) (ho : d.object idx = some o)
    (hp : o.property pid = some p) :
    (d.setObject idx (o.writeProperty pid params.startIndex params.count data).2).extProperty
      params.objectType params.objectInstance params.propertyId =
        some (p.write params.startIndex params.count data).2 := by
  have htype : (o.writeProperty pid params.startIndex params.count data).2.objectType =
      o.objectType := rfl
  refine extProperty_eq_some.mpr ⟨idx, pid, _, ?_, hpid, object_setObject ho _, ?_⟩
  · exact (findObjectByType_setObject ho htype _ _).trans hidx
  · rw [InterfaceObject.property_writeProperty, if_pos rfl, hp, Option.map_some]

end

theorem missing_ne_success : returnCodeAddressVoid ≠ returnCodeSuccess := by decide

theorem readOnly_ne_success : returnCodeAccessReadOnly ≠ returnCodeSuccess := by decide

theorem writeCode_success {count : UInt8} : (if count > 0 then returnCodeSuccess
    else returnCodeWriteFailed) = returnCodeSuccess ↔ count > 0 := by
  split_ifs with hpos
  · exact iff_of_true rfl hpos
  · exact iff_of_false (by decide) hpos

theorem setObject_writeProperty {d : Device} {idx : UInt8} {pid : PropertyId}
    {o : InterfaceObject} {p : Property} {start : UInt16} {count : UInt8} {data : List UInt8}
    (ho : d.object idx = some o) (hp : o.property pid = some p)
    (hsame : (p.write start count data).2 = p) :
    d.setObject idx (o.writeProperty pid start count data).2 = d := by
  have hobject : (o.writeProperty pid start count data).2 = o :=
    congrArg (fun ps => { o with properties := ps }) (InterfaceObject.writeFirst_same hp hsame)
  rw [hobject, setObject_self ho]

theorem not_pos_iff {n : UInt8} : ¬n > 0 ↔ n = 0 := by
  have hzero : (0 : UInt8).toNat = 0 := rfl
  rw [gt_iff_lt, UInt8.lt_iff_toNat_lt, ← UInt8.toNat_inj]
  omega

theorem missing_reported
    (h : d.extProperty params.objectType params.objectInstance params.propertyId = none) :
    WriteReported d params data d returnCodeAddressVoid where
  success := by
    refine ⟨fun hcode => absurd hcode missing_ne_success, ?_⟩
    rintro ⟨p, hp, _⟩
    rw [h] at hp
    cases hp
  failure := fun _ => rfl

theorem readOnly_reported {p : Property}
    (h : d.extProperty params.objectType params.objectInstance params.propertyId = some p)
    (hreadOnly : p.writeEnable = false) :
    WriteReported d params data d returnCodeAccessReadOnly where
  success := by
    refine ⟨fun hcode => absurd hcode readOnly_ne_success, ?_⟩
    rintro ⟨q, hq, hholds, _⟩
    rw [h, Option.mem_def, Option.some_inj] at hq
    rw [← hq, hreadOnly] at hholds
    cases hholds
  failure := fun _ => rfl

/-- The device reports of a write what the property reports of it. -/
theorem written_reported_iff {idx : UInt8} {pid : PropertyId} {o : InterfaceObject} {p : Property}
    (hidx : d.findObjectByType params.objectType params.objectInstance = some idx)
    (hpid : propertyIdOfWord params.propertyId = some pid) (ho : d.object idx = some o)
    (hp : o.property pid = some p) :
    WriteReported d params data
      (d.setObject idx (o.writeProperty pid params.startIndex params.count data).2)
      (if (p.write params.startIndex params.count data).1 > 0 then returnCodeSuccess
        else returnCodeWriteFailed) ↔
      p.WriteReported params.startIndex params.count data
        (p.write params.startIndex params.count data).1
        (p.write params.startIndex params.count data).2 := by
  have hafter : (d.setObject idx (o.writeProperty pid params.startIndex params.count
      data).2).extProperty params.objectType params.objectInstance params.propertyId = _ :=
    extProperty_written hidx hpid ho hp
  have hholds : (∃ q ∈ some (p.write params.startIndex params.count data).2,
      q.Holds params.startIndex params.count data) ↔
        (p.write params.startIndex params.count data).2.Holds params.startIndex params.count
          data :=
    ⟨fun ⟨q, hq, h⟩ => Option.some_inj.mp hq ▸ h, fun h => ⟨_, rfl, h⟩⟩
  constructor
  · intro h
    have hsuccess := h.success
    rw [writeCode_success, hafter, hholds] at hsuccess
    refine ⟨hsuccess, fun hzero => ?_⟩
    have hunchanged : d.setObject idx
        (o.writeProperty pid params.startIndex params.count data).2 = d :=
      h.failure (mt writeCode_success.mp (not_pos_iff.mpr hzero))
    rw [hunchanged, extProperty_eq_some.mpr ⟨idx, pid, o, hidx, hpid, ho, hp⟩,
      Option.some_inj] at hafter
    exact hafter.symm
  · intro h
    refine ⟨?_, fun hfail => setObject_writeProperty ho hp
      (h.kept (not_pos_iff.mp (mt writeCode_success.mpr hfail)))⟩
    rw [writeCode_success, hafter, hholds]
    exact h.holds

theorem applyExtPropertyWrite_reported_iff (d : Device) (params : ExtPropertyParams)
    (data : List UInt8) :
    WriteReported d params data (d.applyExtPropertyWrite params data).1
      (d.applyExtPropertyWrite params data).2 ↔ d.ReportsWrite params data := by
  unfold ReportsWrite
  cases hext : d.extProperty params.objectType params.objectInstance params.propertyId with
  | none =>
    rw [applyExtPropertyWrite_missing hext]
    exact iff_of_true (missing_reported hext) fun p hp => by cases hp
  | some p =>
    obtain ⟨idx, pid, o, hidx, hpid, ho, hp⟩ := extProperty_eq_some.mp hext
    have hfound : d.applyExtPropertyWrite params data = _ :=
      applyExtPropertyWrite_found hidx hpid ho hp
    rw [hfound]
    by_cases hreadOnly : p.writeEnable = false
    · rw [if_pos hreadOnly]
      refine iff_of_true (readOnly_reported hext hreadOnly) fun q hq hwrite => ?_
      rw [Option.mem_def, Option.some_inj] at hq
      rw [← hq, hreadOnly] at hwrite
      cases hwrite
    · have henabled : p.writeEnable = true := by simpa using hreadOnly
      have hreports := @Property.write_reported_iff p params.startIndex params.count data henabled
      rw [if_neg hreadOnly, written_reported_iff hidx hpid ho hp, hreports]
      refine ⟨fun h q hq _ => ?_, fun h => h p rfl henabled⟩
      rw [← Option.some_inj.mp hq]
      exact h

end KnxRs.DeviceState.Device

namespace KnxRs.BusAccessUnit
open CoreTypes Properties InterfaceObjects DeviceState AppEncode

namespace Bau

theorem extWriteConResponse_length (objectType objectInstance propertyId : UInt16) (count : UInt8)
    (startIndex : UInt16) (returnCode : UInt8) :
    (encodePropertyValueExtWriteConResponse objectType objectInstance propertyId count startIndex
      returnCode).length = 11 := by
  simp [encodePropertyValueExtWriteConResponse, encodeExtPropertyHeader, encodeExtOtOiPid, service,
    be16Bytes_length]

/-- A confirmed write is answered with the return code, one that is not confirmed with nothing.
The code is a success if and only if the property then holds what was sent, and otherwise
nothing has changed, exactly where all the elements are stored or none. -/
theorem ext_write_reported_iff (b : Bau) (source : IndividualAddress) (params : ExtPropertyParams)
    (data : List UInt8) :
    Replies { b with toDevice := (b.toDevice.applyExtPropertyWrite params data).1 } source
      (encodePropertyValueExtWriteConResponse params.objectType params.objectInstance
        params.propertyId params.count params.startIndex
        (b.toDevice.applyExtPropertyWrite params data).2)
      (b.handlePropertyValueExtWrite source params data true) ∧
    b.handlePropertyValueExtWrite source params data false =
      .ok { b with toDevice := (b.toDevice.applyExtPropertyWrite params data).1 } ∧
    (Device.WriteReported b.toDevice params data (b.toDevice.applyExtPropertyWrite params data).1
      (b.toDevice.applyExtPropertyWrite params data).2 ↔ b.toDevice.ReportsWrite params data) := by
  refine ⟨⟨rfl, ?_⟩, rfl, Device.applyExtPropertyWrite_reported_iff _ _ _⟩
  rw [extWriteConResponse_length]
  decide

end Bau

def twoVersions : ExtPropertyParams := ⟨3, 1, 13, 2, 1⟩

/-- The first is stored, and the write of both is reported as a success. -/
theorem half_a_write_acknowledged :
    (standardBau.toDevice.applyExtPropertyWrite twoVersions (List.replicate 10 7)).2 =
      returnCodeSuccess ∧
    ¬Device.WriteReported standardBau.toDevice twoVersions (List.replicate 10 7)
      (standardBau.toDevice.applyExtPropertyWrite twoVersions (List.replicate 10 7)).1
      (standardBau.toDevice.applyExtPropertyWrite twoVersions (List.replicate 10 7)).2 := by
  have hcode : (standardBau.toDevice.applyExtPropertyWrite twoVersions
      (List.replicate 10 7)).2 = returnCodeSuccess := by decide +kernel
  have hread : ((standardBau.toDevice.applyExtPropertyWrite twoVersions
      (List.replicate 10 7)).1.extProperty twoVersions.objectType twoVersions.objectInstance
        twoVersions.propertyId).map (fun p => (p.read 1 2).1) = some 1 := by
    decide +kernel
  refine ⟨hcode, fun h => ?_⟩
  obtain ⟨p, hp, hholds⟩ := h.success.mp hcode
  rw [Option.mem_def.mp hp, Option.map_some, Option.some_inj] at hread
  have htwo := hholds.2.1
  rw [show (p.read twoVersions.startIndex twoVersions.count).1 = 1 from hread] at htwo
  cases htwo

end KnxRs.BusAccessUnit
