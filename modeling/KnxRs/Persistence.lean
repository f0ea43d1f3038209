import KnxRs.DeviceState

set_option autoImplicit false

/-!
# Saved states

The octets a device is saved as, and what restoring them makes of another one.
-/
namespace KnxRs.Persistence
open CoreTypes Properties Octets TableObjects GroupTables InterfaceObjects MemoryStore DeviceState

def programVersionSize : Nat := 5
def memoryLengthSize : Nat := 4
def tableObjectCount : Nat := 3

def headerSize : Nat :=
  TableObject.saveSize * tableObjectCount + programVersionSize + memoryLengthSize

inductive PersistenceError where
  | truncatedData | invalidTableObject | memoryTooLarge
  deriving DecidableEq

def programVersion (d : Device) : List UInt8 :=
  match d.object objAppProgram with
  | some o => (o.readProperty .programVersion 1 1).2
  | none => []

def saveBauState (d : Device) : List UInt8 :=
  d.addrTableObject.save ++ (d.assocTableObject.save ++ (d.appProgramObject.save ++
    ((grow (programVersion d) programVersionSize 0).take programVersionSize ++
      (le32Bytes (u32OfLen d.memoryArea.length) ++ d.memoryArea))))

def restoreProgramVersion (d : Device) (version : List UInt8) : Device :=
  match d.object objAppProgram with
  | some o => d.setObject objAppProgram (o.writeProperty .programVersion 1 1 version).2
  | none => d

/-- The tables whose image is not empty are parsed from it. -/
def parseTables (d : Device) : Device :=
  let addrData := d.addrTableObject.data d.memoryArea
  let d := if addrData = [] then d else { d with addressTable := d.addressTable.load addrData }
  let assocData := d.assocTableObject.data d.memoryArea
  if assocData = [] then d
  else { d with associationTable := d.associationTable.load assocData }

/-- The part of `restore_bau_state` from the memory length on. -/
def restoreMemory (d : Device) (data : List UInt8) (offset : Nat) :
    Device × Except PersistenceError Unit :=
  if offset + memoryLengthSize > data.length then (d, .error .truncatedData)
  else
    let field := data.drop offset
    let memLen := (le32 (field.getD 0 0) (field.getD 1 0) (field.getD 2 0) (field.getD 3 0)).toNat
    let offset := offset + memoryLengthSize
    if data.length < offset + memLen then (d, .error .memoryTooLarge)
    else (parseTables { d with memoryArea := slice data offset memLen }, .ok ())

/-- The device, changed up to where an error was found, and the result. -/
def restoreBauState (d : Device) (data : List UInt8) : Device × Except PersistenceError Unit :=
  if data.length < headerSize then (d, .error .truncatedData)
  else
    let addr := d.addrTableObject.restore data
    let d := { d with addrTableObject := addr.2 }
    if addr.1 = 0 then (d, .error .invalidTableObject)
    else
      let offset := addr.1
      let assoc := d.assocTableObject.restore (data.drop offset)
      let d := { d with assocTableObject := assoc.2 }
      if assoc.1 = 0 then (d, .error .invalidTableObject)
      else
        let offset := offset + assoc.1
        let app := d.appProgramObject.restore (data.drop offset)
        let d := { d with appProgramObject := app.2 }
        if app.1 = 0 then (d, .error .invalidTableObject)
        else
          let offset := offset + app.1
          if offset + programVersionSize > data.length then (d, .error .truncatedData)
          else
            restoreMemory (restoreProgramVersion d (slice data offset programVersionSize)) data
              (offset + programVersionSize)

/-! ## Table objects -/

def outOfRange (t : TableObject) : Bool :=
  t.state = .loaded ∧ maxMemorySize < t.region.stop

def restored (t : TableObject) : TableObject :=
  if outOfRange t then .new else { t with error := .noFault }

theorem restore_save (t u : TableObject) (rest : List UInt8) :
    t.restore (u.save ++ rest) = (TableObject.saveSize, restored u) := by
  have hsave : u.save ++ rest = u.state.raw ::
      UInt8.ofNat u.dataOffset.toNat :: UInt8.ofNat (u.dataOffset.toNat / 256) ::
      UInt8.ofNat (u.dataOffset.toNat / 256 ^ 2) :: UInt8.ofNat (u.dataOffset.toNat / 256 ^ 3) ::
      UInt8.ofNat u.dataSize.toNat :: UInt8.ofNat (u.dataSize.toNat / 256) ::
      UInt8.ofNat (u.dataSize.toNat / 256 ^ 2) :: UInt8.ofNat (u.dataSize.toNat / 256 ^ 3) ::
      rest := rfl
  have hlen : ¬ (u.save ++ rest).length < TableObject.saveSize := by
    rw [hsave]
    simp only [List.length_cons, TableObject.saveSize]
    omega
  unfold TableObject.restore
  rw [if_neg hlen, hsave]
  simp only [List.getD_cons_zero, List.getD_cons_succ, le32, be32_be32Bytes, LoadState.ofByte_raw]
  have hrange : (u.state = .loaded ∧ decide (u.dataSize.toNat ≤ maxMemorySize ∧
      u.dataOffset.toNat + u.dataSize.toNat ≤ maxMemorySize) = false) ↔ outOfRange u = true := by
    unfold outOfRange TableObject.region Regions.Region.stop
    simp only [decide_eq_false_iff_not, decide_eq_true_eq]
    refine and_congr_right fun _ => ?_
    omega
  unfold restored
  by_cases h : outOfRange u = true
  · rw [if_pos (hrange.mpr h), if_pos h]
    rfl
  · rw [if_neg (fun hn => h (hrange.mp hn)), if_neg h]

theorem restored_data (t : TableObject) {memoryArea : List UInt8}
    (h : memoryArea.length ≤ maxMemorySize) : (restored t).data memoryArea = t.data memoryArea := by
  unfold restored
  split_ifs with hrange
  · obtain ⟨_, hstop⟩ := of_decide_eq_true hrange
    unfold TableObject.region Regions.Region.stop at hstop
    dsimp only at hstop
    unfold TableObject.data
    rw [if_pos (.inl (by decide))]
    split_ifs with hempty hle
    · rfl
    · exact absurd hle (by omega)
    · rfl
  · rfl

/-! ## The program version -/

def programVersionProperty (octets : List UInt8) : Property :=
  .ofData ⟨.programVersion, true, .generic05, 1, .writeHigh, octets⟩

def HasProgramVersion (d : Device) (octets : List UInt8) : Prop :=
  octets.length = programVersionSize ∧ ∃ o, d.object objAppProgram = some o ∧
    o.property .programVersion = some (programVersionProperty octets)

theorem programVersionProperty_read {octets : List UInt8}
    (h : octets.length = programVersionSize) :
    (programVersionProperty octets).read 1 1 = (1, octets) := by
  have hread : (programVersionProperty octets).read 1 1 =
      DataProperty.readFrom octets 5 1 0 := rfl
  rw [hread]
  unfold DataProperty.readFrom
  rw [h, if_neg (by decide), if_pos (by decide)]
  dsimp only [DataProperty.readFrom]
  rw [List.append_nil, Nat.zero_mul, slice, List.drop_zero]
  exact congrArg _ (List.take_of_length_le (Nat.le_of_eq h))

theorem programVersionProperty_write {octets version : List UInt8}
    (h : octets.length = programVersionSize) (hversion : version.length = programVersionSize) :
    ((programVersionProperty octets).write 1 1 version).2 = programVersionProperty version := by
  have hwrite : ((programVersionProperty octets).write 1 1 version).2 =
      programVersionProperty (DataProperty.writeFrom version 1 5 0 1 0 octets).2 := rfl
  have hgrow : grow octets 5 0 = octets := by
    rw [grow, h]
    exact List.append_nil octets
  have hslice : slice version 0 5 = version := by
    rw [slice, List.drop_zero]
    exact List.take_of_length_le (Nat.le_of_eq hversion)
  rw [hwrite]
  unfold DataProperty.writeFrom
  dsimp only
  rw [hversion, h, if_neg (by decide), if_neg (by decide), Nat.zero_add, Nat.zero_mul,
    Nat.zero_add, hgrow, hslice]
  dsimp only [DataProperty.writeFrom]
  rw [overwrite, List.take_zero, List.nil_append, hversion, Nat.zero_add,
    List.drop_of_length_le (Nat.le_of_eq h), List.append_nil]

theorem HasProgramVersion.of_others {d e : Device} {octets : List UInt8}
    (h : HasProgramVersion d octets) (he : e.others = d.others) : HasProgramVersion e octets := by
  obtain ⟨hlen, o, ho, hproperty⟩ := h
  refine ⟨hlen, o, ?_, hproperty⟩
  change e.others[3]? = some o
  rw [he]
  exact ho

theorem HasProgramVersion.programVersion {d : Device} {octets : List UInt8}
    (h : HasProgramVersion d octets) : programVersion d = octets := by
  obtain ⟨hlen, o, ho, hproperty⟩ := h
  unfold Persistence.programVersion InterfaceObject.readProperty
  rw [ho]
  dsimp only
  rw [hproperty]
  dsimp only
  rw [programVersionProperty_read hlen]

theorem HasProgramVersion.restore {d : Device} {octets version : List UInt8}
    (h : HasProgramVersion d octets) (hversion : version.length = programVersionSize) :
    HasProgramVersion (restoreProgramVersion d version) version ∧
      ∃ others, restoreProgramVersion d version = { d with others := others } := by
  obtain ⟨hlen, o, ho, hproperty⟩ := h
  have hset : restoreProgramVersion d version = { d with
      others := d.others.set 3 (o.writeProperty .programVersion 1 1 version).2 } := by
    unfold restoreProgramVersion
    rw [ho]
    rfl
  refine ⟨⟨hversion, (o.writeProperty .programVersion 1 1 version).2, ?_, ?_⟩, _, hset⟩
  · rw [hset]
    have hothers : d.others[3]? = some o := ho
    obtain ⟨hi, -⟩ := List.getElem?_eq_some_iff.mp hothers
    exact List.getElem?_set_self hi
  · rw [InterfaceObject.property_writeProperty, if_pos rfl, hproperty, Option.map_some,
      programVersionProperty_write hlen hversion]

/-! ## A whole state -/

theorem save_length (t : TableObject) : t.save.length = TableObject.saveSize := rfl

theorem restoreMemory_saved {d : Device} {data memoryArea : List UInt8} {offset : Nat}
    (h : data.drop offset = le32Bytes (u32OfLen memoryArea.length) ++ memoryArea)
    (hlen : memoryArea.length < 2 ^ 32) :
    restoreMemory d data offset = (parseTables { d with memoryArea := memoryArea }, .ok ()) := by
  have hdata : data.length = offset + memoryLengthSize + memoryArea.length := by
    have hlength := congrArg List.length h
    rw [List.length_drop, List.length_append] at hlength
    have hfield : (le32Bytes (u32OfLen memoryArea.length)).length = memoryLengthSize := rfl
    have hpos : 0 < memoryLengthSize := by decide
    omega
  have hslice : slice data (offset + memoryLengthSize) memoryArea.length = memoryArea := by
    have hfield : (le32Bytes (u32OfLen memoryArea.length)).length = memoryLengthSize := rfl
    rw [slice, ← List.drop_drop, h, List.drop_left' hfield, List.take_length]
  unfold restoreMemory
  dsimp only
  rw [if_neg (by omega), h, le32_le32Bytes, u32OfLen_toNat hlen, if_neg (by omega), hslice]

theorem parseTables_eq (d : Device) : parseTables d = { d with
    addressTable := if d.addrTableObject.data d.memoryArea = [] then d.addressTable
      else d.addressTable.load (d.addrTableObject.data d.memoryArea)
    associationTable := if d.assocTableObject.data d.memoryArea = [] then d.associationTable
      else d.associationTable.load (d.assocTableObject.data d.memoryArea) } := by
  unfold parseTables
  dsimp only
  by_cases haddr : d.addrTableObject.data d.memoryArea = []
  · rw [if_pos haddr, if_pos haddr]
    split_ifs <;> rfl
  · rw [if_neg haddr, if_neg haddr]
    split_ifs <;> rfl

theorem restoreBauState_reads {a : Device} (b : Device) {version : List UInt8}
    (ha : HasProgramVersion a version) (hmemory : a.memoryArea.length ≤ maxMemorySize) :
    restoreBauState b (saveBauState a) = (parseTables { restoreProgramVersion { b with
        addrTableObject := restored a.addrTableObject
        assocTableObject := restored a.assocTableObject
        appProgramObject := restored a.appProgramObject } version with
      memoryArea := a.memoryArea }, .ok ()) := by
  have hversion : (grow (programVersion a) programVersionSize 0).take programVersionSize =
      version := by
    rw [ha.programVersion, grow, ha.1, Nat.sub_self, List.replicate_zero, List.append_nil]
    exact List.take_of_length_le (Nat.le_of_eq ha.1)
  have hdata : saveBauState a = a.addrTableObject.save ++ (a.assocTableObject.save ++
      (a.appProgramObject.save ++ (version ++
        (le32Bytes (u32OfLen a.memoryArea.length) ++ a.memoryArea)))) := by
    rw [saveBauState, hversion]
  generalize saveBauState a = data at hdata
  have hassoc : data.drop TableObject.saveSize = a.assocTableObject.save ++
      (a.appProgramObject.save ++ (version ++
        (le32Bytes (u32OfLen a.memoryArea.length) ++ a.memoryArea))) := by
    rw [hdata, List.drop_left' (save_length _)]
  have happ : data.drop (TableObject.saveSize + TableObject.saveSize) =
      a.appProgramObject.save ++ (version ++
        (le32Bytes (u32OfLen a.memoryArea.length) ++ a.memoryArea)) := by
    rw [← List.drop_drop, hassoc, List.drop_left' (save_length _)]
  have hrest : data.drop (TableObject.saveSize + TableObject.saveSize + TableObject.saveSize) =
      version ++ (le32Bytes (u32OfLen a.memoryArea.length) ++ a.memoryArea) := by
    rw [← List.drop_drop, happ, List.drop_left' (save_length _)]
  have hfield : data.drop (TableObject.saveSize + TableObject.saveSize + TableObject.saveSize +
      programVersionSize) = le32Bytes (u32OfLen a.memoryArea.length) ++ a.memoryArea := by
    rw [← List.drop_drop, hrest, List.drop_left' ha.1]
  have hslice : slice data (TableObject.saveSize + TableObject.saveSize + TableObject.saveSize)
      programVersionSize = version := by
    rw [slice, hrest, List.take_left' ha.1]
  have hlength : data.length = headerSize + a.memoryArea.length := by
    rw [hdata]
    simp only [List.length_append, save_length, ha.1]
    rw [show (le32Bytes (u32OfLen a.memoryArea.length)).length = memoryLengthSize from rfl]
    unfold headerSize tableObjectCount
    omega
  have hheader : headerSize = TableObject.saveSize + TableObject.saveSize +
      TableObject.saveSize + programVersionSize + memoryLengthSize := rfl
  unfold restoreBauState
  rw [if_neg (by omega)]
  have haddr : b.addrTableObject.restore data =
      (TableObject.saveSize, restored a.addrTableObject) := by
    rw [hdata, restore_save]
  simp only [haddr, hassoc, happ, restore_save, hslice]
  rw [if_neg (by decide), if_neg (by decide), if_neg (by decide), if_neg (by omega)]
  refine restoreMemory_saved hfield (Nat.lt_of_le_of_lt hmemory ?_)
  decide

/-- The device that restoring the saved state of `a` makes of `b`, with the objects it has then. -/
def restoredDevice (a b : Device) (others : List InterfaceObject) : Device :=
  { b with
    memoryArea := a.memoryArea
    addrTableObject := restored a.addrTableObject
    assocTableObject := restored a.assocTableObject
    appProgramObject := restored a.appProgramObject
    addressTable :=
      if a.addrTableObject.data a.memoryArea = [] then b.addressTable
      else b.addressTable.load (a.addrTableObject.data a.memoryArea)
    associationTable :=
      if a.assocTableObject.data a.memoryArea = [] then b.associationTable
      else b.associationTable.load (a.assocTableObject.data a.memoryArea)
    others := others }

theorem restoreBauState_save {a b : Device} {version octets : List UInt8}
    (ha : HasProgramVersion a version) (hb : HasProgramVersion b octets)
    (hmemory : a.memoryArea.length ≤ maxMemorySize) :
    ∃ others, restoreBauState b (saveBauState a) = (restoredDevice a b others, .ok ()) ∧
      HasProgramVersion (restoredDevice a b others) version := by
  have hresult := restoreBauState_reads b ha hmemory
  generalize htables : ({ b with
      addrTableObject := restored a.addrTableObject
      assocTableObject := restored a.assocTableObject
      appProgramObject := restored a.appProgramObject } : Device) = tables at hresult
  have held : HasProgramVersion tables octets := hb.of_others (htables ▸ rfl)
  obtain ⟨hversion, others, hothers⟩ := held.restore ha.1
  rw [hothers] at hversion hresult
  refine ⟨others, ?_, hversion.of_others rfl⟩
  rw [hresult, parseTables_eq, ← htables]
  dsimp only
  rw [restored_data _ hmemory, restored_data _ hmemory]
  rfl

end KnxRs.Persistence
