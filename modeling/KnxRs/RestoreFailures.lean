import KnxRs.RestoredState

set_option autoImplicit false

/-!
# Restores that fail

What a refused restore leaves of the unit: the records and the version are applied
before the length of the memory area is checked.
-/
namespace KnxRs.BusAccessUnit
open CoreTypes Properties Octets TableObjects InterfaceObjects MemoryStore DeviceState Persistence

def declaredLength (data : List UInt8) : Nat :=
  let field := data.drop (headerSize - memoryLengthSize)
  (le32 (field.getD 0 0) (field.getD 1 0) (field.getD 2 0) (field.getD 3 0)).toNat

def recordedTable (data : List UInt8) (offset : Nat) : TableObject :=
  (TableObject.new.restore (data.drop offset)).2

def recordedVersion (data : List UInt8) : List UInt8 :=
  slice data (TableObject.saveSize * tableObjectCount) programVersionSize

def applyHeader (d : Device) (data : List UInt8) : Device :=
  restoreProgramVersion { d with
    addrTableObject := recordedTable data 0
    assocTableObject := recordedTable data TableObject.saveSize
    appProgramObject := recordedTable data (TableObject.saveSize + TableObject.saveSize) }
    (recordedVersion data)

theorem restore_recordedTable (t : TableObject) (data : List UInt8) (offset : Nat)
    (h : offset + TableObject.saveSize ≤ data.length) :
    t.restore (data.drop offset) = (TableObject.saveSize, recordedTable data offset) := by
  have hlen : ¬ (data.drop offset).length < TableObject.saveSize := by
    rw [List.length_drop]
    omega
  unfold recordedTable TableObject.restore
  rw [if_neg hlen, if_neg hlen]
  dsimp only
  split_ifs <;> rfl

/-- The header is long enough for everything but the memory area: its length decides. -/
theorem restoreBauState_header (d : Device) {data : List UInt8} (h : headerSize ≤ data.length) :
    restoreBauState d data =
      if data.length < headerSize + declaredLength data then
        (applyHeader d data, .error .memoryTooLarge)
      else
        (parseTables { applyHeader d data with
          memoryArea := slice data headerSize (declaredLength data) }, .ok ()) := by
  have hsize : headerSize = TableObject.saveSize + TableObject.saveSize + TableObject.saveSize +
      programVersionSize + memoryLengthSize := rfl
  have haddr := restore_recordedTable d.addrTableObject data 0 (by omega)
  have hassoc := restore_recordedTable d.assocTableObject data TableObject.saveSize (by omega)
  have happ := restore_recordedTable d.appProgramObject data
    (TableObject.saveSize + TableObject.saveSize) (by omega)
  rw [List.drop_zero] at haddr
  unfold restoreBauState
  rw [if_neg (by omega)]
  simp only [haddr, hassoc, happ]
  rw [if_neg (by decide), if_neg (by decide), if_neg (by decide), if_neg (by omega)]
  unfold restoreMemory
  rw [if_neg (by omega)]
  rfl

theorem restoreBauState_short (d : Device) {data : List UInt8} (h : data.length < headerSize) :
    restoreBauState d data = (d, .error .truncatedData) := by
  unfold restoreBauState
  exact if_pos h

/-! ## A header that changes nothing -/

/-- Writing the version to the application program object leaves the object as it is. -/
def VersionHeld (d : Device) (version : List UInt8) : Prop :=
  ∀ o, d.object objAppProgram = some o →
    (o.writeProperty .programVersion 1 1 version).2 = o

/-- The records and the version of the header are those of the device. -/
structure HeaderHeld (d : Device) (data : List UInt8) : Prop where
  addrTable : recordedTable data 0 = d.addrTableObject
  assocTable : recordedTable data TableObject.saveSize = d.assocTableObject
  appProgram : recordedTable data (TableObject.saveSize + TableObject.saveSize) =
    d.appProgramObject
  version : VersionHeld d (recordedVersion data)

def versionedOthers (d : Device) (version : List UInt8) : List InterfaceObject :=
  match d.object objAppProgram with
  | some o => d.others.set 3 (o.writeProperty .programVersion 1 1 version).2
  | none => d.others

theorem restoreProgramVersion_eq (d : Device) (version : List UInt8) :
    restoreProgramVersion d version = { d with others := versionedOthers d version } := by
  unfold restoreProgramVersion versionedOthers
  cases d.object objAppProgram <;> rfl

theorem versionedOthers_eq_iff (d : Device) (version : List UInt8) :
    versionedOthers d version = d.others ↔ VersionHeld d version := by
  unfold versionedOthers VersionHeld
  cases ho : d.object objAppProgram with
  | none => exact iff_of_true rfl fun o h => by cases h
  | some o =>
    have hothers : d.others[3]? = some o := ho
    obtain ⟨hlt, hget⟩ := List.getElem?_eq_some_iff.mp hothers
    dsimp only
    constructor
    · intro h o' ho'
      obtain rfl := Option.some.inj ho'
      have hset := List.getElem?_set_self (a := (o.writeProperty .programVersion 1 1 version).2) hlt
      rw [h, hothers] at hset
      exact (Option.some.inj hset).symm
    · intro h
      rw [h o rfl, ← hget, List.set_getElem_self]

theorem versionHeld_iff (d : Device) (version : List UInt8) :
    restoreProgramVersion d version = d ↔ VersionHeld d version := by
  rw [restoreProgramVersion_eq, ← versionedOthers_eq_iff]
  constructor
  · exact congrArg (fun e : Device => e.others)
  · intro h
    rw [h]

theorem applyHeader_eq_iff (d : Device) (data : List UInt8) :
    applyHeader d data = d ↔ HeaderHeld d data := by
  unfold applyHeader
  constructor
  · intro h
    have haddr := congrArg (fun e : Device => e.addrTableObject) h
    have hassoc := congrArg (fun e : Device => e.assocTableObject) h
    have happ := congrArg (fun e : Device => e.appProgramObject) h
    rw [restoreProgramVersion_eq] at haddr hassoc happ
    dsimp only at haddr hassoc happ
    rw [haddr, hassoc, happ] at h
    exact ⟨haddr, hassoc, happ, (versionHeld_iff d _).mp h⟩
  · intro h
    rw [h.addrTable, h.assocTable, h.appProgram]
    exact (versionHeld_iff d _).mpr h.version

/-- A refused restore leaves the unit as it was exactly where the header is cut short, the
    memory area is not, or the header holds what the unit holds already. -/
theorem refused_restore_unchanged (b : Bau) (data : List UInt8) :
    (∀ e, (b.restore data).2 = .error e → (b.restore data).1 = b) ↔
      data.length < headerSize ∨ headerSize + declaredLength data ≤ data.length ∨
        HeaderHeld b.toDevice data := by
  unfold Bau.restore
  by_cases hshort : data.length < headerSize
  · rw [restoreBauState_short _ hshort]
    exact iff_of_true (fun _ _ => rfl) (.inl hshort)
  rw [restoreBauState_header _ (Nat.le_of_not_lt hshort)]
  by_cases hlong : data.length < headerSize + declaredLength data
  · rw [if_pos hlong]
    have hheld := applyHeader_eq_iff b.toDevice data
    constructor
    · intro h
      have hsame := congrArg (fun c : Bau => c.toDevice) (h .memoryTooLarge rfl)
      exact .inr (.inr (hheld.mp hsame))
    · rintro (h | h | h) e _
      · exact absurd h hshort
      · exact absurd hlong (Nat.not_lt.mpr h)
      · rw [hheld.mpr h]
  · rw [if_neg hlong]
    exact iff_of_true (fun e he => by cases he) (.inr (.inl (Nat.le_of_not_lt hlong)))

/-- A header that loads the address table, and declares 999 octets where none follow. -/
def overlongState : List UInt8 :=
  LoadState.loading.raw :: List.replicate 31 0 ++ [0xE7, 0x03, 0x00, 0x00]

theorem overlong_restore_changes :
    ¬ ∀ (b : Bau) (data : List UInt8) (e : PersistenceError), (b.restore data).2 = .error e →
      (b.restore data).1 = b := by
  intro h
  have hsame := h standardBau overlongState .memoryTooLarge rfl
  have hstate := congrArg (fun b : Bau => b.addrTableObject.state) hsame
  exact absurd hstate (by decide)

end KnxRs.BusAccessUnit
