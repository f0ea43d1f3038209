import KnxRs.CoreTypes
import KnxRs.Properties
import KnxRs.Regions

set_option autoImplicit false

/-!
# Table objects

The load state machine of a downloadable table: its segment in the device's
memory, the events that allocate, complete and drop it, and its saved form.
-/
namespace KnxRs.TableObjects
open CoreTypes Properties Octets Regions

inductive LoadError where
  | noFault | undefinedLoadCommand | invalidOpcode | maxTableLengthExceeded
  deriving DecidableEq

def LoadError.raw : LoadError → UInt8
  | .noFault => 0
  | .undefinedLoadCommand => 1
  | .invalidOpcode => 2
  | .maxTableLengthExceeded => 3

def maxMemorySize : Nat := 256 * 1024

def mcbCrcControl : UInt8 := 0x00
def mcbAccess : UInt8 := 0xFF
def alcMinLength : Nat := 8
def alcOpcodeAlloc : UInt8 := 0x0B
def alcFillEnabled : UInt8 := 0x01

/-- `u32::try_from(len).unwrap_or(u32::MAX)`. -/
def u32OfLen (len : Nat) : UInt32 := if len < 2 ^ 32 then UInt32.ofNat len else 0xFFFFFFFF

theorem u32OfLen_toNat {len : Nat} (h : len < 2 ^ 32) : (u32OfLen len).toNat = len := by
  rw [u32OfLen, if_pos h, UInt32.toNat_ofNat', Nat.mod_eq_of_lt h]

/-- A request to fill `size` octets of memory at `offset`. -/
structure Fill where
  offset : UInt32
  size : UInt32
  fillByte : UInt8
  deriving DecidableEq

structure TableObject where
  state : LoadState
  error : LoadError
  dataOffset : UInt32
  dataSize : UInt32
  deriving DecidableEq

namespace TableObject

def new : TableObject := ⟨.unloaded, .noFault, 0, 0⟩

def newLoaded : TableObject := ⟨.loaded, .noFault, 0, 0⟩

def resetData (t : TableObject) : TableObject := { t with dataOffset := 0, dataSize := 0 }

def data (t : TableObject) (memoryArea : List UInt8) : List UInt8 :=
  if t.state ≠ .loaded ∨ t.dataSize = 0 then []
  else if t.dataOffset.toNat + t.dataSize.toNat ≤ memoryArea.length then
    slice memoryArea t.dataOffset.toNat t.dataSize.toNat
  else []

/-! ## Load events -/

def onUnloaded (t : TableObject) : LoadEvent → TableObject
  | .startLoading => { t with state := .loading }.resetData
  | _ => t

def onLoaded (t : TableObject) : LoadEvent → TableObject
  | .noop | .loadCompleted => t
  | .startLoading => { t with state := .loading }.resetData
  | .unload => { t with state := .unloaded }.resetData
  | .additionalLoadControls => { t with state := .error, error := .invalidOpcode }

def onError (t : TableObject) : LoadEvent → TableObject
  | .unload => { t with state := .unloaded }.resetData
  | _ => t

def handleAdditionalLoadControls (t : TableObject) (data : List UInt8) (memoryAreaLen : Nat) :
    TableObject × Option Fill :=
  if data.length < alcMinLength ∨ data.getD 1 0 ≠ alcOpcodeAlloc then
    ({ t with state := .error, error := .invalidOpcode }, none)
  else
    let size := be32 (data.getD 2 0) (data.getD 3 0) (data.getD 4 0) (data.getD 5 0)
    if size.toNat > maxMemorySize then
      ({ t with state := .error, error := .maxTableLengthExceeded }, none)
    else
      let offset := u32OfLen memoryAreaLen
      ({ t with dataOffset := offset, dataSize := size },
        if data.getD 6 0 = alcFillEnabled then some ⟨offset, size, data.getD 7 0⟩ else none)

/-- The table, whether it has just become loaded, and the fill request. -/
def onLoading (t : TableObject) (event : LoadEvent) (data : List UInt8) (memoryAreaLen : Nat) :
    TableObject × Bool × Option Fill :=
  match event with
  | .noop | .startLoading => (t, false, none)
  | .loadCompleted => ({ t with state := .loaded }, true, none)
  | .unload => ({ t with state := .unloaded }.resetData, false, none)
  | .additionalLoadControls =>
    let (t, fill) := t.handleAdditionalLoadControls data memoryAreaLen
    (t, false, fill)

def handleLoadEvent (t : TableObject) (data : List UInt8) (memoryAreaLen : Nat) :
    TableObject × Bool × Option Fill :=
  match data with
  | [] => (t, false, none)
  | first :: _ =>
    match LoadEvent.fromByte first with
    | none => ({ t with state := .error, error := .undefinedLoadCommand }, false, none)
    | some event =>
      match t.state with
      | .unloaded => (t.onUnloaded event, false, none)
      | .loading => t.onLoading event data memoryAreaLen
      | .loaded => (t.onLoaded event, false, none)
      | .error => (t.onError event, false, none)
      | .unloading | .loadCompleting => (t, false, none)

def tableReference (t : TableObject) : UInt32 :=
  if t.state = .unloaded then 0 else t.dataOffset

/-! ## The memory control block -/

def crcShift (crc : UInt16) : UInt16 :=
  if crc &&& 0x8000 ≠ 0 then (crc <<< 1) ^^^ 0x1021 else crc <<< 1

def crcOctet (crc : UInt16) (octet : UInt8) : UInt16 :=
  crcShift (crcShift (crcShift (crcShift (crcShift (crcShift (crcShift (crcShift
    (crc ^^^ (octet.toUInt16 <<< 8)))))))))

/-- CRC-16 CCITT, polynomial 0x1021, from 0xFFFF. -/
def crc16Ccitt (data : List UInt8) : UInt16 := data.foldl crcOctet 0xFFFF

def mcbTable (t : TableObject) (memoryArea : List UInt8) : List UInt8 :=
  if t.state ≠ .loaded ∨ t.dataSize = 0 then List.replicate 8 0
  else be32Bytes t.dataSize ++ [mcbCrcControl, mcbAccess] ++
    be16Bytes (crc16Ccitt (t.data memoryArea))

/-! ## Persistence -/

def saveSize : Nat := 9

def save (t : TableObject) : List UInt8 :=
  t.state.raw :: (le32Bytes t.dataOffset ++ le32Bytes t.dataSize)

/-- The octets consumed, 0 on error, and the table. -/
def restore (t : TableObject) (data : List UInt8) : Nat × TableObject :=
  if data.length < saveSize then (0, t)
  else
    let state := LoadState.ofByte (data.getD 0 0)
    let dataOffset := le32 (data.getD 1 0) (data.getD 2 0) (data.getD 3 0) (data.getD 4 0)
    let dataSize := le32 (data.getD 5 0) (data.getD 6 0) (data.getD 7 0) (data.getD 8 0)
    let valid : Bool := dataSize.toNat ≤ maxMemorySize ∧
      dataOffset.toNat + dataSize.toNat ≤ maxMemorySize
    if state = .loaded ∧ valid = false then (saveSize, ⟨.unloaded, .noFault, 0, 0⟩)
    else (saveSize, ⟨state, .noFault, dataOffset, dataSize⟩)

end TableObject

/-! ## What an event does to a segment -/

/-- The octets `[offset, offset + size)` of the memory area. -/
def TableObject.region (t : TableObject) : Region := ⟨t.dataOffset.toNat, t.dataSize.toNat⟩

/-- The table is being loaded or is loaded, and has a nonempty segment. -/
def TableObject.live (t : TableObject) : Bool :=
  (t.state = .loading ∨ t.state = .loaded) ∧ t.dataSize ≠ 0

/-- The table is loaded, with a nonempty segment. -/
def TableObject.downloaded (t : TableObject) : Bool := t.state = .loaded ∧ t.dataSize ≠ 0

/-- The size that an `AdditionalLoadControls` asks for. -/
def requestedSize (data : List UInt8) : UInt32 :=
  be32 (data.getD 2 0) (data.getD 3 0) (data.getD 4 0) (data.getD 5 0)

/-- The event allocates a segment of nonzero size. -/
def TableObject.allocates (t : TableObject) (data : List UInt8) : Bool :=
  t.state = .loading ∧ data.head? = some 3 ∧ alcMinLength ≤ data.length ∧
    data.getD 1 0 = alcOpcodeAlloc ∧ requestedSize data ≠ 0 ∧
    (requestedSize data).toNat ≤ maxMemorySize

/-- The event completes the loading of a table with a nonempty segment. -/
def TableObject.completes (t : TableObject) (data : List UInt8) : Bool :=
  t.state = .loading ∧ data.head? = some 2 ∧ t.dataSize ≠ 0

/-- Every way a load event can leave a table: the same segment under a new state, no segment,
    or a freshly allocated one. -/
inductive TableObject.Moved (t : TableObject) (data : List UInt8) (memoryAreaLen : Nat) :
    TableObject × Bool × Option Fill → Prop where
  | kept : Moved t data memoryAreaLen (t, false, none)
  | dropped {u : TableObject} (h : u.dataSize = 0) (idle : u.state ≠ .loaded) :
      Moved t data memoryAreaLen (u, false, none)
  | failed {u : TableObject} (h : u.state = .error) : Moved t data memoryAreaLen (u, false, none)
  | completed (h : t.state = .loading) (event : data.head? = some 2) :
      Moved t data memoryAreaLen ({ t with state := .loaded }, true, none)
  | allocated {fill : Option Fill} (h : t.state = .loading)
      (live : requestedSize data ≠ 0 → t.allocates data = true)
      (filled : ∀ f, fill = some f → f.offset = u32OfLen memoryAreaLen) :
      Moved t data memoryAreaLen
        ({ t with dataOffset := u32OfLen memoryAreaLen, dataSize := requestedSize data }, false,
          fill)

theorem LoadEvent.fromByte_eq {v : UInt8} {e : LoadEvent} (h : LoadEvent.fromByte v = some e) :
    (e = .loadCompleted → v = 2) ∧ (e = .additionalLoadControls → v = 3) := by
  unfold LoadEvent.fromByte at h
  split_ifs at h <;> cases h <;> simp_all

theorem TableObject.handleAdditionalLoadControls_moved {t : TableObject} {data : List UInt8}
    (hst : t.state = .loading) (hevent : data.head? = some 3) (memoryAreaLen : Nat) :
    t.Moved data memoryAreaLen ((t.handleAdditionalLoadControls data memoryAreaLen).1, false,
      (t.handleAdditionalLoadControls data memoryAreaLen).2) := by
  unfold handleAdditionalLoadControls
  dsimp only
  split_ifs with hop hsize hfill
  · exact .failed rfl
  · exact .failed rfl
  all_goals
    rw [not_or, Nat.not_lt, Decidable.not_not] at hop
    refine .allocated hst
      (fun hne => decide_eq_true ⟨hst, hevent, hop.1, hop.2, hne, Nat.not_lt.mp hsize⟩) ?_
    intro f hf
    cases hf
  rfl

theorem TableObject.handleLoadEvent_allocates {t : TableObject} {data : List UInt8}
    (h : t.allocates data = true) (memoryAreaLen : Nat) :
    (t.handleLoadEvent data memoryAreaLen).1 =
      { t with dataOffset := u32OfLen memoryAreaLen, dataSize := requestedSize data } := by
  obtain ⟨hst, hevent, hlen, hop, -, hle⟩ := of_decide_eq_true h
  cases data with
  | nil => cases hevent
  | cons first rest =>
    obtain rfl : first = 3 := Option.some.inj hevent
    unfold handleLoadEvent
    dsimp only
    rw [show LoadEvent.fromByte 3 = some .additionalLoadControls from rfl, hst]
    dsimp only [onLoading]
    unfold handleAdditionalLoadControls
    rw [if_neg (not_or.mpr ⟨Nat.not_lt.mpr hlen, not_not_intro hop⟩)]
    unfold requestedSize at hle ⊢
    dsimp only
    rw [if_neg (Nat.not_lt.mpr hle), hst]

theorem TableObject.handleLoadEvent_completes {t : TableObject} {data : List UInt8}
    (hst : t.state = .loading) (hevent : data.head? = some 2) (memoryAreaLen : Nat) :
    t.handleLoadEvent data memoryAreaLen = ({ t with state := .loaded }, true, none) := by
  cases data with
  | nil => cases hevent
  | cons first rest =>
    obtain rfl : first = 2 := Option.some.inj hevent
    unfold handleLoadEvent
    dsimp only
    rw [show LoadEvent.fromByte 2 = some .loadCompleted from rfl, hst]
    dsimp only [onLoading]

theorem TableObject.handleLoadEvent_moved (t : TableObject) (data : List UInt8)
    (memoryAreaLen : Nat) : t.Moved data memoryAreaLen (t.handleLoadEvent data memoryAreaLen) := by
  cases data with
  | nil => exact .kept
  | cons first rest =>
    unfold TableObject.handleLoadEvent
    dsimp only
    cases he : LoadEvent.fromByte first with
    | none => exact .failed rfl
    | some event =>
      dsimp only
      obtain ⟨hcompleted, hcontrols⟩ := LoadEvent.fromByte_eq he
      cases hst : t.state with
      | unloading | loadCompleting => exact .kept
      | unloaded =>
        cases event with
        | startLoading => exact .dropped rfl (by simp [onUnloaded, resetData])
        | _ => exact .kept
      | loaded =>
        cases event with
        | noop | loadCompleted => exact .kept
        | startLoading => exact .dropped rfl (by simp [onLoaded, resetData])
        | unload => exact .dropped rfl (by simp [onLoaded, resetData])
        | additionalLoadControls => exact .failed rfl
      | error =>
        cases event with
        | unload => exact .dropped rfl (by simp [onError, resetData])
        | _ => exact .kept
      | loading =>
        cases event with
        | noop | startLoading => exact .kept
        | loadCompleted => exact .completed hst (by simp [hcompleted rfl])
        | unload => exact .dropped rfl (by simp [resetData])
        | additionalLoadControls =>
          have hfirst := hcontrols rfl
          subst hfirst
          exact handleAdditionalLoadControls_moved hst rfl memoryAreaLen

/-! ## What an event does to the load state -/

/-- The event takes a table that is loading to `Loaded`. -/
def TableObject.finishes (t : TableObject) (data : List UInt8) : Bool :=
  t.state = .loading ∧ data.head? = some 2

/-- The events that a loaded table does not stay loaded for: all but none, `Noop` and
    `LoadCompleted`. -/
def leavesLoaded (data : List UInt8) : Bool :=
  data.head?.any (fun event => event ≠ 0 ∧ event ≠ 2)

theorem TableObject.handleLoadEvent_unfinished {t : TableObject} {data : List UInt8}
    (h : t.finishes data = false) (memoryAreaLen : Nat) :
    (t.handleLoadEvent data memoryAreaLen).2.1 = false := by
  have moved := t.handleLoadEvent_moved data memoryAreaLen
  generalize t.handleLoadEvent data memoryAreaLen = result at moved
  cases moved with
  | completed hst hevent => exact absurd ⟨hst, hevent⟩ (of_decide_eq_false h)
  | kept | dropped | failed | allocated => rfl

theorem TableObject.handleLoadEvent_loaded {t : TableObject} {data : List UInt8}
    (h : t.finishes data = false) (memoryAreaLen : Nat) :
    (t.handleLoadEvent data memoryAreaLen).1.state = .loaded ↔
      t.state = .loaded ∧ leavesLoaded data = false := by
  by_cases hst : t.state = .loaded
  · cases data with
    | nil => simp [handleLoadEvent, hst, leavesLoaded]
    | cons first rest =>
      unfold handleLoadEvent leavesLoaded LoadEvent.fromByte
      dsimp only [List.head?_cons, Option.any_some]
      rw [hst]
      split_ifs with h0 h1 h2 h3 h4
      · simp [onLoaded, hst, h0]
      · simp [onLoaded, resetData, h1]
      · simp [onLoaded, hst, h2]
      · simp [onLoaded, h3]
      · simp [onLoaded, resetData, h4]
      · simp [h0, h2]
  · refine ⟨fun hloaded => ?_, fun hloaded => absurd hloaded.1 hst⟩
    have moved := t.handleLoadEvent_moved data memoryAreaLen
    generalize t.handleLoadEvent data memoryAreaLen = result at moved hloaded
    cases moved with
    | kept => exact absurd hloaded hst
    | dropped _ idle => exact absurd hloaded idle
    | failed hfail =>
      rw [hfail] at hloaded
      cases hloaded
    | completed hst' hevent => exact absurd ⟨hst', hevent⟩ (of_decide_eq_false h)
    | allocated => exact absurd hloaded hst

end KnxRs.TableObjects
