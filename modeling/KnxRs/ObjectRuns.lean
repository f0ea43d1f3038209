import KnxRs.DeliveryScope
import KnxRs.GroupValues

set_option autoImplicit false

/-!
# Runs over the group objects

Runs in which the calls of the host on the group objects are told apart, which of them and
which frames assign an object a value, and that an object leaves `Uninitialized` with a
value only, as long as no call sets the flag of an uninitialized object alone.
-/
namespace KnxRs.GroupObjects

namespace GroupObjectStore
variable {s : GroupObjectStore} {asap : UInt16}

def initializedAt (s : GroupObjectStore) (asap : UInt16) : Bool :=
  (s.get asap).any GroupObject.initialized

theorem initializedAt_iff : s.initializedAt asap = true ↔
    ∃ go, s.get asap = some go ∧ go.initialized = true :=
  Option.any_eq_true _ _

theorem new_uninitialized (count : UInt16) (defaultSize : Nat) (asap : UInt16) :
    (new count defaultSize).initializedAt asap = false := by
  rw [← Bool.not_eq_true, initializedAt_iff]
  rintro ⟨go, hget, hinit⟩
  unfold get new at hget
  split_ifs at hget
  obtain ⟨i, _, rfl⟩ := List.mem_map.mp (List.mem_of_getElem? hget)
  cases hinit

theorem resizedTo_initialized {count : UInt16}
    (h : (s.resizedTo count).initializedAt asap = true) : s.initializedAt asap = true := by
  obtain ⟨go, hget, hinit⟩ := initializedAt_iff.mp h
  rw [initializedAt_iff]
  unfold get resizedTo at hget
  split_ifs at hget with hz
  rw [List.getElem?_take] at hget
  split_ifs at hget
  rcases Nat.lt_or_ge (asap.toNat - 1) s.objects.length with hlt | hge
  · rw [List.getElem?_append_left hlt] at hget
    exact ⟨go, (if_neg hz).trans hget, hinit⟩
  · rw [List.getElem?_append_right hge] at hget
    obtain ⟨i, _, rfl⟩ := List.mem_map.mp (List.mem_of_getElem? hget)
    cases hinit

theorem initializedAt_congr {s t : GroupObjectStore}
    (h : s.objects.map GroupObject.commFlag = t.objects.map GroupObject.commFlag)
    (asap : UInt16) : s.initializedAt asap = t.initializedAt asap := by
  have each (s : GroupObjectStore) : s.initializedAt asap = (if asap = 0 then none
      else (s.objects.map GroupObject.commFlag)[asap.toNat - 1]?).any (· ≠ .uninitialized) := by
    unfold initializedAt get
    split_ifs
    · rfl
    · rw [List.getElem?_map]
      cases s.objects[asap.toNat - 1]? <;> rfl
  rw [each, each, h]

theorem sizeFrom_flags (table : GroupTables.GroupObjectTable) (s : GroupObjectStore)
    (asap : UInt16) : (sizeFrom table s asap).objects.map GroupObject.commFlag =
      s.objects.map GroupObject.commFlag := by
  unfold sizeFrom
  split
  · refine modify_map (fun go => ?_) s asap _
    split_ifs <;> rfl
  · rfl

theorem reinitializeFromTable_initialized {table : GroupTables.GroupObjectTable}
    (h : (s.reinitializeFromTable table).initializedAt asap = true) :
    s.initializedAt asap = true := by
  have flags (asaps : List UInt16) (t : GroupObjectStore) :
      (asaps.foldl (sizeFrom table) t).objects.map GroupObject.commFlag =
        t.objects.map GroupObject.commFlag := by
    induction asaps generalizing t with
    | nil => rfl
    | cons a asaps ih => exact (ih _).trans (sizeFrom_flags table t a)
  rw [reinitializeFromTable, initializedAt_congr (flags _ _)] at h
  exact resizedTo_initialized h

end GroupObjectStore

namespace GroupObject

def assignedBy (go : GroupObject) : ObjectCall → Bool
  | .valueMut _ | .writeValue _ | .writeValueNoSend _ | .valueFromBus _ => true
  | .setValue value => (go.setValue value).toOption.isSome
  | .setValueIfChanged value => (go.setValueIfChanged value).toOption.any Prod.snd
  | _ => false

end GroupObject

/-- The call sets the flag of an object, to other than `Uninitialized`, and no value. -/
def ObjectCall.flagsOnly : ObjectCall → Bool
  | .setCommFlag flag => flag ≠ .uninitialized
  | .requestObjectRead | .objectWritten | .transmitDone _ => true
  | _ => false

theorem GroupObject.call_initialized {go : GroupObject} {call : ObjectCall}
    (hflags : call.flagsOnly = true → go.initialized = true)
    (h : (go.call call).initialized = true) :
    go.assignedBy call = true ∨ go.initialized = true := by
  cases call with
  | setCommFlag flag =>
    refine .inr (hflags (decide_eq_true ?_))
    exact of_decide_eq_true h
  | requestObjectRead => exact .inr (hflags rfl)
  | objectWritten => exact .inr (hflags rfl)
  | transmitDone success => exact .inr (hflags rfl)
  | setDpt dpt => exact .inr h
  | resizeData newSize => exact .inr h
  | valueMut octets => exact .inl rfl
  | writeValue data => exact .inl rfl
  | writeValueNoSend data => exact .inl rfl
  | valueFromBus data => exact .inl rfl
  | setValue value =>
    dsimp only [GroupObject.call, assignedBy] at h ⊢
    cases hset : go.setValue value with
    | error e =>
      rw [hset] at h
      exact .inr h
    | ok go' => exact .inl rfl
  | setValueIfChanged value =>
    dsimp only [GroupObject.call, assignedBy] at h ⊢
    cases hset : go.setValueIfChanged value with
    | error e =>
      rw [hset] at h
      exact .inr h
    | ok r =>
      rw [hset] at h
      rcases setValueIfChanged_ok hset with ⟨hsame, _⟩ | ⟨hchanged, _⟩
      · refine .inr ?_
        rw [← hsame]
        exact h
      · exact .inl hchanged

end KnxRs.GroupObjects

namespace KnxRs.BusAccessUnit
open CoreTypes GroupObjects InterfaceObjects CemiCodec AppParse GroupTables MemoryStore DeviceState
open Runs

/-! ## The calls of a host -/

/-- What happens to a unit: a frame or a poll, a call on a group object, a new store of them, the
group object table, the reads at initialisation, and whatever leaves the group objects alone. -/
inductive ObjectInput where
  | event (event : Event)
  | call (asap : UInt16) (call : ObjectCall)
  | newObjects (count : UInt16) (defaultSize : Nat)
  | loadGroupObjectTable (data : List UInt8)
  | initReadRequests
  | other (device : Device) (outbox : List CemiFrame)

/-- The call brings a new store of group objects. -/
def ObjectInput.renews : ObjectInput → Bool
  | .newObjects _ _ => true
  | _ => false

def hostCall (d : Device) : ObjectInput → Device
  | .event _ => d
  | .call asap call => d.callObject asap call
  | .newObjects count defaultSize => { d with groupObjects := .new count defaultSize }
  | .loadGroupObjectTable data => d.loadGroupObjectTable data
  | .initReadRequests => d.initReadRequests
  | .other device _ => { device with groupObjects := d.groupObjects }

def Steps (b : Bau) : ObjectInput → Bau → Prop
  | .event event, b' => b.handle event = .ok b'
  | .other device outbox, b' =>
    b' = { b with toDevice := hostCall b.toDevice (.other device outbox), outbox := outbox }
  | input, b' => b' = { b with toDevice := hostCall b.toDevice input }

variable {b b' : Bau} {d : Device} {asap : UInt16}

theorem steps_ready {input : ObjectInput} (ready : Ready b) (h : Steps b input b') : Ready b' := by
  cases input with
  | event event => exact handle_ready ready h
  | _ =>
    subst h
    exact ⟨ready.idle, ready.answering, ready.passive, ready.consistent⟩

/-! ## Values from the bus -/

theorem confirmTransmission_initialized {ga : UInt16} {success : Bool}
    (h : (d.confirmTransmission ga success).groupObjects.initializedAt asap = true) :
    d.groupObjects.initializedAt asap = true := by
  unfold Device.confirmTransmission at h
  split at h
  · next a hfind =>
    by_cases ha : a = asap
    · subst ha
      have hfound : d.transmittingTo ga a = true := List.find?_some hfind
      have htransmitting := (Bool.and_eq_true_iff.mp hfound).1
      obtain ⟨go, hgo, hflag⟩ := (Option.any_eq_true _ _).mp htransmitting
      refine GroupObjectStore.initializedAt_iff.mpr ⟨go, hgo, decide_eq_true ?_⟩
      rw [of_decide_eq_true hflag]
      nofun
    · rw [GroupObjectStore.initializedAt] at h
      dsimp only at h
      rw [GroupObjectStore.modify_get, if_neg ha] at h
      exact h
  · exact h

/-- What the frame assigns the object a value by: a group value that it receives. -/
def assignsRequest (d : Device) (asap : UInt16) : Option (UInt16 × AppIndication) → Bool
  | some (dst, .groupValueWrite _ _) => receives d dst GroupObjectDescriptor.writeEnable asap
  | some (dst, .groupValueResponse _ _) => receives d dst GroupObjectDescriptor.updateEnable asap
  | _ => false

theorem updateGroupObjectFromBus_initialized {dst : UInt16} {data : List UInt8}
    {checkFlag : GroupObjectDescriptor → Bool}
    (h : (d.updateGroupObjectFromBus dst data checkFlag).groupObjects.initializedAt asap = true) :
    receives d dst checkFlag asap = true ∨ d.groupObjects.initializedAt asap = true := by
  rw [GroupObjectStore.initializedAt, updateGroupObjectFromBus_get] at h
  split_ifs at h with hreceives
  · exact .inl hreceives
  · exact .inr h

theorem effectOf_initialized {request : Option (UInt16 × AppIndication)}
    (h : (effectOf d request).groupObjects.initializedAt asap = true) :
    assignsRequest d asap request = true ∨ d.groupObjects.initializedAt asap = true := by
  by_cases hsame : (effectOf d request).groupObjects = d.groupObjects
  · rw [hsame] at h
    exact .inr h
  · obtain ⟨dst, a, data, ⟨rfl, _⟩ | ⟨rfl, _⟩⟩ := effectOf_changes hsame
    · exact updateGroupObjectFromBus_initialized h
    · exact updateGroupObjectFromBus_initialized h

theorem polled_initialized (h : (polled b).groupObjects.initializedAt asap = true) :
    b.groupObjects.initializedAt asap = true := by
  obtain ⟨go', hget, hinit⟩ := GroupObjectStore.initializedAt_iff.mp h
  have hmap := b.groupObjects.map_get (polledObject b.toDevice) (fun _ => rfl) asap
  obtain ⟨go, hgo, rfl⟩ := Option.map_eq_some_iff.mp (hmap.symm.trans hget)
  refine GroupObjectStore.initializedAt_iff.mpr ⟨go, hgo, ?_⟩
  by_cases hpending : go.isPending = true
  · refine decide_eq_true fun hflag => ?_
    have hpending := of_decide_eq_true hpending
    rw [hflag] at hpending
    rcases hpending with h | h <;> cases h
  · rw [polledObject_idle (Bool.not_eq_true _ ▸ hpending)] at hinit
    exact hinit

theorem deviceAfter_initialized {frame : CemiFrame}
    (h : (deviceAfter b frame).groupObjects.initializedAt asap = true) :
    (¬isConfirmation frame = true ∧ assignsRequest b.toDevice asap (served b frame) = true) ∨
      b.groupObjects.initializedAt asap = true := by
  unfold deviceAfter at h
  by_cases hcon : isConfirmation frame = true
  · rw [if_pos hcon] at h
    unfold Bau.handleTransmitConfirmation at h
    split_ifs at h
    · exact .inr h
    · exact .inr (confirmTransmission_initialized h)
  · rw [if_neg hcon] at h
    exact (effectOf_initialized h).imp_left fun hassigns => ⟨hcon, hassigns⟩

theorem poll_initialized (ready : Ready b) {nowMs : UInt64} (hpoll : b.poll nowMs = .ok b')
    (h : b'.groupObjects.initializedAt asap = true) :
    b.groupObjects.initializedAt asap = true := by
  obtain ⟨frames, hc⟩ := poll_cases ready.idle hpoll
  rw [hc] at h
  split_ifs at h
  · exact polled_initialized (b := drained b nowMs frames) h
  · exact h

/-! ## Calls of the host -/

theorem callObject_initialized {a : UInt16} {call : ObjectCall}
    (keeps : call.flagsOnly = true → ∀ go ∈ d.groupObjects.get a, go.initialized = true)
    (h : (d.callObject a call).groupObjects.initializedAt asap = true) :
    (a = asap ∧ (d.groupObjects.get asap).any (·.assignedBy call) = true) ∨
      d.groupObjects.initializedAt asap = true := by
  change (d.groupObjects.modify a (fun go => go.call call)
    (fun go => go.call_asap call)).initializedAt asap = true at h
  rw [GroupObjectStore.initializedAt, GroupObjectStore.modify_get] at h
  split_ifs at h with ha
  · subst ha
    obtain ⟨go', hgo', hinit⟩ := (Option.any_eq_true _ _).mp h
    obtain ⟨go, hgo, rfl⟩ := Option.map_eq_some_iff.mp hgo'
    rcases GroupObject.call_initialized (fun hflags => keeps hflags go hgo) hinit with hset | hold
    · refine .inl ⟨rfl, ?_⟩
      rw [hgo]
      exact hset
    · exact .inr (GroupObjectStore.initializedAt_iff.mpr ⟨go, hgo, hold⟩)
  · exact .inr h

theorem initReadRequests_initialized
    (keeps : ∀ a ∈ d.groupObjectTable.asaps, d.readsOnInit a = true →
      ∀ go ∈ d.groupObjects.get a, go.initialized = true)
    (h : d.initReadRequests.groupObjects.initializedAt asap = true) :
    d.groupObjects.initializedAt asap = true := by
  have hget := GroupObjectStore.foldl_modify_get (f := GroupObject.requestObjectRead)
    (fun _ => rfl) (fun _ => rfl) d.readsOnInit d.groupObjectTable.asaps d.groupObjects asap
  change (d.groupObjectTable.asaps.foldl _ d.groupObjects).initializedAt asap = true at h
  rw [GroupObjectStore.initializedAt, hget] at h
  split_ifs at h with hreads
  · obtain ⟨go', hgo', _⟩ := (Option.any_eq_true _ _).mp h
    obtain ⟨go, hgo, _⟩ := Option.map_eq_some_iff.mp hgo'
    exact GroupObjectStore.initializedAt_iff.mpr ⟨go, hgo, keeps asap hreads.1 hreads.2 go hgo⟩
  · exact h

/-! ## Values that are assigned -/

def assigns (b : Bau) (asap : UInt16) : ObjectInput → Bool
  | .event (.frame frame _) =>
    if isConfirmation frame then false else assignsRequest b.toDevice asap (served b frame)
  | .call a call => a = asap ∧ (b.groupObjects.get asap).any (·.assignedBy call)
  | _ => false

/-- No uninitialized object has only its flag set. -/
def KeepsUninitialized (b : Bau) : ObjectInput → Prop
  | .call asap call => call.flagsOnly = true → ∀ go ∈ b.groupObjects.get asap, go.initialized = true
  | .initReadRequests => ∀ asap ∈ b.groupObjectTable.asaps, b.readsOnInit asap = true →
    ∀ go ∈ b.groupObjects.get asap, go.initialized = true
  | _ => True

/-- An object that counts as initialized after a step has been assigned a value by it, or did so
before, and is not a new one. -/
theorem steps_initialized {input : ObjectInput} (ready : Ready b) (h : Steps b input b')
    (keeps : KeepsUninitialized b input) (hinit : b'.groupObjects.initializedAt asap = true) :
    assigns b asap input = true ∨
      (b.groupObjects.initializedAt asap = true ∧ input.renews = false) := by
  cases input with
  | event event =>
    cases event with
    | frame frame nowMs =>
      have hdevice : b'.toDevice = deviceAfter b frame := handle_device ready h
      change b'.toDevice.groupObjects.initializedAt asap = true at hinit
      rw [hdevice] at hinit
      rcases deviceAfter_initialized hinit with ⟨hcon, hassigns⟩ | hold
      · exact .inl ((if_neg hcon).trans hassigns)
      · exact .inr ⟨hold, rfl⟩
    | poll nowMs => exact .inr ⟨poll_initialized ready h hinit, rfl⟩
  | call a call =>
    obtain rfl : b' = { b with toDevice := b.toDevice.callObject a call } := h
    exact (callObject_initialized keeps hinit).imp decide_eq_true fun hold => ⟨hold, rfl⟩
  | newObjects count defaultSize =>
    obtain rfl : b' = { b with
      toDevice := { b.toDevice with groupObjects := .new count defaultSize } } := h
    change (GroupObjectStore.new count defaultSize).initializedAt asap = true at hinit
    rw [GroupObjectStore.new_uninitialized] at hinit
    cases hinit
  | loadGroupObjectTable data =>
    obtain rfl : b' = { b with toDevice := b.toDevice.loadGroupObjectTable data } := h
    exact .inr ⟨GroupObjectStore.reinitializeFromTable_initialized hinit, rfl⟩
  | initReadRequests =>
    obtain rfl : b' = { b with toDevice := b.toDevice.initReadRequests } := h
    exact .inr ⟨initReadRequests_initialized keeps hinit, rfl⟩
  | other device outbox =>
    obtain rfl : b' = { b with
      toDevice := { device with groupObjects := b.groupObjects }, outbox := outbox } := h
    exact .inr ⟨hinit, rfl⟩

def survives (asap : UInt16) (x : Transition Bau ObjectInput) : Bool :=
  !x.event.renews && (x.target.groupObjects.get asap).isSome

theorem assigns_renews {input : ObjectInput} (h : assigns b asap input = true) :
    input.renews = false := by
  cases input with
  | newObjects count defaultSize => cases h
  | _ => rfl

/-- A step has assigned the object a value, and it has been there since. -/
def AssignedIn (past : List (Transition Bau ObjectInput)) (asap : UInt16) : Prop :=
  ∃ before x after, past = before ++ x :: after ∧ assigns x.source asap x.event = true ∧
    ∀ y ∈ x :: after, survives asap y = true

/-- Every object that counts as initialized has been assigned a value. -/
def InitializedAssigned (past : List (Transition Bau ObjectInput)) (b : Bau) : Prop :=
  ∀ asap, b.groupObjects.initializedAt asap = true → AssignedIn past asap

theorem assigned_step {past : List (Transition Bau ObjectInput)}
    {x : Transition Bau ObjectInput} (ready : Ready x.source)
    (h : InitializedAssigned past x.source) (keeps : KeepsUninitialized x.source x.event)
    (hstep : Steps x.source x.event x.target) :
    InitializedAssigned (past ++ [x]) x.target := by
  intro asap hinit
  have still (hrenews : x.event.renews = false) : survives asap x = true := by
    obtain ⟨go, hgo, _⟩ := GroupObjectStore.initializedAt_iff.mp hinit
    unfold survives
    rw [hrenews, hgo]
    rfl
  rcases steps_initialized ready hstep keeps hinit with hassigns | ⟨hold, hrenews⟩
  · refine ⟨past, x, [], rfl, hassigns, fun y hy => ?_⟩
    obtain rfl := List.mem_singleton.mp hy
    exact still (assigns_renews hassigns)
  · obtain ⟨before, z, after, rfl, hz, hsurvive⟩ := h asap hold
    refine ⟨before, z, after ++ [x], by rw [List.append_assoc, List.cons_append], hz, ?_⟩
    intro y hy
    rcases List.mem_append.mp (show y ∈ (z :: after) ++ [x] from hy) with hy | hy
    · exact hsurvive y hy
    · obtain rfl := List.mem_singleton.mp hy
      exact still hrenews

/-- In every run that sets no flag of an uninitialized object alone, the objects that count as
initialized have been assigned a value. -/
theorem initialized_assigned {device : InterfaceObject} {count : UInt16} {size : Nat}
    {tr : List (Transition Bau ObjectInput)} (h : Run Steps (.new device count size) tr b)
    (keeps : ∀ x ∈ tr, KeepsUninitialized x.source x.event) :
    Ready b ∧ InitializedAssigned tr b := by
  refine h.history (H := fun past b => Ready b ∧ InitializedAssigned past b)
    (fun x => KeepsUninitialized x.source x.event) ⟨ofDevice_ready _, fun asap hinit => ?_⟩ keeps ?_
  · have hnew : (GroupObjectStore.new count size).initializedAt asap = true := hinit
    rw [GroupObjectStore.new_uninitialized] at hnew
    cases hnew
  · exact fun past x ⟨hready, hassigned⟩ hkeeps hstep =>
      ⟨steps_ready hready hstep, assigned_step hready hassigned hkeeps hstep⟩

end KnxRs.BusAccessUnit
