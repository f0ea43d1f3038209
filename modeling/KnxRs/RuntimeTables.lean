import KnxRs.StoreSteps
import KnxRs.StoreRuns

set_option autoImplicit false

/-!
# Runtime tables and their objects

The runtime tables are decoded when a load is completed and emptied by a reset of the
links. They follow the table objects exactly as long as no load event takes a loaded
object out of `Loaded` while its runtime table still has an entry.
-/
namespace KnxRs.MemoryStore
open TableObjects GroupTables Runs

def Store.runtimeData (s : Store) (objectIndex : UInt8) : List UInt8 :=
  if objectIndex = objAddrTable then s.addressTable.data
  else if objectIndex = objAssocTable then s.associationTable.data
  else []

/-- The runtime table of an object has an entry. -/
def Store.runtimeResolves (s : Store) (objectIndex : UInt8) : Bool :=
  holdsEntry (if objectIndex = objAddrTable then 2 else entrySize) (s.runtimeData objectIndex)

def completion (objectIndex : UInt8) (x : Transition Store StoreEvent) : Option (List UInt8) :=
  match x.event with
  | .loadControl i data =>
    if i = objectIndex ∧ (x.source.tableObject i).any (fun t => t.finishes data) then
      (x.target.tableObject i).map (fun t => t.data x.target.memoryArea)
    else none
  | _ => none

/-- The data of an object at the most recent completion of its loading. -/
def completedImage (objectIndex : UInt8) (past : List (Transition Store StoreEvent)) :
    Option (List UInt8) :=
  past.reverse.findSome? (completion objectIndex)

/-- No event takes a loaded object out of `Loaded` while its runtime table has an entry. -/
def Emptied (s : Store) : StoreEvent → Prop
  | .loadControl i data => ∀ t ∈ s.tableObject i, t.state = .loaded → leavesLoaded data = true →
      s.runtimeResolves i = false
  | _ => True

instance (s : Store) : DecidablePred (Emptied s)
  | .loadControl _ _ => inferInstanceAs (Decidable (∀ _ ∈ _, _))
  | .idle => .isTrue trivial
  | .written _ _ => .isTrue trivial
  | .masterReset _ => .isTrue trivial

/-- The runtime table of an object is empty unless the object is loaded, and then it is decoded
    from the data at the most recent completion. -/
def FollowsObject (i : UInt8) (past : List (Transition Store StoreEvent)) (s : Store) : Prop :=
  ∀ t ∈ s.tableObject i,
    (t.state ≠ .loaded → s.runtimeResolves i = false) ∧
      (t.state = .loaded → completedImage i past = some (s.runtimeData i))

def Follows (past : List (Transition Store StoreEvent)) (s : Store) : Prop :=
  FollowsObject objAddrTable past s ∧ FollowsObject objAssocTable past s

namespace Store
variable {s s' : Store} {i j : UInt8} {t : TableObject}
  {past : List (Transition Store StoreEvent)}

theorem completedImage_snoc (i : UInt8) (past : List (Transition Store StoreEvent))
    (x : Transition Store StoreEvent) :
    completedImage i (past ++ [x]) = (completion i x).or (completedImage i past) := by
  unfold completedImage
  rw [List.reverse_append, List.reverse_singleton, List.singleton_append, List.findSome?_cons]
  cases completion i x with
  | none => rfl
  | some image => rfl

/-! ## Runtime data after each operation -/

theorem runtimeResolves_congr (h : s'.runtimeData i = s.runtimeData i) :
    s'.runtimeResolves i = s.runtimeResolves i := by
  unfold runtimeResolves
  rw [h]

theorem writeToMemory_runtimeData (s : Store) (addr : Nat) (data : List UInt8) (i : UInt8) :
    (s.writeToMemory addr data).1.runtimeData i = s.runtimeData i := by
  unfold writeToMemory
  dsimp only
  split_ifs <;> rfl

theorem applyFill_runtimeData (s : Store) (fill : Option Fill) (i : UInt8) :
    (s.applyFill fill).runtimeData i = s.runtimeData i := by
  unfold applyFill
  split
  · rfl
  · dsimp only
    split_ifs <;> rfl

theorem setTableObject_runtimeData (s : Store) (j : UInt8) (t : TableObject) (i : UInt8) :
    (s.setTableObject j t).runtimeData i = s.runtimeData i := by
  unfold setTableObject
  split_ifs <;> rfl

theorem reloadRuntimeTable_runtimeData_ne (s : Store) (h : i ≠ j) :
    (s.reloadRuntimeTable j).runtimeData i = s.runtimeData i := by
  unfold reloadRuntimeTable
  by_cases ha : j = objAddrTable
  · subst ha
    rw [if_pos rfl]
    unfold runtimeData
    rw [if_neg h, if_neg h]
  · rw [if_neg ha]
    by_cases hb : j = objAssocTable
    · subst hb
      rw [if_pos rfl]
      unfold runtimeData
      rw [if_neg h, if_neg h]
    · rw [if_neg hb]

theorem reloadRuntimeTable_runtimeData (hi : i = objAddrTable ∨ i = objAssocTable)
    (ht : s.tableObject i = some t) :
    (s.reloadRuntimeTable i).runtimeData i = t.data s.memoryArea := by
  rcases hi with rfl | rfl
  · cases ht
    rfl
  · cases ht
    rfl

theorem loadControl_runtimeData (ht : s.tableObject i = some t) {data : List UInt8}
    (h : j = i → t.finishes data = false) :
    (s.loadControl i data).runtimeData j = s.runtimeData j := by
  rw [loadControl, ht]
  dsimp only
  split_ifs with hloaded
  · have hne : j ≠ i := by
      intro he
      rw [TableObject.handleLoadEvent_unfinished (h he)] at hloaded
      cases hloaded
    rw [reloadRuntimeTable_runtimeData_ne _ hne, applyFill_runtimeData,
      setTableObject_runtimeData]
  · rw [applyFill_runtimeData, setTableObject_runtimeData]

theorem masterReset_runtimeData (s : Store) (eraseCode : UInt8)
    (hi : i = objAddrTable ∨ i = objAssocTable) :
    ((s.masterReset eraseCode).tableObject i = s.tableObject i ∧
        (s.masterReset eraseCode).runtimeData i = s.runtimeData i) ∨
      ((s.masterReset eraseCode).tableObject i = some .new ∧
        (s.masterReset eraseCode).runtimeData i = []) := by
  unfold masterReset resetLinkTables
  rcases hi with rfl | rfl
  all_goals split_ifs <;> first | exact .inl ⟨rfl, rfl⟩ | exact .inr ⟨rfl, rfl⟩

/-! ## One step -/

theorem followsObject_same (h : FollowsObject i past s)
    (hobject : s'.tableObject i = s.tableObject i) (hdata : s'.runtimeData i = s.runtimeData i)
    {x : Transition Store StoreEvent} (hx : completion i x = none) :
    FollowsObject i (past ++ [x]) s' := by
  unfold FollowsObject
  rw [completedImage_snoc, hx, Option.none_or, hobject, runtimeResolves_congr hdata, hdata]
  exact h

theorem followsObject_new {past : List (Transition Store StoreEvent)}
    (hobject : s.tableObject i = some .new) (hdata : s.runtimeData i = []) :
    FollowsObject i past s := by
  intro t ht
  obtain rfl := Option.some.inj (hobject.symm.trans ht)
  refine ⟨fun _ => ?_, nofun⟩
  unfold runtimeResolves
  rw [hdata]
  rfl

/-- An event that completes the loading of an object has its runtime table decoded. -/
theorem followsObject_completed (hi : i = objAddrTable ∨ i = objAssocTable)
    (ht : s.tableObject i = some t) {data : List UInt8} (h : t.finishes data = true) :
    FollowsObject i (past ++ [⟨s, .loadControl i data, s.loadControl i data⟩])
      (s.loadControl i data) := by
  obtain ⟨hst, hevent⟩ := of_decide_eq_true h
  have hobject : (s.loadControl i data).tableObject i = some { t with state := .loaded } := by
    rw [loadControl_tableObject ht, if_pos rfl, TableObject.handleLoadEvent_completes hst hevent]
  have hmemory := loadControl_completes_memoryArea ht hst hevent
  have hdata : (s.loadControl i data).runtimeData i =
      TableObject.data { t with state := .loaded } s.memoryArea := by
    rw [loadControl, ht]
    dsimp only
    rw [TableObject.handleLoadEvent_completes hst hevent, if_pos rfl]
    dsimp only [applyFill]
    rw [reloadRuntimeTable_runtimeData (t := { t with state := .loaded }) hi
      (by rw [tableObject_setTableObject ht, if_pos rfl]), setTableObject_memoryArea]
  have hcompletion : completion i ⟨s, .loadControl i data, s.loadControl i data⟩ =
      some (TableObject.data { t with state := .loaded } s.memoryArea) := by
    unfold completion
    dsimp only
    rw [ht, Option.any_some, h, if_pos ⟨rfl, rfl⟩, hobject, hmemory, Option.map_some]
  intro u hu
  obtain rfl := Option.some.inj (hobject.symm.trans hu)
  refine ⟨fun hne => absurd rfl hne, fun _ => ?_⟩
  rw [completedImage_snoc, hcompletion, hdata, Option.some_or]

/-- Any other event keeps a runtime table in step exactly when it does not end the state
    `Loaded` of an object whose runtime table has an entry. -/
theorem followsObject_event_iff (h : FollowsObject i past s) (ht : s.tableObject i = some t)
    {data : List UInt8} (hunfinished : t.finishes data = false) :
    FollowsObject i (past ++ [⟨s, .loadControl i data, s.loadControl i data⟩])
        (s.loadControl i data) ↔
      (t.state = .loaded → leavesLoaded data = true → s.runtimeResolves i = false) := by
  have hobject : (s.loadControl i data).tableObject i =
      some (t.handleLoadEvent data s.memoryArea.length).1 := by
    rw [loadControl_tableObject ht, if_pos rfl]
  have hdata : (s.loadControl i data).runtimeData i = s.runtimeData i :=
    loadControl_runtimeData ht fun _ => hunfinished
  have hloaded := TableObject.handleLoadEvent_loaded hunfinished s.memoryArea.length
  have hcompletion : completion i ⟨s, .loadControl i data, s.loadControl i data⟩ = none := by
    unfold completion
    dsimp only
    rw [ht, Option.any_some, hunfinished, if_neg (fun hc => Bool.false_ne_true hc.2)]
  obtain ⟨hidle, himage⟩ := h t ht
  constructor
  · intro hfollows hst hleaves
    rw [← runtimeResolves_congr hdata]
    refine (hfollows _ hobject).1 fun hstill => ?_
    rw [(hloaded.mp hstill).2] at hleaves
    cases hleaves
  · intro hempty u hu
    obtain rfl := Option.some.inj (hobject.symm.trans hu)
    rw [completedImage_snoc, hcompletion, Option.none_or, runtimeResolves_congr hdata, hdata]
    refine ⟨fun hne => ?_, fun hstill => himage (hloaded.mp hstill).1⟩
    by_cases hst : t.state = .loaded
    · refine hempty hst ?_
      by_contra hstays
      exact hne (hloaded.mpr ⟨hst, Bool.not_eq_true _ ▸ hstays⟩)
    · exact hidle hst

theorem followsObject_loadControl_iff (hi : i = objAddrTable ∨ i = objAssocTable)
    (h : FollowsObject i past s) (j : UInt8) (data : List UInt8) :
    FollowsObject i (past ++ [⟨s, .loadControl j data, s.loadControl j data⟩])
        (s.loadControl j data) ↔ (j = i → Emptied s (.loadControl j data)) := by
  by_cases hj : j = i
  · subst hj
    cases ht : s.tableObject j with
    | none =>
      rcases hi with rfl | rfl <;> cases ht
    | some t =>
      have hemptied : Emptied s (.loadControl j data) ↔
          (t.state = .loaded → leavesLoaded data = true → s.runtimeResolves j = false) := by
        dsimp only [Emptied]
        rw [ht]
        exact ⟨fun hall => hall t rfl, fun hone u hu => Option.some.inj hu ▸ hone⟩
      rw [hemptied]
      cases hfinishes : t.finishes data with
      | true =>
        refine ⟨fun _ _ hst => ?_, fun _ => followsObject_completed hi ht hfinishes⟩
        rw [(of_decide_eq_true hfinishes).1] at hst
        cases hst
      | false =>
        rw [followsObject_event_iff h ht hfinishes]
        exact ⟨fun hone _ => hone, fun hone => hone rfl⟩
  · refine ⟨fun _ he => absurd he hj, fun _ => ?_⟩
    have hcompletion : completion i ⟨s, .loadControl j data, s.loadControl j data⟩ = none :=
      if_neg fun hc => hj hc.1
    cases ht : s.tableObject j with
    | none =>
      rw [loadControl_none ht] at hcompletion ⊢
      exact followsObject_same h rfl rfl hcompletion
    | some t =>
      refine followsObject_same h ?_ ?_ hcompletion
      · rw [loadControl_tableObject ht, if_neg (Ne.symm hj)]
      · exact loadControl_runtimeData ht fun he => absurd he.symm hj

theorem follows_apply_iff (h : Follows past s) (event : StoreEvent) :
    Follows (past ++ [⟨s, event, s.apply event⟩]) (s.apply event) ↔ Emptied s event := by
  cases event with
  | idle =>
    exact ⟨fun _ => trivial, fun _ =>
      ⟨followsObject_same h.1 rfl rfl rfl, followsObject_same h.2 rfl rfl rfl⟩⟩
  | written addr data =>
    have same {i : UInt8} (h : FollowsObject i past s) :
        FollowsObject i (past ++ [⟨s, .written addr data, s.apply (.written addr data)⟩])
          (s.apply (.written addr data)) :=
      followsObject_same h (writeToMemory_tableObject s addr data i)
        (writeToMemory_runtimeData s addr data i) rfl
    exact ⟨fun _ => trivial, fun _ => ⟨same h.1, same h.2⟩⟩
  | masterReset eraseCode =>
    have each {i : UInt8} (hi : i = objAddrTable ∨ i = objAssocTable)
        (h : FollowsObject i past s) :
        FollowsObject i (past ++ [⟨s, .masterReset eraseCode, s.apply (.masterReset eraseCode)⟩])
          (s.apply (.masterReset eraseCode)) := by
      rcases masterReset_runtimeData s eraseCode hi with ⟨hobject, hdata⟩ | ⟨hobject, hdata⟩
      · exact followsObject_same h hobject hdata rfl
      · exact followsObject_new hobject hdata
    exact ⟨fun _ => trivial, fun _ => ⟨each (.inl rfl) h.1, each (.inr rfl) h.2⟩⟩
  | loadControl j data =>
    have haddr := followsObject_loadControl_iff (.inl rfl) h.1 j data
    have hassoc := followsObject_loadControl_iff (.inr rfl) h.2 j data
    unfold Follows
    dsimp only [apply]
    rw [haddr, hassoc]
    constructor
    · rintro ⟨haddr, hassoc⟩ t ht hst hleaves
      by_cases ha : j = objAddrTable
      · exact haddr ha t ht hst hleaves
      · by_cases hb : j = objAssocTable
        · exact hassoc hb t ht hst hleaves
        · unfold runtimeResolves runtimeData
          rw [if_neg ha, if_neg ha, if_neg hb]
          rfl
    · exact fun hemptied => ⟨fun _ => hemptied, fun _ => hemptied⟩

theorem new_follows : Follows [] new :=
  ⟨followsObject_new rfl rfl, followsObject_new rfl rfl⟩

end Store
end KnxRs.MemoryStore

namespace KnxRs.BusAccessUnit
open TableObjects GroupTables GroupObjects InterfaceObjects CemiCodec MemoryStore DeviceState Runs

/-- What holds after the transitions `past`: a runtime table is empty unless its object is
    loaded, and then the decoding of the object's data at its most recent completion; with one
    of the objects not loaded no group telegram is accepted, answered or sent. -/
structure TablesFollow (past : List (Transition Bau Event)) (b : Bau) : Prop where
  addressesIdle : b.addrTableObject.state ≠ .loaded → b.addressTable.Silent
  addressesLoaded : b.addrTableObject.state = .loaded →
    ∃ image, completedImage objAddrTable (past.map storeTransition) = some image ∧
      b.addressTable = .load .new image
  associationsIdle : b.assocTableObject.state ≠ .loaded → b.associationTable.Silent
  associationsLoaded : b.assocTableObject.state = .loaded →
    ∃ image, completedImage objAssocTable (past.map storeTransition) = some image ∧
      b.associationTable = .load .new image
  accepts : b.addrTableObject.state ≠ .loaded ∨ b.assocTableObject.state ≠ .loaded →
    ∀ ga data checkFlag, b.toDevice.updateGroupObjectFromBus ga data checkFlag = b.toDevice
  answers : b.addrTableObject.state ≠ .loaded ∨ b.assocTableObject.state ≠ .loaded →
    ∀ frame, b.handleGroupValueRead frame = .ok b
  sends : b.addrTableObject.state ≠ .loaded ∨ b.assocTableObject.state ≠ .loaded →
    ∀ asap, b.resolveGroupAddress asap = none

theorem silent_unconnected {b : Bau} (h : b.addressTable.Silent ∨ b.associationTable.Silent) :
    (∀ ga data checkFlag,
      b.toDevice.updateGroupObjectFromBus ga data checkFlag = b.toDevice) ∧
    (∀ frame, b.handleGroupValueRead frame = .ok b) ∧
    ∀ asap, b.resolveGroupAddress asap = none := by
  refine ⟨fun ga data checkFlag => ?_, fun frame => ?_, fun asap => ?_⟩
  · unfold Device.updateGroupObjectFromBus
    rcases h with h | h
    · rw [h.getTsap]
    · split
      · rfl
      · rw [h.asapsForTsap]
        rfl
  · unfold Bau.handleGroupValueRead
    dsimp only
    rcases h with h | h
    · rw [h.getTsap]
    · split
      · rfl
      · unfold Device.readableObject
        rw [h.asapsForTsap]
        rfl
  · unfold Store.resolveGroupAddress
    rcases h with h | h
    · cases b.associationTable.translateAsap asap with
      | none => rfl
      | some tsap => exact h.getGroupAddress tsap
    · rw [h.translateAsap]
      rfl

theorem tablesFollow_iff (past : List (Transition Bau Event)) (b : Bau) :
    TablesFollow past b ↔ Follows (past.map storeTransition) b.toStore := by
  have haddr : b.addressTable.Silent ↔ b.toStore.runtimeResolves objAddrTable = false :=
    b.addressTable.silent_iff
  have hassoc : b.associationTable.Silent ↔ b.toStore.runtimeResolves objAssocTable = false :=
    b.associationTable.silent_iff
  constructor
  · intro h
    constructor
    · intro t ht
      obtain rfl := Option.some.inj ht
      refine ⟨fun hidle => haddr.mp (h.addressesIdle hidle), fun hloaded => ?_⟩
      obtain ⟨image, himage, htable⟩ := h.addressesLoaded hloaded
      rw [himage]
      exact congrArg (fun t => some (AddressTable.data t)) htable.symm
    · intro t ht
      obtain rfl := Option.some.inj ht
      refine ⟨fun hidle => hassoc.mp (h.associationsIdle hidle), fun hloaded => ?_⟩
      obtain ⟨image, himage, htable⟩ := h.associationsLoaded hloaded
      rw [himage]
      exact congrArg (fun t => some (AssociationTable.data t)) htable.symm
  · rintro ⟨ha, hb⟩
    obtain ⟨haddrIdle, haddrLoaded⟩ := ha _ rfl
    obtain ⟨hassocIdle, hassocLoaded⟩ := hb _ rfl
    have unconnected (hidle : b.addrTableObject.state ≠ .loaded ∨
        b.assocTableObject.state ≠ .loaded) :=
      silent_unconnected (b := b) (hidle.imp (fun hi => haddr.mpr (haddrIdle hi))
        (fun hi => hassoc.mpr (hassocIdle hi)))
    exact ⟨fun hidle => haddr.mpr (haddrIdle hidle),
      fun hloaded => ⟨_, haddrLoaded hloaded, rfl⟩,
      fun hidle => hassoc.mpr (hassocIdle hidle),
      fun hloaded => ⟨_, hassocLoaded hloaded, rfl⟩,
      fun hidle => (unconnected hidle).1, fun hidle => (unconnected hidle).2.1,
      fun hidle => (unconnected hidle).2.2⟩

/-- In every run from the construction of a unit, the runtime tables follow their objects in
    all states exactly when no load event takes a loaded object out of `Loaded` while its
    runtime table has an entry. -/
theorem runtime_tables_follow_iff {device : InterfaceObject} {count : UInt16} {size : Nat}
    {tr : List (Transition Bau Event)} {b : Bau} (h : Handles (.new device count size) tr b) :
    TablesFollow [] (.new device count size) ∧
      ((∀ past x rest, tr = past ++ x :: rest → TablesFollow (past ++ [x]) x.target) ↔
        ∀ x ∈ tr, Emptied x.source.toStore (x.event.storeEvent x.source)) := by
  have start : TablesFollow [] (.new device count size) :=
    (tablesFollow_iff [] _).mpr Store.new_follows
  refine ⟨start, h.history_iff (ofDevice_ready _) start
    (fun _ hready hstep => handle_ready hready hstep) ?_⟩
  intro past x hready hfollows hstep
  rw [tablesFollow_iff] at hfollows ⊢
  rw [List.map_append, List.map_singleton, storeTransition, handle_toStore hready hstep]
  exact Store.follows_apply_iff hfollows _

/-- The download of an address table that holds the group address 5. -/
def addressDownload : List Event :=
  [loadEventFrame 1 1, allocationFrame 1 1 4, memoryWriteFrame 1 1, memoryWriteFrame 3 5,
    loadEventFrame 1 2]

theorem downloaded_table_follows : ∃ tr b, Handles standardBau tr b ∧
    tr.map Transition.event = addressDownload ∧ b.addrTableObject.state = .loaded ∧
    b.addressTable.getTsap 5 = some 1 ∧
    ∀ past x rest, tr = past ++ x :: rest → TablesFollow (past ++ [x]) x.target := by
  have hstate : (addressDownload.foldlM
      (Bau.handleIf fun b event => Emptied b.toStore (event.storeEvent b)) standardBau).map
        (fun b => (b.addrTableObject.state, b.addressTable.getTsap 5)) =
      some (.loaded, some 1) := by
    decide +kernel
  obtain ⟨b, hb, hstate⟩ := Option.map_eq_some_iff.mp hstate
  obtain ⟨hloaded, htsap⟩ := Prod.mk.inj hstate
  obtain ⟨tr, run, hevents, hall⟩ := handles_of_checked hb
  exact ⟨tr, b, run, hevents, hloaded, htsap,
    (runtime_tables_follow_iff run).2.mpr fun x hx => of_decide_eq_true (hall x hx)⟩

/-- Unloaded after its download, the table still resolves the group address. -/
theorem unloaded_table_resolves : ∃ tr b, Handles standardBau tr b ∧
    tr.map Transition.event = addressDownload ++ [loadEventFrame 1 4] ∧
    b.addrTableObject.state = .unloaded ∧ b.addressTable.getTsap 5 = some 1 ∧
    ¬ TablesFollow tr b := by
  have hstate : ((addressDownload ++ [loadEventFrame 1 4]).foldlM
      (Bau.handleIf fun _ _ => true) standardBau).map
        (fun b => (b.addrTableObject.state, b.addressTable.getTsap 5)) =
      some (.unloaded, some 1) := by
    decide +kernel
  obtain ⟨b, hb, hstate⟩ := Option.map_eq_some_iff.mp hstate
  obtain ⟨hunloaded, htsap⟩ := Prod.mk.inj hstate
  obtain ⟨tr, run, hevents, _⟩ := handles_of_checked hb
  refine ⟨tr, b, run, hevents, hunloaded, htsap, fun hfollows => ?_⟩
  have hidle : b.addrTableObject.state ≠ .loaded := by
    rw [hunloaded]
    simp
  have hnone := (hfollows.addressesIdle hidle).getTsap 5
  rw [htsap] at hnone
  cases hnone

end KnxRs.BusAccessUnit
