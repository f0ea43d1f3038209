import KnxRs.StoreSteps
import KnxRs.StoreRuns

set_option autoImplicit false

/-!
# Images of loaded tables

A loaded table has its whole segment in the memory area exactly as long as loading is
completed after the segment has been written, and no factory reset clears the area
under a loaded group object table.
-/
namespace KnxRs.MemoryStore
open Octets Regions TableObjects

/-- Every loaded table with a segment has it in the memory area. -/
structure ImagesReadable (s : Store) : Prop where
  within : ∀ i t, s.tableObject i = some t → t.downloaded = true →
    t.region.stop ≤ s.memoryArea.length ∧ t.region.stop ≤ maxMemorySize
  image : ∀ i t, s.tableObject i = some t → t.downloaded = true →
    t.data s.memoryArea = slice s.memoryArea t.region.start t.region.size ∧
      (t.data s.memoryArea).length = t.dataSize.toNat
  control : ∀ i t, s.tableObject i = some t → t.downloaded = true →
    t.mcbTable s.memoryArea = CoreTypes.be32Bytes t.dataSize ++ [mcbCrcControl, mcbAccess] ++
      CoreTypes.be16Bytes (TableObject.crc16Ccitt
        (slice s.memoryArea t.region.start t.region.size))
  configured : s.configured = true →
    (s.addrTableObject.data s.memoryArea).length = s.addrTableObject.dataSize.toNat ∧
      (s.assocTableObject.data s.memoryArea).length = s.assocTableObject.dataSize.toNat

/-- A load is completed only when its segment is in the memory area, and the area is cleared
    only when the group object table has no loaded segment. -/
def Backed (s : Store) : StoreEvent → Prop
  | .loadControl i data => ∀ t ∈ s.tableObject i, t.completes data = true →
      t.region.stop ≤ s.memoryArea.length
  | .masterReset eraseCode =>
    Store.wipes eraseCode = true → s.groupObjectTableObject.downloaded = false
  | _ => True

instance (s : Store) : DecidablePred (Backed s)
  | .loadControl _ _ => inferInstanceAs (Decidable (∀ _ ∈ _, _))
  | .masterReset _ => inferInstanceAs (Decidable (_ → _))
  | .idle => .isTrue trivial
  | .written _ _ => .isTrue trivial

namespace Store
variable {s : Store}

theorem data_image {t : TableObject} {memoryArea : List UInt8} (h : t.downloaded = true)
    (hstop : t.region.stop ≤ memoryArea.length) :
    t.data memoryArea = slice memoryArea t.region.start t.region.size := by
  obtain ⟨hst, hsize⟩ := of_decide_eq_true h
  unfold TableObject.data
  rw [if_neg (not_or.mpr ⟨not_not_intro hst, hsize⟩)]
  exact if_pos hstop

theorem data_empty {t : TableObject} (memoryArea : List UInt8) (hsize : t.dataSize = 0) :
    t.data memoryArea = [] := by
  unfold TableObject.data
  rw [if_pos (.inr hsize)]

theorem imagesReadable_iff (hbounded : Bounded s) :
    ImagesReadable s ↔ Within s.memoryArea.length (s.segments TableObject.downloaded) := by
  constructor
  · intro h i r hr
    obtain ⟨t, ht, hdown, rfl⟩ := mem_segments.mp hr
    exact (h.within i t ht hdown).1
  · intro h
    have within (i : UInt8) (t : TableObject) (ht : s.tableObject i = some t)
        (hdown : t.downloaded = true) : t.region.stop ≤ s.memoryArea.length :=
      h i _ (mem_segments.mpr ⟨t, ht, hdown, rfl⟩)
    have image (i : UInt8) (t : TableObject) (ht : s.tableObject i = some t)
        (hdown : t.downloaded = true) :
        t.data s.memoryArea = slice s.memoryArea t.region.start t.region.size ∧
          (t.data s.memoryArea).length = t.dataSize.toNat := by
      have hdata := data_image hdown (within i t ht hdown)
      refine ⟨hdata, ?_⟩
      rw [hdata]
      exact slice_length (within i t ht hdown)
    have loaded (i : UInt8) (t : TableObject) (ht : s.tableObject i = some t)
        (hst : t.state = .loaded) : (t.data s.memoryArea).length = t.dataSize.toNat := by
      by_cases hsize : t.dataSize = 0
      · rw [data_empty _ hsize, hsize]
        rfl
      · exact (image i t ht (decide_eq_true ⟨hst, hsize⟩)).2
    refine ⟨fun i t ht hdown => ⟨within i t ht hdown, ?_⟩, image, fun i t ht hdown => ?_, ?_⟩
    · exact Nat.le_trans (within i t ht hdown) hbounded
    · obtain ⟨hst, hsize⟩ := of_decide_eq_true hdown
      unfold TableObject.mcbTable
      rw [if_neg (not_or.mpr ⟨not_not_intro hst, hsize⟩), (image i t ht hdown).1]
    · intro hconfigured
      obtain ⟨haddr, hassoc, -⟩ := of_decide_eq_true hconfigured
      exact ⟨loaded objAddrTable _ rfl haddr, loaded objAssocTable _ rfl hassoc⟩

theorem new_within : Within new.memoryArea.length (new.segments TableObject.downloaded) := by
  intro i r hr
  obtain ⟨t, ht, hdown, -⟩ := mem_segments.mp hr
  rcases tableObject_index ht with rfl | rfl | rfl | rfl <;> cases ht <;> cases hdown

/-- An event that completes nothing leaves the loaded segments or takes one away. -/
theorem loadControl_downloaded_fewer {i : UInt8} {t : TableObject}
    (ht : s.tableObject i = some t) {data : List UInt8} (h : t.completes data = false) :
    ∀ j, ∀ r ∈ (s.loadControl i data).segments TableObject.downloaded j,
      r ∈ s.segments TableObject.downloaded j := by
  refine segments_fewer (loadControl_tableObject ht data) ht ?_
  have moved := t.handleLoadEvent_moved data s.memoryArea.length
  generalize t.handleLoadEvent data s.memoryArea.length = result at moved ⊢
  cases moved with
  | kept => exact fun hdown => ⟨hdown, rfl⟩
  | dropped _ hstate => exact fun hdown => absurd (of_decide_eq_true hdown).1 hstate
  | failed hstate =>
    intro hdown
    have hst := (of_decide_eq_true hdown).1
    rw [hstate] at hst
    cases hst
  | completed hst hevent =>
    intro hdown
    exact absurd ⟨hst, hevent, (of_decide_eq_true hdown).2⟩ (of_decide_eq_false h)
  | allocated hst _ _ =>
    intro hdown
    have hloaded := (of_decide_eq_true hdown).1
    dsimp only at hloaded
    rw [hst] at hloaded
    cases hloaded

theorem loadControl_within_iff
    (h : Within s.memoryArea.length (s.segments TableObject.downloaded)) {i : UInt8}
    {t : TableObject} (ht : s.tableObject i = some t) {data : List UInt8}
    (hcompletes : t.completes data = true) :
    Within (s.loadControl i data).memoryArea.length
        ((s.loadControl i data).segments TableObject.downloaded) ↔
      t.region.stop ≤ s.memoryArea.length := by
  obtain ⟨hst, hevent, hsize⟩ := of_decide_eq_true hcompletes
  have hobject := loadControl_tableObject ht data
  rw [TableObject.handleLoadEvent_completes hst hevent] at hobject
  rw [loadControl_completes_memoryArea ht hst hevent,
    segments_put hobject (decide_eq_true ⟨rfl, hsize⟩), within_update_iff h]
  exact Iff.rfl

theorem masterReset_within_iff {eraseCode : UInt8} (hwipes : wipes eraseCode = true) :
    Within (s.masterReset eraseCode).memoryArea.length
        ((s.masterReset eraseCode).segments TableObject.downloaded) ↔
      s.groupObjectTableObject.downloaded = false := by
  have hobjects : (s.masterReset eraseCode).addrTableObject = .new ∧
      (s.masterReset eraseCode).assocTableObject = .new ∧
      (s.masterReset eraseCode).groupObjectTableObject = s.groupObjectTableObject ∧
      (s.masterReset eraseCode).appProgramObject = .new := by
    rcases of_decide_eq_true hwipes with rfl | rfl <;> exact ⟨rfl, rfl, rfl, rfl⟩
  obtain ⟨haddr, hassoc, hgroup, happ⟩ := hobjects
  rw [masterReset_memoryArea, if_pos hwipes]
  constructor
  · intro hwithin
    by_contra hdown
    rw [Bool.not_eq_false] at hdown
    have hstop := hwithin objGroupObjTable s.groupObjectTableObject.region
      (mem_segments.mpr ⟨_, congrArg some hgroup, hdown, rfl⟩)
    have hzero : s.groupObjectTableObject.dataSize.toNat = 0 :=
      Nat.le_zero.mp (Nat.le_trans
        (Nat.le_add_left _ s.groupObjectTableObject.dataOffset.toNat) hstop)
    exact (of_decide_eq_true hdown).2 (UInt32.toNat_inj.mp hzero)
  · intro hdown j r hr
    obtain ⟨t, ht, hp, -⟩ := mem_segments.mp hr
    rcases tableObject_index ht with rfl | rfl | rfl | rfl
    · obtain rfl := Option.some.inj ((congrArg some haddr).symm.trans ht)
      cases hp
    · obtain rfl := Option.some.inj ((congrArg some hassoc).symm.trans ht)
      cases hp
    · obtain rfl := Option.some.inj ((congrArg some hgroup).symm.trans ht)
      rw [hdown] at hp
      cases hp
    · obtain rfl := Option.some.inj ((congrArg some happ).symm.trans ht)
      cases hp

theorem apply_within_iff (h : Within s.memoryArea.length (s.segments TableObject.downloaded))
    (event : StoreEvent) :
    Within (s.apply event).memoryArea.length ((s.apply event).segments TableObject.downloaded) ↔
      Backed s event := by
  cases event with
  | idle => exact ⟨fun _ => trivial, fun _ => h⟩
  | written addr data =>
    refine ⟨fun _ => trivial, fun _ => h.of_fewer ?_ fun j r hr => ?_⟩
    · dsimp only [apply]
      rw [writeToMemory_length]
      split_ifs <;> omega
    · rw [mem_segments] at hr ⊢
      rwa [apply, writeToMemory_tableObject] at hr
  | masterReset eraseCode =>
    dsimp only [apply, Backed]
    cases hwipes : wipes eraseCode with
    | true =>
      rw [masterReset_within_iff hwipes]
      exact ⟨fun hdown _ => hdown, fun hdown => hdown rfl⟩
    | false =>
      rw [masterReset_memoryArea, hwipes]
      exact ⟨fun _ => nofun, fun _ =>
        h.of_fewer (Nat.le_refl _) (masterReset_fewer s eraseCode rfl)⟩
  | loadControl i data =>
    dsimp only [apply, Backed]
    cases ht : s.tableObject i with
    | none =>
      rw [loadControl_none ht]
      exact ⟨fun _ => nofun, fun _ => h⟩
    | some t =>
      cases hcompletes : t.completes data with
      | false =>
        refine ⟨fun _ u hu hcontra => ?_, fun _ => h.of_fewer (loadControl_length s i data).1
          (loadControl_downloaded_fewer ht hcompletes)⟩
        obtain rfl := Option.some.inj hu
        rw [hcompletes] at hcontra
        cases hcontra
      | true =>
        rw [loadControl_within_iff h ht hcompletes]
        constructor
        · intro hstop u hu _
          obtain rfl := Option.some.inj hu
          exact hstop
        · intro hstop
          exact hstop t rfl hcompletes

end Store
end KnxRs.MemoryStore

namespace KnxRs.BusAccessUnit
open TableObjects InterfaceObjects CemiCodec MemoryStore DeviceState Runs

/-- In every run from the construction of a unit, the images of all states are readable exactly
    when loads are completed after their segments are in the memory area, and no reset clears it
    under a loaded group object table. -/
theorem images_readable_iff {device : InterfaceObject} {count : UInt16} {size : Nat}
    {tr : List (Transition Bau Event)} {b : Bau} (h : Handles (.new device count size) tr b) :
    ImagesReadable (Bau.new device count size).toStore ∧
      ((∀ x ∈ tr, ImagesReadable x.target.toStore) ↔
        ∀ x ∈ tr, Backed x.source.toStore (x.event.storeEvent x.source)) := by
  have run := handles_storeRun (ofDevice_ready _) h
  have start : ImagesReadable Store.new :=
    (Store.imagesReadable_iff Store.new_bounded).mpr Store.new_within
  have each : (∀ y ∈ tr.map storeTransition, ImagesReadable y.target) ↔
      ∀ y ∈ tr.map storeTransition, Backed y.source y.event := by
    refine run.always_iff Store.new_bounded start
      (fun x hbounded hstep => hstep ▸ Store.apply_bounded hbounded x.event) ?_
    intro x hbounded hreadable hstep
    rw [Store.imagesReadable_iff hbounded] at hreadable
    rw [← hstep, Store.imagesReadable_iff (Store.apply_bounded hbounded x.event)]
    exact Store.apply_within_iff hreadable x.event
  rw [List.forall_mem_map, List.forall_mem_map] at each
  exact ⟨start, each⟩

def addressTableDownload (fill : UInt8) : List Event :=
  [loadEventFrame 1 1, allocationFrame 1 fill 6, loadEventFrame 1 2]

theorem filled_table_readable : ∃ tr b, Handles standardBau tr b ∧
    tr.map Transition.event = addressTableDownload 1 ∧
    b.addrTableObject = ⟨.loaded, .noFault, 0, 6⟩ ∧
    ∀ x ∈ tr, ImagesReadable x.target.toStore := by
  have hstate : ((addressTableDownload 1).foldlM
      (Bau.handleIf fun b event => Backed b.toStore (event.storeEvent b)) standardBau).map
        (fun b => b.addrTableObject) = some ⟨.loaded, .noFault, 0, 6⟩ := by
    decide +kernel
  obtain ⟨b, hb, haddr⟩ := Option.map_eq_some_iff.mp hstate
  obtain ⟨tr, run, hevents, hall⟩ := handles_of_checked hb
  exact ⟨tr, b, run, hevents, haddr,
    (images_readable_iff run).2.mpr fun x hx => of_decide_eq_true (hall x hx)⟩

/-- Completed without a fill or a write, the table is loaded with no octet to read. -/
theorem completed_table_unreadable : ∃ tr b, Handles standardBau tr b ∧
    tr.map Transition.event = addressTableDownload 0 ∧
    b.addrTableObject = ⟨.loaded, .noFault, 0, 6⟩ ∧
    b.addrTableObject.data b.memoryArea = [] ∧ ¬ ImagesReadable b.toStore := by
  have hstate : ((addressTableDownload 0).foldlM (Bau.handleIf fun _ _ => true) standardBau).map
        (fun b => (b.addrTableObject, b.memoryArea)) =
      some (⟨.loaded, .noFault, 0, 6⟩, []) := by
    decide +kernel
  obtain ⟨b, hb, hstate⟩ := Option.map_eq_some_iff.mp hstate
  obtain ⟨haddr, hmemory⟩ := Prod.mk.inj hstate
  obtain ⟨tr, run, hevents, _⟩ := handles_of_checked hb
  have hempty : b.addrTableObject.data b.memoryArea = [] := by
    rw [haddr, hmemory]
    rfl
  refine ⟨tr, b, run, hevents, haddr, hempty, fun hreadable => ?_⟩
  have hlength := (hreadable.image objAddrTable _ rfl (by rw [haddr]; rfl)).2
  rw [hempty, haddr] at hlength
  revert hlength
  decide

end KnxRs.BusAccessUnit
