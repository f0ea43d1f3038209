import KnxRs.StoreSteps
import KnxRs.StoreRuns

set_option autoImplicit false

/-!
# Segments that do not overlap

An allocation takes the octets that follow the memory area, but makes the area no
longer unless it is filled. Segments stay disjoint exactly as long as the area has
reached the end of every earlier segment by the time of the next allocation.
-/
namespace KnxRs.MemoryStore
open Octets Regions TableObjects

/-- The segments of two tables that are loading or loaded share no octet, so that a write inside
    one of them leaves those of the other alone. -/
structure SegmentsDisjoint (s : Store) : Prop where
  apart : ∀ i j t u, i ≠ j → s.tableObject i = some t → s.tableObject j = some u →
    t.live = true → u.live = true → t.region.Apart u.region
  untouched : ∀ i j t u, i ≠ j → s.tableObject i = some t → s.tableObject j = some u →
    t.live = true → u.live = true → ∀ addr data,
      t.region.start ≤ addr → addr + data.length ≤ t.region.stop →
      ∀ k, u.region.start ≤ k → k < u.region.stop → k < s.memoryArea.length →
        (s.writeToMemory addr data).1.memoryArea[k]? = s.memoryArea[k]?

def tableIndices : List UInt8 := [objAddrTable, objAssocTable, objGroupObjTable, objAppProgram]

/-- When a segment is allocated, the memory area reaches the end of every other segment that
    starts before the end of the new one. -/
def Reserved (s : Store) : StoreEvent → Prop
  | .loadControl i data => ∀ t ∈ s.tableObject i, t.allocates data = true →
      ∀ j ∈ tableIndices, j ≠ i → ∀ q ∈ s.segments TableObject.live j,
        q.start < s.memoryArea.length + (requestedSize data).toNat →
          q.stop ≤ s.memoryArea.length
  | _ => True

instance (s : Store) : DecidablePred (Reserved s)
  | .loadControl _ _ => inferInstanceAs (Decidable (∀ _ ∈ _, _))
  | .idle => .isTrue trivial
  | .written _ _ => .isTrue trivial
  | .masterReset _ => .isTrue trivial

namespace Store
variable {s : Store}

theorem segmentsDisjoint_iff (s : Store) :
    SegmentsDisjoint s ↔ Separate (s.segments TableObject.live) := by
  constructor
  · intro h i j hij r hr q hq
    obtain ⟨t, ht, hlive, rfl⟩ := mem_segments.mp hr
    obtain ⟨u, hu, hlive', rfl⟩ := mem_segments.mp hq
    exact h.apart i j t u hij ht hu hlive hlive'
  · intro h
    have apart (i j : UInt8) (t u : TableObject) (hij : i ≠ j) (ht : s.tableObject i = some t)
        (hu : s.tableObject j = some u) (hlive : t.live = true) (hlive' : u.live = true) :
        t.region.Apart u.region :=
      h i j hij _ (mem_segments.mpr ⟨t, ht, hlive, rfl⟩) _ (mem_segments.mpr ⟨u, hu, hlive', rfl⟩)
    refine ⟨apart, fun i j t u hij ht hu hlive hlive' addr data hstart hstop k hk hk' hlen => ?_⟩
    refine writeToMemory_outside ?_ hlen
    rcases apart i j t u hij ht hu hlive hlive' with hbefore | hafter
    · exact .inr (by omega)
    · exact .inl (by omega)

theorem new_segmentsDisjoint : SegmentsDisjoint new := by
  rw [segmentsDisjoint_iff]
  intro i j _ r hr
  obtain ⟨t, ht, hlive, -⟩ := mem_segments.mp hr
  rcases tableObject_index ht with rfl | rfl | rfl | rfl <;> cases ht <;> cases hlive

theorem segments_index {p : TableObject → Bool} {j : UInt8} {q : Region}
    (h : q ∈ s.segments p j) : j ∈ tableIndices := by
  obtain ⟨t, ht, -, -⟩ := mem_segments.mp h
  rcases tableObject_index ht with rfl | rfl | rfl | rfl <;> decide

theorem loadControl_live_fewer {i : UInt8} {t : TableObject} (ht : s.tableObject i = some t)
    {data : List UInt8} (h : t.allocates data = false) :
    ∀ j, ∀ r ∈ (s.loadControl i data).segments TableObject.live j,
      r ∈ s.segments TableObject.live j := by
  refine segments_fewer (loadControl_tableObject ht data) ht ?_
  have moved := t.handleLoadEvent_moved data s.memoryArea.length
  generalize t.handleLoadEvent data s.memoryArea.length = result at moved ⊢
  cases moved with
  | kept => exact fun hlive => ⟨hlive, rfl⟩
  | dropped hsize _ => exact fun hlive => absurd hsize (of_decide_eq_true hlive).2
  | failed hstate =>
    intro hlive
    rcases (of_decide_eq_true hlive).1 with hst | hst <;> rw [hstate] at hst <;> cases hst
  | completed hst _ =>
    exact fun hlive => ⟨decide_eq_true ⟨.inl hst, (of_decide_eq_true hlive).2⟩, rfl⟩
  | allocated hst hallocates _ =>
    intro hlive
    have hsize : requestedSize data ≠ 0 := (of_decide_eq_true hlive).2
    rw [hallocates hsize] at h
    cases h

/-- An allocation keeps the segments apart exactly when the octets it takes are free. -/
theorem loadControl_separate_iff (hbounded : Bounded s)
    (h : Separate (s.segments TableObject.live)) {i : UInt8} {t : TableObject}
    (ht : s.tableObject i = some t) {data : List UInt8} (hallocates : t.allocates data = true) :
    Separate ((s.loadControl i data).segments TableObject.live) ↔
      ∀ j, j ≠ i → ∀ q ∈ s.segments TableObject.live j,
        q.start < s.memoryArea.length + (requestedSize data).toNat →
          q.stop ≤ s.memoryArea.length := by
  obtain ⟨hst, -, -, -, hsize, -⟩ := of_decide_eq_true hallocates
  have hobject := loadControl_tableObject ht data
  rw [TableObject.handleLoadEvent_allocates hallocates] at hobject
  rw [segments_put hobject (decide_eq_true ⟨.inl hst, hsize⟩), separate_update_iff h]
  have hoffset : (u32OfLen s.memoryArea.length).toNat = s.memoryArea.length := by
    refine u32OfLen_toNat (Nat.lt_of_le_of_lt hbounded ?_)
    decide
  simp only [Region.apart_iff, TableObject.region, Region.stop, hoffset]

theorem apply_separate_iff (hbounded : Bounded s)
    (h : Separate (s.segments TableObject.live)) (event : StoreEvent) :
    Separate ((s.apply event).segments TableObject.live) ↔ Reserved s event := by
  cases event with
  | idle => exact ⟨fun _ => trivial, fun _ => h⟩
  | written addr data =>
    refine ⟨fun _ => trivial, fun _ => h.of_fewer fun j r hr => ?_⟩
    rw [mem_segments] at hr ⊢
    rwa [apply, writeToMemory_tableObject] at hr
  | masterReset eraseCode =>
    exact ⟨fun _ => trivial, fun _ => h.of_fewer (masterReset_fewer s eraseCode rfl)⟩
  | loadControl i data =>
    dsimp only [apply, Reserved]
    cases ht : s.tableObject i with
    | none =>
      rw [loadControl_none ht]
      exact ⟨fun _ => nofun, fun _ => h⟩
    | some t =>
      cases hallocates : t.allocates data with
      | false =>
        refine ⟨fun _ u hu hcontra => ?_, fun _ => h.of_fewer (loadControl_live_fewer ht hallocates)⟩
        obtain rfl := Option.some.inj hu
        rw [hallocates] at hcontra
        cases hcontra
      | true =>
        rw [loadControl_separate_iff hbounded h ht hallocates]
        constructor
        · intro hfree u _ _ j _ hj
          exact hfree j hj
        · intro hfree j hj q hq
          exact hfree t rfl hallocates j (segments_index hq) hj q hq

end Store
end KnxRs.MemoryStore

namespace KnxRs.BusAccessUnit
open Regions TableObjects InterfaceObjects CemiCodec MemoryStore DeviceState Fallible Runs

/-- In every run from the construction of a unit, all states have disjoint segments exactly when
    every allocation finds the earlier segments inside the memory area. -/
theorem segments_disjoint_iff {device : InterfaceObject} {count : UInt16} {size : Nat}
    {tr : List (Transition Bau Event)} {b : Bau} (h : Handles (.new device count size) tr b) :
    SegmentsDisjoint (Bau.new device count size).toStore ∧
      ((∀ x ∈ tr, SegmentsDisjoint x.target.toStore) ↔
        ∀ x ∈ tr, Reserved x.source.toStore (x.event.storeEvent x.source)) := by
  have run := handles_storeRun (ofDevice_ready _) h
  have each : (∀ y ∈ tr.map storeTransition, SegmentsDisjoint y.target) ↔
      ∀ y ∈ tr.map storeTransition, Reserved y.source y.event := by
    refine run.always_iff Store.new_bounded Store.new_segmentsDisjoint
      (fun x hbounded hstep => hstep ▸ Store.apply_bounded hbounded x.event) ?_
    intro x hbounded hdisjoint hstep
    rw [Store.segmentsDisjoint_iff] at hdisjoint ⊢
    rw [← hstep]
    exact Store.apply_separate_iff hbounded hdisjoint x.event
  rw [List.forall_mem_map, List.forall_mem_map] at each
  exact ⟨Store.new_segmentsDisjoint, each⟩

def twoAllocations (fill : UInt8) : List Event :=
  [loadEventFrame 1 1, allocationFrame 1 fill 6, loadEventFrame 2 1, allocationFrame 2 fill 10]

theorem filled_segments_disjoint : ∃ tr b, Handles standardBau tr b ∧
    tr.map Transition.event = twoAllocations 1 ∧
    b.addrTableObject = ⟨.loading, .noFault, 0, 6⟩ ∧
    b.assocTableObject = ⟨.loading, .noFault, 6, 10⟩ ∧
    ∀ x ∈ tr, SegmentsDisjoint x.target.toStore := by
  have hstate : ((twoAllocations 1).foldlM
      (Bau.handleIf fun b event => Reserved b.toStore (event.storeEvent b)) standardBau).map
        (fun b => (b.addrTableObject, b.assocTableObject)) =
      some (⟨.loading, .noFault, 0, 6⟩, ⟨.loading, .noFault, 6, 10⟩) := by
    decide +kernel
  obtain ⟨b, hb, hstate⟩ := Option.map_eq_some_iff.mp hstate
  obtain ⟨haddr, hassoc⟩ := Prod.mk.inj hstate
  obtain ⟨tr, run, hevents, hall⟩ := handles_of_checked hb
  exact ⟨tr, b, run, hevents, haddr, hassoc,
    (segments_disjoint_iff run).2.mpr fun x hx => of_decide_eq_true (hall x hx)⟩

/-- Without a fill the second segment starts where the first one does. -/
theorem unfilled_segments_overlap : ∃ tr b, Handles standardBau tr b ∧
    tr.map Transition.event = twoAllocations 0 ∧
    b.addrTableObject = ⟨.loading, .noFault, 0, 6⟩ ∧
    b.assocTableObject = ⟨.loading, .noFault, 0, 10⟩ ∧ ¬ SegmentsDisjoint b.toStore := by
  have hstate : ((twoAllocations 0).foldlM (Bau.handleIf fun _ _ => true) standardBau).map
        (fun b => (b.addrTableObject, b.assocTableObject)) =
      some (⟨.loading, .noFault, 0, 6⟩, ⟨.loading, .noFault, 0, 10⟩) := by
    decide +kernel
  obtain ⟨b, hb, hstate⟩ := Option.map_eq_some_iff.mp hstate
  obtain ⟨haddr, hassoc⟩ := Prod.mk.inj hstate
  obtain ⟨tr, run, hevents, _⟩ := handles_of_checked hb
  refine ⟨tr, b, run, hevents, haddr, hassoc, fun hdisjoint => ?_⟩
  have overlap := hdisjoint.apart 1 2 _ _ (by decide) (congrArg some haddr) (congrArg some hassoc)
    (by decide) (by decide)
  revert overlap
  decide

end KnxRs.BusAccessUnit
