import KnxRs.MemoryStore

set_option autoImplicit false

/-!
# What the operations of the store do

The length of the memory area after each operation, and the segments that the table
objects have in it, as a family of regions over the object indices.
-/
namespace KnxRs.MemoryStore
open Octets Regions TableObjects

namespace Store

def segments (p : TableObject → Bool) (s : Store) (objectIndex : UInt8) : Option Region :=
  ((s.tableObject objectIndex).filter p).map TableObject.region

variable {p : TableObject → Bool} {s s' : Store} {i : UInt8} {t u : TableObject}

theorem mem_segments {r : Region} :
    r ∈ s.segments p i ↔ ∃ t, s.tableObject i = some t ∧ p t = true ∧ t.region = r := by
  simp [segments, Option.filter_eq_some_iff, and_assoc]

/-! ## One table object -/

theorem tableObject_index (h : s.tableObject i = some t) : i = objAddrTable ∨
    i = objAssocTable ∨ i = objGroupObjTable ∨ i = objAppProgram := by
  unfold tableObject at h
  by_contra hnone
  simp only [not_or] at hnone
  rw [if_neg hnone.1, if_neg hnone.2.1, if_neg hnone.2.2.1, if_neg hnone.2.2.2] at h
  cases h

theorem tableObject_setTableObject (h : s.tableObject i = some t) (j : UInt8) :
    (s.setTableObject i u).tableObject j = if j = i then some u else s.tableObject j := by
  by_cases hj : j = i
  · subst hj
    rw [if_pos rfl]
    rcases tableObject_index h with rfl | rfl | rfl | rfl <;> rfl
  · rw [if_neg hj]
    rcases tableObject_index h with rfl | rfl | rfl | rfl
    · rw [setTableObject, if_pos rfl, tableObject, tableObject, if_neg hj, if_neg hj]
    · rw [setTableObject, if_neg (by decide), if_pos rfl, tableObject, tableObject, if_neg hj,
        if_neg hj]
    · rw [setTableObject, if_neg (by decide), if_neg (by decide), if_pos rfl, tableObject,
        tableObject, if_neg hj, if_neg hj]
    · rw [setTableObject, if_neg (by decide), if_neg (by decide), if_neg (by decide), if_pos rfl,
        tableObject, tableObject, if_neg hj, if_neg hj]

theorem segments_put (h : ∀ j, s'.tableObject j = if j = i then some u else s.tableObject j)
    (hu : p u = true) :
    s'.segments p = Function.update (s.segments p) i (some u.region) := by
  funext j
  unfold segments
  rw [h]
  by_cases hj : j = i
  · subst hj
    rw [if_pos rfl, Function.update_self, Option.filter_some, if_pos hu]
    rfl
  · rw [if_neg hj, Function.update_of_ne hj]

theorem segments_fewer (h : ∀ j, s'.tableObject j = if j = i then some u else s.tableObject j)
    (ht : s.tableObject i = some t) (hu : p u = true → p t = true ∧ t.region = u.region) :
    ∀ j, ∀ r ∈ s'.segments p j, r ∈ s.segments p j := by
  intro j r hr
  rw [mem_segments] at hr ⊢
  obtain ⟨v, hv, hp, hregion⟩ := hr
  rw [h] at hv
  by_cases hj : j = i
  · subst hj
    rw [if_pos rfl] at hv
    obtain rfl := Option.some.inj hv
    exact ⟨t, ht, (hu hp).1, (hu hp).2.trans hregion⟩
  · rw [if_neg hj] at hv
    exact ⟨v, hv, hp, hregion⟩

/-! ## Memory -/

theorem memoryArea_overwrite_length (s : Store) (start : Nat) (data : List UInt8) :
    (overwrite (grow s.memoryArea (start + data.length) 0) start data).length =
      max s.memoryArea.length (start + data.length) := by
  rw [overwrite_length (by rw [grow_length]; omega), grow_length]

theorem writeToMemory_length (s : Store) (addr : Nat) (data : List UInt8) :
    (s.writeToMemory addr data).1.memoryArea.length =
      if addr + data.length > maxMemorySize then s.memoryArea.length
      else max s.memoryArea.length (addr + data.length) := by
  unfold writeToMemory
  dsimp only
  split_ifs
  · rfl
  · exact memoryArea_overwrite_length s addr data

theorem writeToMemory_tableObject (s : Store) (addr : Nat) (data : List UInt8) (j : UInt8) :
    (s.writeToMemory addr data).1.tableObject j = s.tableObject j := by
  unfold writeToMemory
  dsimp only
  split_ifs <;> rfl

theorem writeToMemory_outside {addr k : Nat} {data : List UInt8}
    (hk : k < addr ∨ addr + data.length ≤ k) (hlen : k < s.memoryArea.length) :
    (s.writeToMemory addr data).1.memoryArea[k]? = s.memoryArea[k]? := by
  unfold writeToMemory
  dsimp only
  split_ifs
  · rfl
  · rw [overwrite_getElem?_outside (by rw [grow_length]; omega) hk, grow_getElem? hlen]

theorem applyFill_length (s : Store) (fill : Option Fill) :
    s.memoryArea.length ≤ (s.applyFill fill).memoryArea.length ∧
      (s.applyFill fill).memoryArea.length ≤ max s.memoryArea.length maxMemorySize := by
  cases fill with
  | none => exact ⟨Nat.le_refl _, Nat.le_max_left ..⟩
  | some f =>
    dsimp only [applyFill]
    split_ifs with hsize
    · exact ⟨Nat.le_refl _, Nat.le_max_left ..⟩
    · have hlen := memoryArea_overwrite_length s f.offset.toNat
        (List.replicate f.size.toNat f.fillByte)
      rw [List.length_replicate] at hlen
      rw [hlen]
      omega

theorem applyFill_tableObject (s : Store) (fill : Option Fill) (j : UInt8) :
    (s.applyFill fill).tableObject j = s.tableObject j := by
  unfold applyFill
  split
  · rfl
  · dsimp only
    split_ifs <;> rfl

/-! ## Load control -/

theorem reloadRuntimeTable_tableObject (s : Store) (i j : UInt8) :
    (s.reloadRuntimeTable i).tableObject j = s.tableObject j := by
  unfold reloadRuntimeTable
  split_ifs <;> rfl

theorem reloadRuntimeTable_memoryArea (s : Store) (i : UInt8) :
    (s.reloadRuntimeTable i).memoryArea = s.memoryArea := by
  unfold reloadRuntimeTable
  split_ifs <;> rfl

theorem setTableObject_memoryArea (s : Store) (i : UInt8) (t : TableObject) :
    (s.setTableObject i t).memoryArea = s.memoryArea := by
  unfold setTableObject
  split_ifs <;> rfl

theorem loadControl_none (h : s.tableObject i = none) (data : List UInt8) :
    s.loadControl i data = s := by
  rw [loadControl, h]

theorem loadControl_tableObject (h : s.tableObject i = some t) (data : List UInt8) (j : UInt8) :
    (s.loadControl i data).tableObject j =
      if j = i then some (t.handleLoadEvent data s.memoryArea.length).1
      else s.tableObject j := by
  rw [loadControl, h]
  dsimp only
  split_ifs with hloaded
  all_goals
    simp only [reloadRuntimeTable_tableObject, applyFill_tableObject,
      tableObject_setTableObject h, *, ↓reduceIte]

theorem loadControl_completes_memoryArea (h : s.tableObject i = some t)
    (hst : t.state = .loading) {data : List UInt8} (hevent : data.head? = some 2) :
    (s.loadControl i data).memoryArea = s.memoryArea := by
  rw [loadControl, h]
  dsimp only
  rw [TableObject.handleLoadEvent_completes hst hevent, if_pos rfl,
    reloadRuntimeTable_memoryArea]
  exact setTableObject_memoryArea s i _

theorem loadControl_length (s : Store) (i : UInt8) (data : List UInt8) :
    s.memoryArea.length ≤ (s.loadControl i data).memoryArea.length ∧
      (s.loadControl i data).memoryArea.length ≤ max s.memoryArea.length maxMemorySize := by
  unfold loadControl
  split
  · exact ⟨Nat.le_refl _, Nat.le_max_left ..⟩
  · next t _ =>
    have h := applyFill_length
      (s.setTableObject i (t.handleLoadEvent data s.memoryArea.length).1)
      (t.handleLoadEvent data s.memoryArea.length).2.2
    rw [setTableObject_memoryArea] at h
    dsimp only
    split_ifs
    · rw [reloadRuntimeTable_memoryArea]
      exact h
    · exact h

/-! ## Master reset -/

theorem masterReset_tableObject (s : Store) (eraseCode : UInt8) (j : UInt8) :
    (s.masterReset eraseCode).tableObject j = s.tableObject j ∨
      (s.masterReset eraseCode).tableObject j = some .new := by
  unfold masterReset resetLinkTables
  unfold tableObject
  split_ifs <;> first | exact .inl rfl | exact .inr rfl

theorem masterReset_fewer (s : Store) (eraseCode : UInt8) (hp : p .new = false) :
    ∀ j, ∀ r ∈ (s.masterReset eraseCode).segments p j, r ∈ s.segments p j := by
  intro j r hr
  rw [mem_segments] at hr ⊢
  obtain ⟨t, ht, hpt, hregion⟩ := hr
  rcases masterReset_tableObject s eraseCode j with hkept | hnew
  · exact ⟨t, hkept ▸ ht, hpt, hregion⟩
  · rw [hnew] at ht
    obtain rfl := Option.some.inj ht
    rw [hp] at hpt
    cases hpt

def wipes (eraseCode : UInt8) : Bool :=
  eraseCode = eraseFactoryReset ∨ eraseCode = eraseFactoryResetWithoutIa

theorem masterReset_memoryArea (s : Store) (eraseCode : UInt8) :
    (s.masterReset eraseCode).memoryArea = if wipes eraseCode then [] else s.memoryArea := by
  unfold masterReset wipes resetLinkTables
  by_cases hlinks : eraseCode = eraseResetLinks
  · subst hlinks
    rfl
  · rw [if_neg hlinks]
    by_cases hap : eraseCode = eraseResetAp ∨ eraseCode = eraseResetParam
    · rw [if_pos hap]
      rcases hap with rfl | rfl <;> rfl
    · rw [if_neg hap]
      split_ifs <;> simp_all

/-! ## The size of the memory -/

/-- The memory area never grows past its limit. -/
def Bounded (s : Store) : Prop := s.memoryArea.length ≤ maxMemorySize

theorem new_bounded : Bounded new := Nat.zero_le _

theorem apply_bounded (h : Bounded s) (event : StoreEvent) : Bounded (s.apply event) := by
  unfold Bounded at *
  cases event with
  | idle => exact h
  | written addr data =>
    dsimp only [apply]
    rw [writeToMemory_length]
    split_ifs <;> omega
  | loadControl i data =>
    have := (loadControl_length s i data).2
    dsimp only [apply]
    omega
  | masterReset eraseCode =>
    dsimp only [apply]
    rw [masterReset_memoryArea]
    split_ifs
    · exact Nat.zero_le _
    · exact h

end Store
end KnxRs.MemoryStore
