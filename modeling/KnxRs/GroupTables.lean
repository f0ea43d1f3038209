import KnxRs.CoreTypes
import Mathlib.Data.List.Basic

set_option autoImplicit false

/-!
# The tables of group communication

Group addresses by TSAP, group objects by TSAP, and group object descriptors, each
read from the octets a download has left.
-/
namespace KnxRs.GroupTables
open CoreTypes

def wordAt (data : List UInt8) (offset : Nat) : Option UInt16 :=
  if offset + 2 > data.length then none
  else some (be16 (data.getD offset 0) (data.getD (offset + 1) 0))

def entryCountOf (data : List UInt8) : UInt16 :=
  if data.length < 2 then 0 else be16 (data.getD 0 0) (data.getD 1 0)

/-- `start..count`. -/
def indices (start count : UInt16) : List UInt16 :=
  (List.range' start.toNat (count.toNat - start.toNat)).map UInt16.ofNat

theorem indices_mem {start count i : UInt16} (h : i ∈ indices start count) :
    start ≤ i ∧ i < count := by
  obtain ⟨n, hn, rfl⟩ := List.mem_map.mp h
  rw [List.mem_range'_1] at hn
  have hcount := count.toNat_lt
  rw [UInt16.le_iff_toNat_le, UInt16.lt_iff_toNat_lt, UInt16.toNat_ofNat',
    Nat.mod_eq_of_lt (by omega)]
  omega

/-- The table has an entry of `size` octets after its count. -/
def holdsEntry (size : Nat) (data : List UInt8) : Bool :=
  entryCountOf data ≠ 0 ∧ 2 + size ≤ data.length

theorem wordAt_none {data : List UInt8} {offset : Nat} (h : data.length < offset + 2) :
    wordAt data offset = none :=
  if_pos h

theorem wordAt_some {data : List UInt8} {offset : Nat} (h : offset + 2 ≤ data.length) :
    wordAt data offset = some (be16 (data.getD offset 0) (data.getD (offset + 1) 0)) :=
  if_neg (Nat.not_lt.mpr h)

theorem holdsEntry_false {size : Nat} {data : List UInt8} (h : holdsEntry size data = false) :
    entryCountOf data = 0 ∨ data.length < 2 + size := by
  have h := of_decide_eq_false h
  by_cases hcount : entryCountOf data = 0
  · exact .inl hcount
  · exact .inr (Nat.not_le.mp fun hlen => h ⟨hcount, hlen⟩)

theorem zero_mem_indices {count : UInt16} (h : count ≠ 0) : 0 ∈ indices 0 count := by
  refine List.mem_map.mpr ⟨0, List.mem_range'_1.mpr ⟨Nat.le_refl 0, ?_⟩, rfl⟩
  have : count.toNat ≠ 0 := fun hz => h (UInt16.toNat_inj.mp hz)
  have hzero : (0 : UInt16).toNat = 0 := rfl
  omega

/-! ## Address table -/

structure AddressTable where
  data : List UInt8
  deriving DecidableEq

namespace AddressTable

def new : AddressTable := ⟨[]⟩

def load (_ : AddressTable) (data : List UInt8) : AddressTable := ⟨data⟩

def entryCount (t : AddressTable) : UInt16 := entryCountOf t.data

def getGroupAddress (t : AddressTable) (tsap : UInt16) : Option UInt16 :=
  if tsap = 0 ∨ tsap > t.entryCount then none else wordAt t.data (tsap.toNat * 2)

def getTsap (t : AddressTable) (groupAddress : UInt16) : Option UInt16 :=
  ((List.range' 1 t.entryCount.toNat).map UInt16.ofNat).find?
    (fun i => t.getGroupAddress i = some groupAddress)

def contains (t : AddressTable) (groupAddress : UInt16) : Bool :=
  (t.getTsap groupAddress).isSome

/-- The table resolves nothing, in either direction. -/
structure Silent (t : AddressTable) : Prop where
  getGroupAddress : ∀ tsap, t.getGroupAddress tsap = none
  getTsap : ∀ groupAddress, t.getTsap groupAddress = none

theorem silent_iff (t : AddressTable) : t.Silent ↔ holdsEntry 2 t.data = false := by
  constructor
  · intro hsilent
    by_contra hholds
    rw [Bool.not_eq_false] at hholds
    obtain ⟨hcount, hlen⟩ := of_decide_eq_true hholds
    have hfirst : ¬ ((1 : UInt16) = 0 ∨ 1 > t.entryCount) := by
      rintro (h | h)
      · cases h
      · refine hcount (UInt16.toNat_inj.mp ?_)
        rw [gt_iff_lt, UInt16.lt_iff_toNat_lt] at h
        have hone : (1 : UInt16).toNat = 1 := rfl
        have hzero : (0 : UInt16).toNat = 0 := rfl
        have : t.entryCount.toNat = (entryCountOf t.data).toNat := rfl
        omega
    have hnone := hsilent.getGroupAddress 1
    rw [AddressTable.getGroupAddress, if_neg hfirst] at hnone
    rw [wordAt_some (show (1 : UInt16).toNat * 2 + 2 ≤ t.data.length from hlen)] at hnone
    cases hnone
  · intro h
    have none (tsap : UInt16) : t.getGroupAddress tsap = none := by
      unfold AddressTable.getGroupAddress
      split_ifs with hout
      · rfl
      · rw [not_or, gt_iff_lt, UInt16.lt_iff_toNat_lt] at hout
        have hpos : tsap.toNat ≠ 0 := fun hz => hout.1 (UInt16.toNat_inj.mp hz)
        rcases holdsEntry_false h with hcount | hlen
        · have : t.entryCount.toNat = 0 := congrArg UInt16.toNat hcount
          omega
        · exact wordAt_none (by omega)
    refine ⟨none, fun ga => ?_⟩
    refine List.find?_eq_none.mpr fun i _ => ?_
    rw [none]
    simp

end AddressTable

/-! ## Association table -/

def entrySize : Nat := 4
def tsapOffset : Nat := 2

structure AssociationTable where
  data : List UInt8
  deriving DecidableEq

namespace AssociationTable

def new : AssociationTable := ⟨[]⟩

def load (_ : AssociationTable) (data : List UInt8) : AssociationTable := ⟨data⟩

def entryCount (t : AssociationTable) : UInt16 := entryCountOf t.data

def getTsap (t : AssociationTable) (idx : UInt16) : Option UInt16 :=
  wordAt t.data (tsapOffset + idx.toNat * entrySize)

def getAsap (t : AssociationTable) (idx : UInt16) : Option UInt16 :=
  wordAt t.data (tsapOffset + idx.toNat * entrySize + tsapOffset)

def translateAsap (t : AssociationTable) (asap : UInt16) : Option UInt16 :=
  match (indices 0 t.entryCount).find? (fun i => t.getAsap i = some asap) with
  | some i => t.getTsap i
  | none => none

def nextAsap (t : AssociationTable) (tsap startIdx : UInt16) : Option (UInt16 × UInt16) :=
  match (indices startIdx t.entryCount).find? (fun i => t.getTsap i = some tsap) with
  | some i =>
    match t.getAsap i with
    | some asap => some (asap, i + 1)
    | none => none
  | none => none

/-- The loop of `asaps_for_tsap`, with as many rounds as there may be entries left. -/
def asapsFrom (t : AssociationTable) (tsap : UInt16) : (rounds : Nat) → UInt16 → List UInt16
  | 0, _ => []
  | rounds + 1, idx =>
    match t.nextAsap tsap idx with
    | some (asap, next) => asap :: asapsFrom t tsap rounds next
    | none => []

def asapsForTsap (t : AssociationTable) (tsap : UInt16) : List UInt16 :=
  t.asapsFrom tsap (t.entryCount.toNat + 1) 0

theorem nextAsap_lt {t : AssociationTable} {tsap startIdx asap next : UInt16}
    (h : t.nextAsap tsap startIdx = some (asap, next)) :
    startIdx < next ∧ next ≤ t.entryCount := by
  unfold nextAsap at h
  split at h
  · next i hi =>
    split at h
    · cases h
      obtain ⟨hle, hlt⟩ := indices_mem (List.mem_of_find?_eq_some hi)
      have hcount := t.entryCount.toNat_lt
      rw [UInt16.le_iff_toNat_le] at hle
      rw [UInt16.lt_iff_toNat_lt] at hlt
      have hnext : (i + 1).toNat = i.toNat + 1 := by
        rw [UInt16.toNat_add]
        have : (1 : UInt16).toNat = 1 := rfl
        omega
      rw [UInt16.lt_iff_toNat_lt, UInt16.le_iff_toNat_le, hnext]
      omega
    · cases h
  · cases h

/-- The table associates nothing, in either direction. -/
structure Silent (t : AssociationTable) : Prop where
  translateAsap : ∀ asap, t.translateAsap asap = none
  asapsForTsap : ∀ tsap, t.asapsForTsap tsap = []

theorem silent_iff (t : AssociationTable) : t.Silent ↔ holdsEntry entrySize t.data = false := by
  constructor
  · intro hsilent
    by_contra hholds
    rw [Bool.not_eq_false] at hholds
    obtain ⟨hcount, hlen⟩ := of_decide_eq_true hholds
    dsimp only [entrySize] at hlen
    have hasap : t.getAsap 0 = some (be16 (t.data.getD 4 0) (t.data.getD 5 0)) :=
      wordAt_some (show 4 + 2 ≤ t.data.length by omega)
    have hfound : ((indices 0 t.entryCount).find? fun i =>
        t.getAsap i = some (be16 (t.data.getD 4 0) (t.data.getD 5 0))) ≠ none := by
      rw [Ne, List.find?_eq_none]
      intro hnone
      exact hnone 0 (zero_mem_indices hcount) (decide_eq_true hasap)
    obtain ⟨i, hi⟩ := Option.ne_none_iff_exists'.mp hfound
    have htsap : t.getTsap i ≠ none := by
      have hsome : t.getAsap i = some (be16 (t.data.getD 4 0) (t.data.getD 5 0)) := by
        simpa using List.find?_some hi
      intro hnone
      unfold getAsap at hsome
      unfold getTsap at hnone
      by_cases hin : tsapOffset + i.toNat * entrySize + tsapOffset + 2 ≤ t.data.length
      · rw [wordAt_some (by omega)] at hnone
        cases hnone
      · rw [wordAt_none (by omega)] at hsome
        cases hsome
    have hnone := hsilent.translateAsap (be16 (t.data.getD 4 0) (t.data.getD 5 0))
    unfold translateAsap at hnone
    rw [hi] at hnone
    exact htsap hnone
  · intro h
    have none (idx : UInt16) (hidx : idx ∈ indices 0 t.entryCount) : t.getAsap idx = none := by
      rcases holdsEntry_false h with hcount | hlen
      · have hlt := (indices_mem hidx).2
        rw [UInt16.lt_iff_toNat_lt, show t.entryCount = 0 from hcount] at hlt
        exact absurd hlt (Nat.not_lt_zero _)
      · dsimp only [entrySize] at hlen
        exact wordAt_none (by dsimp only [tsapOffset]; omega)
    constructor
    · intro asap
      unfold translateAsap
      rw [List.find?_eq_none.mpr fun i hi => by rw [none i hi]; simp]
    · intro tsap
      unfold asapsForTsap asapsFrom nextAsap
      cases hfind : (indices 0 t.entryCount).find? fun i => t.getTsap i = some tsap with
      | none => rfl
      | some i =>
        dsimp only
        rw [none i (List.mem_of_find?_eq_some hfind)]

end AssociationTable

/-! ## Group object table -/

def flagCommEnable : UInt16 := (1 : UInt16) <<< 10
def flagReadEnable : UInt16 := (1 : UInt16) <<< 11
def flagWriteEnable : UInt16 := (1 : UInt16) <<< 12
def flagUpdateEnable : UInt16 := (1 : UInt16) <<< 15

structure GroupObjectDescriptor where
  raw : UInt16
  deriving DecidableEq

namespace GroupObjectDescriptor

def communicationEnable (d : GroupObjectDescriptor) : Bool := d.raw &&& flagCommEnable ≠ 0

def readEnable (d : GroupObjectDescriptor) : Bool := d.raw &&& flagReadEnable ≠ 0

def writeEnable (d : GroupObjectDescriptor) : Bool := d.raw &&& flagWriteEnable ≠ 0

def updateEnable (d : GroupObjectDescriptor) : Bool := d.raw &&& flagUpdateEnable ≠ 0

end GroupObjectDescriptor

structure GroupObjectTable where
  data : List UInt8
  deriving DecidableEq

namespace GroupObjectTable

def new : GroupObjectTable := ⟨[]⟩

def entryCount (t : GroupObjectTable) : UInt16 := entryCountOf t.data

def getDescriptor (t : GroupObjectTable) (asap : UInt16) : Option GroupObjectDescriptor :=
  if asap = 0 ∨ asap > t.entryCount then none
  else (wordAt t.data (asap.toNat * 2)).map GroupObjectDescriptor.mk

end GroupObjectTable
end KnxRs.GroupTables
