import KnxRs.GroupTables
import KnxRs.MemoryStore

set_option autoImplicit false

/-!
# The entries of the group tables

What a downloaded table lists, read off its octets in one pass: the group addresses in
the order of their TSAPs, and the associations. The searches by index, by address, by
TSAP and by ASAP are searches in these lists, and so inverse to each other.
-/
namespace KnxRs.GroupTables
open CoreTypes

theorem wordAt_drop (data : List UInt8) (k offset : Nat) :
    wordAt (data.drop k) offset = wordAt data (k + offset) := by
  unfold wordAt
  rw [List.length_drop]
  by_cases hin : k + offset + 2 ≤ data.length
  · rw [if_neg (by omega), if_neg (by omega)]
    simp only [List.getD_eq_getElem?_getD, List.getElem?_drop, Nat.add_assoc]
  · rw [if_pos (by omega), if_pos (by omega)]

theorem wordAt_cons (first second : UInt8) (rest : List UInt8) (offset : Nat) :
    wordAt (first :: second :: rest) (offset + 2) = wordAt rest offset := by
  rw [Nat.add_comm, ← wordAt_drop]
  rfl

theorem wordAt_zero (first second : UInt8) (rest : List UInt8) :
    wordAt (first :: second :: rest) 0 = some (be16 first second) := by
  rw [wordAt_some (by simp)]
  rfl

def words : (limit : Nat) → List UInt8 → List UInt16
  | limit + 1, first :: second :: rest => be16 first second :: words limit rest
  | _, _ => []

theorem words_getElem (limit : Nat) (octets : List UInt8) (i : Nat) :
    (words limit octets)[i]? = if i < limit then wordAt octets (2 * i) else none := by
  induction limit, octets using words.induct generalizing i with
  | case1 limit first second rest ih =>
    rw [words]
    cases i with
    | zero => rw [if_pos (Nat.succ_pos _), Nat.mul_zero, wordAt_zero]; rfl
    | succ i =>
      rw [List.getElem?_cons_succ, ih, Nat.mul_succ, wordAt_cons]
      exact if_congr Nat.succ_lt_succ_iff.symm rfl rfl
  | case2 limit octets hshort =>
    rw [words]
    · rw [List.getElem?_nil]
      split_ifs with hin
      · rcases octets with _ | ⟨a, _ | ⟨b, rest⟩⟩
        · rw [wordAt_none (by simp)]
        · rw [wordAt_none (by simp)]
        · obtain ⟨n, rfl⟩ := Nat.exists_eq_succ_of_ne_zero (Nat.ne_of_gt (Nat.zero_lt_of_lt hin))
          exact (hshort n a b rest rfl rfl).elim
      · rfl
    · exact hshort

/-- The elements two by two, an odd one at the end left out. -/
def pairUp {α : Type} : List α → List (α × α)
  | first :: second :: rest => (first, second) :: pairUp rest
  | _ => []

theorem pairUp_getElem {α : Type} (xs : List α) (i : Nat) :
    (pairUp xs)[i]? = xs[2 * i]?.bind (fun first => xs[2 * i + 1]?.map (first, ·)) := by
  induction xs using pairUp.induct generalizing i with
  | case1 first second rest ih =>
    rw [pairUp]
    cases i with
    | zero => rfl
    | succ i =>
      rw [List.getElem?_cons_succ, ih, Nat.mul_succ]
      rfl
  | case2 xs hshort =>
    rw [pairUp, List.getElem?_nil]
    · rcases xs with _ | ⟨first, _ | ⟨second, rest⟩⟩
      · rfl
      · cases i with
        | zero => rfl
        | succ i => rw [Nat.mul_succ]; rfl
      · exact (hshort first second rest rfl).elim
    · exact hshort

/-! ## Address table -/

namespace AddressTable

def addresses (t : AddressTable) : List UInt16 :=
  words t.entryCount.toNat (t.data.drop 2)

theorem addresses_getElem (t : AddressTable) (i : Nat) :
    t.addresses[i]? =
      if i < t.entryCount.toNat then wordAt t.data ((i + 1) * 2) else none := by
  rw [addresses, words_getElem, wordAt_drop, show 2 + 2 * i = (i + 1) * 2 by omega]

theorem getGroupAddress_some {t : AddressTable} {tsap ga : UInt16} :
    t.getGroupAddress tsap = some ga ↔ tsap ≠ 0 ∧ t.addresses[tsap.toNat - 1]? = some ga := by
  have hpos : tsap ≠ 0 ↔ tsap.toNat ≠ 0 := by rw [Ne, ← UInt16.toNat_inj]; rfl
  rw [getGroupAddress, addresses_getElem]
  by_cases hzero : tsap = 0
  · rw [if_pos (.inl hzero)]
    simp [hzero]
  · have hpos' := hpos.mp hzero
    rw [show (tsap.toNat - 1 + 1) * 2 = tsap.toNat * 2 by omega]
    by_cases hin : tsap.toNat ≤ t.entryCount.toNat
    · have hout : ¬ (tsap = 0 ∨ tsap > t.entryCount) := by
        rw [not_or, gt_iff_lt, UInt16.lt_iff_toNat_lt]
        exact ⟨hzero, Nat.not_lt.mpr hin⟩
      rw [if_neg hout, if_pos (by omega)]
      exact ⟨fun h => ⟨hzero, h⟩, fun h => h.2⟩
    · rw [if_pos (.inr (UInt16.lt_iff_toNat_lt.mpr (by omega))), if_neg (by omega)]
      simp

theorem getTsap_some {t : AddressTable} {tsap ga : UInt16} (h : t.getTsap ga = some tsap) :
    t.getGroupAddress tsap = some ga := by
  simpa using List.find?_some h

theorem getTsap_isSome {t : AddressTable} {tsap ga : UInt16}
    (h : t.getGroupAddress tsap = some ga) : (t.getTsap ga).isSome = true := by
  rw [getTsap, List.find?_isSome]
  refine ⟨tsap, ?_, decide_eq_true h⟩
  have hout : ¬ (tsap = 0 ∨ tsap > t.entryCount) := by
    intro hout
    rw [getGroupAddress, if_pos hout] at h
    cases h
  rw [not_or, gt_iff_lt, UInt16.lt_iff_toNat_lt] at hout
  have hpos : tsap.toNat ≠ 0 := fun hz => hout.1 (UInt16.toNat_inj.mp hz)
  refine List.mem_map.mpr ⟨tsap.toNat, List.mem_range'_1.mpr (by omega), UInt16.ofNat_toNat⟩

theorem getTsap_getGroupAddress {t : AddressTable} {tsap ga : UInt16}
    (hdistinct : t.addresses.Nodup) (h : t.getGroupAddress tsap = some ga) :
    t.getTsap ga = some tsap := by
  obtain ⟨found, hfound⟩ := Option.isSome_iff_exists.mp (getTsap_isSome h)
  obtain ⟨hpos, hentry⟩ := getGroupAddress_some.mp h
  obtain ⟨hfoundPos, hfoundEntry⟩ := getGroupAddress_some.mp (getTsap_some hfound)
  have hsame : found.toNat - 1 = tsap.toNat - 1 := by
    obtain ⟨hlt, _⟩ := List.getElem?_eq_some_iff.mp hfoundEntry
    exact (List.getElem?_inj hlt hdistinct).mp (hfoundEntry.trans hentry.symm)
  have hne : tsap.toNat ≠ 0 := fun hz => hpos (UInt16.toNat_inj.mp hz)
  have hfoundNe : found.toNat ≠ 0 := fun hz => hfoundPos (UInt16.toNat_inj.mp hz)
  rw [hfound, show found = tsap from UInt16.toNat_inj.mp (by omega)]

end AddressTable

/-! ## Association table -/

theorem indices_cons {start count : UInt16} (h : start < count) :
    indices start count = start :: indices (start + 1) count := by
  have hlt := UInt16.lt_iff_toNat_lt.mp h
  have hcount := count.toNat_lt
  have hone : (1 : UInt16).toNat = 1 := rfl
  have hsucc : (start + 1).toNat = start.toNat + 1 := by rw [UInt16.toNat_add]; omega
  rw [indices, indices, hsucc, show count.toNat - start.toNat =
    (count.toNat - (start.toNat + 1)) + 1 by omega, List.range'_succ, List.map_cons,
    UInt16.ofNat_toNat]

theorem indices_nil {start count : UInt16} (h : ¬ start < count) : indices start count = [] := by
  rw [UInt16.lt_iff_toNat_lt] at h
  rw [indices, show count.toNat - start.toNat = 0 by omega]
  rfl

namespace AssociationTable

def entries (t : AssociationTable) : List (UInt16 × UInt16) :=
  pairUp (words (2 * t.entryCount.toNat) (t.data.drop 2))

theorem entries_getElem (t : AssociationTable) (i : UInt16) :
    t.entries[i.toNat]? =
      if i < t.entryCount then (t.getTsap i).bind (fun tsap => (t.getAsap i).map (tsap, ·))
      else none := by
  rw [entries, pairUp_getElem, words_getElem, words_getElem, wordAt_drop, wordAt_drop]
  have htsap : 2 + 2 * (2 * i.toNat) = tsapOffset + i.toNat * entrySize := by
    rw [tsapOffset, entrySize]; omega
  have hasap : 2 + 2 * (2 * i.toNat + 1) = tsapOffset + i.toNat * entrySize + tsapOffset := by
    rw [tsapOffset, entrySize]; omega
  rw [htsap, hasap]
  by_cases hin : i < t.entryCount
  · have hlt := UInt16.lt_iff_toNat_lt.mp hin
    rw [if_pos (by omega), if_pos (by omega), if_pos hin]
    rfl
  · have hle := Nat.not_lt.mp fun hlt => hin (UInt16.lt_iff_toNat_lt.mpr hlt)
    rw [if_neg (by omega), if_neg hin]
    rfl

theorem entries_getElem_some {t : AssociationTable} {i tsap asap : UInt16} :
    t.entries[i.toNat]? = some (tsap, asap) ↔
      i < t.entryCount ∧ t.getTsap i = some tsap ∧ t.getAsap i = some asap := by
  rw [entries_getElem]
  by_cases hin : i < t.entryCount
  · rw [if_pos hin]
    cases t.getTsap i <;> cases t.getAsap i <;> simp [hin]
  · rw [if_neg hin]
    simp [hin]

theorem translateAsap_mem {t : AssociationTable} {asap tsap : UInt16}
    (h : t.translateAsap asap = some tsap) : (tsap, asap) ∈ t.entries := by
  unfold translateAsap at h
  split at h
  · next i hi =>
    have hasap : t.getAsap i = some asap := by simpa using List.find?_some hi
    have hin := (indices_mem (List.mem_of_find?_eq_some hi)).2
    exact List.mem_of_getElem? (entries_getElem_some.mpr ⟨hin, h, hasap⟩)
  · cases h

theorem nextAsap_done {t : AssociationTable} {tsap idx : UInt16} (h : ¬ idx < t.entryCount) :
    t.nextAsap tsap idx = none := by
  rw [nextAsap, indices_nil h]
  rfl

theorem nextAsap_step {t : AssociationTable} {tsap idx : UInt16} (h : idx < t.entryCount) :
    t.nextAsap tsap idx =
      if t.getTsap idx = some tsap then (t.getAsap idx).map (·, idx + 1)
      else t.nextAsap tsap (idx + 1) := by
  rw [nextAsap, indices_cons h, List.find?_cons]
  by_cases hfound : t.getTsap idx = some tsap
  · rw [decide_eq_true hfound, if_pos hfound]
    dsimp only
    cases t.getAsap idx <;> rfl
  · rw [decide_eq_false hfound, if_neg hfound]
    rfl

def asapsOf (tsap : UInt16) (entries : List (UInt16 × UInt16)) : List UInt16 :=
  (entries.filter (fun entry => entry.1 = tsap)).map Prod.snd

theorem asapsOf_cons (tsap : UInt16) (entry : UInt16 × UInt16)
    (rest : List (UInt16 × UInt16)) :
    asapsOf tsap (entry :: rest) =
      if entry.1 = tsap then entry.2 :: asapsOf tsap rest else asapsOf tsap rest := by
  unfold asapsOf
  rw [List.filter_cons]
  by_cases hfound : entry.1 = tsap
  · rw [if_pos (decide_eq_true hfound), if_pos hfound, List.map_cons]
  · rw [if_neg (by simpa using hfound), if_neg hfound]

theorem asapsOf_drop (t : AssociationTable) (tsap idx : UInt16) :
    asapsOf tsap (t.entries.drop idx.toNat) =
      match t.nextAsap tsap idx with
      | some (asap, next) => asap :: asapsOf tsap (t.entries.drop next.toNat)
      | none => [] := by
  induction hleft : t.entryCount.toNat - idx.toNat generalizing idx with
  | zero =>
    have hdone : ¬ idx < t.entryCount := by rw [UInt16.lt_iff_toNat_lt]; omega
    have hnone : t.entries[idx.toNat]? = none := by rw [entries_getElem, if_neg hdone]
    rw [nextAsap_done hdone, List.drop_eq_nil_of_le (List.getElem?_eq_none_iff.mp hnone)]
    rfl
  | succ left ih =>
    have hlt : idx < t.entryCount := by rw [UInt16.lt_iff_toNat_lt]; omega
    have hcount := t.entryCount.toNat_lt
    have hone : (1 : UInt16).toNat = 1 := rfl
    have hsucc : (idx + 1).toNat = idx.toNat + 1 := by rw [UInt16.toNat_add]; omega
    rw [nextAsap_step hlt]
    cases hentry : t.entries[idx.toNat]? with
    | some entry =>
      obtain ⟨_, htsap, hasap⟩ := entries_getElem_some.mp hentry
      obtain ⟨hpos, hvalue⟩ := List.getElem?_eq_some_iff.mp hentry
      rw [List.drop_eq_getElem_cons hpos, hvalue, asapsOf_cons, ← hsucc, htsap, hasap]
      by_cases hfound : entry.1 = tsap
      · rw [if_pos hfound, if_pos (congrArg some hfound)]
        rfl
      · rw [if_neg hfound, if_neg (fun h => hfound (Option.some.inj h))]
        exact ih (idx + 1) (by omega)
    | none =>
      -- the octets end within this entry, so every later one is missing too
      have hlen := List.getElem?_eq_none_iff.mp hentry
      have hrest := ih (idx + 1) (by omega)
      rw [List.drop_eq_nil_of_le (by omega)] at hrest
      rw [List.drop_eq_nil_of_le hlen]
      split_ifs with hfound
      · cases hasap : t.getAsap idx with
        | none => rfl
        | some asap =>
          rw [entries_getElem_some.mpr ⟨hlt, hfound, hasap⟩] at hentry
          cases hentry
      · exact hrest

theorem asapsFrom_entries {t : AssociationTable} {tsap idx : UInt16} {rounds : Nat}
    (h : t.entryCount.toNat < idx.toNat + rounds) :
    t.asapsFrom tsap rounds idx = asapsOf tsap (t.entries.drop idx.toNat) := by
  induction rounds generalizing idx with
  | zero =>
    have hdone : ¬ idx < t.entryCount := by rw [UInt16.lt_iff_toNat_lt]; omega
    rw [asapsOf_drop, nextAsap_done hdone]
    rfl
  | succ rounds ih =>
    rw [asapsOf_drop, asapsFrom]
    cases hnext : t.nextAsap tsap idx with
    | none => rfl
    | some found =>
      obtain ⟨hlt, _⟩ := nextAsap_lt hnext
      rw [UInt16.lt_iff_toNat_lt] at hlt
      exact congrArg (found.1 :: ·) (ih (by omega))

theorem asapsForTsap_entries (t : AssociationTable) (tsap : UInt16) :
    t.asapsForTsap tsap = asapsOf tsap t.entries := by
  rw [asapsForTsap, asapsFrom_entries]
  · rfl
  · exact Nat.lt_add_left _ (Nat.lt_succ_self _)

theorem asapsForTsap_mem {t : AssociationTable} {tsap asap : UInt16} :
    asap ∈ t.asapsForTsap tsap ↔ (tsap, asap) ∈ t.entries := by
  rw [asapsForTsap_entries, asapsOf]
  simp [List.mem_map, List.mem_filter]

end AssociationTable

/-! ## Sending and receiving -/

open MemoryStore

/-- What an object sends is sent to an address of the table, whose TSAP gives the object
back, and an address gives the objects associated with its TSAP, in the order of the table. -/
theorem resolved_accepted (s : Store) (hdistinct : s.addressTable.addresses.Nodup) :
    (∀ asap ga, s.resolveGroupAddress asap = some ga →
      s.addressTable.contains ga = true ∧
        ∃ tsap, s.addressTable.getTsap ga = some tsap ∧
          asap ∈ s.associationTable.asapsForTsap tsap) ∧
    ∀ tsap, s.associationTable.asapsForTsap tsap =
      (s.associationTable.entries.filter (fun entry => entry.1 = tsap)).map Prod.snd := by
  refine ⟨fun asap ga h => ?_, fun tsap => AssociationTable.asapsForTsap_entries _ tsap⟩
  obtain ⟨tsap, htranslated, hga⟩ := Option.bind_eq_some_iff.mp h
  have htsap := AddressTable.getTsap_getGroupAddress hdistinct hga
  refine ⟨AddressTable.getTsap_isSome hga, tsap, htsap, ?_⟩
  exact AssociationTable.asapsForTsap_mem.mpr (AssociationTable.translateAsap_mem htranslated)

def associated : Store :=
  { Store.new with
    addressTable := ⟨[0, 2, 8, 1, 8, 2]⟩
    associationTable := ⟨[0, 1, 0, 2, 0, 5]⟩ }

theorem associated_accepted :
    associated.addressTable.contains 0x0802 = true ∧
      ∃ tsap, associated.addressTable.getTsap 0x0802 = some tsap ∧
        5 ∈ associated.associationTable.asapsForTsap tsap :=
  (resolved_accepted associated (by decide)).1 5 0x0802 (by decide)

end KnxRs.GroupTables
