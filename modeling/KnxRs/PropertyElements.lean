import KnxRs.Properties
import KnxRs.Runs

set_option autoImplicit false

/-!
# Elements of a property

How many elements a read finds and a write stores, in closed form, and what any sequence
of writes leaves in a property.
-/
namespace KnxRs.Octets

variable {β : Type}

theorem slice_append (xs : List β) (start m n : Nat) :
    slice xs start m ++ slice xs (start + m) n = slice xs start (m + n) := by
  rw [slice, slice, slice, ← List.drop_drop, ← List.take_add]

end KnxRs.Octets

namespace KnxRs.Properties.DataProperty
open Octets Runs

/-! ## The two loops -/

theorem ofNat_succ (n : Nat) : UInt8.ofNat n + 1 = UInt8.ofNat (n + 1) := by
  apply UInt8.toNat_inj.mp
  rw [UInt8.toNat_add, UInt8.toNat_ofNat', UInt8.toNat_ofNat']
  have hone : (1 : UInt8).toNat = 1 := rfl
  omega

theorem lt_div {data : List UInt8} {size idx : Nat} (hsize : 0 < size) :
    idx < data.length / size ↔ idx * size + size ≤ data.length := by
  rw [Nat.lt_iff_add_one_le, Nat.le_div_iff_mul_le hsize, Nat.add_mul, Nat.one_mul]

/-- A read finds as many elements as there are from the start on, up to the number asked for. -/
theorem readFrom_eq (data : List UInt8) {size : Nat} (hsize : 0 < size) (remaining idx : Nat) :
    readFrom data size remaining idx =
      (UInt8.ofNat (min remaining (data.length / size - idx)),
        slice data (idx * size) (min remaining (data.length / size - idx) * size)) := by
  induction remaining generalizing idx with
  | zero =>
    rw [Nat.zero_min, Nat.zero_mul]
    rfl
  | succ n ih =>
    unfold readFrom
    dsimp only
    by_cases hend : idx ≥ data.length / size
    · rw [if_pos hend, show data.length / size - idx = 0 by omega, Nat.min_zero, Nat.zero_mul]
      rfl
    · have hfit := (lt_div hsize).mp (Nat.not_le.mp hend)
      have hcount : min (n + 1) (data.length / size - idx) =
          min n (data.length / size - (idx + 1)) + 1 := by omega
      rw [if_neg hend, if_pos hfit, ih, hcount, ofNat_succ]
      dsimp only
      rw [Nat.add_mul idx, Nat.one_mul, slice_append, Nat.add_mul _ 1, Nat.one_mul, Nat.add_comm size]

def storable (given capacity startIdx count : Nat) : Nat := min count (min given (capacity - startIdx))

theorem storable_none {given capacity startIdx count : Nat}
    (h : count = 0 ∨ given = 0 ∨ capacity ≤ startIdx) : storable given capacity startIdx count = 0 := by
  unfold storable
  omega

theorem writeAt_elements {data piece : List UInt8} {size idx : Nat} (hsize : 0 < size)
    (hpiece : piece.length = size) :
    (writeAt data (idx * size) piece 0).length / size = max (data.length / size) (idx + 1) := by
  have hmul : idx * size + size = (idx + 1) * size := by rw [Nat.add_mul, Nat.one_mul]
  rw [writeAt_length, hpiece, hmul]
  rcases Nat.le_total data.length ((idx + 1) * size) with hle | hle
  · rw [Nat.max_eq_right hle, Nat.mul_div_cancel _ hsize, Nat.max_eq_right]
    exact Nat.div_le_of_le_mul (by rw [Nat.mul_comm]; exact hle)
  · rw [Nat.max_eq_left hle, Nat.max_eq_left]
    exact (Nat.le_div_iff_mul_le hsize).mpr hle

theorem storable_succ {given room place most n : Nat} (hgiven : 0 < given)
    (hroom : place < max room most) :
    storable (given - 1) (max (max room (place + 1)) most) (place + 1) n + 1 =
      storable given (max room most) place (n + 1) := by
  unfold storable
  omega

theorem writeFrom_eq (input : List UInt8) (maxElements : Nat) {size : Nat} (hsize : 0 < size)
    (startIdx remaining i : Nat) (data : List UInt8) :
    writeFrom input maxElements size startIdx remaining i data =
      let n := storable (input.length / size - i) (max (data.length / size) maxElements)
        (startIdx + i) remaining
      (UInt8.ofNat n, if n = 0 then data
        else writeAt data ((startIdx + i) * size) (slice input (i * size) (n * size)) 0) := by
  induction remaining generalizing i data with
  | zero =>
    rw [storable_none (.inl rfl)]
    rfl
  | succ n ih =>
    unfold writeFrom
    dsimp only
    by_cases hin : i * size + size > input.length
    · have hgiven : ¬i < input.length / size := fun h => by
        have := (lt_div hsize).mp h
        omega
      rw [if_pos hin, storable_none (.inr (.inl (by omega)))]
      rfl
    · have hgiven : i < input.length / size := (lt_div hsize).mpr (by omega)
      have hpiece : (slice input (i * size) size).length = size := slice_length (by omega)
      rw [if_neg hin]
      by_cases hend : (startIdx + i) * size + size > data.length ∧ startIdx + i ≥ maxElements
      · have hfull : ¬startIdx + i < data.length / size := fun h => by
          have := (lt_div hsize).mp h
          omega
        rw [if_pos hend, storable_none (.inr (.inr (by omega)))]
        rfl
      · have hroom : startIdx + i < max (data.length / size) maxElements := by
          by_cases hmax : startIdx + i ≥ maxElements
          · have := (@lt_div data size (startIdx + i) hsize).mpr (by
              by_contra hlong
              exact hend ⟨by omega, hmax⟩)
            omega
          · omega
        -- the property after this round
        have hfirst : overwrite (grow data ((startIdx + i) * size + size) 0) ((startIdx + i) * size)
            (slice input (i * size) size) =
              writeAt data ((startIdx + i) * size) (slice input (i * size) size) 0 := by
          rw [writeAt, hpiece]
        have hcount : storable (input.length / size - (i + 1))
            (max (max (data.length / size) (startIdx + i + 1)) maxElements) (startIdx + i + 1) n + 1 =
              storable (input.length / size - i) (max (data.length / size) maxElements)
                (startIdx + i) (n + 1) :=
          storable_succ (Nat.sub_pos_of_lt hgiven) hroom
        rw [if_neg hend, hfirst, ih, writeAt_elements hsize hpiece]
        dsimp only
        rw [← Nat.add_assoc, ofNat_succ, hcount, ← hcount, if_neg (Nat.succ_ne_zero _)]
        generalize storable (input.length / size - (i + 1))
          (max (max (data.length / size) (startIdx + i + 1)) maxElements) (startIdx + i + 1) n = k
        refine Prod.ext rfl ?_
        dsimp only
        split_ifs with hk
        · rw [hk, Nat.zero_add, Nat.one_mul]
        · have hnext : (startIdx + i + 1) * size =
              (startIdx + i) * size + (slice input (i * size) size).length := by
            rw [hpiece, Nat.add_mul _ 1, Nat.one_mul]
          rw [hnext, writeAt_append, Nat.add_mul i, Nat.one_mul, slice_append, Nat.add_mul k,
            Nat.one_mul, Nat.add_comm size]

/-! ## Reads and writes -/

def elementSize (p : DataProperty) : Nat := p.dataType.size.toNat

def elements (p : DataProperty) : Nat := p.data.length / p.elementSize

/-- The place of the element with a number that counts from 1; 0 is taken for 1. -/
def place (start : UInt16) : Nat := start.toNat - 1

def readable (p : DataProperty) (start : UInt16) (count : UInt8) : Nat :=
  min count.toNat (p.elements - place start)

def writable (p : DataProperty) (start : UInt16) (count : UInt8) (data : List UInt8) : Nat :=
  storable (data.length / p.elementSize) (max p.elements p.maxElements.toNat) (place start)
    count.toNat

variable {p p₀ : DataProperty} {start : UInt16} {count : UInt8} {data : List UInt8}

theorem read_eq (hsize : 0 < p.elementSize) (start : UInt16) (count : UInt8) :
    p.read start count = (UInt8.ofNat (p.readable start count),
      slice p.data (place start * p.elementSize) (p.readable start count * p.elementSize)) := by
  have hzero : ¬p.dataType.size.toNat = 0 := Nat.pos_iff_ne_zero.mp hsize
  unfold read
  dsimp only
  rw [if_neg hzero]
  exact readFrom_eq p.data hsize count.toNat (place start)

theorem write_eq (henabled : p.writeEnable = true) (hsize : 0 < p.elementSize) (start : UInt16)
    (count : UInt8) (data : List UInt8) :
    p.write start count data = (UInt8.ofNat (p.writable start count data),
      { p with data := if p.writable start count data = 0 then p.data
               else writeAt p.data (place start * p.elementSize)
                 (data.take (p.writable start count data * p.elementSize)) 0 }) := by
  have hzero : ¬p.dataType.size.toNat = 0 := Nat.pos_iff_ne_zero.mp hsize
  have hloop := writeFrom_eq data p.maxElements.toNat (show 0 < p.dataType.size.toNat from hsize)
    (start.toNat - 1) count.toNat 0 p.data
  unfold write
  dsimp only
  rw [if_neg (by rw [henabled]; decide), if_neg hzero, hloop]
  dsimp only
  rw [Nat.sub_zero, Nat.add_zero, Nat.zero_mul]
  rfl

/-! ## What a write leaves -/

def element (p : DataProperty) (j : Nat) : List UInt8 := slice p.data (j * p.elementSize) p.elementSize

/-- A write has stored the elements that it counts, and only these, has filled up what it
skipped with zeros behind the octets that were there, and reads back as it was sent. -/
structure WriteKept (p : DataProperty) (start : UInt16) (count : UInt8) (data : List UInt8)
    (n : UInt8) (p' : DataProperty) : Prop where
  counted : n.toNat ≤ count.toNat ∧ n.toNat * p.elementSize ≤ data.length
  stored : ∀ i < n.toNat, p'.element (place start + i) =
    slice data (i * p.elementSize) p.elementSize
  readBack : p'.read start n = (n, data.take (n.toNat * p.elementSize))
  others : ∀ j < p.elements, j < place start ∨ place start + n.toNat ≤ j →
    p'.element j = p.element j
  skipped : ∀ j, p.elements ≤ j → j < place start → 0 < n.toNat →
    p'.element j = p.element j ++ List.replicate (p.elementSize - (p.element j).length) 0
  grown : 0 < n.toNat → p'.data.length =
    max p.data.length ((place start + n.toNat) * p.elementSize)
  nothing : n = 0 → p' = p
  rest : p' = { p with data := p'.data }

/-- A read gives no more elements than were asked for or are there, and their octets. -/
structure ReadSound (p : DataProperty) (start : UInt16) (count n : UInt8) (octets : List UInt8) :
    Prop where
  asked : n.toNat ≤ count.toNat
  present : n.toNat ≤ p.elements - place start
  agrees : octets.length = n.toNat * p.elementSize
  octets : ∀ i < n.toNat, slice octets (i * p.elementSize) p.elementSize =
    p.element (place start + i)

theorem readable_le (p : DataProperty) (start : UInt16) (count : UInt8) :
    (UInt8.ofNat (p.readable start count)).toNat = p.readable start count := by
  have hle : p.readable start count ≤ count.toNat := Nat.min_le_left _ _
  rw [UInt8.toNat_ofNat', Nat.mod_eq_of_lt (Nat.lt_of_le_of_lt hle count.toNat_lt)]

theorem writable_le (p : DataProperty) (start : UInt16) (count : UInt8) (data : List UInt8) :
    (UInt8.ofNat (p.writable start count data)).toNat = p.writable start count data := by
  have hle : p.writable start count data ≤ count.toNat := Nat.min_le_left _ _
  rw [UInt8.toNat_ofNat', Nat.mod_eq_of_lt (Nat.lt_of_le_of_lt hle count.toNat_lt)]

theorem elements_fit {n : Nat} (h : n ≤ p.elements) : n * p.elementSize ≤ p.data.length :=
  Nat.le_trans (Nat.mul_le_mul_right _ h) (Nat.div_mul_le_self _ _)

theorem read_sound (hsize : 0 < p.elementSize) (start : UInt16) (count : UInt8) :
    ReadSound p start count (p.read start count).1 (p.read start count).2 := by
  have hn := readable_le p start count
  have hfit : (place start * p.elementSize) + p.readable start count * p.elementSize ≤
      p.data.length ∨ p.readable start count = 0 := by
    by_cases hzero : p.readable start count = 0
    · exact .inr hzero
    · refine .inl ?_
      rw [← Nat.add_mul]
      refine elements_fit ?_
      unfold readable at hzero ⊢
      omega
  rw [read_eq hsize]
  refine ⟨?_, ?_, ?_, ?_⟩
  · rw [hn]
    exact Nat.min_le_left _ _
  · rw [hn]
    exact Nat.min_le_right _ _
  · rw [hn]
    rcases hfit with hfit | hzero
    · exact slice_length hfit
    · rw [hzero, Nat.zero_mul]
      rfl
  · rw [hn]
    intro i hi
    have hfit := hfit.resolve_right (by omega)
    have hpiece : i * p.elementSize + p.elementSize ≤ p.readable start count * p.elementSize := by
      rw [← Nat.succ_mul]
      exact Nat.mul_le_mul_right _ hi
    refine slice_eq_of ?_ ?_ fun k hk => ?_
    · rw [slice_length hfit]
      exact hpiece
    · refine slice_length ?_
      rw [Nat.add_mul]
      omega
    · rw [slice_getElem? (by omega), element, slice_getElem? hk, Nat.add_mul, Nat.add_assoc]

theorem writable_fits (hsize : 0 < p.elementSize) (start : UInt16) (count : UInt8)
    (data : List UInt8) : p.writable start count data * p.elementSize ≤ data.length := by
  have hle : p.writable start count data ≤ data.length / p.elementSize :=
    Nat.le_trans (Nat.min_le_right _ _) (Nat.min_le_left _ _)
  exact (Nat.le_div_iff_mul_le hsize).mp hle

def written (p : DataProperty) (start : UInt16) (octets : List UInt8) : DataProperty :=
  { p with data := writeAt p.data (place start * p.elementSize) octets 0 }

@[simp] theorem written_elementSize (p : DataProperty) (start : UInt16) (octets : List UInt8) :
    (p.written start octets).elementSize = p.elementSize := rfl

theorem written_octet (p : DataProperty) (start : UInt16) (octets : List UInt8) (k : Nat) :
    (p.written start octets).data[k]? =
      octetAfter p.data (place start * p.elementSize) octets 0 k :=
  writeAt_getElem? _ _ _ _ _

theorem written_length (p : DataProperty) (start : UInt16) (octets : List UInt8) :
    (p.written start octets).data.length =
      max p.data.length (place start * p.elementSize + octets.length) :=
  writeAt_length _ _ _ _

section
variable {octets : List UInt8} {n : Nat}

theorem written_stored (hlen : octets.length = n * p.elementSize) {i : Nat} (hi : i < n) :
    (p.written start octets).element (place start + i) =
      slice octets (i * p.elementSize) p.elementSize := by
  have hpiece : i * p.elementSize + p.elementSize ≤ n * p.elementSize := by
    rw [← Nat.succ_mul]
    exact Nat.mul_le_mul_right _ hi
  refine slice_eq_of ?_ ?_ fun k hk => ?_
  · rw [written_length, written_elementSize, Nat.add_mul]
    omega
  · exact slice_length (by omega)
  · rw [written_elementSize] at hk ⊢
    rw [written_octet, slice_getElem? hk, octetAfter, if_pos (by rw [Nat.add_mul]; omega)]
    congr 1
    rw [Nat.add_mul]
    omega

theorem elements_readBack (hsize : 0 < p.elementSize) (hlen : octets.length = n * p.elementSize)
    (hn : n ≤ 255) :
    (p.written start octets).read start (UInt8.ofNat n) = (UInt8.ofNat n, octets) := by
  have hcount : (UInt8.ofNat n).toNat = n := by
    rw [UInt8.toNat_ofNat', Nat.mod_eq_of_lt (by omega)]
  have hend : (place start + n) * p.elementSize ≤ (p.written start octets).data.length := by
    rw [written_length, Nat.add_mul]
    omega
  have hthere : place start + n ≤ (p.written start octets).elements :=
    (Nat.le_div_iff_mul_le hsize).mpr hend
  have hreadable : (p.written start octets).readable start (UInt8.ofNat n) = n := by
    unfold readable
    omega
  rw [read_eq (by rw [written_elementSize]; exact hsize), hreadable, written_elementSize]
  refine Prod.ext rfl (slice_eq_of ?_ hlen fun k hk => ?_)
  · rw [← Nat.add_mul]
    exact hend
  · rw [written_octet, octetAfter, if_pos (by omega), Nat.add_sub_cancel_left]

theorem written_others (hlen : octets.length = n * p.elementSize) {j : Nat}
    (hj : j < p.elements) (hout : j < place start ∨ place start + n ≤ j) :
    (p.written start octets).element j = p.element j := by
  have hfit : j * p.elementSize + p.elementSize ≤ p.data.length := by
    rw [← Nat.succ_mul]
    exact elements_fit hj
  have hplace : j * p.elementSize + p.elementSize ≤ place start * p.elementSize ∨
      place start * p.elementSize + octets.length ≤ j * p.elementSize := by
    rcases hout with hout | hout
    · refine .inl ?_
      rw [← Nat.succ_mul]
      exact Nat.mul_le_mul_right _ hout
    · refine .inr ?_
      rw [hlen, ← Nat.add_mul]
      exact Nat.mul_le_mul_right _ hout
  refine slice_eq_of ?_ (slice_length hfit) fun k hk => ?_
  · rw [written_length, written_elementSize]
    omega
  · rw [written_elementSize] at hk ⊢
    rw [written_octet, octetAfter, if_neg (by omega), if_pos (by omega), element,
      slice_getElem? hk]

theorem written_skipped (hlen : octets.length = n * p.elementSize) (hn : 0 < n) {j : Nat}
    (hj : j < place start) :
    (p.written start octets).element j =
      p.element j ++ List.replicate (p.elementSize - (p.element j).length) 0 := by
  have hplace : j * p.elementSize + p.elementSize ≤ place start * p.elementSize := by
    rw [← Nat.succ_mul]
    exact Nat.mul_le_mul_right _ hj
  have hshort : (p.element j).length = min p.elementSize (p.data.length - j * p.elementSize) := by
    rw [element, slice, List.length_take, List.length_drop]
  have hroom : 0 < octets.length ∨ p.elementSize = 0 := by
    rcases Nat.eq_zero_or_pos p.elementSize with hzero | hpos
    · exact .inr hzero
    · refine .inl ?_
      rw [hlen]
      exact Nat.mul_pos hn hpos
  refine slice_eq_of ?_ ?_ fun k hk => ?_
  · rw [written_length, written_elementSize]
    omega
  · rw [List.length_append, List.length_replicate, written_elementSize]
    omega
  · rw [written_elementSize] at hk ⊢
    rw [written_octet, octetAfter, if_neg (by omega)]
    by_cases hold : j * p.elementSize + k < p.data.length
    · rw [if_pos hold, List.getElem?_append_left (by omega), element, slice_getElem? hk]
    · rw [if_neg hold, if_pos (by omega), List.getElem?_append_right (by omega),
        List.getElem?_replicate, if_pos (by omega)]

end

theorem write_kept (henabled : p.writeEnable = true) (hsize : 0 < p.elementSize) (start : UInt16)
    (count : UInt8) (data : List UInt8) :
    WriteKept p start count data (p.write start count data).1 (p.write start count data).2 := by
  have hn := writable_le p start count data
  have hcount : p.writable start count data ≤ count.toNat := Nat.min_le_left _ _
  have hdata := writable_fits hsize start count data
  rw [write_eq henabled hsize]
  by_cases hzero : p.writable start count data = 0
  · rw [if_pos hzero, hzero]
    dsimp only
    have hnone : (UInt8.ofNat 0).toNat = 0 := rfl
    refine ⟨⟨Nat.zero_le _, ?_⟩, ?_, ?_, fun _ _ _ => rfl, ?_, ?_, fun _ => rfl, rfl⟩
    · rw [hnone, Nat.zero_mul]
      exact Nat.zero_le _
    · intro i hi
      rw [hnone] at hi
      exact absurd hi (Nat.not_lt_zero i)
    · rw [read_eq hsize, readable, hnone, Nat.zero_min, Nat.zero_mul]
      rfl
    · intro j _ _ hpos
      rw [hnone] at hpos
      exact absurd hpos (Nat.lt_irrefl 0)
    · intro hpos
      rw [hnone] at hpos
      exact absurd hpos (Nat.lt_irrefl 0)
  · have hlen : (data.take (p.writable start count data * p.elementSize)).length =
        p.writable start count data * p.elementSize := by
      rw [List.length_take, Nat.min_eq_left hdata]
    rw [if_neg hzero]
    refine ⟨?_, ?_, ?_, ?_, ?_, ?_, ?_, rfl⟩
    · rw [hn]
      exact ⟨hcount, hdata⟩
    · rw [hn]
      intro i hi
      refine (written_stored hlen hi).trans ?_
      have hpiece : i * p.elementSize + p.elementSize ≤
          p.writable start count data * p.elementSize := by
        rw [← Nat.succ_mul]
        exact Nat.mul_le_mul_right _ hi
      rw [slice, slice, List.drop_take, List.take_take, Nat.min_eq_left (by omega)]
    · rw [hn]
      exact elements_readBack hsize hlen (Nat.le_trans hcount (Nat.le_of_lt_succ count.toNat_lt))
    · rw [hn]
      exact fun j hj hout => written_others hlen hj hout
    · intro j _ hj _
      exact written_skipped hlen (Nat.pos_of_ne_zero hzero) hj
    · rw [hn]
      intro _
      dsimp only
      rw [writeAt_length, hlen, Nat.add_mul]
    · intro hnone
      have := congrArg UInt8.toNat hnone
      rw [hn] at this
      exact absurd this hzero

theorem write_length (henabled : p.writeEnable = true) (hsize : 0 < p.elementSize) (start : UInt16)
    (count : UInt8) (data : List UInt8) :
    (p.write start count data).2.data.length ≤
      max p.data.length (p.maxElements.toNat * p.elementSize) := by
  rw [write_eq henabled hsize]
  dsimp only
  split_ifs with hzero
  · exact Nat.le_max_left _ _
  · have hfits := writable_fits hsize start count data (p := p)
    have hroom : place start + p.writable start count data ≤
        max p.elements p.maxElements.toNat := by
      unfold writable storable at hzero ⊢
      generalize data.length / p.elementSize = given at hzero ⊢
      omega
    have hend : (place start + p.writable start count data) * p.elementSize ≤
        max p.data.length (p.maxElements.toNat * p.elementSize) := by
      rcases Nat.le_total p.elements p.maxElements.toNat with hle | hle
      · rw [Nat.max_eq_right hle] at hroom
        exact Nat.le_trans (Nat.mul_le_mul_right _ hroom) (Nat.le_max_right _ _)
      · rw [Nat.max_eq_left hle] at hroom
        exact Nat.le_trans (elements_fit hroom) (Nat.le_max_left _ _)
    rw [writeAt_length, List.length_take, Nat.min_eq_left hfits, ← Nat.add_mul]
    exact Nat.max_le.mpr ⟨Nat.le_max_left _ _, hend⟩

/-! ## Any sequence of writes -/

structure Write where
  start : UInt16
  count : UInt8
  data : List UInt8

def apply (p : DataProperty) (w : Write) : DataProperty := (p.write w.start w.count w.data).2

/-- What no write changes, and how long the property can be. -/
structure Within (p₀ p : DataProperty) : Prop where
  rest : p = { p₀ with data := p.data }
  length : p.data.length ≤ max p₀.data.length (p₀.maxElements.toNat * p₀.elementSize)

theorem within_apply (henabled : p₀.writeEnable = true) (hsize : 0 < p₀.elementSize)
    (h : Within p₀ p) (w : Write) : Within p₀ (p.apply w) := by
  have henabled' : p.writeEnable = true := by
    rw [h.rest]
    exact henabled
  have hsame : p.elementSize = p₀.elementSize := by
    rw [h.rest]
    rfl
  have hmax : p.maxElements = p₀.maxElements := by
    rw [h.rest]
  have hsize' : 0 < p.elementSize := by
    rw [hsame]
    exact hsize
  have hkept := (write_kept henabled' hsize' w.start w.count w.data).rest
  have hlength := write_length henabled' hsize' w.start w.count w.data
  have hbound := h.length
  rw [hmax, hsame] at hlength
  refine ⟨?_, ?_⟩
  · rw [show p.apply w = { p with data := (p.apply w).data } from hkept, h.rest]
  · unfold apply
    omega

/-- Every write of a sequence stores what it reports and nothing else, no sequence makes the
property longer than its elements or than it was, and every read gives the elements there. -/
theorem writes_sound (p₀ : DataProperty) (henabled : p₀.writeEnable = true)
    (hsize : 0 < p₀.elementSize) (tr : List (Transition DataProperty Write)) (p : DataProperty)
    (h : Run (fun p w p' => p.apply w = p') p₀ tr p) :
    (∀ x ∈ tr, WriteKept x.source x.event.start x.event.count x.event.data
      (x.source.write x.event.start x.event.count x.event.data).1 x.target) ∧
    Within p₀ p ∧
    ∀ start count, ReadSound p start count (p.read start count).1 (p.read start count).2 := by
  have hfixed : ∀ q, Within p₀ q → q.writeEnable = true ∧ 0 < q.elementSize := fun q hq => by
    rw [hq.rest]
    exact ⟨henabled, hsize⟩
  have hstart : Within p₀ p₀ := ⟨rfl, Nat.le_max_left _ _⟩
  have hkeep : ∀ x : Transition DataProperty Write, Within p₀ x.source → True →
      x.source.apply x.event = x.target → Within p₀ x.target := fun x hx _ hstep => by
    rw [← hstep]
    exact within_apply henabled hsize hx x.event
  refine ⟨?_, ?_, ?_⟩
  · refine h.always (fun _ => True) hstart (fun _ _ => trivial) hkeep fun x hx _ hstep => ?_
    obtain ⟨henabled', hsize'⟩ := hfixed _ hx
    rw [← hstep]
    exact write_kept henabled' hsize' _ _ _
  · exact h.invariant (fun _ => True) hstart (fun _ _ => trivial) hkeep
  · have hend := h.invariant (fun _ => True) hstart (fun _ _ => trivial) hkeep
    exact fun start count => read_sound (hfixed p hend).2 start count

/-- Two writes to a property of three two-octet elements, of which one and a half are there. -/
def halfFilled : DataProperty := ⟨.programVersion, true, .unsignedInt, 3, .none, [1, 2, 3]⟩

theorem writes_sound_halfFilled :
    WriteKept halfFilled 3 1 [9, 9] 1 (halfFilled.apply ⟨3, 1, [9, 9]⟩) :=
  (writes_sound halfFilled rfl (by decide) [⟨halfFilled, ⟨3, 1, [9, 9]⟩, _⟩] _
    (.next rfl (.refl _))).1 _ (List.mem_singleton.mpr rfl)

/-- The element that such a write skips keeps the octet of it that was there. -/
theorem skipped_element_not_zero :
    halfFilled.writeEnable = true ∧ 0 < halfFilled.elementSize ∧
    (halfFilled.write 3 1 [9, 9]).1 = 1 ∧ halfFilled.elements = 1 ∧
    (halfFilled.write 3 1 [9, 9]).2.read 2 1 = (1, [3, 0]) := by
  decide

end KnxRs.Properties.DataProperty
