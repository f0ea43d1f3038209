import Mathlib.Data.List.Basic

set_option autoImplicit false

/-!
# Buffers

Slices of a list and the writes that the standard library's vectors offer:
`resize`, `copy_from_slice` and `fill`, with what each leaves unchanged.
-/
namespace KnxRs.Octets

variable {β : Type}

/-- `xs[start..start + len]`. -/
def slice (xs : List β) (start len : Nat) : List β := (xs.drop start).take len

/-- `Vec::resize` where it grows; a longer list is left alone. -/
def grow (xs : List β) (n : Nat) (b : β) : List β := xs ++ List.replicate (n - xs.length) b

/-- `xs[start..start + ys.len()].copy_from_slice(ys)`. -/
def overwrite (xs : List β) (start : Nat) (ys : List β) : List β :=
  xs.take start ++ ys ++ xs.drop (start + ys.length)

theorem slice_length {xs : List β} {start len : Nat} (h : start + len ≤ xs.length) :
    (slice xs start len).length = len := by
  rw [slice, List.length_take, List.length_drop]
  omega

theorem grow_length (xs : List β) (n : Nat) (b : β) :
    (grow xs n b).length = max xs.length n := by
  rw [grow, List.length_append, List.length_replicate]
  omega

theorem grow_getElem? {xs : List β} {n i : Nat} {b : β} (h : i < xs.length) :
    (grow xs n b)[i]? = xs[i]? := by
  rw [grow, List.getElem?_append_left h]

theorem overwrite_length {xs ys : List β} {start : Nat} (h : start + ys.length ≤ xs.length) :
    (overwrite xs start ys).length = xs.length := by
  simp only [overwrite, List.length_append, List.length_take, List.length_drop]
  omega

theorem overwrite_getElem?_outside {xs ys : List β} {start i : Nat}
    (h : start + ys.length ≤ xs.length) (hi : i < start ∨ start + ys.length ≤ i) :
    (overwrite xs start ys)[i]? = xs[i]? := by
  have hlen : (xs.take start).length = start := by
    rw [List.length_take]
    omega
  rcases hi with hi | hi
  · rw [overwrite, List.append_assoc, List.getElem?_append_left (by omega),
      List.getElem?_take, if_pos hi]
  · rw [overwrite, List.getElem?_append_right (by rw [List.length_append]; omega),
      List.getElem?_drop, List.length_append, hlen]
    congr 1
    omega

theorem overwrite_overwrite {xs ys zs : List β} (h : zs.length = ys.length) :
    overwrite (overwrite xs 0 ys) 0 zs = overwrite xs 0 zs := by
  simp [overwrite, h]

theorem overwrite_self (xs : List β) (n : Nat) : overwrite xs 0 (xs.take n) = xs := by
  rw [overwrite, List.take_zero, List.nil_append, Nat.zero_add, List.length_take]
  rcases Nat.le_total n xs.length with h | h
  · rw [Nat.min_eq_left h, List.take_append_drop]
  · rw [Nat.min_eq_right h, List.drop_length, List.take_of_length_le h, List.append_nil]

/-! ## Writes that grow -/

/-- `resize` where the octets would not fit, and then `copy_from_slice`. -/
def writeAt (xs : List β) (start : Nat) (ys : List β) (b : β) : List β :=
  overwrite (grow xs (start + ys.length) b) start ys

/-- What is at `i` after such a write: the datum written there, what was there, or the filler
where the list was only extended. -/
def octetAfter (xs : List β) (start : Nat) (ys : List β) (b : β) (i : Nat) : Option β :=
  if start ≤ i ∧ i < start + ys.length then ys[i - start]?
  else if i < xs.length then xs[i]?
  else if i < start + ys.length then some b
  else none

variable {xs ys zs : List β} {start i : Nat} {b : β}

theorem overwrite_getElem?_inside (h : start ≤ xs.length)
    (hi : start ≤ i ∧ i < start + ys.length) : (overwrite xs start ys)[i]? = ys[i - start]? := by
  have hlen : (xs.take start).length = start := by
    rw [List.length_take]
    omega
  rw [overwrite, List.append_assoc, List.getElem?_append_right (by omega), hlen,
    List.getElem?_append_left (by omega)]

theorem grow_getElem?_new {n : Nat} (h : xs.length ≤ i) (hi : i < n) :
    (grow xs n b)[i]? = some b := by
  rw [grow, List.getElem?_append_right h, List.getElem?_replicate, if_pos (by omega)]

theorem writeAt_length (xs : List β) (start : Nat) (ys : List β) (b : β) :
    (writeAt xs start ys b).length = max xs.length (start + ys.length) := by
  rw [writeAt, overwrite_length (by rw [grow_length]; omega), grow_length]

theorem writeAt_getElem? (xs : List β) (start : Nat) (ys : List β) (b : β) (i : Nat) :
    (writeAt xs start ys b)[i]? = octetAfter xs start ys b i := by
  have hgrown := grow_length xs (start + ys.length) b
  unfold octetAfter writeAt
  by_cases hin : start ≤ i ∧ i < start + ys.length
  · rw [if_pos hin]
    exact overwrite_getElem?_inside (by omega) hin
  · have hout : i < start ∨ start + ys.length ≤ i := by omega
    rw [if_neg hin, overwrite_getElem?_outside (by omega) hout]
    split_ifs with hold hnew
    · exact grow_getElem? hold
    · exact grow_getElem?_new (Nat.le_of_not_lt hold) hnew
    · exact List.getElem?_eq_none (by omega)

theorem writeAt_append : writeAt (writeAt xs start ys b) (start + ys.length) zs b =
    writeAt xs start (ys ++ zs) b := by
  apply List.ext_getElem?
  intro i
  simp only [writeAt_getElem?, octetAfter, writeAt_length, List.length_append]
  by_cases hsecond : start + ys.length ≤ i ∧ i < start + ys.length + zs.length
  · rw [if_pos hsecond, if_pos (by omega), List.getElem?_append_right (by omega)]
    congr 1
    omega
  · rw [if_neg hsecond]
    by_cases hfirst : start ≤ i ∧ i < start + ys.length
    · rw [if_pos (by omega), if_pos hfirst, if_pos (by omega),
        List.getElem?_append_left (by omega)]
    · have hnone : ¬(start ≤ i ∧ i < start + (ys.length + zs.length)) := by omega
      rw [if_neg hfirst, if_neg hnone]
      split_ifs
      all_goals first | rfl | omega

theorem slice_getElem? {len : Nat} (hi : i < len) : (slice xs start len)[i]? = xs[start + i]? := by
  rw [slice, List.getElem?_take, if_pos hi, List.getElem?_drop]

theorem slice_eq_of {len : Nat} (hxs : start + len ≤ xs.length) (hys : ys.length = len)
    (h : ∀ i < len, xs[start + i]? = ys[i]?) : slice xs start len = ys := by
  apply List.ext_getElem?
  intro i
  by_cases hi : i < len
  · rw [slice_getElem? hi, h i hi]
  · rw [List.getElem?_eq_none (by rw [slice_length hxs]; omega),
      List.getElem?_eq_none (by omega)]

end KnxRs.Octets
