import Mathlib.Data.List.Sort

set_option autoImplicit false

/-!
# Stable sorting by a weight

A stable sort is determined by the elements of each weight, in their order: two lists that
agree on those are sorted into the same list.
-/
namespace KnxRs.StableSort

variable {α β : Type} [LinearOrder β] (w : α → β)

/-- The elements of the weight of `x`. -/
def ties (x : α) (l : List α) : List α := l.filter fun y => w y = w x

variable {w}

theorem mem_ties {x y : α} {l : List α} : y ∈ ties w x l ↔ y ∈ l ∧ w y = w x := by
  unfold ties
  rw [List.mem_filter, decide_eq_true_iff]

theorem ties_congr {x y : α} (h : w x = w y) (l : List α) : ties w x l = ties w y l := by
  unfold ties
  rw [h]

theorem ties_cons_self (x : α) (l : List α) : ties w x (x :: l) = x :: ties w x l :=
  List.filter_cons_of_pos (decide_eq_true rfl)

theorem ties_cons_of_ne {x y : α} (h : w y ≠ w x) (l : List α) :
    ties w x (y :: l) = ties w x l :=
  List.filter_cons_of_neg (by rw [decide_eq_true_iff]; exact h)

theorem head_le {a b : α} {t l : List α} (sorted : (a :: t).Pairwise fun x y => w x ≤ w y)
    (h : ∀ x, ties w x (a :: t) = ties w x l) (hb : b ∈ l) : w a ≤ w b := by
  have hmem : b ∈ ties w b (a :: t) := by
    rw [h b]
    exact mem_ties.mpr ⟨hb, rfl⟩
  rcases List.mem_cons.mp (mem_ties.mp hmem).1 with rfl | htail
  · exact le_refl _
  · exact List.rel_of_pairwise_cons sorted htail

theorem sorted_unique {l l' : List α} (sorted : l.Pairwise fun x y => w x ≤ w y)
    (sorted' : l'.Pairwise fun x y => w x ≤ w y) (h : ∀ x, ties w x l = ties w x l') :
    l = l' := by
  induction l generalizing l' with
  | nil =>
    cases l' with
    | nil => rfl
    | cons b t' =>
      have hb := h b
      rw [ties_cons_self] at hb
      cases hb
  | cons a t ih =>
    cases l' with
    | nil =>
      have ha := h a
      rw [ties_cons_self] at ha
      cases ha
    | cons b t' =>
      have hweight : w a = w b := le_antisymm (head_le sorted h List.mem_cons_self)
        (head_le sorted' (fun x => (h x).symm) List.mem_cons_self)
      have hhead := h a
      rw [ties_cons_self, ties_congr hweight (b :: t'), ties_cons_self] at hhead
      obtain ⟨rfl, _⟩ := List.cons.inj hhead
      refine congrArg (a :: ·) (ih sorted.of_cons sorted'.of_cons fun x => ?_)
      have hx := h x
      by_cases hax : w a = w x
      · rw [← ties_congr hax (a :: t), ← ties_congr hax (a :: t'), ties_cons_self,
          ties_cons_self] at hx
        rw [← ties_congr hax t, ← ties_congr hax t']
        exact (List.cons.inj hx).2
      · rwa [ties_cons_of_ne hax, ties_cons_of_ne hax] at hx

section

variable {r : α → α → Prop} [DecidableRel r] (hr : ∀ x y, r x y ↔ w x ≤ w y)

include hr

/-- Sorting is stable. -/
theorem ties_insertionSort (x : α) (l : List α) : ties w x (l.insertionSort r) = ties w x l := by
  have hties : (ties w x l).Pairwise r := by
    refine List.Pairwise.imp_of_mem (fun {y z} hy hz _ => ?_) (List.pairwise_of_forall (R :=
      fun _ _ => True) fun _ _ => trivial)
    rw [hr, (mem_ties.mp hy).2, (mem_ties.mp hz).2]
  have hsub := (List.sublist_insertionSort hties List.filter_sublist).filter
    fun y => decide (w y = w x)
  have hself : (ties w x l).filter (fun y => decide (w y = w x)) = ties w x l := by
    unfold ties
    rw [List.filter_filter]
    simp only [Bool.and_self]
  rw [hself] at hsub
  exact (hsub.eq_of_length ((List.perm_insertionSort r l).filter _).length_eq.symm).symm

theorem insertionSort_sorted (l : List α) :
    (l.insertionSort r).Pairwise fun x y => w x ≤ w y := by
  have : Std.Total r := ⟨fun x y => by rw [hr, hr]; exact le_total _ _⟩
  have : IsTrans α r := ⟨fun x y z => by rw [hr, hr, hr]; exact le_trans⟩
  exact (List.pairwise_insertionSort r l).imp fun {x y} => (hr x y).mp

theorem insertionSort_congr {l l' : List α} (h : ∀ x, ties w x l = ties w x l') :
    l.insertionSort r = l'.insertionSort r := by
  refine sorted_unique (insertionSort_sorted hr l) (insertionSort_sorted hr l') fun x => ?_
  rw [ties_insertionSort hr, ties_insertionSort hr, h]

end

end KnxRs.StableSort
