import Mathlib.Algebra.Order.Group.Defs
import Mathlib.Data.List.TakeWhile

set_option autoImplicit false

/-!
# Counting a log in sliding windows

A log of instants in their order, and the part of it that a limiter still keeps.
What is kept decides every window that the next entry can fall into, so a bound
on its length bounds the log in each closed window, wherever the window begins.
-/
namespace KnxRs.SlidingWindows

variable {α : Type} [AddCommGroup α] [LinearOrder α]

/-- How many entries lie in the closed window of length `span` that begins at `first`. -/
def count (span first : α) (log : List α) : Nat :=
  log.countP fun t => first ≤ t ∧ t ≤ first + span

theorem count_append (span first : α) (xs ys : List α) :
    count span first (xs ++ ys) = count span first xs + count span first ys :=
  List.countP_append

theorem count_le_length (span first : α) (log : List α) :
    count span first log ≤ log.length :=
  List.countP_le_length

/-- What is kept at `now` is the log less entries that are older than `span`. -/
structure Covers (span now : α) (log kept : List α) : Prop where
  sorted : log.Pairwise (fun s t => s ≤ t)
  le_now : ∀ t ∈ log, t ≤ now
  dropped : ∃ old, log = old ++ kept ∧ ∀ t ∈ old, t < now - span

variable {span now : α} {log kept : List α}

theorem covers_nil (span now : α) : Covers span now [] [] where
  sorted := .nil
  le_now := by simp
  dropped := ⟨[], rfl, by simp⟩

namespace Covers

theorem kept_sublist (h : Covers span now log kept) : kept.Sublist log := by
  obtain ⟨old, rfl, _⟩ := h.dropped
  exact List.sublist_append_right old kept

theorem kept_sorted (h : Covers span now log kept) : kept.Pairwise (fun s t => s ≤ t) :=
  h.sorted.sublist h.kept_sublist

theorem push (h : Covers span now log kept) : Covers span now (log ++ [now]) (kept ++ [now]) where
  sorted := by
    rw [List.pairwise_append]
    refine ⟨h.sorted, List.pairwise_singleton _ now, ?_⟩
    intro s hs t ht
    rw [List.mem_singleton] at ht
    exact ht ▸ h.le_now s hs
  le_now := by
    intro t ht
    rcases List.mem_append.mp ht with ht | ht
    · exact h.le_now t ht
    · exact (List.mem_singleton.mp ht).le
  dropped := by
    obtain ⟨old, hlog, hold⟩ := h.dropped
    exact ⟨old, by rw [hlog, List.append_assoc], hold⟩

theorem expire (h : Covers span now log kept) :
    Covers span now log (kept.dropWhile fun t => t < now - span) where
  sorted := h.sorted
  le_now := h.le_now
  dropped := by
    obtain ⟨old, hlog, hold⟩ := h.dropped
    refine ⟨old ++ kept.takeWhile fun t => t < now - span, ?_, ?_⟩
    · rw [List.append_assoc, List.takeWhile_append_dropWhile, hlog]
    · intro t ht
      rcases List.mem_append.mp ht with ht | ht
      · exact hold t ht
      · exact of_decide_eq_true (List.mem_takeWhile_imp (p := fun t => decide (t < now - span)) ht)

variable [IsOrderedAddMonoid α]

theorem later (h : Covers span now log kept) {now' : α} (hnow : now ≤ now') :
    Covers span now' log kept where
  sorted := h.sorted
  le_now t ht := (h.le_now t ht).trans hnow
  dropped := by
    obtain ⟨old, hlog, hold⟩ := h.dropped
    exact ⟨old, hlog, fun t ht => (hold t ht).trans_le (sub_le_sub_right hnow span)⟩

theorem count_le (h : Covers span now log kept) {first : α} (hfirst : now ≤ first + span) :
    count span first log ≤ kept.length := by
  obtain ⟨old, hlog, hold⟩ := h.dropped
  have hzero : count span first old = 0 := by
    unfold count
    rw [List.countP_eq_zero]
    intro t ht hin
    have hlt := hold t ht
    have hge := (of_decide_eq_true hin).1
    exact absurd (hlt.trans_le (sub_le_iff_le_add.mpr hfirst)) hge.not_gt
  rw [hlog, count_append, hzero, Nat.zero_add]
  exact count_le_length span first kept

/-- An entry logged while fewer than `limit` are kept exceeds the limit in no window. -/
theorem count_push_le {limit : Nat} (h : Covers span now log kept)
    (hlog : ∀ first, count span first log ≤ limit) (hkept : kept.length < limit) (first : α) :
    count span first (log ++ [now]) ≤ limit := by
  rw [count_append]
  by_cases hfirst : now ≤ first + span
  · have hcount := h.count_le hfirst
    have hone := count_le_length span first [now]
    rw [List.length_singleton] at hone
    omega
  · have hnone : count span first [now] = 0 := by
      unfold count
      rw [List.countP_eq_zero]
      intro t ht hin
      rw [List.mem_singleton] at ht
      exact hfirst (ht ▸ (of_decide_eq_true hin).2)
    have := hlog first
    omega

end Covers

end KnxRs.SlidingWindows
