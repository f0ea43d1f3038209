import Mathlib.Logic.Function.Basic

set_option autoImplicit false

/-!
# Regions of a memory

A family of owners with at most one region each: when the regions are apart, when
they lie below a bound, and what giving or taking one region does to either.
-/
namespace KnxRs.Regions

structure Region where
  start : Nat
  size : Nat
  deriving DecidableEq

namespace Region

def stop (r : Region) : Nat := r.start + r.size

def Apart (r q : Region) : Prop := r.stop ≤ q.start ∨ q.stop ≤ r.start

instance (r q : Region) : Decidable (r.Apart q) := inferInstanceAs (Decidable (_ ∨ _))

theorem Apart.symm {r q : Region} (h : r.Apart q) : q.Apart r := Or.symm h

theorem apart_iff (r q : Region) : r.Apart q ↔ (q.start < r.stop → q.stop ≤ r.start) := by
  unfold Apart
  omega

end Region

variable {ι : Type} {f g : ι → Option Region}

/-- The regions of any two owners are apart. -/
def Separate (f : ι → Option Region) : Prop :=
  ∀ i j, i ≠ j → ∀ r ∈ f i, ∀ q ∈ f j, r.Apart q

def Within (n : Nat) (f : ι → Option Region) : Prop := ∀ i, ∀ r ∈ f i, r.stop ≤ n

theorem Separate.of_fewer (h : Separate f) (fewer : ∀ i, ∀ r ∈ g i, r ∈ f i) : Separate g :=
  fun i j hij r hr q hq => h i j hij r (fewer i r hr) q (fewer j q hq)

theorem Within.of_fewer {m n : Nat} (h : Within m f) (le : m ≤ n)
    (fewer : ∀ i, ∀ r ∈ g i, r ∈ f i) : Within n g :=
  fun i r hr => Nat.le_trans (h i r (fewer i r hr)) le

variable [DecidableEq ι]

theorem separate_update_iff (h : Separate f) (i : ι) (r : Region) :
    Separate (Function.update f i (some r)) ↔ ∀ j, j ≠ i → ∀ q ∈ f j, r.Apart q := by
  constructor
  · intro hsep j hj q hq
    refine hsep i j hj.symm r ?_ q ?_
    · rw [Function.update_self]
      exact rfl
    · rw [Function.update_of_ne hj]
      exact hq
  · intro hapart j k hjk p hp q hq
    by_cases hj : j = i
    · subst hj
      rw [Function.update_self] at hp
      rw [Function.update_of_ne hjk.symm] at hq
      obtain rfl := Option.some.inj hp
      exact hapart k hjk.symm q hq
    · rw [Function.update_of_ne hj] at hp
      by_cases hk : k = i
      · subst hk
        rw [Function.update_self] at hq
        obtain rfl := Option.some.inj hq
        exact (hapart j hj p hp).symm
      · rw [Function.update_of_ne hk] at hq
        exact h j k hjk p hp q hq

theorem within_update_iff {n : Nat} (h : Within n f) (i : ι) (r : Region) :
    Within n (Function.update f i (some r)) ↔ r.stop ≤ n := by
  constructor
  · intro hwithin
    refine hwithin i r ?_
    rw [Function.update_self]
    exact rfl
  · intro hr j q hq
    by_cases hj : j = i
    · subst hj
      rw [Function.update_self] at hq
      obtain rfl := Option.some.inj hq
      exact hr
    · rw [Function.update_of_ne hj] at hq
      exact h j q hq

end KnxRs.Regions
