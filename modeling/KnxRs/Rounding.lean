import Mathlib.Algebra.Order.Round
import Mathlib.Algebra.Order.Archimedean.Basic
import Mathlib.Tactic.Linarith

set_option autoImplicit false

/-!
# Rounding to a nearest value

Rounding to an integer with ties away from zero, and what being nearest in a set of values
gives: on a line, nearest values keep the order.
-/
namespace KnxRs.Rounding

variable {K : Type} [Field K] [LinearOrder K] [IsStrictOrderedRing K] [FloorRing K]

/-- The nearest integer, and of two of them the one farther from zero. -/
def roundAway (x : K) : ℤ := if 0 ≤ x then ⌊x + 1 / 2⌋ else ⌈x - 1 / 2⌉

theorem abs_sub_roundAway (x : K) : |x - roundAway x| ≤ 1 / 2 := by
  unfold roundAway
  rw [abs_le]
  split_ifs with hsign
  · have hle := Int.floor_le (x + 1 / 2)
    have hlt := Int.lt_floor_add_one (x + 1 / 2)
    constructor <;> linarith
  · have hle := Int.le_ceil (x - 1 / 2)
    have hlt := Int.ceil_lt_add_one (x - 1 / 2)
    constructor <;> linarith

theorem roundAway_le (x : K) (z : ℤ) : |x - roundAway x| ≤ |x - z| := by
  rcases eq_or_ne (roundAway x) z with rfl | hne
  · exact le_refl _
  · have hclose := abs_sub_roundAway x
    have hapart : (1 : K) ≤ |(roundAway x : K) - z| := by
      rw [← Int.cast_sub, ← Int.cast_abs]
      exact_mod_cast Int.one_le_abs (sub_ne_zero.mpr hne)
    have htriangle := abs_sub_le (roundAway x : K) x z
    rw [abs_sub_comm (roundAway x : K) x] at htriangle
    linarith

theorem roundAway_le_iff {x : K} {n : ℤ} (hn : 0 ≤ n) : roundAway x ≤ n ↔ x < n + 1 / 2 := by
  have hn' : (0 : K) ≤ n := Int.cast_nonneg hn
  unfold roundAway
  split_ifs with hsign
  · rw [← Int.lt_add_one_iff, Int.floor_lt]
    push_cast
    constructor <;> intro h <;> linarith
  · rw [Int.ceil_le]
    constructor <;> intro h <;> linarith

theorem le_roundAway_iff {x : K} {n : ℤ} (hn : n ≤ 0) : n ≤ roundAway x ↔ n - 1 / 2 < x := by
  have hn' : (n : K) ≤ 0 := Int.cast_nonpos.mpr hn
  unfold roundAway
  split_ifs with hsign
  · rw [Int.le_floor]
    constructor <;> intro h <;> linarith
  · rw [← Int.sub_one_lt_iff, Int.lt_ceil]
    push_cast
    constructor <;> intro h <;> linarith

/-- `r` is a value of `S`, and no value of `S` is nearer to `x`. -/
structure Nearest (S : Set K) (x r : K) : Prop where
  mem : r ∈ S
  le : ∀ y ∈ S, |x - r| ≤ |x - y|

omit [FloorRing K] in
/-- Nearest values are in the order of what they are nearest to. -/
theorem Nearest.mono {S : Set K} {x y r s : K} (hr : Nearest S x r) (hs : Nearest S y s)
    (h : x < y) : r ≤ s := by
  by_contra hlt
  rw [not_le] at hlt
  have hxr := sq_le_sq.mpr (hr.le s hs.mem)
  have hys := sq_le_sq.mpr (hs.le r hr.mem)
  -- `x` is on the side of `r` of the middle of the two, and `y` on that of `s`
  have hleft : r + s ≤ 2 * x := by
    by_contra hgt
    have := mul_pos (sub_pos.mpr hlt) (sub_pos.mpr (not_le.mp hgt))
    linarith [show (r - s) * (r + s - 2 * x) = (x - r) ^ 2 - (x - s) ^ 2 by ring]
  have hright : 2 * y ≤ r + s := by
    by_contra hgt
    have := mul_pos (sub_pos.mpr hlt) (sub_pos.mpr (not_le.mp hgt))
    linarith [show (r - s) * (2 * y - (r + s)) = (y - s) ^ 2 - (y - r) ^ 2 by ring]
  linarith

end KnxRs.Rounding
