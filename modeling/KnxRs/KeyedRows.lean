import Mathlib.Data.List.Nodup

set_option autoImplicit false

/-!
# Lists of rows with distinct keys

A table kept as a list: the first row that matches is found, changed in place or
removed. With distinct keys each operation concerns the row of one key only.
-/
namespace KnxRs.KeyedRows

variable {α κ : Type} {key : α → κ} {rows : List α}

/-- Change the first row that `p` accepts. -/
def updateFirst (p : α → Bool) (f : α → α) : List α → List α
  | [] => []
  | x :: rest => if p x then f x :: rest else x :: updateFirst p f rest

theorem updateFirst_none {p : α → Bool} {f : α → α} (h : rows.find? p = none) :
    updateFirst p f rows = rows := by
  induction rows with
  | nil => rfl
  | cons x rest ih =>
    rw [List.find?_eq_none] at h
    unfold updateFirst
    rw [if_neg (h x List.mem_cons_self), ih]
    exact List.find?_eq_none.mpr fun y hy => h y (List.mem_cons_of_mem x hy)

/-- Only the change of the row that is found matters. -/
theorem updateFirst_congr {p : α → Bool} {f g : α → α} {x : α} (h : rows.find? p = some x)
    (same : f x = g x) : updateFirst p f rows = updateFirst p g rows := by
  induction rows with
  | nil => cases h
  | cons y rest ih =>
    unfold updateFirst
    by_cases hp : p y
    · rw [List.find?_cons_of_pos hp] at h
      cases h
      rw [if_pos hp, if_pos hp, same]
    · rw [List.find?_cons_of_neg hp] at h
      rw [if_neg hp, if_neg hp, ih h]

theorem updateFirst_id (p : α → Bool) : updateFirst p (fun x => x) rows = rows := by
  induction rows with
  | nil => rfl
  | cons x rest ih =>
    unfold updateFirst
    rw [ih, ite_self]

/-! ## Keys -/

theorem map_key_updateFirst {p : α → Bool} {f : α → α} (same : ∀ x, key (f x) = key x) :
    (updateFirst p f rows).map key = rows.map key := by
  induction rows with
  | nil => rfl
  | cons x rest ih =>
    unfold updateFirst
    split_ifs
    · rw [List.map_cons, List.map_cons, same]
    · rw [List.map_cons, List.map_cons, ih]

theorem nodup_append {x : α} (distinct : (rows.map key).Nodup) (fresh : key x ∉ rows.map key) :
    ((rows ++ [x]).map key).Nodup := by
  rw [List.map_append, List.nodup_append]
  refine ⟨distinct, List.nodup_singleton _, ?_⟩
  intro a ha b hb he
  rw [List.map_singleton, List.mem_singleton] at hb
  exact fresh (hb ▸ he ▸ ha)

/-! ## The row of a key -/

variable [DecidableEq κ] {k : κ}

def row (key : α → κ) (k : κ) (rows : List α) : Option α := rows.find? fun x => key x = k

theorem row_some {x : α} (h : row key k rows = some x) : x ∈ rows ∧ key x = k :=
  ⟨List.mem_of_find?_eq_some h, by simpa using List.find?_some h⟩

theorem row_none : row key k rows = none ↔ k ∉ rows.map key := by
  simp [row]

theorem row_cons_self {x : α} {rest : List α} (h : key x = k) : row key k (x :: rest) = some x :=
  List.find?_cons_of_pos (by simpa using h)

theorem row_cons_ne {x : α} {rest : List α} (h : key x ≠ k) :
    row key k (x :: rest) = row key k rest :=
  List.find?_cons_of_neg (by simpa using h)

theorem row_of_mem {x : α} (distinct : (rows.map key).Nodup) (h : x ∈ rows) :
    row key (key x) rows = some x := by
  induction rows with
  | nil => cases h
  | cons y rest ih =>
    rw [List.map_cons, List.nodup_cons] at distinct
    rcases List.mem_cons.mp h with rfl | h
    · exact row_cons_self rfl
    · have hne : key y ≠ key x := fun he => distinct.1 (he ▸ List.mem_map_of_mem h)
      rw [row_cons_ne hne]
      exact ih distinct.2 h

/-! ## Changing one row -/

theorem row_updateFirst_ne {p : α → Bool} {f : α → α} {k' : κ} (same : ∀ x, key (f x) = key x)
    (only : ∀ x, p x → key x = k') (h : k ≠ k') :
    row key k (updateFirst p f rows) = row key k rows := by
  induction rows with
  | nil => rfl
  | cons x rest ih =>
    unfold updateFirst
    split_ifs with hp
    · have hx : key x ≠ k := fun he => h (he.symm.trans (only x hp))
      rw [row_cons_ne hx, row_cons_ne ((same x).trans_ne hx)]
    · by_cases hx : key x = k
      · rw [row_cons_self hx, row_cons_self hx]
      · rw [row_cons_ne hx, row_cons_ne hx, ih]

theorem row_updateFirst_self {p : α → Bool} {f : α → α} (same : ∀ x, key (f x) = key x)
    (only : ∀ x, p x → key x = k) (distinct : (rows.map key).Nodup) :
    row key k (updateFirst p f rows) =
      (row key k rows).map fun x => if p x then f x else x := by
  induction rows with
  | nil => rfl
  | cons x rest ih =>
    rw [List.map_cons, List.nodup_cons] at distinct
    unfold updateFirst
    split_ifs with hp
    · have hx := only x hp
      rw [row_cons_self hx, row_cons_self ((same x).trans hx), Option.map_some, if_pos hp]
    · by_cases hx : key x = k
      · rw [row_cons_self hx, row_cons_self hx, Option.map_some, if_neg hp]
      · rw [row_cons_ne hx, row_cons_ne hx, ih distinct.2]

theorem row_updateFirst {p : α → Bool} {f : α → α} {k' : κ} (same : ∀ x, key (f x) = key x)
    (only : ∀ x, p x → key x = k') (distinct : (rows.map key).Nodup) :
    row key k (updateFirst p f rows) =
      (row key k rows).map fun x => if p x then f x else x := by
  by_cases hk : k = k'
  · subst hk
    exact row_updateFirst_self same only distinct
  · rw [row_updateFirst_ne same only hk]
    rcases hrow : row key k rows with _ | x
    · rfl
    · have hp : ¬p x := fun h => hk ((row_some hrow).2.symm.trans (only x h))
      rw [Option.map_some, if_neg hp]

theorem find?_row {p : α → Bool} (only : ∀ x, p x → key x = k) (distinct : (rows.map key).Nodup) :
    rows.find? p = (row key k rows).filter p := by
  induction rows with
  | nil => rfl
  | cons x rest ih =>
    rw [List.map_cons, List.nodup_cons] at distinct
    by_cases hx : key x = k
    · rw [row_cons_self hx]
      by_cases hp : p x
      · rw [List.find?_cons_of_pos hp, Option.filter_some_pos hp]
      · rw [List.find?_cons_of_neg hp, Option.filter_some_neg (Bool.not_eq_true _ |>.mp hp), List.find?_eq_none]
        intro y hy hpy
        exact distinct.1 (hx.trans (only y hpy).symm ▸ List.mem_map_of_mem hy)
    · have hp : ¬p x := fun h => hx (only x h)
      rw [List.find?_cons_of_neg hp, row_cons_ne hx, ih distinct.2]

/-! ## Changing, adding and removing rows -/

theorem row_map {f : α → α} (same : ∀ x, key (f x) = key x) :
    row key k (rows.map f) = (row key k rows).map f := by
  induction rows with
  | nil => rfl
  | cons x rest ih =>
    rw [List.map_cons]
    by_cases hx : key x = k
    · rw [row_cons_self hx, row_cons_self ((same x).trans hx)]
      rfl
    · rw [row_cons_ne hx, row_cons_ne ((same x).trans_ne hx), ih]

theorem row_append {x : α} : row key k (rows ++ [x]) =
    (row key k rows).or (if key x = k then some x else none) := by
  unfold row
  rw [List.find?_append]
  by_cases hx : key x = k <;> simp [hx]

theorem row_eraseP_self (distinct : (rows.map key).Nodup) :
    row key k (rows.eraseP fun x => key x = k) = none := by
  induction rows with
  | nil => rfl
  | cons x rest ih =>
    rw [List.map_cons, List.nodup_cons] at distinct
    by_cases hx : key x = k
    · rw [List.eraseP_cons_of_pos (by simpa using hx), row_none]
      exact hx ▸ distinct.1
    · rw [List.eraseP_cons_of_neg (by simpa using hx), row_cons_ne hx, ih distinct.2]

theorem row_eraseP_ne {k' : κ} (h : k ≠ k') :
    row key k (rows.eraseP fun x => key x = k') = row key k rows := by
  induction rows with
  | nil => rfl
  | cons x rest ih =>
    by_cases hx : key x = k'
    · rw [List.eraseP_cons_of_pos (by simpa using hx), row_cons_ne (hx.trans_ne h.symm)]
    · rw [List.eraseP_cons_of_neg (by simpa using hx)]
      by_cases hk : key x = k
      · rw [row_cons_self hk, row_cons_self hk]
      · rw [row_cons_ne hk, row_cons_ne hk, ih]

theorem row_filter {p : α → Bool} (distinct : (rows.map key).Nodup) :
    row key k (rows.filter p) = (row key k rows).filter p := by
  induction rows with
  | nil => rfl
  | cons x rest ih =>
    rw [List.map_cons, List.nodup_cons] at distinct
    by_cases hx : key x = k
    · rw [row_cons_self hx]
      by_cases hp : p x
      · rw [List.filter_cons_of_pos hp, row_cons_self hx, Option.filter_some_pos hp]
      · rw [List.filter_cons_of_neg hp, Option.filter_some_neg (Bool.not_eq_true _ |>.mp hp), row_none]
        intro hmem
        obtain ⟨y, hy, he⟩ := List.mem_map.mp hmem
        exact distinct.1 (hx.trans he.symm ▸ List.mem_map_of_mem (List.mem_of_mem_filter hy))
    · rw [row_cons_ne hx]
      by_cases hp : p x
      · rw [List.filter_cons_of_pos hp, row_cons_ne hx, ih distinct.2]
      · rw [List.filter_cons_of_neg hp, ih distinct.2]

theorem flatMap_filter_row {δ : Type} (key : α → κ) (k : κ) (g : α → List δ) {mark : δ → Bool}
    (marked : ∀ x ∈ rows, ∀ d ∈ g x, (mark d ↔ key x = k)) (distinct : (rows.map key).Nodup) :
    (rows.flatMap g).filter mark = ((row key k rows).map g).getD [] := by
  induction rows with
  | nil => rfl
  | cons x rest ih =>
    rw [List.map_cons, List.nodup_cons] at distinct
    have hrest := ih (fun y hy => marked y (List.mem_cons_of_mem x hy)) distinct.2
    have hx := marked x List.mem_cons_self
    rw [List.flatMap_cons, List.filter_append, hrest]
    by_cases hk : key x = k
    · have hnone : row key k rest = none := row_none.mpr (hk ▸ distinct.1)
      rw [row_cons_self hk, hnone, List.filter_eq_self.mpr fun d hd => (hx d hd).mpr hk]
      exact List.append_nil _
    · rw [row_cons_ne hk, List.filter_eq_nil_iff.mpr fun d hd hm => hk ((hx d hd).mp hm)]
      rfl

end KnxRs.KeyedRows
