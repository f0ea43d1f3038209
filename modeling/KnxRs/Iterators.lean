import Mathlib.Data.List.Basic

set_option autoImplicit false

/-!
# Iterators and blocks

An iterator is a function that gives at most one item and the next state, and that may
panic. Its items are those of a list when every call returns the item of its number, and
nothing once the list is over. A sequence of blocks is read off its front as long as a
block is there.
-/
namespace KnxRs.Iterators

/-! ## Calls -/

section Calls
variable {σ β : Type}

def after (next : σ → Option (Option β × σ)) : Nat → σ → Option σ
  | 0, s => some s
  | n + 1, s => (next s).bind fun result => after next n result.2

def call (next : σ → Option (Option β × σ)) (n : Nat) (s : σ) : Option (Option β) :=
  (after next n s).bind fun state => (next state).map Prod.fst

/-- No call panics, and the calls give these items and nothing after them. -/
def Yields (next : σ → Option (Option β × σ)) (s : σ) (items : List β) : Prop :=
  ∀ n, call next n s = some items[n]?

/-- `Iterator::find` within so many calls, `none` if it panics or does not end in them. -/
def find (next : σ → Option (Option β × σ)) (p : β → Bool) : Nat → σ → Option (Option β)
  | 0, _ => none
  | fuel + 1, s =>
    match next s with
    | none => none
    | some (none, _) => some none
    | some (some x, s') => if p x then some (some x) else find next p fuel s'

variable {next : σ → Option (Option β × σ)} {s s' : σ} {x : β} {items : List β}

theorem after_succ {r : Option β} (h : next s = some (r, s')) (n : Nat) :
    after next (n + 1) s = after next n s' := by
  rw [after, h]
  rfl

theorem call_zero {r : Option β} (h : next s = some (r, s')) : call next 0 s = some r := by
  show (next s).map Prod.fst = some r
  rw [h]
  rfl

theorem call_succ {r : Option β} (h : next s = some (r, s')) (n : Nat) :
    call next (n + 1) s = call next n s' := by
  rw [call, after_succ h]
  rfl

theorem Yields.nil (h : next s = some (none, s)) : Yields next s [] := by
  intro n
  rw [List.getElem?_nil]
  induction n with
  | zero => exact call_zero h
  | succ n ih => exact (call_succ h n).trans ih

theorem Yields.cons (h : next s = some (some x, s')) (rest : Yields next s' items) :
    Yields next s (x :: items) := by
  intro n
  cases n with
  | zero => exact call_zero h
  | succ n => exact (call_succ h n).trans (rest n)

theorem Yields.unique {items' : List β} (h : Yields next s items) (h' : Yields next s items') :
    items = items' := by
  apply List.ext_getElem?
  intro n
  exact Option.some.inj ((h n).symm.trans (h' n))

theorem Yields.first (h : Yields next s (x :: items)) :
    ∃ s', next s = some (some x, s') ∧ Yields next s' items := by
  have hfirst : (next s).map Prod.fst = some (some x) := h 0
  obtain ⟨⟨r, s'⟩, hnext, hr⟩ := Option.map_eq_some_iff.mp hfirst
  have hr : r = some x := hr
  subst hr
  refine ⟨s', hnext, ?_⟩
  intro n
  rw [← call_succ hnext n]
  exact h (n + 1)

theorem Yields.last (h : Yields next s []) : ∃ s', next s = some (none, s') := by
  have hfirst : (next s).map Prod.fst = some none := h 0
  obtain ⟨⟨r, s'⟩, hnext, hr⟩ := Option.map_eq_some_iff.mp hfirst
  have hr : r = none := hr
  subst hr
  exact ⟨s', hnext⟩

theorem Yields.find (p : β → Bool) (fuel : Nat) (h : Yields next s items)
    (hfuel : items.length < fuel) : find next p fuel s = some (items.find? p) := by
  induction items generalizing s fuel with
  | nil =>
    obtain ⟨fuel, rfl⟩ := Nat.exists_eq_add_one_of_ne_zero (Nat.ne_of_gt hfuel)
    obtain ⟨s', hnext⟩ := h.last
    rw [Iterators.find, hnext]
    rfl
  | cons x items ih =>
    obtain ⟨fuel, rfl⟩ := Nat.exists_eq_add_one_of_ne_zero (Nat.ne_of_gt (Nat.zero_lt_of_lt hfuel))
    obtain ⟨s', hnext, hrest⟩ := h.first
    rw [Iterators.find, hnext]
    dsimp only
    cases hp : p x with
    | true => rw [if_pos rfl, List.find?_cons_of_pos hp]
    | false =>
      rw [if_neg Bool.false_ne_true, List.find?_cons_of_neg (by rw [hp]; exact Bool.false_ne_true)]
      exact ih fuel hrest (Nat.lt_of_succ_lt_succ hfuel)

end Calls

/-! ## Blocks -/

section Blocks
variable {β : Type}

def NoBlock (Block : List β → Prop) (tail : List β) : Prop :=
  ∀ block rest, Block block → tail ≠ block ++ rest

theorem exists_blocks {Block : List β → Prop} (nonempty : ∀ block, Block block → block ≠ [])
    (xs : List β) : ∃ (blocks : List (List β)) (tail : List β), xs = blocks.flatten ++ tail ∧
      (∀ block ∈ blocks, Block block) ∧ NoBlock Block tail := by
  generalize hn : xs.length = n
  induction n using Nat.strongRecOn generalizing xs with
  | ind n ih =>
    by_cases hfront : ∃ block rest, Block block ∧ xs = block ++ rest
    · obtain ⟨block, rest, hblock, rfl⟩ := hfront
      have hlt : rest.length < n := by
        have := List.length_pos_iff.mpr (nonempty block hblock)
        rw [List.length_append] at hn
        omega
      obtain ⟨blocks, tail, rfl, hblocks, htail⟩ := ih rest.length hlt rest rfl
      refine ⟨block :: blocks, tail, ?_, ?_, htail⟩
      · rw [List.flatten_cons, List.append_assoc]
      · intro b hb
        rcases List.mem_cons.mp hb with rfl | hb
        · exact hblock
        · exact hblocks b hb
    · refine ⟨[], xs, rfl, fun block hblock => absurd hblock List.not_mem_nil, ?_⟩
      intro block rest hblock hxs
      exact hfront ⟨block, rest, hblock, hxs⟩

end Blocks
end KnxRs.Iterators
