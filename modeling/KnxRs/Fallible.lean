import Mathlib.Data.List.Basic

set_option autoImplicit false

/-!
# Computations that may fail

A judgement about a computation in `Except`: what it yields satisfies a
postcondition, and under a stated condition it does yield something. The rules
follow the shape of the computation.
-/
namespace KnxRs.Fallible

variable {ε α β : Type}

/-- What `r` yields satisfies `Q`, and where `fits` holds it does not fail. -/
structure Yields (fits : Prop) (Q : α → Prop) (r : Except ε α) : Prop where
  post : ∀ a, r = .ok a → Q a
  total : fits → ∃ a, r = .ok a

variable {fits : Prop} {Q : α → Prop} {R : β → Prop}

theorem Yields.ok {a : α} (h : Q a) : Yields fits Q (.ok a : Except ε α) where
  post := by
    intro a' ha
    cases ha
    exact h
  total := fun _ => ⟨a, rfl⟩

theorem Yields.mono {Q' : α → Prop} {r : Except ε α} (h : Yields fits Q r)
    (hq : ∀ a, Q a → Q' a) : Yields fits Q' r :=
  ⟨fun a ha => hq a (h.post a ha), h.total⟩

theorem Yields.bind {r : Except ε α} {k : α → Except ε β} (h : Yields fits Q r)
    (hk : ∀ a, Q a → Yields fits R (k a)) : Yields fits R (r >>= k) := by
  cases r with
  | error e =>
    refine ⟨fun b hb => ?_, fun hf => ?_⟩
    · cases hb
    · obtain ⟨a, ha⟩ := h.total hf
      cases ha
  | ok a => exact hk a (h.post a rfl)

theorem Yields.map {r : Except ε α} {f : α → β} (h : Yields fits Q r)
    (hf : ∀ a, Q a → R (f a)) : Yields fits R (r.map f) := by
  cases r with
  | error e =>
    refine ⟨fun b hb => ?_, fun hfits => ?_⟩
    · cases hb
    · obtain ⟨a, ha⟩ := h.total hfits
      cases ha
  | ok a => exact .ok (hf a (h.post a rfl))

theorem Yields.foldlM {I : α → Prop} {f : α → β → Except ε α} {xs : List β}
    (hf : ∀ x ∈ xs, ∀ a, I a → Yields fits I (f a x)) {a : α} (ha : I a) :
    Yields fits I (xs.foldlM f a) := by
  induction xs generalizing a with
  | nil => exact .ok ha
  | cons x xs ih =>
    rw [List.foldlM_cons]
    exact (hf x (by simp) a ha).bind (fun _ h => ih (fun y hy => hf y (by simp [hy])) h)

theorem Yields.exists_ok {r : Except ε α} (h : Yields fits Q r) (hf : fits) :
    ∃ a, r = .ok a ∧ Q a := by
  obtain ⟨a, ha⟩ := h.total hf
  exact ⟨a, ha, h.post a ha⟩

/-! ## Results of closed computations -/

def failure : Except ε α → Option ε
  | .error e => some e
  | .ok _ => none

theorem eq_error {r : Except ε α} {e : ε} (h : failure r = some e) : r = .error e := by
  cases r with
  | error e' => exact congrArg _ (Option.some.inj h)
  | ok a => cases h

theorem eq_ok {r : Except ε α} (h : failure r = none) : ∃ a, r = .ok a := by
  cases r with
  | error e => cases h
  | ok a => exact ⟨a, rfl⟩

theorem toOption_ok {r : Except ε α} {a : α} (h : r.toOption = some a) : r = .ok a := by
  cases r with
  | error e => cases h
  | ok a' => exact congrArg _ (Option.some.inj h)

/-! ## Success -/

def Succeeds (r : Except ε α) : Prop := ∃ a, r = .ok a

theorem succeeds_bind (r : Except ε α) (f : α → Except ε β) :
    Succeeds (r.bind f) ↔ ∃ a, r = .ok a ∧ Succeeds (f a) := by
  cases r with
  | error e =>
    constructor
    · rintro ⟨_, h⟩
      cases h
    · rintro ⟨_, h, _⟩
      cases h
  | ok a => exact ⟨fun h => ⟨a, rfl, h⟩, fun ⟨_, ha, h⟩ => Except.ok.inj ha ▸ h⟩

theorem succeeds_bind_ok (r : Except ε α) (f : α → β) :
    Succeeds (r.bind fun a => .ok (f a)) ↔ Succeeds r := by
  rw [succeeds_bind]
  exact ⟨fun ⟨a, ha, _⟩ => ⟨a, ha⟩, fun ⟨a, ha⟩ => ⟨a, ha, _, rfl⟩⟩

theorem succeeds_map (r : Except ε α) (f : α → β) : Succeeds (r.map f) ↔ Succeeds r := by
  cases r with
  | error e =>
    constructor
    · rintro ⟨_, h⟩
      cases h
    · rintro ⟨_, h⟩
      cases h
  | ok a => exact ⟨fun _ => ⟨a, rfl⟩, fun _ => ⟨f a, rfl⟩⟩

theorem succeeds_mapM (xs : List α) (f : α → Except ε β) :
    Succeeds (xs.mapM f) ↔ ∀ x ∈ xs, Succeeds (f x) := by
  induction xs with
  | nil => exact ⟨fun _ _ h => absurd h List.not_mem_nil, fun _ => ⟨[], rfl⟩⟩
  | cons x xs ih =>
    rw [List.mapM_cons, List.forall_mem_cons, ← ih]
    refine (succeeds_bind _ _).trans ⟨?_, ?_⟩
    · rintro ⟨b, hb, h⟩
      exact ⟨⟨b, hb⟩, (succeeds_bind_ok _ _).mp h⟩
    · rintro ⟨⟨b, hb⟩, h⟩
      exact ⟨b, hb, (succeeds_bind_ok _ _).mpr h⟩

end KnxRs.Fallible
