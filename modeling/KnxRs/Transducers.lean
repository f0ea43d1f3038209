import Mathlib.Data.List.Basic

set_option autoImplicit false

/-!
# Transducers

A machine that takes one input at a time and gives one output for it. A machine that may
panic is followed through a total one that it simulates, over any inputs.
-/
namespace KnxRs.Transducers

variable {σ α ι ω ο : Type}

/-- The outputs of a total machine, and the state they leave it in. -/
def run (step : α → ι → ο × α) (a : α) : List ι → List ο × α
  | [] => ([], a)
  | input :: inputs =>
    let rest := run step (step a input).2 inputs
    ((step a input).1 :: rest.1, rest.2)

/-- The outputs of a machine that may panic, `none` once it has. -/
def feed (step : σ → ι → Option (ω × σ)) (s : σ) : List ι → Option (List ω × σ)
  | [] => some ([], s)
  | input :: inputs =>
    (step s input).bind fun result =>
      (feed step result.2 inputs).map fun rest => (result.1 :: rest.1, rest.2)

variable {step : α → ι → ο × α} {a : α} {inputs : List ι}

theorem run_outputs_length : (run step a inputs).1.length = inputs.length := by
  induction inputs generalizing a with
  | nil => rfl
  | cons input inputs ih => exact congrArg Nat.succ ih

theorem run_append (inputs' : List ι) : run step a (inputs ++ inputs') =
    ((run step a inputs).1 ++ (run step (run step a inputs).2 inputs').1,
      (run step (run step a inputs).2 inputs').2) := by
  induction inputs generalizing a with
  | nil => rfl
  | cons input inputs ih =>
    rw [List.cons_append, run, ih]
    rfl

/-- A statement about the state after so many inputs holds of every run. -/
theorem run_invariant {I : List ι → α → Prop} (start : I [] a)
    (keep : ∀ past state input, I past state → I (past ++ [input]) (step state input).2) :
    I inputs (run step a inputs).2 := by
  suffices h : ∀ past, I past a → I (past ++ inputs) (run step a inputs).2 from h [] start
  clear start
  induction inputs generalizing a with
  | nil =>
    intro past h
    rwa [List.append_nil]
  | cons input inputs ih =>
    intro past h
    have := ih (past ++ [input]) (keep past a input h)
    rwa [List.append_assoc] at this

/-- Steps that are matched by a total machine do not panic over any inputs, and give the
    outputs of that machine. -/
theorem feed_simulates {concrete : σ → ι → Option (ω × σ)} {R : σ → α → Prop} {view : ω → ο}
    (simulates : ∀ s a input, R s a → ∃ output s', concrete s input = some (output, s') ∧
      view output = (step a input).1 ∧ R s' (step a input).2) {s : σ} (related : R s a) :
    ∃ outputs s', feed concrete s inputs = some (outputs, s') ∧
      outputs.map view = (run step a inputs).1 ∧ R s' (run step a inputs).2 := by
  induction inputs generalizing s a with
  | nil => exact ⟨[], s, rfl, rfl, related⟩
  | cons input inputs ih =>
    obtain ⟨output, s', hstep, hview, hrelated⟩ := simulates s a input related
    obtain ⟨outputs, s'', hfeed, hviews, hrelated'⟩ := ih hrelated
    refine ⟨output :: outputs, s'', ?_, ?_, hrelated'⟩
    · rw [feed, hstep, Option.bind_some, hfeed]
      rfl
    · rw [List.map_cons, hview, hviews]
      rfl

end KnxRs.Transducers
