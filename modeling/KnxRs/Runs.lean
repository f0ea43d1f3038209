import Mathlib.Data.List.Basic

set_option autoImplicit false

/-!
# Runs of a state machine

Finite runs of a machine given by a step relation or a total step function, as
lists of transitions. The rules below carry an invariant, or a statement about
the whole history, from one step to every run.
-/
namespace KnxRs.Runs

variable {σ ε : Type}

/-- One transition: the state before the event, the event, the state after it. -/
structure Transition (σ ε : Type) where
  source : σ
  event : ε
  target : σ

/-- `Run step s tr t`: the transitions `tr`, oldest first, lead from `s` to `t`. -/
inductive Run (step : σ → ε → σ → Prop) : σ → List (Transition σ ε) → σ → Prop where
  | refl (s : σ) : Run step s [] s
  | next {s u t : σ} {e : ε} {tr : List (Transition σ ε)} (h : step s e u)
      (tail : Run step u tr t) : Run step s (⟨s, e, u⟩ :: tr) t

variable {step : σ → ε → σ → Prop}

theorem Run.append {s u t : σ} {xs ys : List (Transition σ ε)}
    (h : Run step s xs u) (h' : Run step u ys t) : Run step s (xs ++ ys) t := by
  induction h with
  | refl _ => exact h'
  | next hs _ ih => exact .next hs (ih h')

theorem Run.split {s t : σ} {xs ys : List (Transition σ ε)} (h : Run step s (xs ++ ys) t) :
    ∃ u, Run step s xs u ∧ Run step u ys t := by
  induction xs generalizing s with
  | nil => exact ⟨s, .refl s, h⟩
  | cons x xs ih =>
    cases h with
    | next hs tail =>
      obtain ⟨u, hu, ht⟩ := ih tail
      exact ⟨u, .next hs hu, ht⟩

theorem Run.head {s t : σ} {x : Transition σ ε} {ys : List (Transition σ ε)}
    (h : Run step s (x :: ys) t) :
    x.source = s ∧ step s x.event x.target ∧ Run step x.target ys t := by
  cases h with
  | next hs tail => exact ⟨rfl, hs, tail⟩

/-- A statement about the history and the state it has led to holds of every run
    whose transitions all meet `ok`, when each such transition extends it. -/
theorem Run.history {H : List (Transition σ ε) → σ → Prop} {s t : σ}
    {tr : List (Transition σ ε)} (h : Run step s tr t) (ok : Transition σ ε → Prop)
    (start : H [] s) (hok : ∀ x ∈ tr, ok x)
    (extend : ∀ past x, H past x.source → ok x → step x.source x.event x.target →
      H (past ++ [x]) x.target) : H tr t := by
  suffices aux : ∀ past, H past s → H (past ++ tr) t from aux [] start
  clear start
  induction h with
  | refl s => intro past hp; simpa using hp
  | @next s u t e tr hs tail ih =>
    intro past hp
    have first := extend past ⟨s, e, u⟩ hp (hok _ (by simp)) hs
    have rest := ih (fun x hx => hok x (by simp [hx])) _ first
    simpa using rest

theorem Run.invariant {I : σ → Prop} {s t : σ} {tr : List (Transition σ ε)}
    (h : Run step s tr t) (ok : Transition σ ε → Prop) (start : I s) (hok : ∀ x ∈ tr, ok x)
    (keep : ∀ x, I x.source → ok x → step x.source x.event x.target → I x.target) : I t :=
  h.history (H := fun _ u => I u) ok start hok (fun _ => keep)

/-- What an invariant gives for each single transition of a run. -/
theorem Run.always {I : σ → Prop} {P : Transition σ ε → Prop} {s t : σ}
    {tr : List (Transition σ ε)} (h : Run step s tr t) (ok : Transition σ ε → Prop)
    (start : I s) (hok : ∀ x ∈ tr, ok x)
    (keep : ∀ x, I x.source → ok x → step x.source x.event x.target → I x.target)
    (prove : ∀ x, I x.source → ok x → step x.source x.event x.target → P x) :
    ∀ x ∈ tr, P x := by
  induction h with
  | refl _ => intro x hx; cases hx
  | @next s u t e tr hs tail ih =>
    have hx := hok ⟨s, e, u⟩ (by simp)
    intro x hmem
    rcases List.mem_cons.mp hmem with rfl | hmem
    · exact prove _ start hx hs
    · exact ih (keep _ start hx hs) (fun y hy => hok y (by simp [hy])) x hmem

/-- Where each step, under an invariant `J`, keeps `I` exactly when it is `ok`, so does the
    whole run. -/
theorem Run.always_iff {I J : σ → Prop} {ok : Transition σ ε → Prop} {s t : σ}
    {tr : List (Transition σ ε)} (h : Run step s tr t) (start : J s) (start' : I s)
    (keep : ∀ x : Transition σ ε, J x.source → step x.source x.event x.target → J x.target)
    (each : ∀ x, J x.source → I x.source → step x.source x.event x.target →
      (I x.target ↔ ok x)) :
    (∀ x ∈ tr, I x.target) ↔ ∀ x ∈ tr, ok x := by
  induction h with
  | refl _ => exact ⟨fun _ _ hx => absurd hx List.not_mem_nil,
      fun _ _ hx => absurd hx List.not_mem_nil⟩
  | @next s u t e tr hs _ ih =>
    rw [List.forall_mem_cons, List.forall_mem_cons]
    have first := each ⟨s, e, u⟩ start start' hs
    have rest := ih (keep ⟨s, e, u⟩ start hs)
    exact ⟨fun ⟨hu, htr⟩ => ⟨first.mp hu, (rest hu).mp htr⟩,
      fun ⟨hx, htr⟩ => ⟨first.mpr hx, (rest (first.mpr hx)).mpr htr⟩⟩

/-- Where each step, under an invariant `J`, extends a statement `H` about the history exactly
    when it is `ok`, so does the whole run. -/
theorem Run.history_iff {H : List (Transition σ ε) → σ → Prop} {J : σ → Prop}
    {ok : Transition σ ε → Prop} {s t : σ} {tr : List (Transition σ ε)} (h : Run step s tr t)
    (start : J s) (start' : H [] s)
    (keep : ∀ x : Transition σ ε, J x.source → step x.source x.event x.target → J x.target)
    (each : ∀ past x, J x.source → H past x.source → step x.source x.event x.target →
      (H (past ++ [x]) x.target ↔ ok x)) :
    (∀ past x rest, tr = past ++ x :: rest → H (past ++ [x]) x.target) ↔ ∀ x ∈ tr, ok x := by
  suffices aux : ∀ before, H before s →
      ((∀ past x rest, tr = past ++ x :: rest → H (before ++ past ++ [x]) x.target) ↔
        ∀ x ∈ tr, ok x) from aux [] start'
  clear start'
  induction h with
  | refl s =>
    refine fun _ _ => ⟨fun _ x hx => absurd hx List.not_mem_nil, fun _ past x rest he => ?_⟩
    exact absurd he.symm (List.append_ne_nil_of_right_ne_nil past (List.cons_ne_nil x rest))
  | @next s u t e tr hs _ ih =>
    intro before hbefore
    have first := each before ⟨s, e, u⟩ start hbefore hs
    have rest := ih (keep ⟨s, e, u⟩ start hs) (before ++ [⟨s, e, u⟩])
    rw [List.forall_mem_cons]
    constructor
    · intro hall
      have hfirst : H (before ++ [⟨s, e, u⟩]) u := by
        have := hall [] ⟨s, e, u⟩ tr rfl
        rwa [List.append_nil] at this
      refine ⟨first.mp hfirst, (rest hfirst).mp fun past x later he => ?_⟩
      have := hall (⟨s, e, u⟩ :: past) x later (by rw [he, List.cons_append])
      rwa [List.append_cons before] at this
    · rintro ⟨hok, hall⟩ past x later he
      cases past with
      | nil =>
        obtain ⟨rfl, rfl⟩ := List.cons.inj he
        rw [List.append_nil]
        exact first.mpr hok
      | cons y past =>
        obtain ⟨rfl, htail⟩ := List.cons.inj he
        rw [List.append_cons before]
        exact (rest (first.mpr hok)).mpr hall past x later htail

/-! ## What has held since -/

/-- Some transition meets `p`, and all after it meet `q`. -/
def Since (p q : Transition σ ε → Prop) (tr : List (Transition σ ε)) : Prop :=
  ∃ before x after, tr = before ++ x :: after ∧ p x ∧ ∀ y ∈ after, q y

theorem since_now {p q : Transition σ ε → Prop} (past : List (Transition σ ε))
    {x : Transition σ ε} (h : p x) : Since p q (past ++ [x]) :=
  ⟨past, x, [], rfl, h, fun _ hy => absurd hy List.not_mem_nil⟩

theorem Since.next {p q : Transition σ ε → Prop} {past : List (Transition σ ε)}
    (h : Since p q past) {x : Transition σ ε} (hx : q x) : Since p q (past ++ [x]) := by
  obtain ⟨before, y, after, rfl, hy, hafter⟩ := h
  refine ⟨before, y, after ++ [x], by rw [List.append_assoc, List.cons_append], hy, ?_⟩
  intro z hz
  rcases List.mem_append.mp hz with hz | hz
  · exact hafter z hz
  · exact List.mem_singleton.mp hz ▸ hx

/-- The image of a run under a map of its states and events into another machine. -/
theorem Run.map {τ δ : Type} {step' : τ → δ → τ → Prop} {I : σ → Prop} {s t : σ}
    {tr : List (Transition σ ε)} (h : Run step s tr t) (f : σ → τ) (g : σ → ε → δ) (start : I s)
    (each : ∀ a e b, I a → step a e b → I b ∧ step' (f a) (g a e) (f b)) :
    Run step' (f s) (tr.map fun x => ⟨f x.source, g x.source x.event, f x.target⟩) (f t) := by
  induction h with
  | refl s => exact .refl (f s)
  | next hs _ ih =>
    obtain ⟨hu, hstep⟩ := each _ _ _ start hs
    exact .next hstep (ih hu)

/-- The transitions of a total deterministic machine over a list of events. -/
def trace (f : σ → ε → σ) : σ → List ε → List (Transition σ ε)
  | _, [] => []
  | s, e :: es => ⟨s, e, f s e⟩ :: trace f (f s e) es

theorem trace_run (f : σ → ε → σ) (s : σ) (es : List ε) :
    Run (fun a e b => f a e = b) s (trace f s es) (es.foldl f s) := by
  induction es generalizing s with
  | nil => exact .refl s
  | cons e es ih => exact .next rfl (ih _)

end KnxRs.Runs
