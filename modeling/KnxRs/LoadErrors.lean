import KnxRs.Runs
import KnxRs.TableObjects

set_option autoImplicit false

/-!
# Load errors

The error code of a table over any sequence of load events, property writes and
restores, against its load state.
-/
namespace KnxRs.TableObjects
open CoreTypes Properties Octets Runs

/-- What is done to a table: a load event, a write of one of its properties, a restore. -/
inductive TableOp where
  | loadEvent (data : List UInt8) (memoryAreaLen : Nat)
  | propertyWrite (propertyId : PropertyId) (data : List UInt8) (memoryAreaLen : Nat)
  | restore (data : List UInt8)

/-- The load event an operation is for the table: a write of any other property than
    `LoadStateControl` goes past it. -/
def TableOp.event : TableOp → Option (List UInt8 × Nat)
  | .loadEvent data memoryAreaLen => some (data, memoryAreaLen)
  | .propertyWrite propertyId data memoryAreaLen =>
    if propertyId = .loadStateControl then some (data, memoryAreaLen) else none
  | .restore _ => none

def TableObject.apply (t : TableObject) (op : TableOp) : TableObject :=
  match op with
  | .restore data => (t.restore data).2
  | .loadEvent data memoryAreaLen => (t.handleLoadEvent data memoryAreaLen).1
  | .propertyWrite propertyId data memoryAreaLen =>
    if propertyId = .loadStateControl then (t.handleLoadEvent data memoryAreaLen).1 else t

abbrev TableRun (t : TableObject) (tr : List (Transition TableObject TableOp))
    (u : TableObject) : Prop :=
  Run (fun a op b => a.apply op = b) t tr u

def undefinedCommand (data : List UInt8) : Bool :=
  data.head?.any fun first => (LoadEvent.fromByte first).isNone

def Raises (x : Transition TableObject TableOp) : Prop :=
  ∃ event, x.event.event = some event ∧ x.target.state = .error ∧
    (x.source.state ≠ .error ∨ undefinedCommand event.1 = true)

def Restores (x : Transition TableObject TableOp) : Prop :=
  ∃ data, x.event = .restore data ∧ TableObject.saveSize ≤ data.length

def RestoresError (x : Transition TableObject TableOp) : Prop :=
  Restores x ∧ x.target.state = .error

/-! ## One operation -/

/-- An event either raises an error and sets its code, or keeps the code and does not enter
    `Error`. -/
inductive TableObject.Faulted (t : TableObject) (data : List UInt8) : TableObject → Prop where
  | raised {u : TableObject} (fault : LoadError) (real : fault ≠ .noFault)
      (state : u.state = .error) (code : u.error = fault)
      (new : t.state ≠ .error ∨ undefinedCommand data = true) : Faulted t data u
  | kept {u : TableObject} (code : u.error = t.error)
      (old : u.state = .error → t.state = .error) (known : undefinedCommand data = false) :
      Faulted t data u

theorem TableObject.handleAdditionalLoadControls_faulted {t : TableObject} {data : List UInt8}
    (hstate : t.state = .loading) (known : undefinedCommand data = false) (memoryAreaLen : Nat) :
    t.Faulted data (t.handleAdditionalLoadControls data memoryAreaLen).1 := by
  have hnew : t.state ≠ .error := by
    rw [hstate]
    decide
  unfold handleAdditionalLoadControls
  dsimp only
  split_ifs with hop hsize
  · exact .raised .invalidOpcode (by decide) rfl rfl (.inl hnew)
  · exact .raised .maxTableLengthExceeded (by decide) rfl rfl (.inl hnew)
  · exact .kept rfl id known
  · exact .kept rfl id known

theorem TableObject.handleLoadEvent_faulted (t : TableObject) (data : List UInt8)
    (memoryAreaLen : Nat) : t.Faulted data (t.handleLoadEvent data memoryAreaLen).1 := by
  cases data with
  | nil => exact .kept rfl id rfl
  | cons first rest =>
    unfold TableObject.handleLoadEvent
    dsimp only
    cases hevent : LoadEvent.fromByte first with
    | none =>
      refine .raised .undefinedLoadCommand (by decide) rfl rfl (.inr ?_)
      rw [undefinedCommand, List.head?_cons, Option.any_some, hevent]
      rfl
    | some event =>
      have hknown : undefinedCommand (first :: rest) = false := by
        rw [undefinedCommand, List.head?_cons, Option.any_some, hevent]
        rfl
      dsimp only
      cases hstate : t.state with
      | unloading | loadCompleting => exact .kept rfl id hknown
      | unloaded =>
        cases event with
        | startLoading => exact .kept rfl (fun h => by cases h) hknown
        | _ => exact .kept rfl id hknown
      | loaded =>
        cases event with
        | noop | loadCompleted => exact .kept rfl id hknown
        | startLoading | unload => exact .kept rfl (fun h => by cases h) hknown
        | additionalLoadControls =>
          refine .raised .invalidOpcode (by decide) rfl rfl (.inl ?_)
          rw [hstate]
          decide
      | error =>
        cases event with
        | unload => exact .kept rfl (fun h => by cases h) hknown
        | _ => exact .kept rfl id hknown
      | loading =>
        cases event with
        | noop | startLoading => exact .kept rfl id hknown
        | loadCompleted | unload => exact .kept rfl (fun h => by cases h) hknown
        | additionalLoadControls =>
          exact handleAdditionalLoadControls_faulted hstate hknown memoryAreaLen

/-- A restore clears the code with whatever state it loads, or finds too few octets. -/
theorem TableObject.restore_cases (t : TableObject) (data : List UInt8) :
    (saveSize ≤ data.length ∧ (t.restore data).2.error = .noFault) ∨
      (data.length < saveSize ∧ t.restore data = (0, t)) := by
  unfold TableObject.restore
  by_cases hlen : data.length < saveSize
  · rw [if_pos hlen]
    exact .inr ⟨hlen, rfl⟩
  · rw [if_neg hlen]
    refine .inl ⟨Nat.le_of_not_lt hlen, ?_⟩
    dsimp only
    split_ifs <;> rfl

/-- Every operation is a load event, a restore that clears the code, or leaves the table as
    it is. -/
theorem TableObject.apply_cases (t : TableObject) (op : TableOp) :
    (∃ event, op.event = some event ∧ t.Faulted event.1 (t.apply op)) ∨
      (Restores ⟨t, op, t.apply op⟩ ∧ (t.apply op).error = .noFault) ∨
      t.apply op = t ∧ op.event = none ∧ ¬ Restores ⟨t, op, t.apply op⟩ := by
  cases op with
  | loadEvent data memoryAreaLen =>
    exact .inl ⟨_, rfl, t.handleLoadEvent_faulted data memoryAreaLen⟩
  | propertyWrite propertyId data memoryAreaLen =>
    unfold TableObject.apply TableOp.event
    dsimp only
    split_ifs with hpid
    · exact .inl ⟨_, rfl, t.handleLoadEvent_faulted data memoryAreaLen⟩
    · refine .inr (.inr ⟨rfl, rfl, ?_⟩)
      rintro ⟨restored, hrestored, _⟩
      cases hrestored
  | restore data =>
    rcases t.restore_cases data with ⟨hlen, hcode⟩ | ⟨hlen, hsame⟩
    · exact .inr (.inl ⟨⟨data, rfl, hlen⟩, hcode⟩)
    · refine .inr (.inr ⟨congrArg Prod.snd hsame, rfl, ?_⟩)
      rintro ⟨restored, hrestored, hle⟩
      obtain rfl := TableOp.restore.inj hrestored
      exact absurd hlen (Nat.not_lt.mpr hle)

/-! ## Any sequence of operations -/

/-- The code and the state, by what has been raised and restored. -/
structure CodeHeld (past : List (Transition TableObject TableOp)) (t : TableObject) : Prop where
  code : t.error ≠ .noFault → Since Raises (fun y => ¬ Restores y) past
  state : t.state = .error → t.error ≠ .noFault ∨
    Since RestoresError (fun y => y.target.state = .error) past

theorem not_restores_of_event {x : Transition TableObject TableOp} {event : List UInt8 × Nat}
    (h : x.event.event = some event) : ¬ Restores x := by
  rintro ⟨data, hdata, _⟩
  rw [hdata] at h
  cases h

theorem codeHeld_fresh {t : TableObject} (h : t = .new ∨ t = .newLoaded) : CodeHeld [] t := by
  rcases h with rfl | rfl
  · exact ⟨fun hfault => absurd rfl hfault, fun hstate => by cases hstate⟩
  · exact ⟨fun hfault => absurd rfl hfault, fun hstate => by cases hstate⟩

theorem codeHeld_extend {past : List (Transition TableObject TableOp)}
    {x : Transition TableObject TableOp} (h : CodeHeld past x.source)
    (hstep : x.source.apply x.event = x.target) : CodeHeld (past ++ [x]) x.target := by
  have hcases := x.source.apply_cases x.event
  rw [hstep] at hcases
  rcases hcases with ⟨event, hevent, hfault⟩ | ⟨hrestores, hcode⟩ | ⟨hsame, _, hkeeps⟩
  · have hkeeps := not_restores_of_event hevent
    cases hfault with
    | raised fault real state code new =>
      exact ⟨fun _ => since_now past ⟨event, hevent, state, new⟩, fun _ => .inl (code ▸ real)⟩
    | kept code old known =>
      refine ⟨fun hfault => (h.code (code ▸ hfault)).next hkeeps, fun hstate => ?_⟩
      rcases h.state (old hstate) with hfault | hsince
      · exact .inl (code.symm ▸ hfault)
      · exact .inr (hsince.next hstate)
  · refine ⟨fun hfault => absurd hcode hfault, fun hstate => .inr ?_⟩
    exact since_now past ⟨hrestores, hstate⟩
  · rw [hsame]
    refine ⟨fun hfault => (h.code hfault).next hkeeps, fun hstate => ?_⟩
    rcases h.state hstate with hfault | hsince
    · exact .inl hfault
    · exact .inr (hsince.next (hsame.symm ▸ hstate))

theorem raises_code {x : Transition TableObject TableOp}
    (hstep : x.source.apply x.event = x.target) (h : Raises x) : x.target.error ≠ .noFault := by
  obtain ⟨event, hevent, hstate, hnew⟩ := h
  have hcases := x.source.apply_cases x.event
  rw [hstep] at hcases
  rcases hcases with ⟨event', hevent', hfault⟩ | ⟨hrestores, _⟩ | ⟨_, hnone, _⟩
  · rw [hevent] at hevent'
    obtain rfl := Option.some.inj hevent'
    cases hfault with
    | raised fault real _ code _ => exact code ▸ real
    | kept _ old known =>
      rcases hnew with hnew | hnew
      · exact absurd (old hstate) hnew
      · rw [hnew] at known
        cases known
  · exact absurd hrestores (not_restores_of_event hevent)
  · rw [hevent] at hnone
    cases hnone

/-- A table in `Error` has an error code, unless it has been in `Error` since a restore loaded
    that state; a table with an error code has raised it since it was last restored; and an
    event that enters `Error`, or is undefined, sets a code. -/
theorem error_code_raised {t u : TableObject} {tr : List (Transition TableObject TableOp)}
    (hfresh : t = .new ∨ t = .newLoaded) (h : TableRun t tr u) :
    (u.state = .error → u.error ≠ .noFault ∨
      Since RestoresError (fun y => y.target.state = .error) tr) ∧
      (u.error ≠ .noFault → Since Raises (fun y => ¬ Restores y) tr) ∧
      ∀ x ∈ tr, Raises x → x.target.error ≠ .noFault := by
  have hheld := h.history (fun _ => True) (codeHeld_fresh hfresh) (fun _ _ => trivial)
    fun _ _ hheld _ hstep => codeHeld_extend hheld hstep
  refine ⟨hheld.state, hheld.code, ?_⟩
  exact h.always (I := fun _ => True) (fun _ => True) trivial (fun _ _ => trivial)
    (fun _ _ _ _ => trivial) fun _ _ _ hstep => raises_code hstep

/-- Loading is started, and then an undefined command is sent. -/
theorem undefined_command_raised :
    ((TableObject.new.apply (.loadEvent [1] 0)).apply (.loadEvent [9] 0)).error ≠ .noFault :=
  (error_code_raised (.inl rfl)
    (trace_run TableObject.apply .new [.loadEvent [1] 0, .loadEvent [9] 0])).2.2 _
    (List.mem_cons_of_mem _ List.mem_cons_self)
    ⟨_, rfl, rfl, .inl (by decide)⟩

/-- A restore of the state `Error` leaves no code. -/
theorem restored_without_code :
    ¬ ∀ (t u : TableObject) (tr : List (Transition TableObject TableOp)),
      t = .new ∨ t = .newLoaded → TableRun t tr u → (u.state = .error ↔ u.error ≠ .noFault) := by
  intro h
  have hrun := trace_run TableObject.apply .new
    [.restore (LoadState.error.raw :: List.replicate 8 0)]
  exact (h _ _ _ (.inl rfl) hrun).mp rfl rfl

end KnxRs.TableObjects
