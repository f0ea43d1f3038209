import KnxRs.TransportInvariant

set_option autoImplicit false

/-!
# Repetitions of a numbered frame

The transmissions of any run, sorted by the frame they belong to: how many there are of
each, that they are alike, and what happens when there may be no more.
-/
namespace KnxRs.Transport
open CoreTypes Runs

variable {α : Type} {t u : TransportLayer α} {c : Call α}

/-! ## What a call transmits -/

/-- A call transmits nothing and leaves a waiting layer with the frame it waits for, or it
transmits a new frame, or it repeats the frame that is waiting. -/
inductive Attempt (t : TransportLayer α) (c : Call α) (u : TransportLayer α) : Prop where
  | silent (none_sent : transmissions ⟨t, c, u⟩ = [])
      (waiting : u.state = .openWait → t.state = .openWait ∧ u.savedFrame = t.savedFrame ∧
        u.repCount = t.repCount)
  | first (idle : t.state = .openIdle) (frame : SavedFrame α)
      (sent : transmissions ⟨t, c, u⟩ = [frame]) (saved : u.savedFrame = some frame)
      (count : u.repCount = 0)
  | again (wait : t.state = .openWait) (left : t.repCount < maxRepCount)
      (sent : transmissions ⟨t, c, u⟩ = t.savedFrame.toList) (saved : u.savedFrame = t.savedFrame)
      (count : u.repCount = t.repCount + 1)

theorem outcome_attempt (o : Outcome t c u) : Attempt t c u := by
  cases o with
  | retransmitted hst rep _ =>
    rw [a9Retransmit_eq]
    refine .again hst rep ?_ rfl rfl
    cases hs : t.savedFrame with
    | none => simp [transmissions, produced]
    | some frame => simp [transmissions, produced, SavedFrame.action, Action.frame]
  | sent hst =>
    exact .first hst _ (by simp [transmissions, produced, Action.frame]) rfl rfl
  | flushed hst _ =>
    exact .first hst _ (by simp [transmissions, produced, Action.frame]) rfl rfl
  | ignored _ | rejected _ _ _ | received _ _ _ | repeated _ _ _ | wrongSeq _ _ _ _ | buffered _
  | notOpen _ | drained =>
    exact .silent (by simp [transmissions, produced, Action.frame]) fun h => ⟨h, rfl, rfl⟩
  | closedPassively _ _ | closedActively _ _ | acknowledged _ _ | connected _ | initiated _
  | opened _ =>
    exact .silent (by simp [transmissions, produced, Action.frame]) fun h => by cases h
  | disarmed hst =>
    exact .silent (by simp [transmissions, produced]) fun h => by
      have : t.state = .openWait := h
      rw [hst] at this
      cases this

/-! ## Attempts -/

/-- The attempts so far, a list for each frame, the latest frame first: a layer that is idle
begins a list, and one that is not adds to the latest. -/
def addAttempts (attempts : List (List (SavedFrame α))) (x : Step α) : List (List (SavedFrame α)) :=
  if x.source.state = .openIdle then (transmissions x).map (fun frame => [frame]) ++ attempts
  else match attempts with
    | [] => []
    | latest :: others => (latest ++ transmissions x) :: others

def attempts (tr : List (Step α)) : List (List (SavedFrame α)) := tr.foldl addAttempts []

variable {gs : List (List (SavedFrame α))} {x : Step α}

theorem addAttempts_silent (h : transmissions x = []) : addAttempts gs x = gs := by
  unfold addAttempts
  rw [h, List.map_nil, List.nil_append]
  split_ifs
  · rfl
  · cases gs with
    | nil => rfl
    | cons g gs =>
      dsimp only
      rw [List.append_nil]

theorem addAttempts_first {frame : SavedFrame α} (idle : x.source.state = .openIdle)
    (h : transmissions x = [frame]) : addAttempts gs x = [frame] :: gs := by
  unfold addAttempts
  rw [if_pos idle, h]
  rfl

theorem addAttempts_again {g : List (SavedFrame α)} (wait : x.source.state = .openWait) :
    addAttempts (g :: gs) x = (g ++ transmissions x) :: gs := by
  unfold addAttempts
  rw [if_neg (by rw [wait]; nofun)]

theorem attempts_append (tr tr' : List (Step α)) :
    attempts (tr ++ tr') = tr'.foldl addAttempts (attempts tr) := List.foldl_append

/-- How the attempts tell what has been transmitted, and how far a layer that waits has got. -/
structure Attempted (past : List (Step α)) (t : TransportLayer α) : Prop where
  complete : (attempts past).reverse.flatten = past.flatMap transmissions
  begun : (attempts past).reverse.filterMap List.head? = past.flatMap firstTransmissions
  alike : ∀ g ∈ attempts past, ∃ frame n, 1 ≤ n ∧ n ≤ 4 ∧ g = List.replicate n frame
  current : t.state = .openWait → ∃ frame others, t.savedFrame = some frame ∧
    t.repCount ≤ maxRepCount ∧
    attempts past = List.replicate (t.repCount.toNat + 1) frame :: others

theorem new_attempted : Attempted [] (.new : TransportLayer α) where
  complete := rfl
  begun := rfl
  alike := nofun
  current := nofun

section
variable {past : List (Step α)}

theorem attempts_snoc (past : List (Step α)) (x : Step α) :
    attempts (past ++ [x]) = addAttempts (attempts past) x :=
  attempts_append past [x]

theorem flatMap_snoc {β γ : Type} (xs : List β) (x : β) (f : β → List γ) :
    (xs ++ [x]).flatMap f = xs.flatMap f ++ f x := by
  rw [List.flatMap_append, List.flatMap_singleton]

theorem Attempted.silent (h : Attempted past t) (none_sent : transmissions ⟨t, c, u⟩ = [])
    (waiting : u.state = .openWait → t.state = .openWait ∧ u.savedFrame = t.savedFrame ∧
      u.repCount = t.repCount) : Attempted (past ++ [⟨t, c, u⟩]) u := by
  have hfirst : firstTransmissions ⟨t, c, u⟩ = [] := by
    unfold firstTransmissions
    rw [none_sent]
    exact ite_self _
  have hnext := attempts_snoc past ⟨t, c, u⟩
  rw [addAttempts_silent none_sent] at hnext
  refine ⟨?_, ?_, ?_, fun hu => ?_⟩
  · rw [hnext, flatMap_snoc, none_sent, List.append_nil]
    exact h.complete
  · rw [hnext, flatMap_snoc, hfirst, List.append_nil]
    exact h.begun
  · rw [hnext]
    exact h.alike
  · obtain ⟨hwait, hsaved, hcount⟩ := waiting hu
    rw [hnext, hsaved, hcount]
    exact h.current hwait

theorem Attempted.first (h : Attempted past t) (idle : t.state = .openIdle)
    {frame : SavedFrame α} (sent : transmissions ⟨t, c, u⟩ = [frame])
    (saved : u.savedFrame = some frame) (count : u.repCount = 0) :
    Attempted (past ++ [⟨t, c, u⟩]) u := by
  have hfirst : firstTransmissions ⟨t, c, u⟩ = [frame] := by
    unfold firstTransmissions
    rw [if_pos idle, sent]
  have hnext := attempts_snoc past ⟨t, c, u⟩
  rw [addAttempts_first idle sent] at hnext
  refine ⟨?_, ?_, ?_, fun _ => ⟨frame, attempts past, saved, ?_, ?_⟩⟩
  · rw [hnext, flatMap_snoc, sent, List.reverse_cons, List.flatten_append, h.complete]
    rfl
  · rw [hnext, flatMap_snoc, hfirst, List.reverse_cons, List.filterMap_append, h.begun]
    rfl
  · rw [hnext]
    refine List.forall_mem_cons.mpr ⟨⟨frame, 1, Nat.le_refl 1, by decide, rfl⟩, h.alike⟩
  · rw [count]
    decide
  · rw [hnext, count]
    rfl

theorem Attempted.again (h : Attempted past t) (wait : t.state = .openWait)
    (left : t.repCount < maxRepCount) (sent : transmissions ⟨t, c, u⟩ = t.savedFrame.toList)
    (saved : u.savedFrame = t.savedFrame) (count : u.repCount = t.repCount + 1) :
    Attempted (past ++ [⟨t, c, u⟩]) u := by
  obtain ⟨frame, others, hframe, hcount, hattempts⟩ := h.current wait
  have hfirst : firstTransmissions ⟨t, c, u⟩ = [] := by
    unfold firstTransmissions
    rw [if_neg (by rw [wait]; nofun)]
  have hsent : transmissions ⟨t, c, u⟩ = [frame] := by
    rw [sent, hframe]
    rfl
  have hthree : maxRepCount.toNat = 3 := rfl
  have hless := UInt8.lt_iff_toNat_lt.mp left
  have hrep : u.repCount.toNat = t.repCount.toNat + 1 := by
    have hone : (1 : UInt8).toNat = 1 := rfl
    rw [count, UInt8.toNat_add]
    omega
  have hnext := attempts_snoc past ⟨t, c, u⟩
  rw [hattempts, addAttempts_again wait, hsent, ← List.replicate_succ', ← hrep] at hnext
  refine ⟨?_, ?_, ?_, fun _ => ⟨frame, others, saved.trans hframe, ?_, ?_⟩⟩
  · have hcomplete := h.complete
    rw [hattempts, List.reverse_cons, List.flatten_append, List.flatten_singleton] at hcomplete
    rw [hnext, flatMap_snoc, hsent, List.reverse_cons, List.flatten_append, List.flatten_singleton,
      List.replicate_succ', ← List.append_assoc, hrep, hcomplete]
  · have hbegun := h.begun
    rw [hattempts, List.reverse_cons, List.filterMap_append] at hbegun
    rw [hnext, flatMap_snoc, hfirst, List.append_nil, List.reverse_cons, List.filterMap_append,
      ← hbegun]
    rfl
  · rw [hnext]
    refine List.forall_mem_cons.mpr ⟨⟨frame, u.repCount.toNat + 1, by omega, by omega, rfl⟩, ?_⟩
    intro g hg
    refine h.alike g ?_
    rw [hattempts]
    exact List.mem_cons_of_mem _ hg
  · rw [count]
    exact rep_succ_le left
  · exact hnext

theorem attempted_next (h : Attempted past t) (o : Attempt t c u) :
    Attempted (past ++ [⟨t, c, u⟩]) u := by
  cases o with
  | silent none_sent waiting => exact h.silent none_sent waiting
  | first idle frame sent saved count => exact h.first idle sent saved count
  | again wait left sent saved count => exact h.again wait left sent saved count

end

/-! ## Exhaustion -/

/-- The frame that the layer waits for is refused, or its acknowledgement is overdue. -/
def Call.refuses (t : TransportLayer α) : Call α → Prop
  | .nackIndication source seqNo _ => source = t.connectionAddress ∧ seqNo = t.seqNoSend
  | .poll nowMs => TransportLayer.passed t.ackTimeoutDeadline nowMs = true
  | _ => False

theorem refused_exhausted (wait : t.state = .openWait) (exhausted : ¬t.repCount < maxRepCount)
    (refused : c.refuses t) : apply t c = t.disconnectAndClose := by
  cases c with
  | nackIndication source seqNo nowMs =>
    obtain ⟨rfl, rfl⟩ := refused
    show t.nackIndication _ _ nowMs = _
    unfold TransportLayer.nackIndication
    rw [if_neg (not_not_intro rfl), wait]
    dsimp only
    rw [if_neg (not_not_intro rfl), if_neg exhausted]
  | poll nowMs =>
    show t.poll nowMs = _
    unfold TransportLayer.poll
    by_cases hconnection : TransportLayer.passed t.connectionTimeoutDeadline nowMs = true
    · rw [if_pos hconnection]
      dsimp only
      rw [wait]
      rfl
    · rw [if_neg hconnection, if_pos ⟨refused, wait⟩]
      dsimp only
      rw [if_neg exhausted]
      rfl
  | _ => exact refused.elim

/-- A list that is not added to any more: later calls only begin new ones. -/
theorem attempts_final {past more : List (Step α)} (idle : t.state ≠ .openWait)
    (run : Run (fun t c u => apply t c = u) t more u) :
    attempts past <:+ attempts (past ++ more) := by
  suffices hkept : attempts past <:+ attempts (past ++ more) ∧
      (u.state = .openWait → attempts past <:+ (attempts (past ++ more)).tail) from hkept.1
  have hsame : attempts past <:+ attempts (past ++ []) :=
    (List.append_nil past).symm ▸ List.suffix_rfl
  refine run.history (H := fun more u => attempts past <:+ attempts (past ++ more) ∧
    (u.state = .openWait → attempts past <:+ (attempts (past ++ more)).tail)) (fun _ => True)
    ⟨hsame, fun h => absurd h idle⟩ (fun _ _ => trivial) ?_
  rintro between ⟨t, c, u⟩ ⟨hsuffix, hwaiting⟩ _ hstep
  obtain rfl : apply t c = u := hstep
  rw [← List.append_assoc, attempts_append (past ++ between), List.foldl_cons, List.foldl_nil]
  cases outcome_attempt (apply_outcome t c) with
  | silent none_sent waiting =>
    rw [addAttempts_silent none_sent]
    exact ⟨hsuffix, fun hu => hwaiting (waiting hu).1⟩
  | first hidle frame sent _ _ =>
    rw [addAttempts_first hidle sent]
    exact ⟨hsuffix.trans (List.suffix_cons _ _), fun _ => hsuffix⟩
  | again wait _ sent _ _ =>
    have htail := hwaiting wait
    cases hattempts : attempts (past ++ between) with
    | nil =>
      rw [hattempts] at htail
      rw [List.suffix_nil.mp htail]
      exact ⟨List.nil_suffix, fun _ => List.nil_suffix⟩
    | cons latest others =>
      rw [hattempts] at htail
      rw [addAttempts_again wait]
      exact ⟨htail.trans (List.suffix_cons _ _), fun _ => htail⟩

/-! ## Every run -/

/-- The transmissions of a run, in their order, are attempts at the frames it has begun: at most
four at each, all alike. A layer that has made four and is refused, or waits too long, disconnects
and transmits nothing. Once it does not wait any more, nothing is added to an attempt. -/
structure RepeatsBounded (tr : List (Step α)) (t : TransportLayer α) : Prop where
  complete : (attempts tr).reverse.flatten = tr.flatMap transmissions
  begun : (attempts tr).reverse.filterMap List.head? = tr.flatMap firstTransmissions
  alike : ∀ g ∈ attempts tr, ∃ frame n, 1 ≤ n ∧ n ≤ 4 ∧ g = List.replicate n frame
  exhausted : ∀ c latest others, t.state = .openWait → attempts tr = latest :: others →
    latest.length = 4 → c.refuses t → (apply t c).state = .closed ∧
      produced ⟨t, c, apply t c⟩ = [.sendControl t.connectionAddress .disconnect 0,
        .disconnectIndication t.connectionAddress]
  final : t.state ≠ .openWait → ∀ more u, Run (fun t c u => apply t c = u) t more u →
    attempts tr <:+ attempts (tr ++ more)

theorem repetitions_bounded (calls : List (Call α)) :
    RepeatsBounded (trace apply .new calls) (calls.foldl apply (.new : TransportLayer α)) := by
  have h : Attempted (trace apply .new calls) (calls.foldl apply (.new : TransportLayer α)) :=
    (trace_run apply .new calls).history (H := Attempted) (fun _ => True) new_attempted
      (fun _ _ => trivial) fun past x hpast _ hstep => by
        obtain ⟨t, c, u⟩ := x
        obtain rfl : apply t c = u := hstep
        exact attempted_next hpast (outcome_attempt (apply_outcome t c))
  refine ⟨h.complete, h.begun, h.alike, fun c latest others wait hattempts four refused => ?_,
    fun idle more u run => attempts_final idle run⟩
  generalize calls.foldl apply (.new : TransportLayer α) = t at h wait refused ⊢
  obtain ⟨frame, others', _, _, hcurrent⟩ := h.current wait
  have hfour : t.repCount.toNat + 1 = 4 := by
    rw [hattempts] at hcurrent
    rw [(List.cons.inj hcurrent).1, List.length_replicate] at four
    exact four
  have exhausted : ¬t.repCount < maxRepCount := by
    have hthree : maxRepCount.toNat = 3 := rfl
    rw [UInt8.lt_iff_toNat_lt]
    omega
  rw [refused_exhausted wait exhausted refused]
  refine ⟨rfl, ?_⟩
  unfold produced
  rw [TransportLayer.disconnectAndClose_actions, List.drop_left]

/-- A frame that is refused twice and overdue twice is sent four times, and then the layer
disconnects. -/
example : (attempts (trace apply (.new : TransportLayer Nat)
    [.connectIndication ⟨0x1101⟩ 0, .dataConnectedRequest .low 1 10, .nackIndication ⟨0x1101⟩ 0 20,
      .poll 3020, .nackIndication ⟨0x1101⟩ 0 3030, .poll 6030])).map List.length = [4] := by
  decide

end KnxRs.Transport
