import KnxRs.TransportInvariant

set_option autoImplicit false

/-!
# The layer as a device uses it

A device answers connections and never opens one. What holds of every APDU it asks
to send holds of every APDU the layer keeps, and it never waits for a confirmation.
-/
namespace KnxRs.Transport
open CoreTypes Runs

variable {α : Type}

/-- The action hands received data to the device; every other one is at most a frame. -/
def Action.serves : Action α → Bool
  | .dataConnectedIndication .. => true
  | _ => false

/-- The calls of a device, each APDU to be sent satisfying `P`. -/
def Call.Answering (P : α → Prop) : Call α → Prop
  | .dataConnectedRequest _ apdu _ => P apdu
  | .connectRequest .. | .connectConfirm _ => False
  | _ => True

/-- Every APDU that is to be sent, now or again, satisfies `P`. -/
structure Carries (P : α → Prop) (t : TransportLayer α) : Prop where
  saved : ∀ frame, t.savedFrame = some frame → P frame.apdu
  buffered : ∀ req, t.bufferedRequest = some req → P req.apdu
  queued : ∀ destination seqNo priority apdu,
    Action.sendDataConnected destination seqNo priority apdu ∈ t.actions → P apdu

theorem Carries.mono {P Q : α → Prop} {t : TransportLayer α} (h : Carries P t)
    (hpq : ∀ a, P a → Q a) : Carries Q t :=
  ⟨fun f hf => hpq _ (h.saved f hf), fun r hr => hpq _ (h.buffered r hr),
    fun d s p a ha => hpq _ (h.queued d s p a ha)⟩

theorem Carries.of_forall {P : α → Prop} (h : ∀ a, P a) (t : TransportLayer α) : Carries P t :=
  ⟨fun _ _ => h _, fun _ _ => h _, fun _ _ _ _ _ => h _⟩

theorem new_carries (P : α → Prop) : Carries P .new :=
  ⟨nofun, nofun, nofun⟩

variable {P : α → Prop} {t u : TransportLayer α} {c : Call α}

theorem Carries.of_eq (h : Carries P t) (hs : u.savedFrame = t.savedFrame)
    (hb : u.bufferedRequest = t.bufferedRequest) {new : List (Action α)}
    (ha : u.actions = t.actions ++ new) (hn : ∀ a ∈ new, a.frame = none) : Carries P u where
  saved := hs ▸ h.saved
  buffered := hb ▸ h.buffered
  queued := by
    intro destination seqNo priority apdu hmem
    rw [ha] at hmem
    rcases List.mem_append.mp hmem with hmem | hmem
    · exact h.queued _ _ _ _ hmem
    · cases hn _ hmem

theorem a7SendData_carries (h : Carries P t) {priority : Priority} {apdu : α} (hp : P apdu)
    (nowMs : UInt64) : Carries P { t.a7SendData priority apdu nowMs with state := .openWait } where
  saved := by
    intro frame hf
    cases hf
    exact hp
  buffered := h.buffered
  queued := by
    intro destination seqNo priority' apdu' hmem
    rcases List.mem_append.mp hmem with hmem | hmem
    · exact h.queued _ _ _ _ hmem
    · cases List.mem_singleton.mp hmem
      exact hp

theorem outcome_carries (o : Outcome t c u) (hc : c.Answering P) (h : Carries P t) :
    Carries P u := by
  cases o with
  | ignored _ => exact h
  | opened _ => exact h.of_eq rfl rfl rfl (by simp [Action.frame])
  | rejected _ _ _ => exact h.of_eq rfl rfl rfl (by simp [Action.frame])
  | closedPassively _ _ => exact h.of_eq rfl rfl rfl (by simp [Action.frame])
  | closedActively _ _ =>
    exact h.of_eq rfl rfl (t.disconnectAndClose_actions) (by simp [Action.frame])
  | disarmed _ => exact ⟨h.saved, h.buffered, h.queued⟩
  | received _ _ _ =>
    exact h.of_eq rfl rfl (t.a2ReceiveData_actions _ _ _ _) (by simp [Action.frame])
  | repeated _ _ _ => exact h.of_eq rfl rfl rfl (by simp [Action.frame])
  | wrongSeq _ _ _ _ => exact h.of_eq rfl rfl rfl (by simp [Action.frame])
  | acknowledged _ _ =>
    refine ⟨fun _ hf => ?_, h.buffered, ?_⟩
    · cases hf
    · intro destination seqNo priority apdu hmem
      rcases List.mem_append.mp hmem with hmem | hmem
      · exact h.queued _ _ _ _ hmem
      · cases List.mem_singleton.mp hmem
  | retransmitted _ _ _ =>
    rw [a9Retransmit_eq]
    refine ⟨h.saved, h.buffered, ?_⟩
    intro destination seqNo priority apdu hmem
    rcases List.mem_append.mp hmem with hmem | hmem
    · exact h.queued _ _ _ _ hmem
    · cases hs : t.savedFrame with
      | none => simp [hs] at hmem
      | some frame =>
        simp only [hs, Option.map_some, Option.toList_some, List.mem_singleton,
          SavedFrame.action] at hmem
        cases hmem
        exact h.saved _ hs
  | connected _ => exact hc.elim
  | sent _ => exact a7SendData_carries h hc _
  | @flushed req _ _ hb =>
    have hrest : Carries P { t with bufferedRequest := none } :=
      ⟨h.saved, by simp, h.queued⟩
    exact a7SendData_carries hrest (h.buffered req hb) _
  | buffered _ =>
    refine ⟨h.saved, fun req hr => ?_, h.queued⟩
    cases hr
    exact hc
  | initiated _ => exact hc.elim
  | notOpen _ => exact h.of_eq rfl rfl rfl (by simp [Action.frame])
  | drained => exact ⟨h.saved, h.buffered, fun _ _ _ _ hmem => absurd hmem List.not_mem_nil⟩

theorem outcome_notConnecting (o : Outcome t c u) (hc : c.Answering P)
    (h : t.state ≠ .connecting) : u.state ≠ .connecting := by
  cases o with
  | connected hst => exact absurd hst h
  | initiated _ => exact hc.elim
  | retransmitted _ _ _ =>
    rw [a9Retransmit_eq]
    exact h
  | closedActively _ _ | closedPassively _ _ | opened _ | acknowledged _ _ | sent _
  | flushed _ _ => simp [TransportLayer.a1AcceptConnection, TransportLayer.disconnectAndClose]
  | _ => exact h

/-- Numbered data from the peer of an open connection, with the number expected next. -/
def inSequence (t : TransportLayer α) (source : IndividualAddress) (seqNo : UInt8) : Bool :=
  source = t.connectionAddress ∧ (t.state = .openIdle ∨ t.state = .openWait) ∧
    seqNo = t.seqNoRecv

theorem dataConnectedIndication_inSequence {source : IndividualAddress} {seqNo : UInt8}
    (h : inSequence t source seqNo = true) (priority : Priority) (apdu : α) (nowMs : UInt64) :
    t.dataConnectedIndication source seqNo priority apdu nowMs =
      t.a2ReceiveData source priority apdu nowMs := by
  obtain ⟨rfl, hst, rfl⟩ := of_decide_eq_true h
  unfold TransportLayer.dataConnectedIndication
  rw [if_neg (not_not_intro rfl)]
  rcases hst with hst | hst
  · simp only [hst, ↓reduceIte]
  · simp only [hst, ↓reduceIte]

theorem outcome_serves (o : Outcome t c u) (hs : ∀ a ∈ t.actions, a.serves = false)
    (hc : ∀ source seqNo priority apdu nowMs,
      c = .dataConnectedIndication source seqNo priority apdu nowMs →
        inSequence t source seqNo = false) :
    ∀ a ∈ u.actions, a.serves = false := by
  have appended {new : List (Action α)} {v : TransportLayer α}
      (he : v.actions = t.actions ++ new) (hn : ∀ a ∈ new, a.serves = false) :
      ∀ a ∈ v.actions, a.serves = false := by
    intro a ha
    rw [he] at ha
    rcases List.mem_append.mp ha with ha | ha
    · exact hs a ha
    · exact hn a ha
  cases o with
  | ignored _ => exact hs
  | received hst peer seq =>
    have := hc _ _ _ _ _ rfl
    simp [inSequence, hst, peer, seq] at this
  | disarmed _ | buffered _ => exact hs
  | drained =>
    intro a ha
    cases ha
  | closedActively _ _ => exact appended t.disconnectAndClose_actions (by simp [Action.serves])
  | retransmitted _ _ _ =>
    refine appended (congrArg TransportLayer.actions (a9Retransmit_eq t _)) ?_
    cases hsaved : t.savedFrame <;> simp [SavedFrame.action, Action.serves]
  | _ => exact appended rfl (by simp [Action.serves])

/-! ## Evolution -/

/-- The layer goes from `t` to `u` under a device's calls. -/
def Evolves (P : α → Prop) (t u : TransportLayer α) : Prop :=
  ∃ calls : List (Call α), (∀ c ∈ calls, c.Answering P) ∧ u = calls.foldl apply t

theorem Evolves.refl (P : α → Prop) (t : TransportLayer α) : Evolves P t t :=
  ⟨[], nofun, rfl⟩

theorem Evolves.call (t : TransportLayer α) (hc : c.Answering P) : Evolves P t (apply t c) :=
  ⟨[c], fun x hx => by
    cases List.mem_singleton.mp hx
    exact hc, rfl⟩

theorem Evolves.trans {v : TransportLayer α} (h : Evolves P t u) (h' : Evolves P u v) :
    Evolves P t v := by
  obtain ⟨xs, hxs, rfl⟩ := h
  obtain ⟨ys, hys, rfl⟩ := h'
  refine ⟨xs ++ ys, fun c hc => ?_, (List.foldl_append ..).symm⟩
  rcases List.mem_append.mp hc with hc | hc
  · exact hxs c hc
  · exact hys c hc

theorem Evolves.invariant {I : TransportLayer α → Prop} (h : Evolves P t u)
    (keep : ∀ t c, c.Answering P → I t → I (apply t c)) (ht : I t) : I u := by
  obtain ⟨calls, hcalls, rfl⟩ := h
  induction calls generalizing t with
  | nil => exact ht
  | cons c calls ih =>
    exact ih (keep t c (hcalls c (by simp)) ht) (fun x hx => hcalls x (by simp [hx]))

theorem Evolves.consistent (h : Evolves P t u) (ht : Consistent t) : Consistent u :=
  h.invariant (fun _ c _ hi => apply_consistent hi c) ht

theorem Evolves.carries (h : Evolves P t u) (ht : Carries P t) : Carries P u :=
  h.invariant (fun t c hc hi => outcome_carries (apply_outcome t c) hc hi) ht

theorem Evolves.notConnecting (h : Evolves P t u) (ht : t.state ≠ .connecting) :
    u.state ≠ .connecting :=
  h.invariant (fun t c hc hi => outcome_notConnecting (apply_outcome t c) hc hi) ht

end KnxRs.Transport
