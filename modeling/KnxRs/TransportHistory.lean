import KnxRs.TransportInvariant

set_option autoImplicit false

/-!
# Requests and transmissions over a connection's history

Which requests a layer has accepted, which frames it has sent for them, and what
is left in its one-place buffer.
-/
namespace KnxRs.Transport
open CoreTypes Runs

variable {α : Type}

def SavedFrame.request (frame : SavedFrame α) : BufferedRequest α := ⟨frame.priority, frame.apdu⟩

/-- The request a call hands over; a closed layer accepts none. -/
def requested (x : Step α) : List (BufferedRequest α) :=
  if x.source.state = .closed then [] else x.event.request.toList

/-- Where a transmitted frame comes from: the frame waiting for its acknowledgement, the
    buffer, or the request being made. -/
theorem outcome_transmissions {t u : TransportLayer α} {c : Call α} (o : Outcome t c u)
    {frame : SavedFrame α} (hf : frame ∈ transmissions ⟨t, c, u⟩) :
    t.state = .openWait ∧ t.savedFrame = some frame ∨
      t.state = .openIdle ∧ t.bufferedRequest = some frame.request ∨
        frame.request ∈ requested ⟨t, c, u⟩ := by
  have sends {v : TransportLayer α} {priority : Priority} {apdu : α} {nowMs : UInt64}
      (ha : v.actions = t.actions)
      (h : frame ∈ transmissions
        ⟨t, c, { v.a7SendData priority apdu nowMs with state := .openWait }⟩) :
      frame.request = ⟨priority, apdu⟩ := by
    simp [transmissions, produced, ha, Action.frame] at h
    simp [h, SavedFrame.request]
  cases o with
  | @retransmitted c nowMs hst rep quiet =>
    have again : frame ∈ retransmissions ⟨t, c, t.a9Retransmit nowMs⟩ := by
      simpa [retransmissions, hst] using hf
    exact .inl ⟨hst, (outcome_retransmissions (.retransmitted hst rep quiet) again).1⟩
  | sent hst =>
    have e := sends rfl hf
    right; right
    simp [requested, hst, Call.request, e]
  | flushed hst pending =>
    have e := sends (v := { t with bufferedRequest := none }) rfl hf
    exact .inr (.inl ⟨hst, by rw [pending, e]⟩)
  | _ => simp [transmissions, produced, Action.frame] at hf

/-! ## Disconnecting -/

/-- No frame sent after a disconnect carries a request made before it. -/
def ForgetsOnDisconnect (tr : List (Step α)) : Prop :=
  ∀ before d mid y rest, tr = before ++ d :: (mid ++ y :: rest) →
    d.source.state ≠ .closed → d.target.state = .closed →
    ∀ frame ∈ transmissions y, frame.request ∈ (mid ++ [y]).flatMap requested

def Call.opens : Call α → Bool
  | .connectIndication _ _ | .connectRequest _ _ => true
  | _ => false

/-- A connection is opened while a request of an earlier one is still in the buffer. -/
def OpensWithBuffer (x : Step α) : Prop :=
  x.source.state = .closed ∧ x.event.opens ∧ x.source.bufferedRequest ≠ none

instance [DecidableEq α] (x : Step α) : Decidable (OpensWithBuffer x) :=
  inferInstanceAs (Decidable (_ ∧ _ ∧ _))

/-- What an open layer may still send has been requested in `past`. -/
structure SendsOnly (past : List (Step α)) (t : TransportLayer α) : Prop where
  buffer : t.state ≠ .closed → ∀ r, t.bufferedRequest = some r → r ∈ past.flatMap requested
  saved : t.state = .openWait → ∀ f, t.savedFrame = some f →
    f.request ∈ past.flatMap requested

theorem SendsOnly.of_closed {past : List (Step α)} {t : TransportLayer α}
    (h : t.state = .closed) : SendsOnly past t :=
  ⟨fun hn => absurd h hn, fun hw => by simp [h] at hw⟩

theorem SendsOnly.keep {past : List (Step α)} {t u : TransportLayer α} {x : Step α}
    (h : SendsOnly past t) (hst : t.state ≠ .closed) (hu : u.state = .openWait → t.state = .openWait)
    (hb : u.bufferedRequest = t.bufferedRequest) (hs : u.savedFrame = t.savedFrame) :
    SendsOnly (past ++ [x]) u := by
  refine ⟨fun _ r hr => ?_, fun hw f hf => ?_⟩
  · rw [List.flatMap_append, List.mem_append]
    exact .inl (h.buffer hst r (hb ▸ hr))
  · rw [List.flatMap_append, List.mem_append]
    exact .inl (h.saved (hu hw) f (hs ▸ hf))

theorem SendsOnly.of_unbuffered {past : List (Step α)} {u : TransportLayer α}
    (hu : u.state ≠ .openWait) (hb : u.bufferedRequest = none) : SendsOnly past u := by
  refine ⟨fun _ r hr => ?_, fun hw => absurd hw hu⟩
  rw [hb] at hr
  cases hr

theorem outcome_sendsOnly {past : List (Step α)} {t u : TransportLayer α} {c : Call α}
    (o : Outcome t c u) (h : SendsOnly past t) (fresh : ¬ OpensWithBuffer ⟨t, c, u⟩) :
    SendsOnly (past ++ [⟨t, c, u⟩]) u := by
  have open_ne {s : TransportLayer α} (hs : s.state = .openIdle ∨ s.state = .openWait) :
      s.state ≠ .closed := by rcases hs with e | e <;> simp [e]
  have now {r : BufferedRequest α} (hst : t.state ≠ .closed) (hr : c.request = some r) :
      r ∈ (past ++ [(⟨t, c, u⟩ : Step α)]).flatMap requested := by
    simp [requested, hst, hr]
  have older {r : BufferedRequest α} (hr : r ∈ past.flatMap requested) :
      r ∈ (past ++ [(⟨t, c, u⟩ : Step α)]).flatMap requested := by
    rw [List.flatMap_append]
    exact List.mem_append_left _ hr
  cases o with
  | ignored _ =>
    by_cases hst : t.state = .closed
    · exact .of_closed hst
    · exact h.keep hst id rfl rfl
  | opened hst | initiated hst =>
    have hb : t.bufferedRequest = none := by
      by_contra hb
      exact fresh ⟨hst, rfl, hb⟩
    exact .of_unbuffered (by simp [TransportLayer.a1AcceptConnection]) hb
  | rejected hst _ _ => exact h.keep hst id rfl rfl
  | closedPassively _ _ | closedActively _ _ => exact .of_closed rfl
  | disarmed hst | notOpen hst => exact .of_closed hst
  | received hst _ _ | wrongSeq hst _ _ _ => exact h.keep (open_ne hst) id rfl rfl
  | repeated hst _ _ => exact h.keep hst id rfl rfl
  | acknowledged hst _ =>
    refine ⟨fun _ r hr => older (h.buffer (by simp [hst]) r hr), fun hw => by simp at hw⟩
  | retransmitted hst _ _ =>
    rw [a9Retransmit_eq]
    exact h.keep (by simp [hst]) (fun _ => hst) rfl rfl
  | connected hst => exact h.keep (by simp [hst]) (by simp) rfl rfl
  | sent hst =>
    refine ⟨fun _ r hr => older (h.buffer (by simp [hst]) r hr), fun _ f hf => ?_⟩
    obtain rfl := Option.some.inj hf
    exact now (by simp [hst]) rfl
  | flushed hst pending =>
    refine ⟨fun _ r hr => (by cases hr), fun _ f hf => ?_⟩
    obtain rfl := Option.some.inj hf
    exact older (h.buffer (by simp [hst]) _ pending)
  | buffered hst =>
    have hn : t.state ≠ .closed := by rcases hst with e | e <;> simp [e]
    refine ⟨fun _ r hr => ?_, fun hw f hf => older (h.saved hw f hf)⟩
    obtain rfl := Option.some.inj hr
    exact now hn rfl
  | drained =>
    by_cases hst : t.state = .closed
    · exact .of_closed hst
    · exact h.keep hst id rfl rfl

/-- In a run that never opens a connection over a filled buffer, a disconnect ends every
    earlier request. -/
theorem disconnect_forgets (calls : List (Call α))
    (fresh : ∀ x ∈ trace apply (.new : TransportLayer α) calls, ¬ OpensWithBuffer x) :
    ForgetsOnDisconnect (trace apply (.new : TransportLayer α) calls) := by
  intro before d mid y rest split _ closed frame hf
  have run := trace_run apply (.new : TransportLayer α) calls
  rw [split] at run fresh
  obtain ⟨s, _, afterBefore⟩ := run.split
  obtain ⟨_, _, afterClose⟩ := afterBefore.head
  obtain ⟨t, midRun, last⟩ := afterClose.split
  obtain ⟨hsource, hstep, _⟩ := last.head
  have known : SendsOnly mid t := by
    refine midRun.history (H := SendsOnly) (fun x => ¬ OpensWithBuffer x) (.of_closed closed)
      (fun x hx => fresh x (by simp [hx])) ?_
    intro past x h hok hs
    obtain ⟨a, c, b⟩ := x
    obtain rfl : apply a c = b := hs
    exact outcome_sendsOnly (apply_outcome a c) h hok
  obtain ⟨a, c, b⟩ := y
  obtain rfl : a = t := hsource
  obtain rfl : apply a c = b := hstep
  have older {r : BufferedRequest α} (hr : r ∈ mid.flatMap requested) :
      r ∈ (mid ++ [(⟨a, c, apply a c⟩ : Step α)]).flatMap requested := by
    rw [List.flatMap_append]
    exact List.mem_append_left _ hr
  rcases outcome_transmissions (apply_outcome a c) hf with ⟨hw, hs⟩ | ⟨hi, hb⟩ | hr
  · exact older (known.saved hw frame hs)
  · exact older (known.buffer (by simp [hi]) _ hb)
  · rw [List.flatMap_append]
    exact List.mem_append_right _ (by simpa using hr)

theorem disconnect_forgets_first :
    ForgetsOnDisconnect (trace apply (.new : TransportLayer Nat)
      [.connectIndication ⟨0x1101⟩ 0, .dataConnectedRequest .low 1 10, .disconnectIndication ⟨0x1101⟩,
        .connectIndication ⟨0x1102⟩ 20, .dataConnectedRequest .low 2 30]) :=
  disconnect_forgets _ (by decide)

theorem buffer_survives_disconnect :
    ¬ ForgetsOnDisconnect (trace apply (.new : TransportLayer Nat)
      [.connectIndication ⟨0x1101⟩ 0, .dataConnectedRequest .low 1 10,
        .dataConnectedRequest .low 2 20, .disconnectIndication ⟨0x1101⟩,
        .connectIndication ⟨0x1102⟩ 30, .poll 40]) := by
  intro h
  have leaked := h
    (trace apply .new [.connectIndication ⟨0x1101⟩ 0, .dataConnectedRequest .low 1 10,
      .dataConnectedRequest .low 2 20])
    ⟨_, _, _⟩ [⟨_, _, _⟩] ⟨_, _, _⟩ [] rfl (by decide) rfl ⟨⟨0x1102⟩, 0, .low, 2⟩ (by decide)
  revert leaked
  decide

/-! ## Order of transmission -/

def pending (t : TransportLayer α) : List (BufferedRequest α) := t.bufferedRequest.toList

/-- Buffered and accepted requests are, in that order, the frames sent for the first time
    and what is still in the buffer: none is lost and none overtakes another. -/
def SentInOrder (t : TransportLayer α) (calls : List (Call α)) : Prop :=
  pending t ++ (trace apply t calls).flatMap requested =
    ((trace apply t calls).flatMap firstTransmissions).map SavedFrame.request ++
      pending (calls.foldl apply t)

/-- A request is made while another one waits in the buffer. -/
def RequestsOverBuffer (x : Step α) : Prop := requested x ≠ [] ∧ x.source.bufferedRequest ≠ none

/-- How a buffered request leaves an open connection: a confirm or an acknowledgement brings
    the layer to `OpenIdle`, and the next poll there sends it. -/
structure Flows (t : TransportLayer α) (req : BufferedRequest α) : Prop where
  confirmed : t.state = .connecting → (t.connectConfirm true).state = .openIdle ∧
    (t.connectConfirm true).bufferedRequest = some req
  acknowledged : t.state = .openWait → ∀ nowMs,
    (t.ackIndication t.connectionAddress t.seqNoSend nowMs).state = .openIdle ∧
      (t.ackIndication t.connectionAddress t.seqNoSend nowMs).bufferedRequest = some req
  polled : t.state = .openIdle → ∀ nowMs,
    TransportLayer.passed t.connectionTimeoutDeadline nowMs = false →
      (firstTransmissions ⟨t, .poll nowMs, t.poll nowMs⟩).map SavedFrame.request = [req]

theorem pending_flows {t : TransportLayer α} {req : BufferedRequest α} (h : req ∈ pending t) :
    Flows t req := by
  have hb : t.bufferedRequest = some req := by simpa [pending] using h
  refine ⟨fun hst => ?_, fun hst nowMs => ?_, fun hst nowMs live => ?_⟩
  · unfold TransportLayer.connectConfirm
    rw [if_pos hst]
    exact ⟨rfl, hb⟩
  · unfold TransportLayer.ackIndication
    simp only [ne_eq, not_true_eq_false, ↓reduceIte, hst, true_and]
    exact hb
  · have hp : t.poll nowMs =
        { { t with bufferedRequest := none }.a7SendData req.priority req.apdu nowMs with
          state := .openWait } := by
      unfold TransportLayer.poll
      simp [live, hst, hb]
    rw [hp]
    simp [firstTransmissions, transmissions, hst, produced, Action.frame, SavedFrame.request]

/-- A call that accepts no request, sends no data and leaves the buffer alone. -/
theorem silent_conserves {t u : TransportLayer α} {c : Call α}
    (hr : requested ⟨t, c, u⟩ = []) (hf : transmissions ⟨t, c, u⟩ = [])
    (hb : u.bufferedRequest = t.bufferedRequest) :
    pending t ++ requested ⟨t, c, u⟩ =
      (firstTransmissions ⟨t, c, u⟩).map SavedFrame.request ++ pending u := by
  have none_first : firstTransmissions ⟨t, c, u⟩ = [] := by
    unfold firstTransmissions
    split_ifs
    · exact hf
    · rfl
  rw [hr, none_first, pending, pending, hb]
  simp

theorem requested_eq_nil {t u : TransportLayer α} {c : Call α}
    (h : t.state = .closed ∨ c.request = none) : requested ⟨t, c, u⟩ = [] := by
  rcases h with e | e <;> simp [requested, e]

theorem outcome_conserves {t u : TransportLayer α} {c : Call α} (o : Outcome t c u)
    (free : ¬ RequestsOverBuffer ⟨t, c, u⟩) :
    pending t ++ requested ⟨t, c, u⟩ =
      (firstTransmissions ⟨t, c, u⟩).map SavedFrame.request ++ pending u := by
  cases o with
  | sent hst =>
    have hb : t.bufferedRequest = none := by
      by_contra hb
      exact free ⟨by simp [requested, hst, Call.request], hb⟩
    simp [pending, hb, requested, firstTransmissions, transmissions, hst, produced, Action.frame,
      SavedFrame.request, Call.request]
  | flushed hst hb =>
    simp [pending, hb, requested, firstTransmissions, transmissions, hst, produced, Action.frame,
      SavedFrame.request, Call.request]
  | buffered hst =>
    have hb : t.bufferedRequest = none := by
      by_contra hb
      refine free ⟨?_, hb⟩
      rcases hst with e | e <;> simp [requested, e, Call.request]
    rcases hst with e | e <;>
      simp [pending, hb, requested, firstTransmissions, e, Call.request]
  | retransmitted hst _ quiet =>
    rw [a9Retransmit_eq]
    simp [pending, requested, firstTransmissions, hst, quiet]
  | ignored quiet => exact silent_conserves (requested_eq_nil quiet) (by simp [transmissions, produced]) rfl
  | rejected _ _ quiet | closedPassively _ quiet | closedActively _ quiet =>
    exact silent_conserves (requested_eq_nil (.inr quiet))
      (by simp [transmissions, produced, Action.frame]) rfl
  | _ =>
    exact silent_conserves (requested_eq_nil (.inr rfl))
      (by simp [transmissions, produced, Action.frame]) rfl

/-- In a run that makes no request over a filled buffer, every request is sent in its turn
    or still buffered, and a buffered one is sent once its acknowledgement has come. -/
theorem requests_sent_in_order (t : TransportLayer α) (calls : List (Call α))
    (free : ∀ x ∈ trace apply t calls, ¬ RequestsOverBuffer x) :
    SentInOrder t calls ∧
      ∀ req ∈ pending (calls.foldl apply t), Flows (calls.foldl apply t) req := by
  refine ⟨?_, fun req hr => pending_flows hr⟩
  refine (trace_run apply t calls).history
    (H := fun past u => pending t ++ past.flatMap requested =
      (past.flatMap firstTransmissions).map SavedFrame.request ++ pending u)
    (fun x => ¬ RequestsOverBuffer x) (by simp) free ?_
  intro past x h hok hs
  obtain ⟨a, c, b⟩ := x
  obtain rfl : apply a c = b := hs
  have one := outcome_conserves (apply_outcome a c) hok
  calc pending t ++ (past ++ [(⟨a, c, apply a c⟩ : Step α)]).flatMap requested
      = (pending t ++ past.flatMap requested) ++ requested ⟨a, c, apply a c⟩ := by simp
    _ = (past.flatMap firstTransmissions).map SavedFrame.request ++
          (pending a ++ requested ⟨a, c, apply a c⟩) := by rw [h, List.append_assoc]
    _ = ((past ++ [(⟨a, c, apply a c⟩ : Step α)]).flatMap firstTransmissions).map
          SavedFrame.request ++ pending (apply a c) := by rw [one]; simp

instance [DecidableEq α] (x : Step α) : Decidable (RequestsOverBuffer x) :=
  inferInstanceAs (Decidable (_ ∧ _))

instance [DecidableEq α] (t : TransportLayer α) (calls : List (Call α)) :
    Decidable (SentInOrder t calls) := inferInstanceAs (Decidable (_ = _))

theorem requests_sent_in_order_two :
    Flows (List.foldl apply (.new : TransportLayer Nat)
      [.connectIndication ⟨0x1101⟩ 0, .dataConnectedRequest .low 1 10,
        .dataConnectedRequest .low 2 20]) ⟨.low, 2⟩ :=
  (requests_sent_in_order .new
    [.connectIndication ⟨0x1101⟩ 0, .dataConnectedRequest .low 1 10,
      .dataConnectedRequest .low 2 20] (by decide)).2 _ (by decide)

/-- A third request overwrites the second in the buffer; a request made between the
    acknowledgement and the poll is sent before the buffered one. -/
theorem buffer_overwritten_and_overtaken :
    ¬ SentInOrder (.new : TransportLayer Nat)
      [.connectIndication ⟨0x1101⟩ 0, .dataConnectedRequest .low 1 10,
        .dataConnectedRequest .low 2 20, .dataConnectedRequest .low 3 30,
        .ackIndication ⟨0x1101⟩ 0 40, .poll 50, .ackIndication ⟨0x1101⟩ 1 60, .poll 70] ∧
    ¬ SentInOrder (.new : TransportLayer Nat)
      [.connectIndication ⟨0x1101⟩ 0, .dataConnectedRequest .low 1 10,
        .dataConnectedRequest .low 2 20, .ackIndication ⟨0x1101⟩ 0 30,
        .dataConnectedRequest .low 3 40, .ackIndication ⟨0x1101⟩ 1 50, .poll 60] := by
  constructor <;> decide

end KnxRs.Transport
