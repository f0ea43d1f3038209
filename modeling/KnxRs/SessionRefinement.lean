import KnxRs.TransportSession

set_option autoImplicit false

/-!
# The session carries two stop-and-wait links

Each direction of a session simulates a link: a call on the sending layer and a
call on the receiving layer are link operations or leave the link alone.
-/
namespace KnxRs.TransportSession
open CoreTypes Runs Transport StopAndWait

variable {α : Type}

/-- The direction from `p` to `q`, whose address is `peer`, does what the link `l` does. -/
structure Carries (peer : IndividualAddress) (p q : Party α) (toQ toP : List (Wire α))
    (l : Link α) : Prop where
  ok : l.Ok
  sent : p.sent = l.log
  delivered : q.delivered = l.log.take l.delivered
  confirmed : p.confirmed = l.log.take l.confirmed
  frames : toQ.filterMap Wire.dataOf = l.frames.map (fun f => (seqOf f.1, f.2))
  acks : toP.filterMap Wire.ackOf = l.acks.map seqOf
  sendSeq : p.layer.state ≠ .closed → p.layer.seqNoSend = seqOf l.confirmed
  recvSeq : q.layer.state ≠ .closed → q.layer.seqNoRecv = seqOf l.delivered
  idle : p.layer.state = .openIdle ∨ p.layer.state = .connecting → l.log.length = l.confirmed
  wait : p.layer.state = .openWait → ∃ saved, p.layer.savedFrame = some saved ∧
    saved.destination = peer ∧ saved.seqNo = seqOf l.confirmed ∧
      l.log[l.confirmed]? = some saved.apdu

/-- Between calls a party's queue is empty, and its connection is with `peer`. -/
structure Attached (peer : IndividualAddress) (p : Party α) : Prop where
  drained : p.layer.actions = []
  address : p.layer.state ≠ .closed → p.layer.connectionAddress = peer

/-- `Comes peer channel c rest`: the call is the party's own, or the arrival of the frame at
    the head of its channel. -/
inductive Comes (peer : IndividualAddress) (channel : List (Wire α)) :
    Call α → List (Wire α) → Prop where
  | request (priority : Priority) (apdu : α) (nowMs : UInt64) :
      Comes peer channel (.dataConnectedRequest priority apdu nowMs) channel
  | disconnect : Comes peer channel .disconnectRequest channel
  | connectConfirm (success : Bool) : Comes peer channel (.connectConfirm success) channel
  | poll (nowMs : UInt64) : Comes peer channel (.poll nowMs) channel
  | arrival {w : Wire α} {rest : List (Wire α)} (nowMs : UInt64) (h : channel = w :: rest) :
      Comes peer channel (w.indication peer nowMs) rest

theorem Comes.sublist {peer : IndividualAddress} {channel rest : List (Wire α)} {c : Call α}
    (h : Comes peer channel c rest) : rest.Sublist channel := by
  cases h with
  | arrival nowMs h => exact h ▸ List.sublist_cons_self _ _
  | _ => exact .refl _

/-! ## Losses -/

theorem Carries.lose {peer : IndividualAddress} {p q : Party α} {toQ toP toQ' toP' : List (Wire α)}
    {l : Link α} (h : Carries peer p q toQ toP l) (hq : toQ'.Sublist toQ)
    (hp : toP'.Sublist toP) : ∃ l', Carries peer p q toQ' toP' l' := by
  have hframes := hq.filterMap Wire.dataOf
  have hacks := hp.filterMap Wire.ackOf
  rw [h.frames] at hframes
  rw [h.acks] at hacks
  obtain ⟨frames, fsub, feq⟩ := List.sublist_map_iff.mp hframes
  obtain ⟨acks, asub, aeq⟩ := List.sublist_map_iff.mp hacks
  exact ⟨{ l with frames := frames, acks := acks },
    h.ok.lose fsub asub, h.sent, h.delivered, h.confirmed, feq, aeq, h.sendSeq, h.recvSeq,
    h.idle, h.wait⟩

/-! ## What a call puts on the wire -/

theorem wires_data (peer : IndividualAddress) (x : Step α) :
    (wires peer x).filterMap Wire.dataOf =
      (transmissions x).filterMap
        (fun f => if f.destination = peer then some (f.seqNo, f.apdu) else none) := by
  rw [wires, transmissions, List.filterMap_filterMap, List.filterMap_filterMap]
  congr 1
  funext a
  cases a with
  | sendControl destination tpduType seqNo =>
    cases tpduType <;> by_cases hd : destination = peer <;>
      simp [wire, hd, Wire.dataOf, Action.frame]
  | sendDataConnected destination seqNo priority apdu =>
    by_cases hd : destination = peer <;> simp [wire, hd, Wire.dataOf, Action.frame]
  | _ => rfl

def acknowledges (peer : IndividualAddress) : Action α → Option UInt8
  | .sendControl destination .ack seqNo => if destination = peer then some seqNo else none
  | _ => none

theorem wires_ack (peer : IndividualAddress) (x : Step α) :
    (wires peer x).filterMap Wire.ackOf = (produced x).filterMap (acknowledges peer) := by
  rw [wires, List.filterMap_filterMap]
  congr 1
  funext a
  cases a with
  | sendControl destination tpduType seqNo =>
    cases tpduType <;> by_cases hd : destination = peer <;>
      simp [wire, hd, Wire.ackOf, acknowledges]
  | sendDataConnected destination seqNo priority apdu =>
    by_cases hd : destination = peer <;> simp [wire, hd, Wire.ackOf, acknowledges]
  | _ => rfl

/-! ## The sending layer -/

section
variable {peer home : IndividualAddress} {p q : Party α} {toQ toP rest : List (Wire α)}
  {l : Link α} {c : Call α} {u : TransportLayer α}

theorem Carries.sender_quiet (h : Carries peer p q toQ rest l)
    (hf : transmissions ⟨p.layer, c, u⟩ = [])
    (hc : (produced ⟨p.layer, c, u⟩).filterMap (confirms ⟨p.layer, c, u⟩) = [])
    (hst : u.state ≠ .closed → p.layer.state ≠ .closed ∧ u.seqNoSend = p.layer.seqNoSend ∧
      u.savedFrame = p.layer.savedFrame ∧
        (u.state = p.layer.state ∨ p.layer.state = .connecting ∧ u.state = .openIdle)) :
    Carries peer (p.record ⟨p.layer, c, u⟩) q (toQ ++ wires peer ⟨p.layer, c, u⟩) rest l where
  ok := h.ok
  sent := by
    have : firstTransmissions ⟨p.layer, c, u⟩ = [] := by
      unfold firstTransmissions
      split_ifs
      · exact hf
      · rfl
    simp [Party.record, this, h.sent]
  delivered := h.delivered
  confirmed := by simp [Party.record, hc, h.confirmed]
  frames := by simp [wires_data, hf, h.frames]
  acks := h.acks
  sendSeq := by
    intro hu
    obtain ⟨ht, hs, _⟩ := hst hu
    exact hs.trans (h.sendSeq ht)
  recvSeq := h.recvSeq
  idle := by
    intro hu
    change u.state = .openIdle ∨ u.state = .connecting at hu
    obtain ⟨_, _, _, hcase⟩ := hst (by rcases hu with e | e <;> simp [e])
    rcases hcase with e | ⟨e, _⟩
    · exact h.idle (e ▸ hu)
    · exact h.idle (.inr e)
  wait := by
    intro hu
    change u.state = .openWait at hu
    obtain ⟨_, _, hs, hcase⟩ := hst (by simp [hu])
    rcases hcase with e | ⟨_, e⟩
    · obtain ⟨saved, hsaved, htail⟩ := h.wait (e ▸ hu)
      exact ⟨saved, hs.trans hsaved, htail⟩
    · simp [hu] at e

theorem Carries.sender_sends (h : Carries peer p q toQ rest l) (att : Attached peer p)
    (hst : p.layer.state = .openIdle) (req : BufferedRequest α) (v : TransportLayer α)
    (hv : v.actions = p.layer.actions) (ha : v.connectionAddress = p.layer.connectionAddress)
    (hq : v.seqNoSend = p.layer.seqNoSend) {nowMs : UInt64}
    (hu : u = { v.a7SendData req.priority req.apdu nowMs with state := .openWait }) :
    Carries peer (p.record ⟨p.layer, c, u⟩) q (toQ ++ wires peer ⟨p.layer, c, u⟩) rest
      (l.send req.apdu) := by
  have hidle := h.idle (.inl hst)
  have hpeer : v.connectionAddress = peer := ha.trans (att.address (by simp [hst]))
  have hseq : v.seqNoSend = seqOf l.log.length := by
    rw [hq, h.sendSeq (by simp [hst]), hidle]
  have hframes : transmissions ⟨p.layer, c, u⟩ =
      [⟨peer, seqOf l.log.length, req.priority, req.apdu⟩] := by
    simp [transmissions, produced, hu, hv, Action.frame, hpeer, hseq]
  have hquiet : (produced ⟨p.layer, c, u⟩).filterMap (confirms ⟨p.layer, c, u⟩) = [] := by
    simp [produced, hu, hv, confirms]
  refine ⟨h.ok.send hidle _, ?_, ?_, ?_, ?_, h.acks, ?_, h.recvSeq, ?_, ?_⟩
  · simp [Party.record, firstTransmissions, hst, hframes, h.sent, Link.send]
  · simp only [Link.send]
    rw [List.take_append_of_le_length h.ok.delivered_le]
    exact h.delivered
  · simp only [Link.send, Party.record, hquiet, List.append_nil]
    rw [List.take_append_of_le_length (h.ok.confirmed_le.trans h.ok.delivered_le)]
    exact h.confirmed
  · simp [wires_data, hframes, h.frames, Link.send]
  · intro _
    subst hu
    change v.seqNoSend = seqOf l.confirmed
    rw [hseq, hidle]
  · intro e
    subst hu
    simp [Party.record, TransportLayer.takeActions] at e
  · intro _
    subst hu
    exact ⟨⟨v.connectionAddress, v.seqNoSend, req.priority, req.apdu⟩, rfl, hpeer,
      by rw [hseq, hidle]; rfl, by simp [Link.send, ← hidle]⟩

theorem Carries.sender_repeats (h : Carries peer p q toQ rest l)
    (hst : p.layer.state = .openWait) {nowMs : UInt64} (hu : u = p.layer.a9Retransmit nowMs) :
    ∃ l', Carries peer (p.record ⟨p.layer, c, u⟩) q (toQ ++ wires peer ⟨p.layer, c, u⟩) rest
      l' := by
  obtain ⟨saved, hsaved, hdest, hseq, hlog⟩ := h.wait hst
  rw [a9Retransmit_eq] at hu
  have hframes : transmissions ⟨p.layer, c, u⟩ = [saved] := by
    simp [transmissions, produced, hu, hsaved, SavedFrame.action, Action.frame]
  have hquiet : (produced ⟨p.layer, c, u⟩).filterMap (confirms ⟨p.layer, c, u⟩) = [] := by
    simp [produced, hu, hsaved, SavedFrame.action, confirms]
  refine ⟨l.resend saved.apdu, h.ok.resend hlog, ?_, h.delivered, ?_, ?_, h.acks, ?_, h.recvSeq,
    ?_, ?_⟩
  · simp [Party.record, firstTransmissions, hst, h.sent, Link.resend]
  · simpa [Party.record, hquiet, Link.resend] using h.confirmed
  · simp [wires_data, hframes, h.frames, Link.resend, hdest, hseq]
  · intro _
    subst hu
    exact h.sendSeq (by simp [hst])
  · intro e
    subst hu
    simp [Party.record, TransportLayer.takeActions, hst] at e
  · intro _
    subst hu
    exact ⟨saved, hsaved, hdest, hseq, hlog⟩

theorem Carries.sender_confirms {seqNo : UInt8} {nowMs : UInt64}
    (h : Carries peer p q toQ (.ack seqNo :: rest) l) (hst : p.layer.state = .openWait)
    (hseq : seqNo = p.layer.seqNoSend)
    (hu : u = { p.layer.a8AckReceived nowMs with state := .openIdle }) :
    ∃ l', Carries peer (p.record ⟨p.layer, c, u⟩) q (toQ ++ wires peer ⟨p.layer, c, u⟩) rest
      l' := by
  obtain ⟨saved, hsaved, _, _, hlog⟩ := h.wait hst
  have hacks := h.acks
  simp only [List.filterMap_cons, Wire.ackOf] at hacks
  obtain ⟨i, tail, hl, hi, htail⟩ := List.map_eq_cons_iff.mp hacks.symm
  have hcurrent : i = l.confirmed := by
    refine h.ok.ack_is_current (m := 16) (by decide) (by simp [hl]) (mod_eq_of_seqOf_eq ?_)
    rw [hi, hseq, h.sendSeq (by simp [hst])]
  have hframes : transmissions ⟨p.layer, c, u⟩ = [] := by
    simp [transmissions, produced, hu, Action.frame]
  have hquiet : (produced ⟨p.layer, c, u⟩).filterMap (confirms ⟨p.layer, c, u⟩) =
      [saved.apdu] := by
    simp [produced, hu, confirms, hsaved]
  refine ⟨l.confirm, h.ok.confirm (hcurrent ▸ hl), ?_, h.delivered, ?_, ?_, ?_, ?_, h.recvSeq,
    ?_, ?_⟩
  · simp [Party.record, firstTransmissions, hst, h.sent, Link.confirm]
  · simp only [Party.record, hquiet, h.confirmed, Link.confirm]
    rw [List.take_add_one, hlog]
    rfl
  · simp [wires_data, hframes, h.frames, Link.confirm]
  · simp [Link.confirm, hl, htail]
  · intro _
    subst hu
    change (p.layer.seqNoSend + 1) &&& seqNoMask = seqOf (l.confirmed + 1)
    rw [h.sendSeq (by simp [hst]), seqOf_succ]
  · intro _
    have hwindow := h.ok.window
    have hlt := (List.getElem?_eq_some_iff.mp hlog).1
    change l.log.length = l.confirmed + 1
    omega
  · intro e
    subst hu
    simp [Party.record, TransportLayer.takeActions] at e

def Fresh (p : Party α) (channel : List (Wire α)) : Prop :=
  .connect ∈ channel → p.sent = [] ∧ p.delivered = []

theorem Comes.ack_arrives {source : IndividualAddress} {seqNo : UInt8} {nowMs : UInt64}
    {channel : List (Wire α)} (h : Comes peer channel (.ackIndication source seqNo nowMs) rest) :
    channel = .ack seqNo :: rest := by
  generalize hc : Call.ackIndication source seqNo nowMs = d at h
  cases h with
  | @arrival w _ nowMs h =>
    cases w <;> simp [Wire.indication] at hc
    rw [h, hc.2.1]
  | _ => cases hc

theorem Comes.connect_arrives {source : IndividualAddress} {nowMs : UInt64}
    {channel : List (Wire α)} (h : Comes peer channel (.connectIndication source nowMs) rest) :
    source = peer ∧ channel = .connect :: rest := by
  generalize hc : Call.connectIndication source nowMs = d at h
  cases h with
  | @arrival w _ nowMs h =>
    cases w <;> simp [Wire.indication] at hc
    exact ⟨hc.1, h⟩
  | _ => cases hc

theorem Comes.data_arrives {source : IndividualAddress} {seqNo : UInt8} {priority : Priority}
    {apdu : α} {nowMs : UInt64} {channel : List (Wire α)}
    (h : Comes peer channel (.dataConnectedIndication source seqNo priority apdu nowMs) rest) :
    source = peer ∧ channel = .data seqNo priority apdu :: rest := by
  generalize hc : Call.dataConnectedIndication source seqNo priority apdu nowMs = d at h
  cases h with
  | @arrival w _ nowMs h =>
    cases w <;> simp [Wire.indication] at hc
    obtain ⟨hsource, rfl, rfl, rfl, _⟩ := hc
    exact ⟨hsource, h⟩
  | _ => cases hc

theorem Comes.not_initiating {destination : IndividualAddress} {nowMs : UInt64}
    {channel : List (Wire α)} :
    ¬ Comes peer channel (.connectRequest destination nowMs) rest := by
  intro h
  generalize hc : Call.connectRequest destination nowMs = d at h
  cases h with
  | @arrival w _ nowMs h => cases w <;> cases hc
  | _ => cases hc

theorem Comes.not_draining {channel : List (Wire α)} :
    ¬ Comes peer channel .takeActions rest := by
  intro h
  generalize hc : Call.takeActions = d at h
  cases h with
  | @arrival w _ nowMs h => cases w <;> cases hc
  | _ => cases hc

theorem Carries.sender_opens (h : Carries peer p q toQ rest l) (hsent : p.sent = [])
    {source : IndividualAddress} {nowMs : UInt64}
    (hu : u = p.layer.a1AcceptConnection source nowMs) :
    Carries peer (p.record ⟨p.layer, c, u⟩) q (toQ ++ wires peer ⟨p.layer, c, u⟩) rest l := by
  have hlog : l.log = [] := h.sent.symm.trans hsent
  have hzero : l.confirmed = 0 := by
    have hlen : l.log.length = 0 := by rw [hlog]; rfl
    have := h.ok.confirmed_le
    have := h.ok.delivered_le
    omega
  have hframes : transmissions ⟨p.layer, c, u⟩ = [] := by
    simp [transmissions, produced, hu, Action.frame]
  refine ⟨h.ok, ?_, h.delivered, ?_, ?_, h.acks, ?_, h.recvSeq, ?_, ?_⟩
  · simp [Party.record, firstTransmissions, hframes, h.sent]
  · simp [Party.record, produced, hu, confirms, h.confirmed]
  · simp [wires_data, hframes, h.frames]
  · intro _
    subst hu
    rw [hzero]
    rfl
  · intro _
    rw [hlog, hzero]
    rfl
  · intro e
    subst hu
    cases e

/-- Any call on the sending layer. -/
theorem sender_step (h : Carries peer p q toQ toP l) (att : Attached peer p)
    (fresh : Fresh p toP) (come : Comes peer toP c rest) (o : Outcome p.layer c u) :
    ∃ l', Carries peer (p.record ⟨p.layer, c, u⟩) q (toQ ++ wires peer ⟨p.layer, c, u⟩) rest
      l' := by
  obtain ⟨m, hm⟩ := h.lose (.refl toQ) come.sublist
  cases o with
  | ignored _ =>
    exact ⟨m, hm.sender_quiet (by simp [transmissions, produced]) (by simp [produced])
      (fun hu => ⟨hu, rfl, rfl, .inl rfl⟩)⟩
  | opened hst =>
    obtain ⟨_, harrived⟩ := come.connect_arrives
    exact ⟨m, hm.sender_opens (fresh (by simp [harrived])).1 rfl⟩
  | rejected hst _ _ =>
    exact ⟨m, hm.sender_quiet (by simp [transmissions, produced, Action.frame])
      (by simp [produced, confirms]) (fun _ => ⟨hst, rfl, rfl, .inl rfl⟩)⟩
  | closedPassively _ _ | closedActively _ _ =>
    exact ⟨m, hm.sender_quiet (by simp [transmissions, produced, Action.frame])
      (by simp [produced, confirms]) (fun hu => absurd rfl hu)⟩
  | disarmed hst | notOpen hst =>
    exact ⟨m, hm.sender_quiet (by simp [transmissions, produced, Action.frame])
      (by simp [produced, confirms]) (fun hu => absurd hst hu)⟩
  | received hst _ _ | wrongSeq hst _ _ _ =>
    have hopen : p.layer.state ≠ .closed := by rcases hst with e | e <;> simp [e]
    exact ⟨m, hm.sender_quiet (by simp [transmissions, produced, Action.frame])
      (by simp [produced, confirms]) (fun _ => ⟨hopen, rfl, rfl, .inl rfl⟩)⟩
  | repeated hst _ _ =>
    exact ⟨m, hm.sender_quiet (by simp [transmissions, produced, Action.frame])
      (by simp [produced, confirms]) (fun _ => ⟨hst, rfl, rfl, .inl rfl⟩)⟩
  | acknowledged hst hseq => exact (come.ack_arrives ▸ h).sender_confirms hst hseq rfl
  | retransmitted hst _ _ => exact hm.sender_repeats hst rfl
  | connected hst =>
    exact ⟨m, hm.sender_quiet (by simp [transmissions, produced, Action.frame])
      (by simp [produced, confirms]) (fun _ => ⟨by simp [hst], rfl, rfl, .inr ⟨hst, rfl⟩⟩)⟩
  | @sent priority apdu nowMs hst =>
    exact ⟨_, hm.sender_sends att hst ⟨priority, apdu⟩ p.layer rfl rfl rfl rfl⟩
  | @flushed req nowMs hst hb =>
    exact ⟨_, hm.sender_sends att hst req { p.layer with bufferedRequest := none } rfl rfl rfl
      rfl⟩
  | buffered hst =>
    have hopen : p.layer.state ≠ .closed := by rcases hst with e | e <;> simp [e]
    exact ⟨m, hm.sender_quiet (by simp [transmissions, produced]) (by simp [produced])
      (fun _ => ⟨hopen, rfl, rfl, .inl rfl⟩)⟩
  | initiated _ => exact absurd come Comes.not_initiating
  | drained => exact absurd come Comes.not_draining

end

/-! ## The receiving layer -/

section
variable {peer home : IndividualAddress} {p q : Party α} {toQ toP rest : List (Wire α)}
  {l : Link α} {c : Call α} {u : TransportLayer α}

theorem Carries.receiver_quiet (h : Carries peer p q rest toP l)
    (hd : (produced ⟨q.layer, c, u⟩).filterMap handedUp = [])
    (ha : (produced ⟨q.layer, c, u⟩).filterMap (acknowledges home) = [])
    (hst : u.state ≠ .closed →
      q.layer.state ≠ .closed ∧ u.seqNoRecv = q.layer.seqNoRecv) :
    Carries peer p (q.record ⟨q.layer, c, u⟩) rest (toP ++ wires home ⟨q.layer, c, u⟩) l where
  ok := h.ok
  sent := h.sent
  delivered := by simp [Party.record, hd, h.delivered]
  confirmed := h.confirmed
  frames := h.frames
  acks := by simp [wires_ack, ha, h.acks]
  sendSeq := h.sendSeq
  recvSeq := by
    intro hu
    obtain ⟨ht, hs⟩ := hst hu
    exact hs.trans (h.recvSeq ht)
  idle := h.idle
  wait := h.wait

theorem Carries.frame_arrives {seqNo : UInt8} {priority : Priority} {apdu : α}
    (h : Carries peer p q (.data seqNo priority apdu :: rest) toP l) :
    ∃ i tail, l.frames = (i, apdu) :: tail ∧ seqOf i = seqNo ∧
      rest.filterMap Wire.dataOf = tail.map (fun f => (seqOf f.1, f.2)) := by
  have hframes := h.frames
  simp only [List.filterMap_cons, Wire.dataOf] at hframes
  obtain ⟨⟨i, b⟩, tail, hl, hi, htail⟩ := List.map_eq_cons_iff.mp hframes.symm
  simp only [Prod.mk.injEq] at hi
  obtain ⟨hi, rfl⟩ := hi
  exact ⟨i, tail, hl, hi, htail.symm⟩

theorem Carries.receiver_receives {seqNo : UInt8} {priority : Priority} {apdu : α}
    {nowMs : UInt64} (h : Carries peer p q (.data seqNo priority apdu :: rest) toP l)
    (hst : q.layer.state ≠ .closed) (hseq : seqNo = q.layer.seqNoRecv)
    (hu : u = q.layer.a2ReceiveData home priority apdu nowMs) :
    ∃ l', Carries peer p (q.record ⟨q.layer, c, u⟩) rest (toP ++ wires home ⟨q.layer, c, u⟩)
      l' := by
  obtain ⟨i, tail, hl, hi, htail⟩ := h.frame_arrives
  have hrecv := h.recvSeq hst
  have hmem : (i, apdu) ∈ l.frames := by simp [hl]
  have hnext : i = l.delivered :=
    h.ok.frame_is_next (m := 16) (by decide) hmem
      (mod_eq_of_seqOf_eq (by rw [hi, hseq, hrecv]))
  subst hnext
  have hlog := (h.ok.frame _ hmem).1
  refine ⟨l.receive, h.ok.receive hl, h.sent, ?_, h.confirmed, ?_, ?_, h.sendSeq, ?_, h.idle,
    h.wait⟩
  · have hup : (produced ⟨q.layer, c, u⟩).filterMap handedUp = [apdu] := by
      simp only [produced, hu, TransportLayer.a2ReceiveData_actions, List.drop_left]
      rfl
    simp only [Party.record, hup, h.delivered, Link.receive]
    rw [List.take_add_one, hlog]
    rfl
  · simp [htail, Link.receive, hl]
  · have hack : (produced ⟨q.layer, c, u⟩).filterMap (acknowledges home) =
        [q.layer.seqNoRecv] := by
      simp [produced, hu, acknowledges]
    simp [wires_ack, hack, h.acks, hrecv, Link.receive]
  · intro _
    subst hu
    change (q.layer.seqNoRecv + 1) &&& seqNoMask = seqOf (l.delivered + 1)
    rw [hrecv, seqOf_succ]

theorem Carries.receiver_repeats {seqNo : UInt8} {priority : Priority} {apdu : α}
    {nowMs : UInt64} (h : Carries peer p q (.data seqNo priority apdu :: rest) toP l)
    (hst : q.layer.state ≠ .closed) (hseq : seqNo = q.layer.prevSeq)
    (hu : u = q.layer.a3AckRepeated home seqNo nowMs) :
    ∃ l', Carries peer p (q.record ⟨q.layer, c, u⟩) rest (toP ++ wires home ⟨q.layer, c, u⟩)
      l' := by
  obtain ⟨i, tail, hl, hi, htail⟩ := h.frame_arrives
  have hrecv := h.recvSeq hst
  have hprev : seqNo = seqOf (l.delivered + (16 - 1)) := by
    rw [hseq, TransportLayer.prevSeq, hrecv, seqOf_pred]
  have hlast : i + 1 = l.delivered :=
    h.ok.frame_is_last (m := 16) (f := (i, apdu)) (by decide) (by simp [hl])
      (mod_eq_of_seqOf_eq (hi.trans hprev))
  have hacked : l.delivered - 1 = i := by omega
  refine ⟨l.receiveAgain, h.ok.receiveAgain (by omega), h.sent, ?_, h.confirmed, ?_, ?_,
    h.sendSeq, ?_, h.idle, h.wait⟩
  · simp [Party.record, produced, hu, handedUp, h.delivered, Link.receiveAgain]
  · simp [htail, Link.receiveAgain, hl]
  · have hack : (produced ⟨q.layer, c, u⟩).filterMap (acknowledges home) = [seqNo] := by
      simp [produced, hu, acknowledges]
    simp [wires_ack, hack, h.acks, Link.receiveAgain, hacked, hi]
  · intro _
    subst hu
    exact hrecv

theorem Carries.receiver_opens (h : Carries peer p q rest toP l) (hdelivered : q.delivered = [])
    {source : IndividualAddress} {nowMs : UInt64}
    (hu : u = q.layer.a1AcceptConnection source nowMs) :
    Carries peer p (q.record ⟨q.layer, c, u⟩) rest (toP ++ wires home ⟨q.layer, c, u⟩) l := by
  have hzero : l.delivered = 0 := by
    have hlen := congrArg List.length (h.delivered.symm.trans hdelivered)
    rw [List.length_take, List.length_nil] at hlen
    have := h.ok.delivered_le
    omega
  refine ⟨h.ok, h.sent, ?_, h.confirmed, h.frames, ?_, h.sendSeq, ?_, h.idle, h.wait⟩
  · simp [Party.record, produced, hu, handedUp, h.delivered]
  · simp [wires_ack, produced, hu, acknowledges, h.acks]
  · intro _
    subst hu
    rw [hzero]
    rfl

/-- Any call on the receiving layer. -/
theorem receiver_step (h : Carries peer p q toQ toP l) (fresh : Fresh q toQ)
    (come : Comes home toQ c rest) (o : Outcome q.layer c u) :
    ∃ l', Carries peer p (q.record ⟨q.layer, c, u⟩) rest (toP ++ wires home ⟨q.layer, c, u⟩)
      l' := by
  obtain ⟨m, hm⟩ := h.lose come.sublist (.refl toP)
  cases o with
  | ignored _ =>
    exact ⟨m, hm.receiver_quiet (by simp [produced]) (by simp [produced]) (fun hu => ⟨hu, rfl⟩)⟩
  | opened hst =>
    obtain ⟨_, harrived⟩ := come.connect_arrives
    exact ⟨m, hm.receiver_opens (fresh (by simp [harrived])).2 rfl⟩
  | rejected hst _ _ =>
    exact ⟨m, hm.receiver_quiet (by simp [produced, handedUp])
      (by simp [produced, acknowledges]) (fun _ => ⟨hst, rfl⟩)⟩
  | closedPassively _ _ | closedActively _ _ =>
    exact ⟨m, hm.receiver_quiet (by simp [produced, handedUp])
      (by simp [produced, acknowledges]) (fun hu => absurd rfl hu)⟩
  | disarmed hst | notOpen hst =>
    exact ⟨m, hm.receiver_quiet (by simp [produced, handedUp])
      (by simp [produced, acknowledges]) (fun hu => absurd hst hu)⟩
  | received hst _ hseq =>
    obtain ⟨rfl, harrived⟩ := come.data_arrives
    exact (harrived ▸ h).receiver_receives (by rcases hst with e | e <;> simp [e]) hseq rfl
  | repeated hst _ hseq =>
    obtain ⟨rfl, harrived⟩ := come.data_arrives
    exact (harrived ▸ h).receiver_repeats hst hseq rfl
  | wrongSeq hst _ _ _ =>
    have hopen : q.layer.state ≠ .closed := by rcases hst with e | e <;> simp [e]
    exact ⟨m, hm.receiver_quiet (by simp [produced, handedUp])
      (by simp [produced, acknowledges]) (fun _ => ⟨hopen, rfl⟩)⟩
  | acknowledged hst _ | connected hst | sent hst | flushed hst _ =>
    exact ⟨m, hm.receiver_quiet (by simp [produced, handedUp])
      (by simp [produced, acknowledges]) (fun _ => ⟨by simp [hst], rfl⟩)⟩
  | retransmitted hst _ _ =>
    rw [a9Retransmit_eq]
    exact ⟨m, hm.receiver_quiet (by simp [produced, handedUp, SavedFrame.action])
      (by simp [produced, acknowledges, SavedFrame.action]) (fun _ => ⟨by simp [hst], rfl⟩)⟩
  | buffered hst =>
    have hopen : q.layer.state ≠ .closed := by rcases hst with e | e <;> simp [e]
    exact ⟨m, hm.receiver_quiet (by simp [produced]) (by simp [produced])
      (fun _ => ⟨hopen, rfl⟩)⟩
  | initiated _ => exact absurd come Comes.not_initiating
  | drained => exact absurd come Comes.not_draining

end

/-! ## The whole session -/

section
variable {peer : IndividualAddress} {p : Party α} {channel rest : List (Wire α)} {c : Call α}
  {u : TransportLayer α}

theorem Attached.step (att : Attached peer p) (come : Comes peer channel c rest)
    (o : Outcome p.layer c u) : Attached peer (p.record ⟨p.layer, c, u⟩) := by
  have keep {v : TransportLayer α} (hst : p.layer.state ≠ .closed)
      (ha : v.connectionAddress = p.layer.connectionAddress) :
      v.takeActions.2.state ≠ .closed → v.takeActions.2.connectionAddress = peer :=
    fun _ => ha.trans (att.address hst)
  have open_ne {t : TransportLayer α} (hs : t.state = .openIdle ∨ t.state = .openWait) :
      t.state ≠ .closed := by rcases hs with e | e <;> simp [e]
  refine ⟨rfl, ?_⟩
  cases o with
  | ignored _ => exact att.address
  | opened _ =>
    obtain ⟨rfl, _⟩ := come.connect_arrives
    exact fun _ => rfl
  | rejected hst _ _ | repeated hst _ _ => exact keep hst rfl
  | closedPassively _ _ | closedActively _ _ => exact fun hu => absurd rfl hu
  | disarmed hst | notOpen hst => exact fun hu => absurd hst hu
  | received hst _ _ | wrongSeq hst _ _ _ => exact keep (open_ne hst) rfl
  | acknowledged hst _ | connected hst | sent hst | flushed hst _ =>
    exact keep (by simp [hst]) rfl
  | retransmitted hst _ _ =>
    rw [a9Retransmit_eq]
    exact keep (by simp [hst]) rfl
  | buffered hst => exact keep (by rcases hst with e | e <;> simp [e]) rfl
  | initiated _ => exact absurd come Comes.not_initiating
  | drained => exact absurd come Comes.not_draining

theorem no_connect_wire (come : Comes peer channel c rest) (o : Outcome p.layer c u)
    (home : IndividualAddress) : .connect ∉ wires home ⟨p.layer, c, u⟩ := by
  cases o with
  | retransmitted _ _ _ =>
    rw [a9Retransmit_eq]
    simp [wires, produced, SavedFrame.action, wire]
  | initiated _ => exact absurd come Comes.not_initiating
  | _ => simp [wires, produced, wire]

/-- While T_Connect is under way the accepting party is closed, and its own calls leave it
    as it is. -/
structure Opening (p : Party α) (channel : List (Wire α)) : Prop where
  head : ∃ tail, channel = .connect :: tail ∧ .connect ∉ tail
  closed : p.layer.state = .closed
  sent : p.sent = []
  delivered : p.delivered = []

theorem closed_stays {t : TransportLayer α} (o : Outcome t c u) (hst : t.state = .closed)
    (hc : c.opens = false) : u.state = .closed ∧ transmissions ⟨t, c, u⟩ = [] ∧
      (produced ⟨t, c, u⟩).filterMap handedUp = [] := by
  cases o with
  | opened _ | initiated _ => cases hc
  | ignored _ | disarmed _ | notOpen _ | drained =>
    exact ⟨hst, by simp [transmissions, produced, Action.frame], by simp [produced, handedUp]⟩
  | rejected h _ _ | closedPassively h _ | closedActively h _ | repeated h _ _ =>
    exact absurd hst h
  | received h _ _ | wrongSeq h _ _ _ | buffered h => simp [hst] at h
  | acknowledged h _ | retransmitted h _ _ | connected h | sent h | flushed h _ =>
    simp [hst] at h

theorem Comes.own_or_head (come : Comes peer channel c rest) :
    c.opens = false ∧ rest = channel ∨ ∃ w, channel = w :: rest := by
  cases come with
  | arrival nowMs harrived => exact .inr ⟨_, harrived⟩
  | _ => exact .inl ⟨rfl, rfl⟩

def Settled (p : Party α) (channel : List (Wire α)) : Prop :=
  Opening p channel ∨ .connect ∉ channel

theorem Settled.fresh (h : Settled p channel) : Fresh p channel := by
  intro hmem
  rcases h with ho | hn
  · exact ⟨ho.sent, ho.delivered⟩
  · exact absurd hmem hn

theorem Settled.step (h : Settled p channel) (come : Comes peer channel c rest)
    (o : Outcome p.layer c u) : Settled (p.record ⟨p.layer, c, u⟩) rest := by
  rcases h with h | hn
  · obtain ⟨tail, hchannel, htail⟩ := h.head
    rcases come.own_or_head with ⟨hc, rfl⟩ | ⟨w, hw⟩
    · obtain ⟨hst, hf, hup⟩ := closed_stays o h.closed hc
      have hfirst : firstTransmissions ⟨p.layer, c, u⟩ = [] := by
        simp [firstTransmissions, h.closed]
      exact .inl ⟨⟨tail, hchannel, htail⟩, hst, by simp [Party.record, hfirst, h.sent],
        by simp [Party.record, hup, h.delivered]⟩
    · rw [hchannel] at hw
      cases hw
      exact .inr htail
  · exact .inr (fun hm => hn (come.sublist.subset hm))

theorem Settled.append (h : Settled p channel) {new : List (Wire α)} (hn : .connect ∉ new) :
    Settled p (channel ++ new) := by
  rcases h with h | hc
  · obtain ⟨tail, hchannel, htail⟩ := h.head
    refine .inl ⟨⟨tail ++ new, by simp [hchannel], ?_⟩, h.closed, h.sent, h.delivered⟩
    exact fun hm => (List.mem_append.mp hm).elim htail hn
  · exact .inr (fun hm => (List.mem_append.mp hm).elim hc hn)

theorem Settled.lose (h : Settled p channel) (place : Nat) :
    Settled p (channel.eraseIdx place) := by
  rcases h with h | hn
  · obtain ⟨tail, hchannel, htail⟩ := h.head
    subst hchannel
    cases place with
    | zero => exact .inr htail
    | succ n =>
      refine .inl ⟨⟨tail.eraseIdx n, rfl, ?_⟩, h.closed, h.sent, h.delivered⟩
      exact fun hm => htail (List.mem_of_mem_eraseIdx hm)
  · exact .inr (fun hm => hn (List.mem_of_mem_eraseIdx hm))

end

theorem Side.other_other (i : Side) : i.other.other = i := by cases i <;> rfl

theorem Side.other_ne (i : Side) : i.other ≠ i := by cases i <;> decide

theorem Side.eq_or_other (i j : Side) : j = i ∨ j = i.other := by
  cases i <;> cases j <;> decide

/-- What holds between two events of a session. -/
structure Linked (s : Session α) : Prop where
  attached : ∀ i, Attached (s.address i.other) (s.party i)
  carries : ∀ i, ∃ l, Carries (s.address i.other) (s.party i) (s.party i.other)
    (s.channel i.other) (s.channel i) l
  settled : ∀ i, Settled (s.party i) (s.channel i)

theorem Linked.call {s : Session α} (h : Linked s) {i : Side} {c : Call α}
    {rest : List (Wire α)} (come : Comes (s.address i.other) (s.channel i) c rest) :
    Linked (Session.call { s with channel := Function.update s.channel i rest } i c) := by
  have o := apply_outcome (s.party i).layer c
  have hne := Side.other_ne i
  have hfresh := (h.settled i).fresh
  obtain ⟨sending, hsending⟩ := h.carries i
  obtain ⟨receiving, hreceiving⟩ := h.carries i.other
  rw [Side.other_other] at hreceiving
  obtain ⟨sending', hsent⟩ := sender_step hsending (h.attached i) hfresh come o
  obtain ⟨receiving', hreceived⟩ := receiver_step hreceiving hfresh come o
  have hother := (h.settled i.other).append (no_connect_wire come o (s.address i.other))
  refine ⟨fun j => ?_, fun j => ?_, fun j => ?_⟩
  · rcases i.eq_or_other j with rfl | rfl
    · simpa [Session.call] using (h.attached j).step come o
    · simpa [Session.call, hne] using h.attached i.other
  · rcases i.eq_or_other j with rfl | rfl
    · exact ⟨sending', by simpa [Session.call, hne, hne.symm] using hsent⟩
    · exact ⟨receiving', by
        simpa [Session.call, hne, hne.symm, Side.other_other] using hreceived⟩
  · rcases i.eq_or_other j with rfl | rfl
    · simpa [Session.call, hne.symm] using (h.settled j).step come o
    · simpa [Session.call, hne] using hother

theorem Linked.call_own {s : Session α} (h : Linked s) {i : Side} {c : Call α}
    (come : Comes (s.address i.other) (s.channel i) c (s.channel i)) :
    Linked (Session.call s i c) := by
  have := h.call come
  rwa [Function.update_eq_self] at this

theorem Linked.lose {s : Session α} (h : Linked s) (i : Side) (place : Nat) :
    Linked { s with
      channel := Function.update s.channel i ((s.channel i).eraseIdx place) } := by
  have hne := Side.other_ne i
  have hsub := List.eraseIdx_sublist (s.channel i) place
  refine ⟨h.attached, fun j => ?_, fun j => ?_⟩
  · obtain ⟨l, hl⟩ := h.carries j
    rcases i.eq_or_other j with rfl | rfl
    · simpa [hne] using hl.lose (.refl _) hsub
    · rw [Side.other_other] at hl
      simpa [hne, Side.other_other] using hl.lose hsub (.refl _)
  · rcases i.eq_or_other j with rfl | rfl
    · simpa using (h.settled j).lose place
    · simpa [hne] using h.settled i.other

theorem Linked.step {s : Session α} (h : Linked s) (e : Event α) : Linked (s.step e) := by
  cases e with
  | request i priority apdu nowMs => exact h.call_own (.request priority apdu nowMs)
  | disconnect i => exact h.call_own .disconnect
  | connectConfirm i success => exact h.call_own (.connectConfirm success)
  | poll i nowMs => exact h.call_own (.poll nowMs)
  | lose i place => exact h.lose i place
  | deliver i nowMs =>
    unfold Session.step
    dsimp only
    cases hc : s.channel i with
    | nil => exact h
    | cons w rest => exact h.call (.arrival nowMs hc)

/-! ## From the beginning -/

variable {address : Side → IndividualAddress} {layer : Side → TransportLayer α} {nowMs : UInt64}

def initiating (t : TransportLayer α) (destination : IndividualAddress) (nowMs : UInt64) :
    TransportLayer α :=
  { t.a12InitiateConnection destination nowMs with state := .connecting, actions := [] }

theorem start_eq (closed : (layer .initiator).state = .closed) :
    Session.start address layer nowMs =
      { address := address
        party := Function.update (fun i => ⟨(layer i).takeActions.2, [], [], []⟩) .initiator
          ⟨initiating (layer .initiator) (address .acceptor) nowMs, [], [], []⟩
        channel := Function.update (fun _ => []) .acceptor [.connect] } := by
  simp [Session.start, Session.call, apply, TransportLayer.connectRequest,
    TransportLayer.takeActions, closed, Party.record, firstTransmissions, produced, handedUp,
    confirms, wires, wire, Side.other, initiating, TransportLayer.a12InitiateConnection,
    TransportLayer.push, TransportLayer.enableConnectionTimeout]
  rfl

theorem start_linked (closed : ∀ i, (layer i).state = .closed) :
    Linked (Session.start address layer nowMs) := by
  rw [start_eq (closed .initiator)]
  have hacceptor : (layer .acceptor).takeActions.2.state = .closed := closed .acceptor
  have hstate : (initiating (layer .initiator) (address .acceptor) nowMs).state =
      .connecting := rfl
  refine ⟨fun i => ?_, fun i => ⟨.empty, ?_⟩, fun i => ?_⟩
  · cases i with
    | initiator => exact ⟨rfl, fun _ => rfl⟩
    | acceptor => exact ⟨rfl, fun hn => absurd hacceptor hn⟩
  · cases i with
    | initiator =>
      exact ⟨Link.empty_ok, rfl, rfl, rfl, rfl, rfl, fun _ => rfl,
        fun hn => absurd hacceptor hn, fun _ => rfl, fun hw => by cases hw⟩
    | acceptor =>
      refine ⟨Link.empty_ok, rfl, rfl, rfl, rfl, rfl, fun hn => absurd hacceptor hn,
        fun _ => rfl, fun _ => rfl, fun hw => ?_⟩
      change (layer .acceptor).takeActions.2.state = .openWait at hw
      rw [hacceptor] at hw
      cases hw
  · cases i with
    | initiator => exact .inr (by simp)
    | acceptor => exact .inl ⟨⟨[], rfl, by simp⟩, hacceptor, rfl, rfl⟩

/-- Over lossy channels that keep their order each party hands up a prefix of what the other
    has sent, and what a party reports as confirmed the other has handed up. -/
theorem session_delivers_in_order (address : Side → IndividualAddress)
    (layer : Side → TransportLayer α) (closed : ∀ i, (layer i).state = .closed)
    (nowMs : UInt64) (events : List (Event α)) (i : Side) :
    let s := events.foldl Session.step (Session.start address layer nowMs)
    (s.party i.other).delivered <+: (s.party i).sent ∧
      (s.party i).confirmed <+: (s.party i.other).delivered := by
  intro s
  have linked : Linked s := by
    have run := trace_run Session.step (Session.start address layer nowMs) events
    exact run.invariant (fun _ => True) (start_linked closed) (fun _ _ => trivial)
      (fun _ h _ hs => hs ▸ h.step _)
  obtain ⟨l, hl⟩ := linked.carries i
  rw [hl.delivered, hl.sent, hl.confirmed]
  exact ⟨List.take_prefix _ _, hl.ok.confirmed_prefix⟩

def oneRequest : Session Nat :=
  List.foldl Session.step
    (Session.start (fun i => if i = .initiator then ⟨0x1101⟩ else ⟨0x1102⟩) (fun _ => .new) 0)
    [.deliver .acceptor 10, .connectConfirm .initiator true, .request .initiator .low 7 20,
      .deliver .acceptor 30, .deliver .initiator 40]

theorem session_delivers_in_order_once :
    (oneRequest.party .acceptor).delivered <+: (oneRequest.party .initiator).sent ∧
      (oneRequest.party .initiator).confirmed <+: (oneRequest.party .acceptor).delivered :=
  session_delivers_in_order _ _ (fun _ => rfl) 0 _ .initiator

example : (oneRequest.party .initiator).confirmed = [7] := by decide

end KnxRs.TransportSession
