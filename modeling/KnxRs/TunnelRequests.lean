import KnxRs.TunnelSteps

set_option autoImplicit false

/-!
# Tunnelling requests on the wire

Of all a step sends, the tunnelling requests of a channel are those its tunnel sends.
-/
namespace KnxRs.TunnelRequests
open CoreTypes CemiCodec KnxIpCodec KnxIpNetwork ServerDescription KeyedRows TunnelServer TunnelSteps

def requestOf (octets : List UInt8) : Option (ConnectionHeader × List UInt8) :=
  match KnxIpFrame.parse octets with
  | .error _ => none
  | .ok frame =>
    if frame.serviceType = .tunnelingRequest then
      (ConnectionHeader.parse frame.body).map fun ch =>
        (ch, frame.body.drop ConnectionHeader.len)
    else none

def onChannel (c : UInt8) (d : Datagram) : Bool :=
  match requestOf d.octets with
  | none => false
  | some (ch, _) => ch.channelId = c

def requests (c : UInt8) (sends : List Datagram) : List Datagram := sends.filter (onChannel c)

theorem requestOf_request {channelId sequence : UInt8} {cemi octets : List UInt8}
    (h : (KnxIpFrame.tunnelingRequest channelId sequence cemi).tryToBytes = .ok octets) :
    requestOf octets = some (⟨channelId, sequence, eNoError⟩, cemi) := by
  unfold requestOf
  rw [KnxIpFrame.parse_tryToBytes h]
  refine (if_pos rfl).trans ?_
  change (ConnectionHeader.parse ((ConnectionHeader.mk channelId sequence eNoError).toBytes ++
    cemi)).map _ = _
  rw [ConnectionHeader.parse_toBytes]
  rfl

theorem onChannel_request {c channelId sequence : UInt8} {cemi octets : List UInt8}
    {dst : SocketAddr}
    (h : (KnxIpFrame.tunnelingRequest channelId sequence cemi).tryToBytes = .ok octets) :
    onChannel c ⟨dst, octets⟩ ↔ channelId = c := by
  unfold onChannel
  rw [requestOf_request h]
  exact decide_eq_true_iff

theorem onChannel_other {c : UInt8} {d : Datagram} {frame : KnxIpFrame}
    (h : KnxIpFrame.parse d.octets = .ok frame) (hs : frame.serviceType ≠ .tunnelingRequest) :
    onChannel c d = false := by
  unfold onChannel requestOf
  rw [h]
  dsimp only
  rw [if_neg hs]

section
variable {env : Env} {c : UInt8}

theorem requests_append (xs ys : List Datagram) :
    requests c (xs ++ ys) = requests c xs ++ requests c ys := List.filter_append xs ys

theorem requests_none {sends : List Datagram} (h : ∀ d ∈ sends, onChannel c d = false) :
    requests c sends = [] :=
  List.filter_eq_nil_iff.mpr fun d hd => by rw [h d hd]; decide

theorem requests_send (frame : KnxIpFrame) (dst : SocketAddr)
    (hs : frame.serviceType ≠ .tunnelingRequest) : requests c (env.send frame dst) = [] :=
  requests_none fun _ hd => onChannel_other (Env.mem_send hd).2 hs

theorem requests_describes {sends : List Datagram} (h : ∀ d ∈ sends, DescribesOnly d) :
    requests c sends = [] := by
  refine requests_none fun d hd => ?_
  obtain ⟨answer, hparse, hs⟩ := h d hd
  refine onChannel_other hparse ?_
  rcases hs with hs | hs | hs <;> rw [hs] <;> decide

/-! ## What a tunnel sends -/

/-- The request in flight is a tunnelling request of the tunnel's channel. -/
def Framed (t : TunnelClient) : Prop :=
  ∀ f, t.inFlight = some f → ∃ sequence cemi,
    (KnxIpFrame.tunnelingRequest t.channelId sequence cemi).tryToBytes = .ok f.datagram

/-- Tunnelling requests of the tunnel's channel, to its data endpoint. -/
def OwnRequests (t : TunnelClient) (sends : List Datagram) : Prop :=
  ∀ d ∈ sends, d.address = t.dataAddr ∧ ∃ sequence cemi,
    (KnxIpFrame.tunnelingRequest t.channelId sequence cemi).tryToBytes = .ok d.octets

theorem OwnRequests.nil (t : TunnelClient) : OwnRequests t [] :=
  fun _ hd => absurd hd List.not_mem_nil

theorem OwnRequests.ends {t t' : TunnelClient} {sends : List Datagram} (h : OwnRequests t' sends)
    (ends : SameEnds t t') : OwnRequests t sends := by
  intro d hd
  obtain ⟨haddress, sequence, cemi, hrequest⟩ := h d hd
  exact ⟨haddress.trans ends.dataAddr, sequence, cemi, ends.channelId ▸ hrequest⟩

theorem OwnRequests.marked {t : TunnelClient} {sends : List Datagram} (h : OwnRequests t sends)
    {d : Datagram} (hd : d ∈ sends) : onChannel c d ↔ t.channelId = c := by
  obtain ⟨_, sequence, cemi, hrequest⟩ := h d hd
  exact onChannel_request hrequest

theorem OwnRequests.requests {t : TunnelClient} {sends : List Datagram} (h : OwnRequests t sends) :
    requests c sends = if t.channelId = c then sends else [] := by
  split_ifs with hc
  · exact List.filter_eq_self.mpr fun d hd => (h.marked hd).mpr hc
  · exact List.filter_eq_nil_iff.mpr fun d hd hm => hc ((h.marked hd).mp hm)

theorem nextRequest_octets {channelId sequence : UInt8} {outbox rest : List (List UInt8)}
    {datagram : List UInt8} (h : nextRequest channelId sequence outbox = some (datagram, rest)) :
    ∃ cemi, (KnxIpFrame.tunnelingRequest channelId sequence cemi).tryToBytes = .ok datagram := by
  induction outbox with
  | nil => cases h
  | cons cemi later ih =>
    unfold nextRequest at h
    split at h
    · rename_i octets hoctets
      cases h
      exact ⟨cemi, hoctets⟩
    · exact ih h

theorem transmit_own {t : TunnelClient} (framed : Framed t) :
    OwnRequests t (t.transmit env).2 := by
  unfold TunnelClient.transmit
  rcases hf : t.inFlight with _ | f
  · exact .nil t
  · intro d hd
    rw [Env.mem_sendTo hd]
    exact ⟨rfl, framed f hf⟩

theorem pump_own (t : TunnelClient) : OwnRequests t (t.pump env).2 := by
  unfold TunnelClient.pump
  split_ifs
  · exact .nil t
  · split
    · exact .nil t
    · rename_i datagram rest hnext
      have hends : SameEnds t { t with
          outbox := rest, inFlight := some ⟨t.sendSeq, datagram, 0, env.now, none⟩ } :=
        ⟨rfl, rfl, rfl⟩
      refine (transmit_own ?_).ends hends
      intro f hf
      obtain ⟨cemi, hcemi⟩ := nextRequest_octets hnext
      cases hf
      exact ⟨t.sendSeq, cemi, hcemi⟩

theorem queue_own (t : TunnelClient) (cemi : List UInt8) : OwnRequests t (t.queue env cemi).2 :=
  (pump_own _).ends (enqueue_ends t cemi)

theorem advance_own (t : TunnelClient) (sequence : UInt8) :
    OwnRequests t (t.advance env sequence).2 := by
  have hends : SameEnds t { t with inFlight := none, sendSeq := sequence + 1 } := ⟨rfl, rfl, rfl⟩
  exact (pump_own _).ends hends

theorem takeOver_own (t : TunnelClient) (cemiData : List UInt8) :
    OwnRequests t (t.takeOver env cemiData).2 := by
  unfold TunnelClient.takeOver
  dsimp only
  split
  · exact .nil t
  · split
    · exact .nil t
    · have hends : SameEnds t { t with recvSeq := t.recvSeq + 1 } := ⟨rfl, rfl, rfl⟩
      exact (queue_own _ _).ends hends

theorem retransmit_own {t : TunnelClient} (framed : Framed t) :
    OwnRequests t (t.retransmit env).2 := by
  unfold TunnelClient.retransmit
  split
  · exact .nil t
  · split_ifs
    · exact .nil t
    · exact transmit_own framed
    · exact .nil t

/-! ## What a handler sends -/

variable {src : SocketAddr} {frame : KnxIpFrame} {tunnels : List TunnelClient}

theorem handleConnect_requests (next : UInt8) :
    requests c (handleConnect env src frame tunnels next).2.2 = [] := by
  unfold handleConnect
  by_cases hshort : frame.body.length < 20
  · rw [if_pos hshort]
    rfl
  · rw [if_neg hshort]
    split
    · dsimp only
      split_ifs
      · dsimp only
        refine requests_send _ _ fun h => ?_
        cases h
      · dsimp only
        refine requests_send _ _ fun h => ?_
        cases h
      · split
        · rfl
        · dsimp only
          refine requests_send _ _ fun h => ?_
          cases h
    · rfl

theorem handleHeartbeat_requests : requests c (handleHeartbeat env src frame tunnels).2 = [] := by
  unfold handleHeartbeat
  split
  · rfl
  · dsimp only
    split
    · dsimp only
      refine requests_send _ _ fun h => ?_
      cases h
    · dsimp only
      refine requests_send _ _ fun h => ?_
      cases h

theorem handleDisconnect_requests : requests c (handleDisconnect env src frame tunnels).2 = [] := by
  unfold handleDisconnect
  split
  · rfl
  · split
    · dsimp only
      refine requests_send _ _ fun h => ?_
      cases h
    · dsimp only
      refine requests_send _ _ fun h => ?_
      cases h

theorem tunnelingAck_requests (dst : SocketAddr) (ch : ConnectionHeader) (status : UInt8) :
    requests c (sendTunnelingAck env dst ch status) = [] := by
  refine requests_send _ _ fun h => ?_
  cases h

/-- Some operation's requests: those of the tunnel of the channel, if there is one. -/
def Expected (env : Env) (c : UInt8) (tunnels : List TunnelClient) (op : TunnelClient → Op)
    (sent : List Datagram) : Prop :=
  sent = ((tunnelOf c tunnels).map fun t => ((op t).run env t).2).getD []

theorem expected {op : TunnelClient → Op} {sent : List Datagram}
    (none : tunnelOf c tunnels = none → sent = [])
    (some : ∀ t, tunnelOf c tunnels = some t → sent = ((op t).run env t).2) :
    Expected env c tunnels op sent := by
  unfold Expected
  rcases h : tunnelOf c tunnels with _ | t
  · exact none h
  · exact some t h

theorem Expected.nil {op : TunnelClient → Op}
    (quiet : ∀ t, tunnelOf c tunnels = some t → ((op t).run env t).2 = []) :
    Expected env c tunnels op [] :=
  expected (fun _ => rfl) fun t ht => (quiet t ht).symm

theorem Expected.one {op : TunnelClient → Op} {t : TunnelClient} {k : UInt8}
    {sent : List Datagram} (h : tunnelOf k tunnels = some t) (own : OwnRequests t sent)
    (here : ((op t).run env t).2 = sent)
    (elsewhere : ∀ t', tunnelOf c tunnels = some t' → c ≠ k → ((op t').run env t').2 = []) :
    Expected env c tunnels op (requests c sent) := by
  have hid : t.channelId = k := (row_some h).2
  rw [own.requests, hid]
  refine expected (fun hnone => ?_) fun t' ht' => ?_
  · rw [if_neg]
    intro hk
    subst hk
    rw [h] at hnone
    cases hnone
  · by_cases hk : k = c
    · subst hk
      rw [h] at ht'
      cases ht'
      rw [if_pos rfl, here]
    · rw [if_neg hk, elsewhere t' ht' fun he => hk he.symm]

theorem handleTunnelingRequest_requests :
    Expected env c tunnels (fun t => requestOp t src frame)
      (requests c (handleTunnelingRequest env src frame tunnels).2.1) := by
  unfold handleTunnelingRequest requestOp
  rcases hch : ConnectionHeader.parse frame.body with _ | ch
  · exact .nil fun _ _ => rfl
  · dsimp only
    have elsewhere : ∀ t', tunnelOf c tunnels = some t' → c ≠ ch.channelId →
        ((if fromData t' src ch ∧ ch.sequenceCounter = t'.recvSeq then
          Op.takeOver (frame.body.drop ConnectionHeader.len) else .keep).run env t').2 = [] := by
      intro t' ht' hne
      rw [if_neg fun h => hne ((row_some ht').2.symm.trans (fromData_channel h.1))]
      rfl
    split
    · rename_i hnone
      rw [tunnelingAck_requests]
      refine .nil fun t' ht' => elsewhere t' ht' fun hc => ?_
      rw [← hc] at hnone
      rw [tunnelOf, hnone] at ht'
      cases ht'
    · rename_i tunnel hfound
      have hid := (row_some hfound).2
      split_ifs with hsrc hseq
      · rw [tunnelingAck_requests]
        refine .nil fun t' ht' => ?_
        by_cases hc : c = ch.channelId
        · rw [tunnelOf, hc, hfound] at ht'
          cases ht'
          rw [if_neg fun h => hsrc (of_decide_eq_true h.1).2]
          rfl
        · exact elsewhere t' ht' hc
      · rw [tunnelingAck_requests]
        refine .nil fun t' ht' => ?_
        by_cases hc : c = ch.channelId
        · rw [tunnelOf, hc, hfound] at ht'
          cases ht'
          rw [if_neg fun h => hseq h.2]
          rfl
        · exact elsewhere t' ht' hc
      · dsimp only
        rw [requests_append, tunnelingAck_requests, List.nil_append]
        refine .one hfound (takeOver_own tunnel _) ?_ elsewhere
        have hdata : fromData tunnel src ch :=
          decide_eq_true ⟨hid.symm, not_not.mp hsrc⟩
        rw [if_pos ⟨hdata, not_not.mp hseq⟩]
        rfl

theorem handleTunnelingAck_requests (distinct : (tunnels.map TunnelClient.channelId).Nodup) :
    Expected env c tunnels (fun t => ackOp t src frame)
      (requests c (handleTunnelingAck env src frame tunnels).2) := by
  unfold handleTunnelingAck ackOp
  rcases hch : ConnectionHeader.parse frame.body with _ | ch
  · exact .nil fun _ _ => rfl
  · dsimp only
    have hfind := find?_row
      (p := fun t : TunnelClient => decide (t.channelId = ch.channelId ∧ t.dataAddr = src))
      (k := ch.channelId) (fun t ht => (of_decide_eq_true ht).1) distinct
    have quiet : ∀ t', tunnelOf c tunnels = some t' →
        ¬(fromData t' src ch ∧ t'.expects ch.sequenceCounter) →
        ((if fromData t' src ch ∧ t'.expects ch.sequenceCounter then
          Op.advance ch.sequenceCounter else .keep).run env t').2 = [] := by
      intro t' _ hno
      rw [if_neg hno]
      rfl
    split
    · rename_i hnone
      refine .nil fun t' ht' => quiet t' ht' fun h => ?_
      rw [List.find?_eq_none] at hnone
      have hdata : ch.channelId = t'.channelId ∧ t'.dataAddr = src := of_decide_eq_true h.1
      exact hnone t' (row_some ht').1 (decide_eq_true ⟨hdata.1.symm, hdata.2⟩)
    · rename_i tunnel hfound
      rw [hfind, Option.filter_eq_some_iff] at hfound
      obtain ⟨hrow, hp⟩ := hfound
      obtain ⟨hid, hsrc⟩ := of_decide_eq_true hp
      split_ifs with hexpects
      · refine .one hrow (advance_own tunnel _) ?_ fun t' ht' hne => quiet t' ht' fun h => ?_
        · have hdata : fromData tunnel src ch := decide_eq_true ⟨hid.symm, hsrc⟩
          rw [if_pos ⟨hdata, hexpects⟩]
          rfl
        · exact hne ((row_some ht').2.symm.trans (fromData_channel h.1))
      · refine .nil fun t' ht' => quiet t' ht' fun h => ?_
        have hc := (row_some ht').2.symm.trans (fromData_channel h.1)
        rw [tunnelOf, hc, hrow] at ht'
        cases ht'
        exact hexpects h.2

theorem flatMap_requests {op : TunnelClient → Op} {g : TunnelClient → List Datagram}
    (distinct : (tunnels.map TunnelClient.channelId).Nodup)
    (own : ∀ t ∈ tunnels, OwnRequests t (g t)) (same : ∀ t ∈ tunnels, g t = ((op t).run env t).2) :
    Expected env c tunnels op (requests c (tunnels.flatMap g)) := by
  have hrow := flatMap_filter_row TunnelClient.channelId c g
    (fun t ht d hd => (own t ht).marked hd) distinct
  refine expected (fun hnone => ?_) fun t ht => ?_
  · have hnone : row TunnelClient.channelId c tunnels = none := hnone
    refine hrow.trans ?_
    rw [hnone]
    rfl
  · have ht' : row TunnelClient.channelId c tunnels = some t := ht
    refine hrow.trans ?_
    rw [ht', ← same t (row_some ht').1]
    rfl

theorem sendToTunnelClient_requests {channelId : UInt8} {cemi : CemiFrame} :
    Expected env c tunnels
      (fun t => if t.channelId = channelId then .queue (asIndication cemi) else .keep)
      (requests c (sendToTunnelClient env tunnels channelId cemi).2) := by
  unfold sendToTunnelClient
  have elsewhere : ∀ t', tunnelOf c tunnels = some t' → c ≠ channelId →
      ((if t'.channelId = channelId then Op.queue (asIndication cemi) else .keep).run env t').2 =
        [] := by
    intro t' ht' hne
    rw [if_neg fun h => hne ((row_some ht').2.symm.trans h)]
    rfl
  split
  · rename_i hnone
    refine .nil fun t' ht' => elsewhere t' ht' fun hc => ?_
    rw [← hc] at hnone
    rw [tunnelOf, hnone] at ht'
    cases ht'
  · rename_i tunnel hfound
    refine .one hfound (queue_own tunnel _) ?_ elsewhere
    rw [if_pos (row_some hfound).2]
    rfl

theorem dropLostTunnel_requests (k : UInt8) (acc : List TunnelClient × List Datagram) :
    requests c (dropLostTunnel env k acc).2 = requests c acc.2 := by
  unfold dropLostTunnel
  split
  · rfl
  · dsimp only
    rw [requests_append, requests_send _ _ (fun h => ServiceType.noConfusion h), List.append_nil]

theorem dropAll_requests (lost : List UInt8) (acc : List TunnelClient × List Datagram) :
    requests c (lost.foldl (fun acc k => dropLostTunnel env k acc) acc).2 = requests c acc.2 := by
  induction lost generalizing acc with
  | nil => rfl
  | cons k rest ih => exact (ih _).trans (dropLostTunnel_requests k acc)

theorem retransmit_sends (t : TunnelClient) :
    (t.retransmit env).2 = ((dueOp env t).run env t).2 := by
  unfold dueOp TunnelClient.retransmit
  rcases t.inFlight with _ | f
  · rfl
  · dsimp only
    by_cases hearly : env.now < f.deadline
    · rw [if_pos hearly, if_pos hearly]
      rfl
    · rw [if_neg hearly, if_neg hearly]
      by_cases hretry : f.attempts < maxRetries
      · rw [if_pos hretry, if_pos hretry]
        rfl
      · rw [if_neg hretry, if_neg hretry]
        rfl

theorem expireAcks_requests (distinct : (tunnels.map TunnelClient.channelId).Nodup)
    (framed : ∀ t ∈ tunnels, Framed t) :
    Expected env c tunnels (dueOp env) (requests c (expireAcks env tunnels).2) := by
  unfold expireAcks
  rw [dropAll_requests]
  exact flatMap_requests distinct (fun t ht => retransmit_own (framed t ht))
    fun t _ => retransmit_sends t

theorem farewells_requests : requests c (farewells env tunnels) = [] := by
  refine requests_none fun d hd => ?_
  obtain ⟨t, _, hd⟩ := List.mem_flatMap.mp hd
  exact onChannel_other (Env.mem_send hd).2 fun h => by cases h

end

/-! ## One step -/

section
variable {env : Env} {state : ServerState} {c : UInt8}

theorem handlePacket_requests (distinct : (state.tunnels.map TunnelClient.channelId).Nodup)
    (src : SocketAddr) (data : List UInt8) :
    Expected env c state.tunnels (fun t => inputOp env t (.datagram src data))
      (requests c (state.handlePacket env src data).2.sends) := by
  rcases hparse : KnxIpFrame.parse data with e | frame
  · have hop : (fun t => inputOp env t (.datagram src data)) = fun _ => Op.keep := by
      funext t
      unfold inputOp
      simp only [hparse]
    rw [hop]
    unfold ServerState.handlePacket
    rw [hparse]
    exact .nil fun _ _ => rfl
  · have hop : (fun t => inputOp env t (.datagram src data)) = fun t => packetOp t src frame := by
      funext t
      unfold inputOp
      simp only [hparse]
    have quiet : ∀ sends, requests c sends = [] →
        (∀ t, tunnelOf c state.tunnels = some t → ((packetOp t src frame).run env t).2 = []) →
        Expected env c state.tunnels (fun t => packetOp t src frame) (requests c sends) := by
      intro sends hsends hquiet
      rw [hsends]
      exact .nil hquiet
    rw [hop]
    unfold ServerState.handlePacket
    rw [hparse]
    dsimp only
    split
    · rename_i hs
      exact quiet _ rfl fun t _ => by rw [packetOp, hs]; rfl
    · rename_i hs
      exact quiet _ (handleConnect_requests _) fun t _ => by rw [packetOp, hs]; rfl
    · rename_i hs
      refine quiet _ handleHeartbeat_requests fun t _ => ?_
      rw [packetOp, hs]
      dsimp only
      split_ifs <;> rfl
    · rename_i hs
      refine quiet _ handleDisconnect_requests fun t _ => ?_
      rw [packetOp, hs]
      dsimp only
      split_ifs <;> rfl
    · rename_i hs
      have hpacket : (fun t => packetOp t src frame) = fun t => requestOp t src frame := by
        funext t
        rw [packetOp, hs]
      rw [hpacket]
      exact handleTunnelingRequest_requests
    · rename_i hs
      have hpacket : (fun t => packetOp t src frame) = fun t => ackOp t src frame := by
        funext t
        rw [packetOp, hs]
      rw [hpacket]
      exact handleTunnelingAck_requests distinct
    · rename_i hs
      exact quiet _ (requests_describes fun _ => handleSearch_describes) fun t _ => by
        rw [packetOp, hs]; rfl
    · rename_i hs
      exact quiet _ (requests_describes fun _ => handleSearchExtended_describes) fun t _ => by
        rw [packetOp, hs]; rfl
    · rename_i hs
      exact quiet _ (requests_describes fun _ => handleDescription_describes) fun t _ => by
        rw [packetOp, hs]; rfl
    · refine quiet _ rfl fun t _ => ?_
      unfold packetOp
      split
      · contradiction
      · contradiction
      · contradiction
      · contradiction
      · rfl

theorem step_sends {input : Input} (running : state.running) :
    (state.step env input).2 = (state.serve env input).2 := by
  unfold ServerState.step
  rw [if_pos running]

theorem step_requests (env : Env) (c : UInt8)
    (distinct : (state.tunnels.map TunnelClient.channelId).Nodup)
    (framed : ∀ t ∈ state.tunnels, Framed t) (input : Input) (taken : reads state input) :
    Expected env c state.tunnels (fun t => inputOp env t input)
      (requests c (state.step env input).2.sends) := by
  rw [step_sends (reads_running taken)]
  cases input with
  | datagram src data =>
    unfold ServerState.serve
    dsimp only
    rw [if_pos (Bool.and_eq_true_iff.mp taken).2]
    exact handlePacket_requests distinct src data
  | sendFrame cemi =>
    change Expected env c state.tunnels _ (requests c
      (state.multicastTarget.elim [] (fun target =>
        env.send (.routingIndication (asIndication cemi.val)) target) ++
      state.tunnels.flatMap fun t => (t.queue env (asIndication cemi.val)).2))
    have hrouted : requests c (state.multicastTarget.elim [] fun target =>
        env.send (.routingIndication (asIndication cemi.val)) target) = [] := by
      cases state.multicastTarget with
      | none => rfl
      | some target => exact requests_send _ _ fun h => by cases h
    rw [requests_append, hrouted, List.nil_append]
    exact flatMap_requests distinct (fun t _ => queue_own t _) fun t _ => rfl
  | sendToTunnel channelId cemi => exact sendToTunnelClient_requests
  | ackDue => exact expireAcks_requests distinct framed
  | cleanup =>
    refine .nil fun t _ => ?_
    unfold inputOp
    dsimp only
    split_ifs <;> rfl
  | stop =>
    change Expected env c state.tunnels _ (requests c (farewells env state.tunnels))
    rw [farewells_requests]
    exact .nil fun _ _ => rfl
  | deliver => exact .nil fun _ _ => rfl
  | setDescription description => exact .nil fun _ _ => rfl
  | receive => exact .nil fun _ _ => rfl
  | dropReceiver => exact .nil fun _ _ => rfl

end
end KnxRs.TunnelRequests
