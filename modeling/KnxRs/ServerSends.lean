import KnxRs.TunnelRequests

set_option autoImplicit false

/-!
# What the server puts on the wire

Each datagram of a step is a tunnelling request, the acknowledgement of a request that
the step has read, or a frame of another service. A positive acknowledgement answers
the data endpoint of a live tunnel.
-/
namespace KnxRs.ServerSends
open CoreTypes CemiCodec KnxIpCodec KnxIpNetwork ServerDescription KeyedRows TunnelServer TunnelSteps
  TunnelRequests

def isTunnelling : ServiceType → Bool
  | .tunnelingRequest => true
  | .tunnelingAck => true
  | _ => false

def Plain (d : Datagram) : Prop :=
  ∃ frame, KnxIpFrame.parse d.octets = .ok frame ∧ isTunnelling frame.serviceType = false

def IsRequest (d : Datagram) : Prop :=
  ∃ channelId sequence cemi,
    (KnxIpFrame.tunnelingRequest channelId sequence cemi).tryToBytes = .ok d.octets

def Answers (tunnels : List TunnelClient) (src : SocketAddr) (frame : KnxIpFrame) (d : Datagram) :
    Prop :=
  ∃ ch status, frame.serviceType = .tunnelingRequest ∧
    ConnectionHeader.parse frame.body = some ch ∧
    KnxIpFrame.parse d.octets = .ok (.tunnelingAck ch.channelId ch.sequenceCounter status) ∧
    (status = eNoError →
      ∃ t, tunnelOf ch.channelId tunnels = some t ∧ t.dataAddr = src ∧ d.address = src)

/-- What a datagram of a step with this input is. -/
inductive Kind (tunnels : List TunnelClient) (input : Input) (d : Datagram) : Prop where
  | plain (h : Plain d)
  | request (h : IsRequest d)
  | answer {src : SocketAddr} {data : List UInt8} {frame : KnxIpFrame}
      (hinput : input = .datagram src data) (hparse : KnxIpFrame.parse data = .ok frame)
      (h : Answers tunnels src frame d)

section
variable {env : Env} {d : Datagram}

theorem Kind.parses {tunnels : List TunnelClient} {input : Input} (h : Kind tunnels input d) :
    ∃ frame, KnxIpFrame.parse d.octets = .ok frame := by
  rcases h with ⟨frame, hparse, _⟩ | ⟨_, _, _, hbytes⟩ | ⟨_, _, _, _, _, _, hparse, _⟩
  · exact ⟨frame, hparse⟩
  · exact ⟨_, KnxIpFrame.parse_tryToBytes hbytes⟩
  · exact ⟨_, hparse⟩

theorem plain_send {frame : KnxIpFrame} {dst : SocketAddr} (h : d ∈ env.send frame dst)
    (other : isTunnelling frame.serviceType = false) : Plain d :=
  ⟨frame, (Env.mem_send h).2, other⟩

theorem plain_describes (h : DescribesOnly d) : Plain d := by
  obtain ⟨answer, hparse, hs⟩ := h
  refine ⟨answer, hparse, ?_⟩
  rcases hs with hs | hs | hs <;> rw [hs] <;> rfl

theorem own_request {t : TunnelClient} {sends : List Datagram} (own : OwnRequests t sends)
    (h : d ∈ sends) : IsRequest d :=
  ⟨t.channelId, (own d h).2⟩

/-! ## Handlers -/

variable {src : SocketAddr} {frame : KnxIpFrame} {tunnels : List TunnelClient}

theorem handleConnect_plain {next : UInt8}
    (h : d ∈ (handleConnect env src frame tunnels next).2.2) : Plain d := by
  unfold handleConnect at h
  by_cases hshort : frame.body.length < 20
  · rw [if_pos hshort] at h
    cases h
  · rw [if_neg hshort] at h
    split at h
    · dsimp only at h
      split_ifs at h
      · dsimp only at h
        exact plain_send h rfl
      · dsimp only at h
        exact plain_send h rfl
      · split at h
        · cases h
        · dsimp only at h
          exact plain_send h rfl
    · cases h

theorem handleHeartbeat_plain (h : d ∈ (handleHeartbeat env src frame tunnels).2) : Plain d := by
  unfold handleHeartbeat at h
  split at h
  · cases h
  · dsimp only at h
    split at h
    · dsimp only at h
      exact plain_send h rfl
    · dsimp only at h
      exact plain_send h rfl

theorem handleDisconnect_plain (h : d ∈ (handleDisconnect env src frame tunnels).2) :
    Plain d := by
  unfold handleDisconnect at h
  split at h
  · cases h
  · split at h
    · dsimp only at h
      exact plain_send h rfl
    · dsimp only at h
      exact plain_send h rfl

theorem answers_send {ch : ConnectionHeader} {status : UInt8} {dst : SocketAddr}
    (h : d ∈ sendTunnelingAck env dst ch status) (hs : frame.serviceType = .tunnelingRequest)
    (hch : ConnectionHeader.parse frame.body = some ch)
    (positive : status = eNoError →
      ∃ t, tunnelOf ch.channelId tunnels = some t ∧ t.dataAddr = src ∧ dst = src) :
    Answers tunnels src frame d := by
  obtain ⟨haddress, hparse⟩ := Env.mem_send h
  refine ⟨ch, status, hs, hch, hparse, fun hok => ?_⟩
  obtain ⟨t, ht, hdata, hdst⟩ := positive hok
  exact ⟨t, ht, hdata, haddress.trans hdst⟩

theorem handleTunnelingRequest_kind (hs : frame.serviceType = .tunnelingRequest)
    (h : d ∈ (handleTunnelingRequest env src frame tunnels).2.1) :
    IsRequest d ∨ Answers tunnels src frame d := by
  have refused {ch : ConnectionHeader} (hch : ConnectionHeader.parse frame.body = some ch)
      (h : d ∈ sendTunnelingAck env src ch eConnectionId) :
      IsRequest d ∨ Answers tunnels src frame d :=
    .inr (answers_send h hs hch fun hok => absurd hok (by decide))
  unfold handleTunnelingRequest at h
  rcases hch : ConnectionHeader.parse frame.body with _ | ch
  · rw [hch] at h
    cases h
  · rw [hch] at h
    dsimp only at h
    split at h
    · exact refused hch h
    · rename_i tunnel hfound
      split_ifs at h with hsrc hseq
      · exact refused hch h
      · exact .inr (answers_send h hs hch fun _ =>
          ⟨tunnel, hfound, not_not.mp hsrc, not_not.mp hsrc⟩)
      · rcases List.mem_append.mp h with h | h
        · exact .inr (answers_send h hs hch fun _ =>
            ⟨tunnel, hfound, not_not.mp hsrc, not_not.mp hsrc⟩)
        · exact .inl (own_request (takeOver_own tunnel _) h)

theorem handleTunnelingAck_request (h : d ∈ (handleTunnelingAck env src frame tunnels).2) :
    IsRequest d := by
  unfold handleTunnelingAck at h
  split at h
  · cases h
  · dsimp only at h
    split at h
    · cases h
    · split_ifs at h
      · exact own_request (advance_own _ _) h
      · cases h

theorem dropAll_kind (lost : List UInt8) {acc : List TunnelClient × List Datagram}
    (hacc : ∀ d ∈ acc.2, IsRequest d ∨ Plain d)
    (h : d ∈ (lost.foldl (fun acc k => dropLostTunnel env k acc) acc).2) :
    IsRequest d ∨ Plain d := by
  induction lost generalizing acc with
  | nil => exact hacc d h
  | cons k rest ih =>
    refine ih (fun d hd => ?_) h
    change d ∈ (dropLostTunnel env k acc).2 at hd
    unfold dropLostTunnel at hd
    split at hd
    · exact hacc d hd
    · rcases List.mem_append.mp hd with hd | hd
      · exact hacc d hd
      · exact .inr (plain_send hd rfl)

theorem expireAcks_kind (framed : ∀ t ∈ tunnels, Framed t) (h : d ∈ (expireAcks env tunnels).2) :
    IsRequest d ∨ Plain d := by
  refine dropAll_kind _ (fun d hd => ?_) h
  obtain ⟨t, ht, hd⟩ := List.mem_flatMap.mp hd
  exact .inl (own_request (retransmit_own (framed t ht)) hd)

/-! ## One step -/

variable {state : ServerState}

theorem handlePacket_kind {data : List UInt8}
    (h : d ∈ (state.handlePacket env src data).2.sends) :
    Kind state.tunnels (.datagram src data) d := by
  unfold ServerState.handlePacket at h
  rcases hparse : KnxIpFrame.parse data with e | frame
  · rw [hparse] at h
    cases h
  · rw [hparse] at h
    dsimp only at h
    split at h
    · cases h
    · exact .plain (handleConnect_plain h)
    · exact .plain (handleHeartbeat_plain h)
    · exact .plain (handleDisconnect_plain h)
    · rename_i hs
      rcases handleTunnelingRequest_kind hs h with h | h
      · exact .request h
      · exact .answer rfl hparse h
    · exact .request (handleTunnelingAck_request h)
    · exact .plain (plain_describes (handleSearch_describes h))
    · exact .plain (plain_describes (handleSearchExtended_describes h))
    · exact .plain (plain_describes (handleDescription_describes h))
    · cases h

theorem step_kind (framed : ∀ t ∈ state.tunnels, Framed t) {input : Input}
    (h : d ∈ (state.step env input).2.sends) : Kind state.tunnels input d := by
  by_cases running : state.running
  · rw [step_sends running] at h
    cases input with
    | datagram src data =>
      unfold ServerState.serve at h
      dsimp only at h
      split_ifs at h
      · exact handlePacket_kind h
      · cases h
    | sendFrame cemi =>
      rcases List.mem_append.mp h with h | h
      · cases hroute : state.multicastTarget with
        | none =>
          rw [hroute] at h
          cases h
        | some target =>
          rw [hroute] at h
          exact .plain (plain_send h rfl)
      · obtain ⟨t, _, hd⟩ := List.mem_flatMap.mp h
        exact .request (own_request (queue_own t _) hd)
    | sendToTunnel channelId cemi =>
      change d ∈ (sendToTunnelClient env state.tunnels channelId cemi.val).2 at h
      unfold sendToTunnelClient at h
      split at h
      · cases h
      · exact .request (own_request (queue_own _ _) h)
    | ackDue =>
      rcases expireAcks_kind framed h with h | h
      · exact .request h
      · exact .plain h
    | stop =>
      obtain ⟨t, _, hd⟩ := List.mem_flatMap.mp h
      exact .plain (plain_send hd rfl)
    | cleanup => cases h
    | deliver => cases h
    | setDescription description => cases h
    | receive => cases h
    | dropReceiver => cases h
  · unfold ServerState.step at h
    rw [if_neg running] at h
    cases input with
    | receive => cases h
    | _ => cases h

end
end KnxRs.ServerSends
