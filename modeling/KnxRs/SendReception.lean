import KnxRs.EventDelivery
import KnxRs.OutboxSteps
import KnxRs.SendExchange

set_option autoImplicit false

/-!
# What the server does with a request

A tunnel counts a request that it takes over, and no other; its frame is then the one
event of the step. A positive acknowledgement answers a request of a tunnel's data
endpoint.
-/
namespace KnxRs.SendReception
open CoreTypes CemiCodec KnxIpCodec KnxIpNetwork ServerEvents KeyedRows TunnelServer TunnelSteps
  TunnelRequests TunnelRoster TunnelOutbox ServerSends ConnectionFrames OutboxSteps SendExchange

section
variable {env : Env} {state : ServerState} {t t' : TunnelClient} {src : SocketAddr}
  {data : List UInt8}

/-! ## The receive counter -/

theorem enqueue_recvSeq (t : TunnelClient) (cemi : List UInt8) :
    (t.enqueue cemi).recvSeq = t.recvSeq := by
  unfold TunnelClient.enqueue
  split_ifs <;> rfl

theorem transmit_recvSeq (env : Env) (t : TunnelClient) :
    (t.transmit env).1.recvSeq = t.recvSeq := by
  unfold TunnelClient.transmit
  split <;> rfl

theorem pump_recvSeq (env : Env) (t : TunnelClient) : (t.pump env).1.recvSeq = t.recvSeq := by
  unfold TunnelClient.pump
  split_ifs
  · rfl
  · split
    · rfl
    · exact transmit_recvSeq env _

theorem queue_recvSeq (env : Env) (t : TunnelClient) (cemi : List UInt8) :
    (t.queue env cemi).1.recvSeq = t.recvSeq :=
  (pump_recvSeq env _).trans (enqueue_recvSeq t cemi)

theorem takeOver_recvSeq (env : Env) (t : TunnelClient) (cemiData : List UInt8) :
    (t.takeOver env cemiData).1.recvSeq = t.recvSeq + 1 := by
  unfold TunnelClient.takeOver
  dsimp only
  split
  · rfl
  · split
    · rfl
    · exact queue_recvSeq env _ _

theorem run_recvSeq {op : Op} (h : (op.run env t).1 = some t')
    (other : ∀ cemiData, op ≠ .takeOver cemiData) : t'.recvSeq = t.recvSeq := by
  cases op with
  | takeOver cemiData => exact absurd rfl (other cemiData)
  | keep =>
    cases h
    rfl
  | heartbeat =>
    cases h
    rfl
  | queue cemi =>
    cases h
    exact queue_recvSeq env t cemi
  | advance sequence =>
    cases h
    exact pump_recvSeq env _
  | transmit =>
    cases h
    exact transmit_recvSeq env t
  | remove => cases h

def Hears (state : ServerState) (t : TunnelClient) (input : Input) : Prop :=
  ∃ src data ch cemi, input = .datagram src data ∧ reads state (.datagram src data) ∧
    requestOf data = some (ch, cemi) ∧ ch.channelId = t.channelId ∧ t.dataAddr = src ∧
    ch.sequenceCounter = t.recvSeq

theorem inputOp_request {ch : ConnectionHeader} {cemi : List UInt8}
    (h : requestOf data = some (ch, cemi)) :
    inputOp env t (.datagram src data) =
      if fromData t src ch ∧ ch.sequenceCounter = t.recvSeq then .takeOver cemi else .keep := by
  obtain ⟨frame, hparse, hs, hch, hcemi⟩ := requestOf_some h
  unfold inputOp
  dsimp only
  rw [hparse]
  dsimp only
  unfold packetOp
  rw [hs]
  dsimp only
  unfold requestOp
  rw [hch]
  dsimp only
  rw [hcemi]

theorem inputOp_takeOver {input : Input} {cemiData : List UInt8}
    (h : inputOp env t input = .takeOver cemiData) :
    ∃ src data ch, input = .datagram src data ∧ requestOf data = some (ch, cemiData) ∧
      ch.channelId = t.channelId ∧ t.dataAddr = src ∧ ch.sequenceCounter = t.recvSeq := by
  cases input with
  | datagram src data =>
    rcases hrequest : requestOf data with _ | ⟨ch, cemi⟩
    · unfold requestOf at hrequest
      unfold inputOp at h
      dsimp only at h
      rcases hparse : KnxIpFrame.parse data with e | frame
      · rw [hparse] at h
        cases h
      · rw [hparse] at h hrequest
        dsimp only at h hrequest
        unfold packetOp requestOp ackOp at h
        split at h
        · split_ifs at h
        · split_ifs at h
        · rename_i hs
          rw [if_pos hs] at hrequest
          rw [Option.map_eq_none_iff.mp hrequest] at h
          cases h
        · split at h
          · cases h
          · split_ifs at h
        · cases h
    · rw [inputOp_request hrequest] at h
      split_ifs at h with hheard
      cases h
      obtain ⟨hid, hsrc⟩ : ch.channelId = t.channelId ∧ t.dataAddr = src :=
        of_decide_eq_true hheard.1
      exact ⟨src, data, ch, rfl, hrequest, hid, hsrc, hheard.2⟩
  | sendToTunnel channelId cemi =>
    unfold inputOp at h
    dsimp only at h
    split_ifs at h
  | ackDue =>
    unfold inputOp dueOp at h
    dsimp only at h
    split at h
    · cases h
    · split_ifs at h
  | cleanup =>
    unfold inputOp at h
    dsimp only at h
    split_ifs at h
  | _ => cases h

theorem next_recvSeq (separate : Separate state) {c : UInt8}
    (h : tunnelOf c state.tunnels = some t) {input : Input}
    (h' : tunnelOf c (state.next (env, input)).tunnels = some t') :
    SameEnds t t' ∧ ((Hears state t input ∧ t'.recvSeq = t.recvSeq + 1) ∨
      (¬ Hears state t input ∧ t'.recvSeq = t.recvSeq)) := by
  by_cases taken : reads state input
  · rw [step_row separate.distinct h input taken] at h'
    refine ⟨run_ends h', ?_⟩
    by_cases hheard : ∃ cemiData, inputOp env t input = .takeOver cemiData
    · obtain ⟨cemiData, hop⟩ := hheard
      obtain ⟨src, data, ch, rfl, hrequest, hid, hsrc, hseq⟩ := inputOp_takeOver hop
      rw [hop] at h'
      cases h'
      exact .inl ⟨⟨src, data, ch, cemiData, rfl, taken, hrequest, hid, hsrc, hseq⟩,
        takeOver_recvSeq env t cemiData⟩
    · refine .inr ⟨?_, run_recvSeq h' fun cemiData hop => hheard ⟨cemiData, hop⟩⟩
      rintro ⟨src, data, ch, cemi, rfl, _, hrequest, hid, hsrc, hseq⟩
      refine hheard ⟨cemi, ?_⟩
      rw [inputOp_request hrequest, if_pos ⟨decide_eq_true ⟨hid, hsrc⟩, hseq⟩]
  · rw [step_idle (Bool.not_eq_true _ |>.mp taken), h] at h'
    cases h'
    refine ⟨.refl t, .inr ⟨?_, rfl⟩⟩
    rintro ⟨src, data, ch, cemi, rfl, hreads, _⟩
    exact taken hreads

/-! ## The event of a step -/

theorem takesOver_some (h : takesOver state src data) :
    ∃ ch cemi t, reads state (.datagram src data) ∧ requestOf data = some (ch, cemi) ∧
      tunnelOf ch.channelId state.tunnels = some t ∧ t.dataAddr = src ∧
      ch.sequenceCounter = t.recvSeq := by
  unfold takesOver at h
  obtain ⟨taken, h⟩ := Bool.and_eq_true_iff.mp h
  rcases hrequest : requestOf data with _ | ⟨ch, cemi⟩
  · rw [hrequest] at h
    cases h
  · rw [hrequest] at h
    dsimp only at h
    obtain ⟨t, ht, hheard⟩ := (Option.any_eq_true _ _).mp h
    obtain ⟨hsrc, hseq⟩ := Bool.and_eq_true_iff.mp hheard
    exact ⟨ch, cemi, t, taken, rfl, ht, of_decide_eq_true hsrc, of_decide_eq_true hseq⟩

theorem takesOver_of (taken : reads state (.datagram src data)) {ch : ConnectionHeader}
    {cemi : List UInt8} (hrequest : requestOf data = some (ch, cemi))
    (ht : tunnelOf ch.channelId state.tunnels = some t) (hsrc : t.dataAddr = src)
    (hseq : ch.sequenceCounter = t.recvSeq) : takesOver state src data := by
  unfold takesOver
  rw [taken, hrequest]
  dsimp only
  rw [ht, Option.any_some, decide_eq_true hsrc, decide_eq_true hseq]
  rfl

theorem step_events (env : Env) (taken : reads state (.datagram src data)) :
    (state.step env (.datagram src data)).2.events =
      (state.handlePacket env src data).2.events := by
  unfold ServerState.step ServerState.serve
  rw [if_pos (reads_running taken)]
  dsimp only
  rw [if_pos (Bool.and_eq_true_iff.mp taken).2]

theorem idle_events (env : Env) (idle : reads state (.datagram src data) = false) :
    (state.step env (.datagram src data)).2.events = [] := by
  unfold ServerState.step
  split_ifs with running
  · unfold reads at idle
    rw [running] at idle
    have room : state.events.hasRoom = false := idle
    unfold ServerState.serve
    dsimp only
    rw [room, if_neg Bool.false_ne_true]
  · rfl

theorem takesOver_events (env : Env) (taken : reads state (.datagram src data))
    {ch : ConnectionHeader} {cemi : List UInt8} (hrequest : requestOf data = some (ch, cemi))
    (ht : tunnelOf ch.channelId state.tunnels = some t) (hsrc : t.dataAddr = src)
    (hseq : ch.sequenceCounter = t.recvSeq) :
    (state.step env (.datagram src data)).2.events = tunnelEvents cemi := by
  obtain ⟨frame, hparse, hs, hch, hcemi⟩ := requestOf_some hrequest
  have ht : row TunnelClient.channelId ch.channelId state.tunnels = some t := ht
  rw [step_events env taken]
  unfold ServerState.handlePacket
  rw [hparse]
  dsimp only
  rw [hs]
  dsimp only
  unfold handleTunnelingRequest
  rw [hch]
  dsimp only
  rw [ht]
  dsimp only
  rw [if_neg (not_not.mpr hsrc), if_neg (not_not.mpr hseq), hcemi]

theorem other_events (env : Env) (other : takesOver state src data = false) :
    framesOf (state.step env (.datagram src data)).2.events = [] := by
  by_cases taken : reads state (.datagram src data)
  · rw [step_events env taken]
    unfold ServerState.handlePacket
    rcases hparse : KnxIpFrame.parse data with e | frame
    · rfl
    · dsimp only
      split
      · dsimp only
        unfold ServerState.routingEvents
        split <;> rfl
      · rfl
      · rfl
      · rfl
      · rename_i hs
        dsimp only
        unfold handleTunnelingRequest
        rcases hch : ConnectionHeader.parse frame.body with _ | ch
        · rfl
        · dsimp only
          split
          · rfl
          · rename_i t ht
            split_ifs with hsrc hseq
            · rfl
            · rfl
            · have hrequest : requestOf data =
                  some (ch, frame.body.drop ConnectionHeader.len) := by
                unfold requestOf
                rw [hparse]
                dsimp only
                rw [if_pos hs, hch]
                rfl
              have heard := takesOver_of taken hrequest ht (not_not.mp hsrc) (not_not.mp hseq)
              rw [other] at heard
              cases heard
      · rfl
      · rfl
      · rfl
      · rfl
      · rfl
  · rw [idle_events env (Bool.not_eq_true _ |>.mp taken)]
    rfl

/-! ## Positive acknowledgements -/

theorem tunnelingAck_inj {c c' q q' s s' : UInt8}
    (h : KnxIpFrame.tunnelingAck c q s = .tunnelingAck c' q' s') : c = c' ∧ q = q' ∧ s = s' := by
  have hbody := congrArg KnxIpFrame.body h
  change ConnectionHeader.toBytes ⟨c, q, s⟩ = ConnectionHeader.toBytes ⟨c', q', s'⟩ at hbody
  unfold ConnectionHeader.toBytes at hbody
  obtain ⟨_, hbody⟩ := List.cons.inj hbody
  obtain ⟨hc, hbody⟩ := List.cons.inj hbody
  obtain ⟨hq, hbody⟩ := List.cons.inj hbody
  exact ⟨hc, hq, (List.cons.inj hbody).1⟩

theorem sent_reads (framed : ∀ t ∈ state.tunnels, Framed t) {input : Input} {d : Datagram}
    (h : d ∈ (state.step env input).2.sends) :
    ∃ frame, KnxIpFrame.parse d.octets = .ok frame ∧
      (frame.serviceType = .tunnelingAck → ∃ c q s, frame = .tunnelingAck c q s) := by
  rcases step_kind framed h with ⟨frame, hparse, hother⟩ | ⟨c, q, cemi, hbytes⟩ |
    ⟨_, _, ch, status, _, _, hparse, _⟩
  · refine ⟨frame, hparse, fun hs => ?_⟩
    rw [hs] at hother
    cases hother
  · exact ⟨_, KnxIpFrame.parse_tryToBytes hbytes, fun hs => ServiceType.noConfusion hs⟩
  · exact ⟨_, hparse, fun _ => ⟨_, _, _, rfl⟩⟩

/-- A positive acknowledgement answers a request that the step has read. -/
theorem sent_positive (framed : ∀ t ∈ state.tunnels, Framed t) {input : Input} {d : Datagram}
    {c q : UInt8} (h : d ∈ (state.step env input).2.sends)
    (hack : KnxIpFrame.parse d.octets = .ok (.tunnelingAck c q eNoError)) :
    ∃ src data ch cemi t, input = .datagram src data ∧ reads state (.datagram src data) ∧
      requestOf data = some (ch, cemi) ∧ ch.channelId = c ∧ ch.sequenceCounter = q ∧
      tunnelOf c state.tunnels = some t ∧ t.dataAddr = src ∧ d.address = src := by
  rcases step_kind framed h with ⟨frame, hparse, hother⟩ | ⟨c', q', cemi, hbytes⟩ |
    ⟨rfl, hread, ch, status, hs, hch, hparse, hpositive⟩
  · rw [hack] at hparse
    cases hparse
    cases hother
  · rw [KnxIpFrame.parse_tryToBytes hbytes] at hack
    exact ServiceType.noConfusion (congrArg KnxIpFrame.serviceType (Except.ok.inj hack))
  · rename_i src data frame
    rw [hparse] at hack
    obtain ⟨rfl, rfl, rfl⟩ := tunnelingAck_inj (Except.ok.inj hack)
    obtain ⟨t, ht, hsrc, haddress⟩ := hpositive rfl
    refine ⟨src, data, ch, frame.body.drop ConnectionHeader.len, t, rfl, ?_, ?_, rfl, rfl, ht, hsrc,
      haddress⟩
    · by_contra idle
      rw [idle_sends (Bool.not_eq_true _ |>.mp idle)] at h
      cases h
    · unfold requestOf
      rw [hread]
      dsimp only
      rw [if_pos hs, hch]
      rfl

end
end KnxRs.SendReception
