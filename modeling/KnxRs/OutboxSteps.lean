import KnxRs.ConnectionFrames
import KnxRs.ServerSends
import KnxRs.TunnelService

set_option autoImplicit false

/-!
# What a step adds to a tunnel's history

The frames a tunnel has sent only grow, an acknowledgement counts one on, and all that
goes out in a step is the request the tunnel then has in flight.
-/
namespace KnxRs.OutboxSteps
open CoreTypes CemiCodec KnxIpCodec KnxIpNetwork KeyedRows TunnelServer TunnelFrames TunnelSteps
  TunnelRequests TunnelRoster TunnelOutbox TunnelService ServerSends TunnelConnection
  ConnectionFrames Runs

section
variable {env : Env} {t t' : TunnelClient} {log : Log} {blocks : List (List UInt8 × Nat)}

/-! ## The frames sent -/

theorem enqueue_grows (log : Log) (t : TunnelClient) (cemi : List UInt8) :
    log.sent <+: (log.enqueue t cemi).sent := by
  unfold Log.enqueue Log.sent
  rw [List.filter_append, List.map_append]
  exact List.prefix_append _ _

theorem pump_grows (log : Log) (t : TunnelClient) : log.sent <+: (log.pump t).sent := by
  unfold Log.pump Log.sent
  rw [List.filter_append, List.map_append]
  exact List.prefix_append _ _

theorem queue_grows (log : Log) (t : TunnelClient) (cemi : List UInt8) :
    log.sent <+: (log.queue t cemi).sent :=
  (enqueue_grows log t cemi).trans (pump_grows _ _)

theorem after_grows (log : Log) (t : TunnelClient) (op : Op) :
    log.sent <+: (log.after t op).sent := by
  cases op with
  | queue cemi => exact queue_grows log t cemi
  | takeOver cemiData =>
    unfold Log.after
    dsimp only
    split
    · exact List.prefix_rfl
    · rename_i cemi _
      cases confirmationOf cemi with
      | none => exact List.prefix_rfl
      | some confirmation => exact queue_grows log _ confirmation
  | advance sequence => exact pump_grows { log with acked := log.acked + 1 } _
  | keep => exact List.prefix_rfl
  | heartbeat => exact List.prefix_rfl
  | transmit => exact List.prefix_rfl
  | remove => exact List.prefix_rfl

theorem after_acked (log : Log) (t : TunnelClient) (op : Op) :
    (log.after t op).acked = log.acked ∨
      ((log.after t op).acked = log.acked + 1 ∧ ∃ sequence, op = .advance sequence) := by
  cases op with
  | queue cemi => exact .inl rfl
  | takeOver cemiData =>
    refine .inl ?_
    unfold Log.after
    dsimp only
    split
    · rfl
    · rename_i cemi _
      cases confirmationOf cemi with
      | none => rfl
      | some confirmation => rfl
  | advance sequence => exact .inr ⟨rfl, sequence, rfl⟩
  | keep => exact .inl rfl
  | heartbeat => exact .inl rfl
  | transmit => exact .inl rfl
  | remove => exact .inl rfl

/-! ## The request in flight -/

def SendsInFlight (t : TunnelClient) (sends : List Datagram) : Prop :=
  ∀ d ∈ sends, ∃ f, t.inFlight = some f ∧ d = ⟨t.dataAddr, f.datagram⟩

theorem SendsInFlight.nil (t : TunnelClient) : SendsInFlight t [] :=
  fun _ hd => absurd hd List.not_mem_nil

theorem transmit_inFlight (env : Env) (t : TunnelClient) :
    SendsInFlight (t.transmit env).1 (t.transmit env).2 := by
  intro d hd
  rcases hf : t.inFlight with _ | f
  · unfold TunnelClient.transmit at hd
    rw [hf] at hd
    cases hd
  · rw [transmit_some hf] at hd ⊢
    exact ⟨_, rfl, Env.mem_sendTo hd⟩

theorem pump_inFlight (env : Env) (t : TunnelClient) :
    SendsInFlight (t.pump env).1 (t.pump env).2 := by
  unfold TunnelClient.pump
  split_ifs
  · exact .nil t
  · split
    · exact .nil _
    · exact transmit_inFlight env _

theorem takeOver_inFlight (env : Env) (t : TunnelClient) (cemiData : List UInt8) :
    SendsInFlight (t.takeOver env cemiData).1 (t.takeOver env cemiData).2 := by
  unfold TunnelClient.takeOver
  dsimp only
  split
  · exact .nil _
  · split
    · exact .nil _
    · exact pump_inFlight env _

theorem run_inFlight {op : Op} (h : (op.run env t).1 = some t') :
    SendsInFlight t' (op.run env t).2 := by
  cases op with
  | keep => exact .nil t'
  | heartbeat => exact .nil t'
  | takeOver cemiData =>
    cases h
    exact takeOver_inFlight env t cemiData
  | queue cemi =>
    cases h
    exact pump_inFlight env _
  | advance sequence =>
    cases h
    exact pump_inFlight env _
  | transmit =>
    cases h
    exact transmit_inFlight env t
  | remove => cases h

/-! ## Reading a request -/

theorem request_length {c : UInt8} {i : Nat} {cemi : List UInt8} (h : Valid cemi) :
    (requestOctets c i cemi).length ≤ recvBufSize := by
  have hlength := KnxIpFrame.tryToBytes_length (request_octets (c := c) (i := i) h)
  have hbody : (KnxIpFrame.tunnelingRequest c (UInt8.ofNat i) cemi).body.length =
      4 + cemi.length := by
    change (ConnectionHeader.toBytes _ ++ cemi).length = _
    rw [List.length_append]
    rfl
  have hcemi := h.length_le
  rw [hlength, hbody]
  unfold headerLen recvBufSize
  unfold maxFrameSize at hcemi
  omega

theorem frameOf_request {c : UInt8} {i : Nat} {cemi : List UInt8} (h : Valid cemi) :
    frameOf c (requestOctets c i cemi) = some (UInt8.ofNat i, cemi) := by
  unfold frameOf
  rw [List.take_of_length_le (request_length h), requestOf_request (request_octets h)]
  exact if_pos rfl

theorem agrees_current (h : Agrees t' log blocks) {sends : List Datagram}
    (hsends : SendsInFlight t' sends) : ∀ d ∈ sends, d.address = t'.dataAddr ∧
      ∃ cemi, frameOf t'.channelId d.octets = some (UInt8.ofNat log.acked, cemi) ∧
        log.sent[log.acked]? = some cemi ∧ Valid cemi := by
  intro d hd
  obtain ⟨f, hf, rfl⟩ := hsends d hd
  obtain ⟨_, _, _, earlier, cemi, n, hblocks, hlength, _, hvalid, hdatagram⟩ := h.busy f hf
  refine ⟨rfl, cemi, ?_, ?_, hvalid⟩
  · rw [hdatagram]
    exact frameOf_request hvalid
  · have hplace : (earlier.map Prod.fst).length = earlier.length := List.length_map _
    rw [← h.sent, hblocks, List.map_append, ← hlength,
      List.getElem?_append_right (Nat.le_of_eq hplace), hplace, Nat.sub_self]
    rfl

theorem agrees_window (h : Agrees t log blocks) : log.sent.length ≤ log.acked + 1 := by
  rw [← h.sent, List.length_map]
  rcases hf : t.inFlight with _ | f
  · exact Nat.le_succ_of_le (Nat.le_of_eq (h.idle hf))
  · obtain ⟨_, _, _, earlier, cemi, n, hblocks, hlength, _⟩ := h.busy f hf
    rw [hblocks, List.length_append, hlength]
    exact Nat.le_refl _

end

/-! ## One step of the server -/

section
variable {env : Env} {state : ServerState} {c : UInt8} {t : TunnelClient}
  {past : List (Transition ServerState (Env × Input))}

theorem frameOf_onChannel {d : Datagram} {x : UInt8 × List UInt8}
    (parses : ∃ frame, KnxIpFrame.parse d.octets = .ok frame) (h : frameOf c d.octets = some x) :
    onChannel c d := by
  obtain ⟨frame, hparse⟩ := parses
  obtain ⟨ch, hrequest, hc, _⟩ := frameOf_some h
  obtain ⟨frame', hparse', _⟩ := requestOf_some hrequest
  rw [KnxIpFrame.parse_take hparse hparse'] at hrequest
  unfold onChannel
  rw [hrequest]
  exact decide_eq_true hc

theorem idle_sends {input : Input} (idle : reads state input = false) :
    (state.step env input).2.sends = [] := by
  unfold ServerState.step
  split_ifs with running
  · cases input with
    | datagram src data =>
      have room : state.events.hasRoom = false := by
        unfold reads at idle
        rw [running] at idle
        exact idle
      unfold ServerState.serve
      dsimp only
      rw [room, if_neg Bool.false_ne_true]
    | _ =>
      unfold reads at idle
      rw [running] at idle
      cases idle
  · split <;> rfl

theorem run_none {op : Op} (h : (op.run env t).1 = none) : op = .remove := by
  cases op with
  | remove => rfl
  | _ => cases h

/-- What a step adds to the history of a live tunnel, and the requests it sends for it. -/
theorem step_adds (separate : Separate state) (served : Served past state)
    (h : tunnelOf c state.tunnels = some t) (env : Env) (input : Input) {log : Log}
    (hlog : log = logOf c (past ++ [⟨state, (env, input), state.next (env, input)⟩])) :
    (logOf c past).sent <+: log.sent ∧ log.sent.length ≤ log.acked + 1 ∧
      (log.acked = (logOf c past).acked ∨
        (log.acked = (logOf c past).acked + 1 ∧ Acknowledges t input)) ∧
      ∀ d ∈ (state.step env input).2.sends, ∀ x, frameOf c d.octets = some x →
        d.address = t.dataAddr ∧ x.1 = UInt8.ofNat log.acked ∧
          log.sent[log.acked]? = some x.2 ∧ Valid x.2 := by
  obtain ⟨⟨blocks, agrees⟩, settled⟩ := served c t h
  have framed := served.framed separate
  rw [logOf_append] at hlog
  unfold Log.record at hlog
  dsimp only at hlog
  rw [h] at hlog
  dsimp only at hlog
  split_ifs at hlog with taken
  · have hsends : requests c (state.step env input).2.sends =
        ((inputOp env t input).run env t).2 := by
      have hexpected := step_requests env c separate.distinct framed input taken
      unfold Expected at hexpected
      rw [h] at hexpected
      exact hexpected
    rw [hsends] at hlog
    have hsent : log.sent = ((logOf c past).after t (inputOp env t input)).sent := by
      rw [hlog]
      rfl
    have hacked : log.acked = ((logOf c past).after t (inputOp env t input)).acked := by
      rw [hlog]
      rfl
    refine ⟨hsent ▸ after_grows _ t _, ?_, ?_, fun d hd x hx => ?_⟩
    · rcases hrun : ((inputOp env t input).run env t).1 with _ | t'
      · rw [hsent, hacked, run_none hrun]
        exact agrees_window agrees
      · obtain ⟨⟨blocks', agrees'⟩, _⟩ := agrees.run settled (inputOp_suits env t input) hrun
        rw [hlog]
        exact agrees_window agrees'
    · rw [hacked]
      rcases after_acked (logOf c past) t (inputOp env t input) with hsame | ⟨hmore, sequence, hop⟩
      · exact .inl hsame
      · exact .inr ⟨hmore, inputOp_advance hop⟩
    · have hon := frameOf_onChannel (step_kind framed hd).parses hx
      have hmem : d ∈ requests c (state.step env input).2.sends := List.mem_filter.mpr ⟨hd, hon⟩
      rw [hsends] at hmem
      rcases hrun : ((inputOp env t input).run env t).1 with _ | t'
      · rw [run_none hrun] at hmem
        cases hmem
      · obtain ⟨⟨blocks', agrees'⟩, _⟩ := agrees.run settled (inputOp_suits env t input) hrun
        have ends := run_ends hrun
        obtain ⟨haddress, cemi, hframe, hget, hvalid⟩ := agrees_current agrees' (run_inFlight hrun) d hmem
        rw [ends.channelId, (row_some h).2, hx] at hframe
        cases hframe
        refine ⟨haddress.trans ends.dataAddr, ?_, ?_, hvalid⟩
        · rw [hlog]
        · rw [hlog]
          exact hget
  · subst hlog
    refine ⟨List.prefix_rfl, agrees_window agrees, .inl rfl, fun d hd => ?_⟩
    rw [idle_sends (Bool.not_eq_true _ |>.mp taken)] at hd
    cases hd

end
end KnxRs.OutboxSteps
