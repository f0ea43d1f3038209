import KnxRs.TunnelAttempts

set_option autoImplicit false

/-!
# How a tunnel is served

In every run a tunnel sends its frames one at a time, in order, under consecutive
sequence numbers. Only the acknowledgement it waits for lets it go on.
-/
namespace KnxRs.TunnelService
open CoreTypes CemiCodec KnxIpCodec KnxIpNetwork KeyedRows TunnelServer TunnelFrames TunnelSteps
  TunnelRequests TunnelRoster TunnelOutbox TunnelAttempts Runs

/-- The input is an acknowledgement from the tunnel's data endpoint with the sequence number
    in flight. -/
def Acknowledges (t : TunnelClient) (input : Input) : Prop :=
  ∃ data frame ch f, input = .datagram t.dataAddr data ∧ KnxIpFrame.parse data = .ok frame ∧
    frame.serviceType = .tunnelingAck ∧ ConnectionHeader.parse frame.body = some ch ∧
    ch.channelId = t.channelId ∧ t.inFlight = some f ∧ ch.sequenceCounter = f.sequence

section
variable {env : Env} {t t' : TunnelClient}

theorem expects_inFlight {sequence : UInt8} (h : t.expects sequence) :
    ∃ f, t.inFlight = some f ∧ f.sequence = sequence := by
  unfold TunnelClient.expects at h
  rcases hf : t.inFlight with _ | f
  · rw [hf] at h
    cases h
  · rw [hf] at h
    exact ⟨f, rfl, of_decide_eq_true h⟩

theorem inputOp_advance {input : Input} {sequence : UInt8}
    (h : inputOp env t input = .advance sequence) : Acknowledges t input := by
  cases input with
  | datagram src data =>
    unfold inputOp at h
    dsimp only at h
    rcases hparse : KnxIpFrame.parse data with e | frame
    · rw [hparse] at h
      cases h
    · rw [hparse] at h
      dsimp only at h
      unfold packetOp requestOp ackOp at h
      split at h
      · split_ifs at h
      · split_ifs at h
      · split at h
        · cases h
        · split_ifs at h
      · rename_i hs
        rcases hch : ConnectionHeader.parse frame.body with _ | ch
        · rw [hch] at h
          cases h
        · rw [hch] at h
          dsimp only at h
          split_ifs at h with hack
          obtain ⟨hid, hsrc⟩ : ch.channelId = t.channelId ∧ t.dataAddr = src :=
            of_decide_eq_true hack.1
          obtain ⟨f, hf, hseq⟩ := expects_inFlight hack.2
          exact ⟨data, frame, ch, f, hsrc ▸ rfl, hparse, hs, hch, hid, hf, hseq.symm⟩
      · cases h
  | sendToTunnel channelId cemi =>
    unfold inputOp at h
    dsimp only at h
    split_ifs at h
  | ackDue =>
    unfold inputOp dueOp at h
    dsimp only at h
    split at h
    · cases h
    · split_ifs at h
  | cleanup =>
    unfold inputOp at h
    dsimp only at h
    split_ifs at h
  | _ => cases h

/-! ## What waits goes on waiting -/

/-- The same request is in flight, perhaps sent again. -/
structure Waits (t t' : TunnelClient) : Prop where
  sendSeq : t'.sendSeq = t.sendSeq
  inFlight : ∀ f, t.inFlight = some f → ∃ f', t'.inFlight = some f' ∧
    f'.sequence = f.sequence ∧ f'.datagram = f.datagram ∧ f.attempts ≤ f'.attempts

theorem Waits.refl (t : TunnelClient) : Waits t t :=
  ⟨rfl, fun f hf => ⟨f, hf, rfl, rfl, Nat.le_refl _⟩⟩

theorem enqueue_waits (t : TunnelClient) (cemi : List UInt8) : Waits t (t.enqueue cemi) := by
  unfold TunnelClient.enqueue
  split_ifs <;> exact ⟨rfl, (Waits.refl t).inFlight⟩

theorem transmit_sendSeq (t : TunnelClient) : (t.transmit env).1.sendSeq = t.sendSeq := by
  unfold TunnelClient.transmit
  split <;> rfl

theorem pump_waits (env : Env) (t : TunnelClient) : Waits t (t.pump env).1 := by
  rcases hf : t.inFlight with _ | f
  · refine ⟨?_, fun f h => ?_⟩
    · unfold TunnelClient.pump
      rw [hf]
      dsimp only [Option.isSome_none]
      rw [if_neg Bool.false_ne_true]
      split
      · rfl
      · exact transmit_sendSeq _
    · rw [hf] at h
      cases h
  · rw [pump_busy (by rw [hf]; rfl)]
    exact .refl t

theorem queue_waits (env : Env) (t : TunnelClient) (cemi : List UInt8) :
    Waits t (t.queue env cemi).1 := by
  have henqueue := enqueue_waits t cemi
  have hpump := pump_waits env (t.enqueue cemi)
  refine ⟨hpump.sendSeq.trans henqueue.sendSeq, fun f hf => ?_⟩
  obtain ⟨f', hf', hseq, hdatagram, hle⟩ := henqueue.inFlight f hf
  obtain ⟨f'', hf'', hseq', hdatagram', hle'⟩ := hpump.inFlight f' hf'
  exact ⟨f'', hf'', hseq'.trans hseq, hdatagram'.trans hdatagram, Nat.le_trans hle hle'⟩

theorem takeOver_waits (t : TunnelClient) (cemiData : List UInt8) :
    Waits t (t.takeOver env cemiData).1 := by
  have hreceived : Waits t { t with recvSeq := t.recvSeq + 1 } := ⟨rfl, (Waits.refl t).inFlight⟩
  unfold TunnelClient.takeOver
  dsimp only
  split
  · exact hreceived
  · split
    · exact hreceived
    · have hqueue := queue_waits env { t with recvSeq := t.recvSeq + 1 }
      exact ⟨(hqueue _).sendSeq, (hqueue _).inFlight⟩

theorem transmit_waits (t : TunnelClient) : Waits t (t.transmit env).1 := by
  refine ⟨transmit_sendSeq t, fun f hf => ?_⟩
  rw [transmit_some hf]
  exact ⟨_, rfl, rfl, rfl, Nat.le_succ _⟩

theorem run_waits {op : Op} (h : (op.run env t).1 = some t')
    (noAdvance : ∀ sequence, op ≠ .advance sequence) : Waits t t' := by
  cases op with
  | keep =>
    cases h
    exact .refl t
  | heartbeat =>
    cases h
    exact ⟨rfl, (Waits.refl t).inFlight⟩
  | takeOver cemiData =>
    cases h
    exact takeOver_waits t cemiData
  | queue cemi =>
    cases h
    exact queue_waits env t cemi
  | advance sequence => exact absurd rfl (noAdvance sequence)
  | transmit =>
    cases h
    exact transmit_waits t
  | remove => cases h

theorem advance_sendSeq (t : TunnelClient) (sequence : UInt8) :
    (t.advance env sequence).1.sendSeq = sequence + 1 := by
  exact (pump_waits env { t with inFlight := none, sendSeq := sequence + 1 }).sendSeq

end

/-! ## Steps of a run -/

section
variable {description : Option ServerDescription.DeviceDescription}
  {multicastTarget : Option SocketAddr} {state : ServerState}
  {past : List (Transition ServerState (Env × Input))}

theorem step_waits (separate : Separate state) {c : UInt8} {t t' : TunnelClient}
    (h : tunnelOf c state.tunnels = some t) (env : Env) (input : Input)
    (h' : tunnelOf c (state.next (env, input)).tunnels = some t') :
    Waits t t' ∨
      (Acknowledges t input ∧ ∃ f, t.inFlight = some f ∧ t'.sendSeq = f.sequence + 1) := by
  by_cases taken : reads state input
  · rw [step_row separate.distinct h input taken] at h'
    by_cases hadvance : ∃ sequence, inputOp env t input = .advance sequence
    · obtain ⟨sequence, hop⟩ := hadvance
      have hack := inputOp_advance hop
      have hsuits := inputOp_suits env t input
      rw [hop] at hsuits h'
      obtain ⟨f, hf, hseq⟩ := hsuits
      cases h'
      refine .inr ⟨hack, f, hf, ?_⟩
      rw [hseq]
      exact advance_sendSeq t sequence
    · exact .inl (run_waits h' fun sequence hop => hadvance ⟨sequence, hop⟩)
  · rw [step_idle (Bool.not_eq_true _ |>.mp taken), h] at h'
    cases h'
    exact .inl (.refl t)

/-- A request that is due is sent again, and after the third attempt the tunnel goes. -/
theorem due_step (separate : Separate state) (running : state.running) {c : UInt8}
    {t : TunnelClient} (h : tunnelOf c state.tunnels = some t) {f : InFlight}
    (hf : t.inFlight = some f) {env : Env} (due : f.deadline ≤ env.now) :
    tunnelOf c (state.next (env, .ackDue)).tunnels =
      if f.attempts < maxRetries then some (t.transmit env).1 else none := by
  have hop : inputOp env t .ackDue = if f.attempts < maxRetries then .transmit else .remove := by
    unfold inputOp dueOp
    rw [hf]
    dsimp only
    rw [if_neg (Nat.not_lt.mpr due)]
  rw [step_row separate.distinct h .ackDue running, hop]
  split_ifs <;> rfl

/-- In every run: a tunnel has at most the one request of its send sequence in flight, attempted
    one to three times; its outbox is bounded, and what it dropped or sent has left it in the
    order of queueing; the attempts are the sent frames in that order under consecutive sequence
    numbers, each one to three times as one datagram, and the wire shows those that the socket
    took; a step sends to the data endpoint what it attempts and no other request; only the
    acknowledgement of the request in flight, from the data endpoint, moves the tunnel on; and a
    request that is still unanswered when its third attempt is due costs it the tunnel. -/
theorem tunnels_are_served
    (run : Run (fun s e s' => s.next e = s') (.start description multicastTarget) past state)
    {c : UInt8} {t : TunnelClient} (h : tunnelOf c state.tunnels = some t) :
    (t.outbox.length ≤ maxClientQueue ∧ t.sendSeq = UInt8.ofNat (logOf c past).acked ∧
      (t.inFlight = none → t.outbox = []) ∧
      ∀ f, t.inFlight = some f →
        f.sequence = t.sendSeq ∧ 1 ≤ f.attempts ∧ f.attempts ≤ maxRetries) ∧
    (logOf c past).enqueued = (logOf c past).left.map Prod.fst ++ t.outbox ∧
    (∃ blocks, blocks.map Prod.fst = (logOf c past).sent ∧
      (∀ b ∈ blocks, 1 ≤ b.2 ∧ b.2 ≤ maxRetries) ∧
      (attemptsOf c past).map Prod.fst = onWire c 0 blocks ∧
      blocks.length = (logOf c past).acked + (if t.inFlight.isSome then 1 else 0) ∧
      ∀ f, t.inFlight = some f → ∃ cemi, blocks.getLast? = some (cemi, f.attempts) ∧
        f.datagram = requestOctets c (logOf c past).acked cemi) ∧
    (logOf c past).wire = taken (attemptsOf c past) ∧
    (∀ env input t', tunnelOf c (state.next (env, input)).tunnels = some t' →
      Sends env t t' (requests c (state.step env input).2.sends) ∧
      (Waits t t' ∨
        (Acknowledges t input ∧ ∃ f, t.inFlight = some f ∧ t'.sendSeq = f.sequence + 1))) ∧
    (state.running → ∀ env f, t.inFlight = some f → f.deadline ≤ env.now →
      tunnelOf c (state.next (env, .ackDue)).tunnels =
        if f.attempts < maxRetries then some (t.transmit env).1 else none) := by
  obtain ⟨separate, served⟩ := run_served run
  obtain ⟨⟨counted, agrees⟩, settled⟩ := served c t h
  obtain ⟨⟨blocks, tried⟩, wire⟩ := run_attempted run c t h
  have hid : t.channelId = c := (row_some h).2
  refine ⟨⟨agrees.limit, agrees.sequence, settled, fun f hf => ?_⟩, agrees.order,
    ⟨blocks, tried.sent, tried.counts, hid ▸ tried.attempts, ?_, fun f hf => ?_⟩, wire,
    fun env input t' h' => ⟨step_attempts separate served h env input h',
      step_waits separate h env input h'⟩,
    fun running env f hf due => due_step separate running h hf due⟩
  · obtain ⟨hseq, hpos, hle, _⟩ := agrees.busy f hf
    exact ⟨hseq, hpos, hle⟩
  · rcases hf : t.inFlight with _ | f
    · exact tried.idle hf
    · obtain ⟨earlier, cemi, hblocks, hlength, _⟩ := tried.busy f hf
      rw [hblocks, List.length_append, hlength]
      rfl
  · obtain ⟨earlier, cemi, hblocks, _, hdatagram⟩ := tried.busy f hf
    refine ⟨cemi, ?_, hid ▸ hdatagram⟩
    rw [hblocks, List.getLast?_append]
    rfl

end

/-- A client connects, the application sends two frames, and the first is sent again when it is
    due. -/
def sendInputs : List (Env × Input) :=
  connectInputs ++
    [(calm 5, .sendFrame groupWrite), (calm 6, .sendFrame groupWrite), (calm 1005, .ackDue)]

/-- The acknowledgement of the first. -/
def firstAck : Env × Input :=
  (calm 1020, .datagram (.v4 ⟨192, 168, 1, 2⟩ 5000) [0x06, 0x10, 0x04, 0x21, 0, 10, 4, 1, 0, 0])

def sendStates (inputs : List (Env × Input)) : ServerState :=
  inputs.foldl ServerState.next (.start none none)

def sendSteps (inputs : List (Env × Input)) : List (Transition ServerState (Env × Input)) :=
  trace ServerState.next (.start none none) inputs

/-- The first frame is twice on the wire when its acknowledgement lets the second one follow. -/
theorem one_frame_in_flight : ∃ t t', tunnelOf 1 (sendStates sendInputs).tunnels = some t ∧
    tunnelOf 1 (sendStates (sendInputs ++ [firstAck])).tunnels = some t' ∧
    t.inFlight.map InFlight.attempts = some 2 ∧ t.outbox.length = 1 ∧
    (logOf 1 (sendSteps sendInputs)).wire =
      List.replicate 2 (requestOctets 1 0 (asIndication groupWrite)) ∧
    Acknowledges t firstAck.2 ∧ t'.sendSeq = 1 ∧
    (logOf 1 (sendSteps (sendInputs ++ [firstAck]))).wire =
      List.replicate 2 (requestOctets 1 0 (asIndication groupWrite)) ++
        [requestOctets 1 1 (asIndication groupWrite)] := by
  obtain ⟨t, ht, hseq, hattempts, hwaiting⟩ : ∃ t,
      tunnelOf 1 (sendStates sendInputs).tunnels = some t ∧ t.sendSeq = 0 ∧
        t.inFlight.map InFlight.attempts = some 2 ∧ t.outbox.length = 1 :=
    ⟨_, rfl, rfl, rfl, rfl⟩
  obtain ⟨t', ht', hseq'⟩ : ∃ t', tunnelOf 1 (sendStates (sendInputs ++ [firstAck])).tunnels =
      some t' ∧ t'.sendSeq = 1 := ⟨_, rfl, rfl⟩
  obtain ⟨_, _, _, hwire, hsteps, _⟩ :=
    tunnels_are_served (trace_run ServerState.next (.start none none) sendInputs) ht
  obtain ⟨_, _, _, hwire', _⟩ :=
    tunnels_are_served (trace_run ServerState.next (.start none none) (sendInputs ++ [firstAck])) ht'
  refine ⟨t, t', ht, ht', hattempts, hwaiting, hwire.trans rfl, ?_, hseq', hwire'.trans rfl⟩
  have hstep : tunnelOf 1 ((sendStates sendInputs).next firstAck).tunnels = some t' := by
    rw [← ht']
    unfold sendStates
    rw [List.foldl_append]
    rfl
  rcases (hsteps firstAck.1 firstAck.2 t' hstep).2 with waits | ⟨acknowledges, _⟩
  · have hsame := waits.sendSeq
    rw [hseq, hseq'] at hsame
    cases hsame
  · exact acknowledges

end KnxRs.TunnelService
