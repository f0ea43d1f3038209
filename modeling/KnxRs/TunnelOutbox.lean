import KnxRs.TunnelRequests
import KnxRs.TunnelRoster

set_option autoImplicit false

/-!
# What a tunnel serves

The history of one tunnel: the frames queued for it, those that have left its outbox,
the acknowledgements and the requests on the wire. Every operation keeps the tunnel and
its history in agreement.
-/
namespace KnxRs.TunnelOutbox
open CoreTypes CemiCodec KnxIpCodec KnxIpNetwork KeyedRows TunnelServer TunnelFrames TunnelSteps
  TunnelRequests TunnelRoster Runs

/-- The history of a tunnel. A frame that has left the outbox was sent (`true`) or dropped by
    an overflow (`false`). -/
structure Log where
  enqueued : List (List UInt8)
  left : List (List UInt8 × Bool)
  acked : Nat
  wire : List (List UInt8)

namespace Log

def empty : Log := ⟨[], [], 0, []⟩

variable (env : Env) (log : Log) (t : TunnelClient)

def sent : List (List UInt8) := (log.left.filter Prod.snd).map Prod.fst

/-- A frame is queued; with a full outbox, the oldest that waits is dropped. -/
def enqueue (cemi : List UInt8) : Log :=
  { log with
    enqueued := log.enqueued ++ [cemi]
    left := log.left ++ if maxClientQueue ≤ t.outbox.length then
      (t.outbox.take 1).map fun cemi => (cemi, false) else [] }

/-- The oldest frame goes on to the wire, when nothing is in flight. -/
def pump : Log :=
  { log with
    left := log.left ++ if t.inFlight.isSome then [] else
      (t.outbox.take 1).map fun cemi => (cemi, true) }

def queue (cemi : List UInt8) : Log := (log.enqueue t cemi).pump (t.enqueue cemi)

/-- The history after an operation, but for the wire. -/
def after : Op → Log
  | .queue cemi => log.queue t cemi
  | .takeOver cemiData =>
    match CemiFrame.parse cemiData with
    | .error _ => log
    | .ok cemi => (confirmationOf cemi).elim log (log.queue { t with recvSeq := t.recvSeq + 1 })
  | .advance _ => pump { log with acked := log.acked + 1 } { t with inFlight := none }
  | _ => log

def onto (sends : List Datagram) : Log :=
  { log with wire := log.wire ++ sends.map Datagram.octets }

def record (c : UInt8) (state : ServerState) (event : Env × Input) : Log :=
  match tunnelOf c state.tunnels with
  | none => .empty
  | some t =>
    if reads state event.2 then
      (log.after t (inputOp event.1 t event.2)).onto
        (requests c (state.step event.1 event.2).2.sends)
    else log

end Log

def logOf (c : UInt8) (past : List (Transition ServerState (Env × Input))) : Log :=
  past.foldl (fun log x => log.record c x.source x.event) .empty

/-! ## Requests on the wire -/

/-- The request of the frame at place `i` of what channel `c` sends. -/
def requestOctets (c : UInt8) (i : Nat) (cemi : List UInt8) : List UInt8 :=
  (KnxIpFrame.tunnelingRequest c (UInt8.ofNat i) cemi).octets
    (UInt16.ofNat (headerLen + (KnxIpFrame.tunnelingRequest c (UInt8.ofNat i) cemi).body.length))

/-- Each frame in its turn, as often as it was sent, under consecutive sequence numbers. -/
def onWire (c : UInt8) : Nat → List (List UInt8 × Nat) → List (List UInt8)
  | _, [] => []
  | i, (cemi, n) :: rest => List.replicate n (requestOctets c i cemi) ++ onWire c (i + 1) rest

theorem onWire_append (c : UInt8) (i : Nat) (xs ys : List (List UInt8 × Nat)) :
    onWire c i (xs ++ ys) = onWire c i xs ++ onWire c (i + xs.length) ys := by
  induction xs generalizing i with
  | nil => rfl
  | cons x rest ih =>
    have hplace : i + 1 + rest.length = i + (x :: rest).length := by
      rw [List.length_cons]
      omega
    rw [List.cons_append, onWire, ih (i + 1), hplace, onWire, List.append_assoc]

theorem onWire_again (c : UInt8) (xs : List (List UInt8 × Nat)) (cemi : List UInt8) (n k : Nat) :
    onWire c 0 (xs ++ [(cemi, n)]) ++ List.replicate k (requestOctets c xs.length cemi) =
      onWire c 0 (xs ++ [(cemi, n + k)]) := by
  rw [onWire_append, onWire_append, List.append_assoc, Nat.zero_add]
  simp only [onWire, List.append_nil]
  rw [List.replicate_add]

theorem request_octets {c : UInt8} {i : Nat} {cemi : List UInt8} (h : Valid cemi) :
    (KnxIpFrame.tunnelingRequest c (UInt8.ofNat i) cemi).tryToBytes =
      .ok (requestOctets c i cemi) := by
  obtain ⟨datagram, hdatagram⟩ := h.request c (UInt8.ofNat i)
  have hcopy := hdatagram
  unfold KnxIpFrame.tryToBytes at hcopy
  dsimp only at hcopy
  split_ifs at hcopy with hlen
  exact KnxIpFrame.tryToBytes_ok hlen

/-! ## Agreement -/

/-- A tunnel agrees with its history, in which each sent frame stands with the number of its
    requests on the wire. -/
structure Agrees (t : TunnelClient) (log : Log) (blocks : List (List UInt8 × Nat)) : Prop where
  valid : ∀ cemi ∈ t.outbox, Valid cemi
  limit : t.outbox.length ≤ maxClientQueue
  order : log.enqueued = log.left.map Prod.fst ++ t.outbox
  sequence : t.sendSeq = UInt8.ofNat log.acked
  sent : blocks.map Prod.fst = log.sent
  attempts : ∀ b ∈ blocks, b.2 ≤ maxRetries
  wire : log.wire = onWire t.channelId 0 blocks
  idle : t.inFlight = none → blocks.length = log.acked
  busy : ∀ f, t.inFlight = some f → f.sequence = t.sendSeq ∧ 1 ≤ f.attempts ∧
    f.attempts ≤ maxRetries ∧ ∃ earlier cemi n, blocks = earlier ++ [(cemi, n)] ∧
      earlier.length = log.acked ∧ n ≤ f.attempts ∧ Valid cemi ∧
      f.datagram = requestOctets t.channelId log.acked cemi

def Settled (t : TunnelClient) : Prop := t.inFlight = none → t.outbox = []

theorem new_agrees (c : UInt8) (ctrlAddr dataAddr : SocketAddr) (now : Nat) :
    Agrees (.new c ctrlAddr dataAddr now) .empty [] where
  valid := fun _ h => absurd h List.not_mem_nil
  limit := Nat.zero_le _
  order := rfl
  sequence := rfl
  sent := rfl
  attempts := fun _ h => absurd h List.not_mem_nil
  wire := rfl
  idle := fun _ => rfl
  busy := fun _ h => by cases h

section
variable {env : Env} {t : TunnelClient} {log : Log} {blocks : List (List UInt8 × Nat)}

theorem Agrees.framed (h : Agrees t log blocks) : Framed t := by
  intro f hf
  obtain ⟨_, _, _, _, cemi, _, _, _, _, hvalid, hdatagram⟩ := h.busy f hf
  exact ⟨_, cemi, hdatagram ▸ request_octets hvalid⟩

theorem Agrees.heartbeat (h : Agrees t log blocks) :
    Agrees { t with lastHeartbeat := env.now } log blocks :=
  ⟨h.valid, h.limit, h.order, h.sequence, h.sent, h.attempts, h.wire, h.idle, h.busy⟩

theorem Agrees.received (h : Agrees t log blocks) :
    Agrees { t with recvSeq := t.recvSeq + 1 } log blocks :=
  ⟨h.valid, h.limit, h.order, h.sequence, h.sent, h.attempts, h.wire, h.idle, h.busy⟩

/-! ## Queueing -/

theorem take_one_append_tail {α : Type} (xs : List α) : xs.take 1 ++ xs.tail = xs := by
  cases xs <;> rfl

theorem sent_append_dropped (left : List (List UInt8 × Bool)) (frames : List (List UInt8)) :
    ((left ++ frames.map fun cemi => (cemi, false)).filter Prod.snd).map Prod.fst =
      (left.filter Prod.snd).map Prod.fst := by
  have hnone : (frames.map fun cemi => (cemi, false)).filter Prod.snd = [] := by
    rw [List.filter_eq_nil_iff]
    intro x hx
    obtain ⟨cemi, _, rfl⟩ := List.mem_map.mp hx
    exact Bool.false_ne_true
  rw [List.filter_append, hnone, List.append_nil]

theorem Agrees.enqueue (h : Agrees t log blocks) {cemi : List UInt8} (hvalid : Valid cemi) :
    Agrees (t.enqueue cemi) (log.enqueue t cemi) blocks := by
  have hlimit : 0 < maxClientQueue := by decide
  unfold TunnelClient.enqueue Log.enqueue
  split_ifs with hfull
  · refine ⟨?_, ?_, ?_, h.sequence, ?_, h.attempts, h.wire, h.idle, h.busy⟩
    · intro x hx
      rcases List.mem_append.mp hx with hx | hx
      · exact h.valid x (List.mem_of_mem_tail hx)
      · exact List.mem_singleton.mp hx ▸ hvalid
    · have hlen := h.limit
      rw [List.length_append, List.length_tail, List.length_singleton]
      omega
    · change log.enqueued ++ [cemi] = _
      rw [h.order, List.map_append, List.map_map]
      conv_lhs => rw [← take_one_append_tail t.outbox]
      simp only [List.append_assoc, Function.comp_def, List.map_id']
    · rw [h.sent]
      exact (sent_append_dropped _ _).symm
  · refine ⟨?_, ?_, ?_, h.sequence, ?_, h.attempts, h.wire, h.idle, h.busy⟩
    · intro x hx
      rcases List.mem_append.mp hx with hx | hx
      · exact h.valid x hx
      · exact List.mem_singleton.mp hx ▸ hvalid
    · rw [List.length_append, List.length_singleton]
      omega
    · change log.enqueued ++ [cemi] = _
      rw [h.order, List.append_nil, List.append_assoc]
    · rw [h.sent]
      change _ = ((log.left ++ []).filter Prod.snd).map Prod.fst
      rw [List.append_nil]
      rfl

/-! ## Sending -/

theorem transmit_some {f : InFlight} (hf : t.inFlight = some f) :
    t.transmit env = ({ t with inFlight := some { f with
        attempts := f.attempts + 1
        deadline := env.now + requestTimeout
        lastError := env.sendError t.dataAddr f.datagram } },
      env.sendTo f.datagram t.dataAddr) := by
  unfold TunnelClient.transmit
  rw [hf]

theorem sendTo_octets (env : Env) (octets : List UInt8) (dst : SocketAddr) :
    ∃ k, k ≤ 1 ∧ (env.sendTo octets dst).map Datagram.octets = List.replicate k octets := by
  unfold Env.sendTo
  split_ifs
  · exact ⟨1, Nat.le_refl 1, rfl⟩
  · exact ⟨0, Nat.zero_le 1, rfl⟩

theorem pump_none (hf : t.inFlight = none) (hempty : t.outbox = []) :
    t.pump env = ({ t with outbox := [], overflowReported := false }, []) := by
  unfold TunnelClient.pump
  rw [hf, hempty]
  rfl

theorem pump_next {cemi : List UInt8} {rest : List (List UInt8)} {i : Nat} (hvalid : Valid cemi)
    (hf : t.inFlight = none) (houtbox : t.outbox = cemi :: rest)
    (hseq : t.sendSeq = UInt8.ofNat i) :
    t.pump env = TunnelClient.transmit env { t with
      outbox := rest
      inFlight := some ⟨t.sendSeq, requestOctets t.channelId i cemi, 0, env.now, none⟩ } := by
  have hnext : nextRequest t.channelId t.sendSeq t.outbox =
      some (requestOctets t.channelId i cemi, rest) := by
    rw [houtbox, hseq]
    unfold nextRequest
    rw [request_octets hvalid]
  unfold TunnelClient.pump
  rw [hnext, hf]
  rfl

theorem pump_busy (hf : t.inFlight.isSome) : t.pump env = (t, []) := by
  unfold TunnelClient.pump
  rw [if_pos hf]

theorem sent_append_one (left : List (List UInt8 × Bool)) (cemi : List UInt8) :
    ((left ++ [(cemi, true)]).filter Prod.snd).map Prod.fst =
      (left.filter Prod.snd).map Prod.fst ++ [cemi] := by
  rw [List.filter_append, List.map_append]
  rfl

theorem Agrees.pump (h : Agrees t log blocks) :
    (∃ blocks', Agrees (t.pump env).1 ((log.pump t).onto (t.pump env).2) blocks') ∧
      Settled (t.pump env).1 := by
  rcases hf : t.inFlight with _ | f
  · rcases houtbox : t.outbox with _ | ⟨cemi, rest⟩
    · rw [pump_none hf houtbox]
      have hleft : ((log.pump t).onto []) = log := by
        unfold Log.pump Log.onto
        rw [hf, houtbox]
        simp
      rw [hleft]
      refine ⟨⟨blocks, ?_⟩, fun _ => rfl⟩
      have horder := h.order
      rw [houtbox] at horder
      exact ⟨fun _ hx => absurd hx List.not_mem_nil, Nat.zero_le _, horder, h.sequence, h.sent,
        h.attempts, h.wire, h.idle, h.busy⟩
    · have hvalid : Valid cemi := h.valid cemi (by rw [houtbox]; exact List.mem_cons_self)
      rw [pump_next hvalid hf houtbox h.sequence, transmit_some rfl]
      obtain ⟨k, hk, hoctets⟩ := sendTo_octets env
        (requestOctets t.channelId log.acked cemi) t.dataAddr
      have hlength := h.idle hf
      have hlimit := h.limit
      have horder := h.order
      rw [houtbox] at hlimit horder
      refine ⟨⟨blocks ++ [(cemi, k)], ?_⟩, fun hnone => by cases hnone⟩
      have hretries : 1 ≤ maxRetries := by decide
      refine ⟨?_, ?_, ?_, h.sequence, ?_, ?_, ?_, (fun hnone => by cases hnone), ?_⟩
      · intro x hx
        exact h.valid x (by rw [houtbox]; exact List.mem_cons_of_mem cemi hx)
      · exact Nat.le_trans (Nat.le_succ _) hlimit
      · unfold Log.pump Log.onto
        rw [hf, houtbox]
        simpa using horder
      · unfold Log.pump Log.onto Log.sent
        rw [hf, houtbox]
        refine Eq.trans ?_ (sent_append_one log.left cemi).symm
        rw [List.map_append, h.sent]
        rfl
      · intro b hb
        rcases List.mem_append.mp hb with hb | hb
        · exact h.attempts b hb
        · rw [List.mem_singleton.mp hb]
          exact Nat.le_trans hk hretries
      · change log.wire ++ (env.sendTo _ t.dataAddr).map Datagram.octets = _
        rw [hoctets, h.wire, onWire_append, hlength]
        simp only [onWire, List.append_nil, Nat.zero_add]
      · intro f hsome
        cases hsome
        exact ⟨rfl, Nat.le_refl 1, hretries, blocks, cemi, k, rfl, hlength, hk, hvalid, rfl⟩
  · have hsome : t.inFlight.isSome := by rw [hf]; rfl
    rw [pump_busy hsome]
    have hleft : ((log.pump t).onto []) = log := by
      unfold Log.pump Log.onto
      rw [if_pos hsome]
      simp
    rw [hleft]
    refine ⟨⟨blocks, h⟩, fun hnone => ?_⟩
    rw [hf] at hnone
    cases hnone

theorem Agrees.transmit (h : Agrees t log blocks) {f : InFlight} (hf : t.inFlight = some f)
    (more : f.attempts < maxRetries) :
    ∃ blocks', Agrees (t.transmit env).1 (log.onto (t.transmit env).2) blocks' := by
  rw [transmit_some hf]
  obtain ⟨hseq, hpos, _, earlier, cemi, n, hblocks, hlength, hn, hvalid, hdatagram⟩ := h.busy f hf
  obtain ⟨k, hk, hoctets⟩ := sendTo_octets env f.datagram t.dataAddr
  have hframes := h.sent
  rw [hblocks, List.map_append] at hframes
  refine ⟨earlier ++ [(cemi, n + k)], h.valid, h.limit, h.order, h.sequence, ?_, ?_, ?_,
    (fun hnone => by cases hnone), ?_⟩
  · rw [List.map_append]
    exact hframes
  · intro b hb
    rcases List.mem_append.mp hb with hb | hb
    · exact h.attempts b (hblocks ▸ List.mem_append_left _ hb)
    · rw [List.mem_singleton.mp hb]
      change n + k ≤ maxRetries
      omega
  · change log.wire ++ (env.sendTo f.datagram t.dataAddr).map Datagram.octets = _
    rw [hoctets, h.wire, hblocks, hdatagram, ← hlength]
    exact onWire_again _ _ _ _ _
  · intro f' hsome
    cases hsome
    refine ⟨hseq, Nat.succ_le_succ (Nat.zero_le _), more, earlier, cemi, n + k, rfl, hlength, ?_,
      hvalid, hdatagram⟩
    change n + k ≤ f.attempts + 1
    omega

/-! ## One operation -/

theorem Agrees.queue (h : Agrees t log blocks) {cemi : List UInt8} (hvalid : Valid cemi) :
    (∃ blocks', Agrees (t.queue env cemi).1 ((log.queue t cemi).onto (t.queue env cemi).2)
      blocks') ∧ Settled (t.queue env cemi).1 :=
  (h.enqueue hvalid).pump

/-- The operation an input chooses finds what it needs: valid frames, the sequence number in
    flight, attempts left. -/
def Suits (t : TunnelClient) : Op → Prop
  | .queue cemi => Valid cemi
  | .advance sequence => ∃ f, t.inFlight = some f ∧ f.sequence = sequence
  | .transmit => ∃ f, t.inFlight = some f ∧ f.attempts < maxRetries
  | _ => True

theorem Agrees.advance (h : Agrees t log blocks) {sequence : UInt8} {f : InFlight}
    (hf : t.inFlight = some f) (hseq : f.sequence = sequence) :
    Agrees { t with inFlight := none, sendSeq := sequence + 1 }
      { log with acked := log.acked + 1 } blocks := by
  obtain ⟨hsend, _, _, earlier, cemi, n, hblocks, hlength, _, _, _⟩ := h.busy f hf
  refine ⟨h.valid, h.limit, h.order, ?_, h.sent, h.attempts, h.wire, fun _ => ?_,
    fun f hsome => by cases hsome⟩
  · change sequence + 1 = UInt8.ofNat (log.acked + 1)
    rw [← hseq, hsend, h.sequence]
    exact (UInt8.ofNat_add log.acked 1).symm
  · rw [hblocks, List.length_append, hlength]
    rfl

theorem Agrees.run (h : Agrees t log blocks) (settled : Settled t) {op : Op} (suits : Suits t op)
    {t' : TunnelClient} (hrun : (op.run env t).1 = some t') :
    (∃ blocks', Agrees t' ((log.after t op).onto (op.run env t).2) blocks') ∧ Settled t' := by
  have honto : log.onto [] = log := by
    unfold Log.onto
    rw [List.map_nil, List.append_nil]
  cases op with
  | keep =>
    cases hrun
    exact ⟨⟨blocks, honto.symm ▸ h⟩, settled⟩
  | heartbeat =>
    cases hrun
    exact ⟨⟨blocks, honto.symm ▸ h.heartbeat⟩, settled⟩
  | takeOver cemiData =>
    cases hrun
    have hkeep : (∃ blocks', Agrees { t with recvSeq := t.recvSeq + 1 } (log.onto []) blocks') ∧
        Settled { t with recvSeq := t.recvSeq + 1 } :=
      ⟨⟨blocks, honto.symm ▸ h.received⟩, settled⟩
    unfold Op.run TunnelClient.takeOver Log.after
    dsimp only
    rcases CemiFrame.parse cemiData with e | cemi
    · exact hkeep
    · dsimp only
      rcases hconfirm : confirmationOf cemi with _ | confirmation
      · exact hkeep
      · exact h.received.queue (confirmationOf_valid hconfirm)
  | queue cemi =>
    cases hrun
    exact h.queue suits
  | advance sequence =>
    cases hrun
    obtain ⟨f, hf, hseq⟩ := suits
    exact (h.advance hf hseq).pump
  | transmit =>
    cases hrun
    obtain ⟨f, hf, more⟩ := suits
    refine ⟨h.transmit hf more, ?_⟩
    intro hnone
    rw [transmit_some hf] at hnone
    cases hnone
  | remove => cases hrun

theorem inputOp_suits (env : Env) (t : TunnelClient) (input : Input) : Suits t (inputOp env t input) := by
  cases input with
  | datagram src data =>
    unfold inputOp
    dsimp only
    split
    · trivial
    · unfold packetOp requestOp ackOp
      split
      · split_ifs <;> trivial
      · split_ifs <;> trivial
      · split
        · trivial
        · split_ifs <;> trivial
      · split
        · trivial
        · rename_i ch _
          split_ifs with hack
          · have hexpects := hack.2
            unfold TunnelClient.expects at hexpects
            rcases hf : t.inFlight with _ | f
            · rw [hf] at hexpects
              cases hexpects
            · rw [hf] at hexpects
              exact ⟨f, hf, of_decide_eq_true hexpects⟩
          · trivial
      · trivial
  | sendFrame cemi => exact asIndication_valid cemi
  | sendToTunnel channelId cemi =>
    unfold inputOp
    dsimp only
    split_ifs
    · exact asIndication_valid cemi
    · trivial
  | ackDue =>
    unfold inputOp dueOp
    rcases hf : t.inFlight with _ | f
    · trivial
    · dsimp only
      split_ifs with hearly hretry
      · trivial
      · exact ⟨f, hf, hretry⟩
      · trivial
  | cleanup =>
    unfold inputOp
    dsimp only
    split_ifs <;> trivial
  | _ => trivial

end

/-! ## Runs -/

def Served (past : List (Transition ServerState (Env × Input))) (state : ServerState) : Prop :=
  ∀ c t, tunnelOf c state.tunnels = some t →
    (∃ blocks, Agrees t (logOf c past) blocks) ∧ Settled t

theorem logOf_append (c : UInt8) (past : List (Transition ServerState (Env × Input)))
    (x : Transition ServerState (Env × Input)) :
    logOf c (past ++ [x]) = (logOf c past).record c x.source x.event := by
  unfold logOf
  rw [List.foldl_append]
  rfl

/-- A channel that had no tunnel has a new one or none after a step. -/
theorem next_new {state : ServerState} {event : Env × Input} {c : UInt8} {t : TunnelClient}
    (absent : tunnelOf c state.tunnels = none)
    (h : tunnelOf c (state.next event).tunnels = some t) :
    ∃ ctrlAddr dataAddr now, t = .new c ctrlAddr dataAddr now := by
  have hid := (row_some h).2
  have hmem : c ∈ (state.next event).tunnels.map TunnelClient.channelId :=
    hid ▸ List.mem_map_of_mem (row_some h).1
  rcases next_changes state event with
    ⟨sub, _⟩ | ⟨channelId, ctrlAddr, dataAddr, now, _, _, list, _⟩
  · exact absurd (sub.subset hmem) (row_none.mp absent)
  · rw [list, tunnelOf, row_append, show row TunnelClient.channelId c state.tunnels = none from absent,
      Option.none_or] at h
    split_ifs at h with hc
    cases h
    exact ⟨ctrlAddr, dataAddr, now, hc ▸ rfl⟩

theorem Served.framed {past : List (Transition ServerState (Env × Input))} {state : ServerState}
    (separate : Separate state) (h : Served past state) : ∀ t ∈ state.tunnels, Framed t := by
  intro t ht
  obtain ⟨⟨_, hagrees⟩, _⟩ := h t.channelId t (row_of_mem separate.distinct ht)
  exact hagrees.framed

theorem Served.step {past : List (Transition ServerState (Env × Input))} {state : ServerState}
    (separate : Separate state) (h : Served past state) (event : Env × Input) :
    Served (past ++ [⟨state, event, state.next event⟩]) (state.next event) := by
  obtain ⟨env, input⟩ := event
  intro c t' ht'
  rw [logOf_append]
  unfold Log.record
  dsimp only
  rcases hrow : tunnelOf c state.tunnels with _ | t
  · obtain ⟨ctrlAddr, dataAddr, now, rfl⟩ := next_new hrow ht'
    exact ⟨⟨[], new_agrees c ctrlAddr dataAddr now⟩, fun _ => rfl⟩
  · obtain ⟨⟨blocks, hagrees⟩, settled⟩ := h c t hrow
    dsimp only
    split_ifs with taken
    · rw [step_row separate.distinct hrow input taken] at ht'
      have hsends := step_requests env c separate.distinct (h.framed separate) input taken
      unfold Expected at hsends
      rw [hsends, hrow]
      exact hagrees.run settled (inputOp_suits env t input) ht'
    · rw [step_idle (Bool.not_eq_true _ |>.mp taken), hrow] at ht'
      cases ht'
      exact ⟨⟨blocks, hagrees⟩, settled⟩

theorem run_served {description : Option ServerDescription.DeviceDescription}
    {multicastTarget : Option SocketAddr} {state : ServerState}
    {past : List (Transition ServerState (Env × Input))}
    (run : Run (fun s e s' => s.next e = s') (.start description multicastTarget) past state) :
    Separate state ∧ Served past state := by
  refine run.history (H := fun past s => Separate s ∧ Served past s) (fun _ => True) ?_
    (fun _ _ => trivial) ?_
  · refine ⟨start_separate description multicastTarget, fun c t h => ?_⟩
    cases h
  · intro past x ⟨separate, served⟩ _ hstep
    obtain ⟨source, event, target⟩ := x
    have hstep : source.next event = target := hstep
    subst hstep
    exact ⟨separate.changes (next_changes _ event), served.step separate event⟩

end KnxRs.TunnelOutbox
