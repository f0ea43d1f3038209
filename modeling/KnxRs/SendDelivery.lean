import KnxRs.SendReception
import KnxRs.SendSteps

set_option autoImplicit false

/-!
# Delivered exactly once

The tunnel of the last send expects its number until it has taken the frame over, and
the next one from then on. The client's counter keeps up with that, unless the send has
failed.
-/
namespace KnxRs.SendDelivery
open CoreTypes CemiCodec KnxIpCodec KnxIpNetwork ServerEvents KeyedRows TunnelServer TunnelSteps
  TunnelRequests TunnelRoster TunnelOutbox TunnelConnection ConnectionSteps ConnectionFrames
  SendExchange SendSteps SendReception Runs
open TunnelLink (onSocket)

def Unconfirmed (x : Exchange) : Prop :=
  (∀ y ∈ x.confirmed, y.1 < x.started.length) ∧
    ∀ earlier frame later, x.delivered = earlier ++ (x.started.length, frame) :: later →
      x.confirmed.Sublist earlier

structure Held (own : SocketAddr → Bool) (x : Exchange) : Prop where
  separate : Separate x.server
  served : ∃ past, Served past x.server
  queue : ∃ past, EventDelivery.Holds past x.server.events ∧
    (x.delivered.map fun y => ServerEvent.tunnelFrame y.2).Sublist past
  once : (x.delivered.map Prod.fst).Nodup
  frames : ∀ y ∈ x.delivered, ∃ s, x.sending y.1 = some s ∧ s.cemi.val = y.2
  ordered : x.confirmed.Pairwise fun y z => y.1 < z.1
  confirmed : x.confirmed.Sublist x.delivered
  unconfirmed : ∀ attempt, x.client.phase = .awaitingAck attempt → Unconfirmed x
  requests : ∀ p ∈ x.toServer, ∀ ch cemi, requestOf p.octets = some (ch, cemi) →
    ∃ s, x.sending p.stamp = some s ∧ ch.channelId = s.channelId ∧
      ch.sequenceCounter = s.sequence ∧ p.address = s.address ∧ cemi = s.cemi.val.data
  answers : ∀ p ∈ x.toClient, p.stamp ≤ x.started.length ∧ ∃ frame,
    KnxIpFrame.parse p.octets = .ok frame ∧
      (frame.serviceType = .tunnelingAck → ∃ c q status, frame = .tunnelingAck c q status)
  positive : ∀ p ∈ x.toClient, p.stamp = x.started.length → ∀ s, x.started.getLast? = some s →
    p.address = s.address →
    KnxIpFrame.parse p.octets = .ok (.tunnelingAck s.channelId s.sequence eNoError) → x.taken
  socket : onSocket x.client → own (socketOf x.client)
  addresses : ∀ s ∈ x.started, own s.address
  asks : Asks x.client
  awaits : ∀ attempt, x.client.phase = .awaitingAck attempt → x.started.getLast? =
    some ⟨attempt.cemi, x.client.state.channelId, x.client.state.sendSeq, socketOf x.client⟩
  last : ∀ s, x.started.getLast? = some s → ∀ t, tunnelOf s.channelId x.server.tunnels = some t →
    t.dataAddr = s.address →
    (x.taken → t.recvSeq = s.sequence + 1) ∧ (¬ x.taken → t.recvSeq = s.sequence)
  lockstep : isConnected x.client.phase → ∀ t,
    tunnelOf x.client.state.channelId x.server.tunnels = some t →
    t.dataAddr = socketOf x.client →
    t.recvSeq = x.client.state.sendSeq ∨ (x.taken ∧ ∃ s, x.started.getLast? = some s ∧
      s.channelId = x.client.state.channelId ∧ s.sequence = x.client.state.sendSeq ∧
      s.address = socketOf x.client)

section
variable {own : SocketAddr → Bool} {x : Exchange}

/-! ## The history -/

theorem sending_last (x : Exchange) : x.sending x.started.length = x.started.getLast? := by
  rw [List.getLast?_eq_getElem?]
  cases hlength : x.started.length with
  | zero =>
    rw [List.length_eq_zero_iff.mp hlength]
    rfl
  | succ n => rfl

theorem sending_le {n : Nat} {s : Sending} (h : x.sending n = some s) : n ≤ x.started.length := by
  cases n with
  | zero => exact Nat.zero_le _
  | succ n =>
    obtain ⟨hlt, _⟩ := List.getElem?_eq_some_iff.mp h
    exact hlt

theorem sending_append {n : Nat} {s : Sending} (h : x.sending n = some s) (later : List Sending) :
    Exchange.sending { x with started := x.started ++ later } n = some s := by
  cases n with
  | zero => cases h
  | succ n =>
    obtain ⟨hlt, _⟩ := List.getElem?_eq_some_iff.mp h
    exact (List.getElem?_append_left hlt).trans h

theorem Held.delivered_le (h : Held own x) {y : Nat × CemiFrame} (hy : y ∈ x.delivered) :
    y.1 ≤ x.started.length := by
  obtain ⟨s, hs, _⟩ := h.frames y hy
  exact sending_le hs

theorem taken_iff : x.taken ↔ x.started.length ∈ x.delivered.map Prod.fst :=
  List.contains_iff_mem

/-! ## A step of the server -/

/-- An input from elsewhere, or one of the client's datagrams in time. -/
def Comes (own : SocketAddr → Bool) (x : Exchange) (input : Input) (sender : Option Nat) : Prop :=
  (sender = none ∧ ∀ src data, input = .datagram src data → own src = false) ∨
    ∃ p ∈ x.toServer, input = .datagram p.address p.octets ∧ sender = some p.stamp ∧
      x.repeatsRequest p = false

/-- The tunnels at the client's endpoints take no request over. -/
def Deaf (own : SocketAddr → Bool) (x : Exchange) (input : Input) : Prop :=
  ∀ e ∈ x.endpoints, own e.2.1 → ∀ t, tunnelOf e.1 x.server.tunnels = some t →
    t.dataAddr = e.2.1 → ¬ Hears x.server t input

/-- What a step delivers of the client's sends: nothing, or a frame for the first time. -/
def Adds (x : Exchange) (env : Env) (input : Input) (sender : Option Nat) : Prop :=
  (x.serverStep env input sender).delivered = x.delivered ∨
    ∃ n s, x.sending n = some s ∧ n ∉ x.delivered.map Prod.fst ∧
      (x.server.step env input).2.events = [.tunnelFrame s.cemi.val] ∧
      (x.serverStep env input sender).delivered = x.delivered ++ [(n, s.cemi.val)]

/-- The server takes over the request of the last send, or none on the client's endpoints. -/
inductive Received (own : SocketAddr → Bool) (x : Exchange) (env : Env) (input : Input)
    (sender : Option Nat) : Prop where
  | other (deaf : Deaf own x input) (same : (x.serverStep env input sender).taken ↔ x.taken)
  | last (s : Sending) (t : TunnelClient) (latest : x.started.getLast? = some s)
      (fresh : ¬ x.taken) (ht : tunnelOf s.channelId x.server.tunnels = some t)
      (hdata : t.dataAddr = s.address) (hseq : t.recvSeq = s.sequence)
      (taken : (x.serverStep env input sender).taken) (hears : Hears x.server t input)
      (only : ∀ t', Hears x.server t' input → t'.channelId = s.channelId)

theorem tunnelEvents_known (cemi : Cemi) :
    tunnelEvents cemi.val.data = [.tunnelFrame cemi.val] := by
  obtain ⟨code, hcode⟩ := Option.isSome_iff_exists.mp cemi.property
  unfold tunnelEvents
  rw [parse_of_frame hcode]

theorem nothing_delivered {env : Env} {input : Input} {sender : Option Nat}
    (deaf : Deaf own x input)
    (same : (x.serverStep env input sender).delivered = x.delivered) :
    Received own x env input sender ∧ Adds x env input sender := by
  refine ⟨.other deaf ?_, .inl same⟩
  rw [taken_iff, taken_iff, same]
  rfl

theorem Held.received (h : Held own x) (env : Env) {input : Input} {sender : Option Nat}
    (comes : Comes own x input sender) :
    Received own x env input sender ∧ Adds x env input sender := by
  rcases comes with ⟨rfl, foreign⟩ | ⟨p, hp, rfl, rfl, timely⟩
  · refine nothing_delivered (fun e _ hown t _ hdata => ?_) (List.append_nil _)
    rintro ⟨src, data, _, _, rfl, _, _, _, rfl, _⟩
    rw [← hdata, foreign _ data rfl] at hown
    cases hown
  · cases htakes : takesOver x.server p.address p.octets with
    | false =>
      refine nothing_delivered (fun e _ _ t ht _ => ?_) ?_
      · rintro ⟨src, data, ch, cemi, hinput, taken, hrequest, hid, hsrc, hseq⟩
        cases hinput
        have hc : ch.channelId = e.1 := hid.trans (row_some ht).2
        rw [takesOver_of taken hrequest (hc ▸ ht) hsrc hseq] at htakes
        cases htakes
      · change x.delivered ++ (framesOf (x.server.step env _).2.events).map _ = _
        rw [other_events env htakes]
        exact List.append_nil _
    | true =>
      obtain ⟨ch, cemi, t, taken, hrequest, ht, hsrc, hseq⟩ := takesOver_some htakes
      obtain ⟨s, hs, hchannel, hsequence, haddress, rfl⟩ := h.requests p hp ch cemi hrequest
      have hevents := takesOver_events env taken hrequest ht hsrc hseq
      rw [tunnelEvents_known] at hevents
      have more : (x.serverStep env (.datagram p.address p.octets) (some p.stamp)).delivered =
          x.delivered ++ [(p.stamp, s.cemi.val)] := by
        change x.delivered ++ (framesOf (x.server.step env _).2.events).map _ = _
        rw [hevents]
        rfl
      by_cases hstamp : p.stamp = x.started.length
      · rw [hstamp] at more hs
        have latest := hs
        rw [sending_last] at latest
        rw [hchannel] at ht
        have hdata : t.dataAddr = s.address := hsrc.trans haddress
        obtain ⟨hdone, _⟩ := h.last s latest t ht hdata
        have fresh : ¬ x.taken := by
          intro htaken
          have hnext := hdone htaken
          rw [← hseq, hsequence] at hnext
          have hzero : s.sequence + 0 = s.sequence + 1 := by
            rw [UInt8.add_zero]
            exact hnext
          exact absurd (UInt8.add_right_inj s.sequence |>.mp hzero) (by decide)
        refine ⟨.last s t latest fresh ht hdata (hseq.symm.trans hsequence) ?_
          ⟨_, _, ch, _, rfl, taken, hrequest, hchannel.trans (row_some ht).2.symm, hsrc, hseq⟩ ?_,
          .inr ⟨_, s, hs, fun hmem => fresh (taken_iff.mpr hmem), hevents, hstamp ▸ more⟩⟩
        · rw [taken_iff, hstamp, more, List.map_append]
          exact List.mem_append_right _ (List.mem_singleton_self _)
        · rintro t' ⟨src, data, ch', cemi', hinput, _, hrequest', hid, _⟩
          cases hinput
          rw [hrequest] at hrequest'
          cases hrequest'
          exact hid.symm.trans hchannel
      · unfold Exchange.repeatsRequest at timely
        rw [htakes, Bool.true_and, decide_eq_true hstamp, Bool.true_and, hrequest,
          Option.any_some] at timely
        obtain ⟨unseen, elsewhere⟩ := Bool.or_eq_false_iff.mp timely
        have fresh : p.stamp ∉ x.delivered.map Prod.fst := by
          intro hmem
          rw [List.contains_iff_mem.mpr hmem] at unseen
          cases unseen
        refine ⟨.other (fun e he _ t' ht' hdata => ?_) ?_,
          .inr ⟨p.stamp, s, hs, fresh, hevents, more⟩⟩
        · rintro ⟨src, data, ch', cemi', hinput, _, hrequest', hid, hsrc', _⟩
          cases hinput
          rw [hrequest] at hrequest'
          cases hrequest'
          have hc : e.1 = ch.channelId := (row_some ht').2.symm.trans hid.symm
          have ha : e.2.1 = p.address := hdata.symm.trans hsrc'
          have hmem := List.any_eq_false.mp elsewhere e he
          rw [decide_eq_true hc, decide_eq_true ha] at hmem
          exact hmem rfl
        · rw [taken_iff, taken_iff, more, List.map_append, List.mem_append]
          refine or_iff_left fun hmem => hstamp ?_
          exact (List.mem_singleton.mp hmem).symm

theorem Received.taken {env : Env} {input : Input} {sender : Option Nat}
    (received : Received own x env input sender) (h : x.taken) :
    (x.serverStep env input sender).taken := by
  rcases received with ⟨_, same⟩ | ⟨_, _, _, fresh, _⟩
  · exact same.mpr h
  · exact absurd h fresh

/-- What has been delivered after a step, each frame once and on its way. -/
theorem Held.history (h : Held own x) {env : Env} {input : Input} {sender : Option Nat}
    (adds : Adds x env input sender) :
    ((x.serverStep env input sender).delivered.map Prod.fst).Nodup ∧
      (∀ y ∈ (x.serverStep env input sender).delivered,
        ∃ s, x.sending y.1 = some s ∧ s.cemi.val = y.2) ∧
      x.confirmed.Sublist (x.serverStep env input sender).delivered ∧
      (Unconfirmed x → Unconfirmed (x.serverStep env input sender)) ∧
      ∀ past, (x.delivered.map fun y => ServerEvent.tunnelFrame y.2).Sublist past →
        ((x.serverStep env input sender).delivered.map
          fun y => ServerEvent.tunnelFrame y.2).Sublist
            (past ++ (x.server.step env input).2.events) := by
  rcases adds with same | ⟨n, s, hs, fresh, event, more⟩
  · rw [same]
    refine ⟨h.once, h.frames, h.confirmed, fun unconfirmed => ⟨unconfirmed.1, ?_⟩,
      fun past hsub => hsub.trans (List.sublist_append_left past _)⟩
    rw [same]
    exact unconfirmed.2
  · rw [more, event]
    refine ⟨?_, ?_, h.confirmed.trans (List.sublist_append_left _ _),
      fun unconfirmed => ⟨unconfirmed.1, ?_⟩, fun past hsub => ?_⟩
    · rw [List.map_append]
      refine List.nodup_append.mpr ⟨h.once, List.nodup_singleton _, fun a ha b hb heq => fresh ?_⟩
      rw [heq, List.mem_singleton.mp hb] at ha
      exact ha
    · intro y hy
      rcases List.mem_append.mp hy with hy | hy
      · exact h.frames y hy
      · rw [List.mem_singleton.mp hy]
        exact ⟨s, hs, rfl⟩
    · intro earlier frame later heq
      rw [more] at heq
      rcases List.eq_nil_or_concat later with rfl | ⟨middle, z, rfl⟩
      · rw [← (List.append_inj' heq rfl).1]
        exact h.confirmed
      · rw [List.concat_eq_append, ← List.cons_append, ← List.append_assoc] at heq
        exact unconfirmed.2 earlier frame middle (List.append_inj' heq rfl).1
    · rw [List.map_append]
      exact hsub.append (.refl _)

theorem last_endpoint {s : Sending} (latest : x.started.getLast? = some s) :
    (s.channelId, s.address, if x.taken then s.sequence + 1 else s.sequence) ∈ x.endpoints := by
  unfold Exchange.endpoints
  rw [latest]
  exact List.mem_append_left _ (List.mem_singleton_self _)

theorem connection_endpoint (connected : isConnected x.client.phase) :
    (x.client.state.channelId, socketOf x.client, x.client.state.sendSeq) ∈ x.endpoints := by
  unfold Exchange.endpoints
  rw [if_pos connected]
  exact List.mem_append_right _ (List.mem_singleton_self _)

theorem socketOf_connected {task : TunnelTask} (h : isConnected task.phase) :
    socketOf task = task.state.localAddr := by
  unfold socketOf
  split
  · rename_i hphase
    rw [hphase] at h
    cases h
  · rfl

theorem connected_onSocket {task : TunnelTask} (h : isConnected task.phase) : onSocket task := by
  unfold onSocket
  rw [h]
  rfl

/-- A tunnel at one of the client's endpoints after a step: made anew with the number that is next,
    as it was, or with the last send taken over. -/
theorem Held.tunnel_step (h : Held own x) {env : Env} {input : Input} {sender : Option Nat}
    (received : Received own x env input sender) (fresh : x.renews (env, input) = false)
    {c number : UInt8} {address : SocketAddr} (hmem : (c, address, number) ∈ x.endpoints)
    (hown : own address) {t' : TunnelClient}
    (ht' : tunnelOf c (x.server.next (env, input)).tunnels = some t')
    (hdata : t'.dataAddr = address) :
    (tunnelOf c x.server.tunnels = none ∧ t'.recvSeq = number) ∨
      ∃ t, tunnelOf c x.server.tunnels = some t ∧ t.dataAddr = address ∧
        ((t'.recvSeq = t.recvSeq ∧ ((x.serverStep env input sender).taken ↔ x.taken)) ∨
          ∃ s, x.started.getLast? = some s ∧ ¬ x.taken ∧
            (x.serverStep env input sender).taken ∧
            ((t'.recvSeq = t.recvSeq ∧ ¬ (c = s.channelId ∧ address = s.address)) ∨
              (c = s.channelId ∧ address = s.address ∧ t.recvSeq = s.sequence ∧
                t'.recvSeq = s.sequence + 1))) := by
  rcases ht : tunnelOf c x.server.tunnels with _ | t
  · refine .inl ⟨rfl, ?_⟩
    unfold Exchange.renews at fresh
    have hold := List.any_eq_false.mp fresh _ hmem
    rw [ht, ht', Option.any_some, decide_eq_true hdata, Option.isNone_none, Bool.true_and,
      Bool.true_and] at hold
    exact not_not.mp fun hne => hold (decide_eq_true hne)
  · obtain ⟨ends, hcount⟩ := next_recvSeq h.separate ht ht'
    have haddress : t.dataAddr = address := ends.dataAddr.symm.trans hdata
    refine .inr ⟨t, rfl, haddress, ?_⟩
    rcases received with ⟨deaf, same⟩ | ⟨s, t₀, latest, untaken, ht₀, hdata₀, hseq, taken, hears, only⟩
    · rcases hcount with ⟨hheard, _⟩ | ⟨_, hkeep⟩
      · exact absurd hheard (deaf _ hmem hown t ht haddress)
      · exact .inl ⟨hkeep, same⟩
    · refine .inr ⟨s, latest, untaken, taken, ?_⟩
      rcases hcount with ⟨hheard, hmore⟩ | ⟨hnot, hkeep⟩
      · have hc : c = s.channelId := (row_some ht).2.symm.trans (only t hheard)
        subst hc
        rw [ht₀] at ht
        cases ht
        exact .inr ⟨rfl, haddress.symm.trans hdata₀, hseq, hseq ▸ hmore⟩
      · refine .inl ⟨hkeep, ?_⟩
        rintro ⟨rfl, _⟩
        rw [ht₀] at ht
        cases ht
        exact hnot hears

theorem Held.serverStep (h : Held own x) {env : Env} {input : Input} {sender : Option Nat}
    (comes : Comes own x input sender) (fresh : x.renews (env, input) = false) :
    Held own (x.serverStep env input sender) := by
  obtain ⟨received, adds⟩ := h.received env comes
  obtain ⟨past, served⟩ := h.served
  obtain ⟨events, holds, hevents⟩ := h.queue
  obtain ⟨once, frames, confirmed, unconfirmed, hsub⟩ := h.history adds
  have framed := served.framed h.separate
  refine {
    separate := h.separate.changes (next_changes _ _)
    served := ⟨_, served.step h.separate (env, input)⟩
    queue := ⟨_, holds.moves (EventDelivery.step_moves env x.server input), hsub events hevents⟩
    once := once
    frames := frames
    ordered := h.ordered
    confirmed := confirmed
    unconfirmed := fun attempt hwaits => unconfirmed (h.unconfirmed attempt hwaits)
    requests := h.requests
    answers := fun p hp => ?_
    positive := fun p hp hstamp s latest haddress hack => ?_
    socket := h.socket
    addresses := h.addresses
    asks := h.asks
    awaits := h.awaits
    last := fun s latest t' ht' hdata => ?_
    lockstep := fun connected t' ht' hdata => ?_ }
  · rcases List.mem_append.mp hp with hp | hp
    · exact h.answers p hp
    · obtain ⟨d, hd, rfl⟩ := List.mem_map.mp hp
      exact ⟨Nat.le_refl _, sent_reads framed hd⟩
  · rcases List.mem_append.mp hp with hp | hp
    · exact received.taken (h.positive p hp hstamp s latest haddress hack)
    · obtain ⟨d, hd, rfl⟩ := List.mem_map.mp hp
      obtain ⟨src, data, ch, cemi, t, rfl, taken, hrequest, hc, hq, ht, hsrc, hdst⟩ :=
        sent_positive framed hd hack
      have latest : x.started.getLast? = some s := latest
      have hdata : t.dataAddr = s.address := hsrc.trans (hdst.symm.trans haddress)
      have hown := h.addresses s (List.mem_of_getLast? latest)
      by_cases hold : x.taken
      · exact received.taken hold
      · have hseq := (h.last s latest t ht hdata).2 hold
        have hears : Hears x.server t (.datagram src data) :=
          ⟨src, data, ch, cemi, rfl, taken, hrequest, hc.trans (row_some ht).2.symm, hsrc,
            hq.trans hseq.symm⟩
        rcases received with ⟨deaf, _⟩ | ⟨_, _, _, _, _, _, _, taken', _, _⟩
        · exact absurd hears (deaf _ (last_endpoint latest) hown t ht hdata)
        · exact taken'
  · have latest : x.started.getLast? = some s := latest
    rcases h.tunnel_step received fresh (last_endpoint latest)
        (h.addresses s (List.mem_of_getLast? latest)) ht' hdata with
      ⟨absent, hnext⟩ | ⟨t, ht, hdata', ⟨hkeep, same⟩ | ⟨s', latest', _, taken, hcases⟩⟩
    · have same : (x.serverStep env input sender).taken ↔ x.taken := by
        rcases received with ⟨_, same⟩ | ⟨s', t₀, latest', _, ht₀, _⟩
        · exact same
        · rw [latest] at latest'
          cases latest'
          rw [absent] at ht₀
          cases ht₀
      rw [same, hnext]
      exact ⟨fun taken => if_pos taken, fun untaken => if_neg untaken⟩
    · rw [same, hkeep]
      exact h.last s latest t ht hdata'
    · rw [latest] at latest'
      cases latest'
      rcases hcases with ⟨_, elsewhere⟩ | ⟨_, _, _, hmore⟩
      · exact absurd ⟨rfl, rfl⟩ elsewhere
      · exact ⟨fun _ => hmore, fun untaken => absurd taken untaken⟩
  · rcases h.tunnel_step received fresh (connection_endpoint connected)
        (h.socket (connected_onSocket connected)) ht' hdata with
      ⟨_, hnext⟩ | ⟨t, ht, hdata', ⟨hkeep, same⟩ | ⟨s, latest, untaken, taken, hcases⟩⟩
    · exact .inl hnext
    · rw [same, hkeep]
      exact h.lockstep connected t ht hdata'
    · rcases h.lockstep connected t ht hdata' with hstep | ⟨taken', _⟩
      · rcases hcases with ⟨hkeep, _⟩ | ⟨hc, haddress, hseq, _⟩
        · exact .inl (hkeep.trans hstep)
        · exact .inr ⟨taken, s, latest, hc.symm, hseq.symm.trans hstep, haddress.symm⟩
      · exact absurd taken' untaken

/-! ## A step of the client -/

theorem begins_idle {task : TunnelTask} {event : Event} {cemi : Cemi}
    (h : begins task event = some cemi) : task.phase = .idle := by
  cases event with
  | send cemi' =>
    unfold begins at h
    dsimp only at h
    cases hphase : task.phase with
    | idle => rfl
    | _ =>
      rw [hphase] at h
      cases h
  | _ => cases h

theorem begun_none {event : Event} (h : begins x.client event = none) :
    x.begun event = x.started := by
  unfold Exchange.begun
  rw [h]
  exact List.append_nil _

theorem begun_some {event : Event} {cemi : Cemi} (h : begins x.client event = some cemi) :
    x.begun event = x.started ++
      [⟨cemi, x.client.state.channelId, x.client.state.sendSeq, socketOf x.client⟩] := by
  unfold Exchange.begun
  rw [h]
  rfl

theorem Held.expected (h : Held own x) (connected : isConnected x.client.phase)
    (fresh : x.reuses = false) {t : TunnelClient}
    (ht : tunnelOf x.client.state.channelId x.server.tunnels = some t)
    (hdata : t.dataAddr = socketOf x.client) : t.recvSeq = x.client.state.sendSeq := by
  rcases h.lockstep connected t ht hdata with hseq | ⟨taken, s, latest, hc, hq, haddress⟩
  · exact hseq
  · unfold Exchange.reuses at fresh
    rw [latest, Option.any_some, decide_eq_true hc, decide_eq_true hq, decide_eq_true haddress,
      taken] at fresh
    cases fresh

theorem Held.begin (h : Held own x) (hphase : x.client.phase = .idle) (fresh : x.reuses = false)
    (cemi : Cemi) :
    Held own { x with started := x.started ++
      [⟨cemi, x.client.state.channelId, x.client.state.sendSeq, socketOf x.client⟩] } := by
  have connected : isConnected x.client.phase := by
    rw [hphase]
    rfl
  have hlength : (x.started ++ [(⟨cemi, x.client.state.channelId, x.client.state.sendSeq,
      socketOf x.client⟩ : Sending)]).length = x.started.length + 1 := List.length_append
  have untaken : ¬ Exchange.taken { x with started := x.started ++
      [⟨cemi, x.client.state.channelId, x.client.state.sendSeq, socketOf x.client⟩] } := by
    intro taken
    obtain ⟨y, hy, hnumber⟩ := List.mem_map.mp (taken_iff.mp taken)
    have hle := h.delivered_le hy
    rw [hnumber, hlength] at hle
    exact absurd hle (Nat.not_succ_le_self _)
  refine {
    separate := h.separate
    served := h.served
    queue := h.queue
    once := h.once
    ordered := h.ordered
    frames := fun y hy => ?_
    confirmed := h.confirmed
    unconfirmed := fun attempt hwaits => ?_
    requests := fun p hp ch octets hrequest => ?_
    answers := fun p hp => ?_
    positive := fun p hp hstamp => ?_
    socket := h.socket
    addresses := fun s hs => ?_
    asks := h.asks
    awaits := fun attempt hwaits => ?_
    last := fun s latest t ht hdata => ?_
    lockstep := fun _ t ht hdata => .inl (h.expected connected fresh ht hdata) }
  · obtain ⟨s, hs, hframe⟩ := h.frames y hy
    exact ⟨s, sending_append hs _, hframe⟩
  · rw [hphase] at hwaits
    cases hwaits
  · obtain ⟨s, hs, hsame⟩ := h.requests p hp ch octets hrequest
    exact ⟨s, sending_append hs _, hsame⟩
  · obtain ⟨hle, hreads⟩ := h.answers p hp
    refine ⟨?_, hreads⟩
    rw [hlength]
    exact Nat.le_succ_of_le hle
  · have hle := (h.answers p hp).1
    rw [hstamp, hlength] at hle
    exact absurd hle (Nat.not_succ_le_self _)
  · rcases List.mem_append.mp hs with hs | hs
    · exact h.addresses s hs
    · rw [List.mem_singleton.mp hs]
      exact h.socket (connected_onSocket connected)
  · rw [hphase] at hwaits
    cases hwaits
  · rw [List.getLast?_concat] at latest
    cases latest
    exact ⟨fun taken => absurd taken untaken, fun _ => h.expected connected fresh ht hdata⟩

theorem Held.begin_unconfirmed (h : Held own x) (s : Sending) :
    Unconfirmed { x with started := x.started ++ [s] } := by
  have hlength : (x.started ++ [s]).length = x.started.length + 1 := List.length_append
  refine ⟨fun y hy => ?_, fun earlier frame later heq => ?_⟩
  · have hle := h.delivered_le (h.confirmed.subset hy)
    rw [hlength]
    exact Nat.lt_succ_of_le hle
  · have hmem : ((x.started ++ [s]).length, frame) ∈ x.delivered :=
      heq ▸ List.mem_append_right _ List.mem_cons_self
    have hle := h.delivered_le hmem
    rw [hlength] at hle
    exact absurd hle (Nat.not_succ_le_self _)

theorem stays_socket {env : Env} {task task' : TunnelTask} (stays : Stays env task task')
    (connected : isConnected task'.phase) : socketOf task' = socketOf task := by
  rw [socketOf_connected connected, socketOf_connected (stays.connected connected),
    stays.localAddr]

theorem Held.clientStays (h : Held own x) {env : Env} {task : TunnelTask}
    (stays : Stays env x.client task) (opening : env.localAddr.all own) {packets : List Packet}
    (quiet : ∀ p ∈ packets, requestOf p.octets = none) :
    Held own { x with client := task, toServer := x.toServer ++ packets } := by
  refine {
    separate := h.separate
    served := h.served
    queue := h.queue
    once := h.once
    ordered := h.ordered
    frames := h.frames
    confirmed := h.confirmed
    unconfirmed := fun attempt hwaits => ?_
    requests := fun p hp ch octets hrequest => ?_
    answers := h.answers
    positive := h.positive
    socket := fun hopen => ?_
    addresses := h.addresses
    asks := fun attempt hwaits => ?_
    awaits := fun attempt hwaits => ?_
    last := h.last
    lockstep := fun connected t ht hdata => ?_ }
  · obtain ⟨earlier, hearlier, _⟩ := stays.awaits attempt hwaits
    exact h.unconfirmed earlier hearlier
  · rcases List.mem_append.mp hp with hp | hp
    · exact h.requests p hp ch octets hrequest
    · rw [quiet p hp] at hrequest
      cases hrequest
  · rcases Bool.or_eq_true_iff.mp hopen with connected | connecting
    · rw [stays_socket stays connected]
      exact h.socket (connected_onSocket (stays.connected connected))
    · rcases stays.opens connecting with hsame | hnew
      · have hsocket : socketOf task = socketOf x.client := by
          unfold socketOf
          rw [← hsame]
          cases hphase : task.phase with
          | connecting localAddr retry deadline => rfl
          | _ =>
            rw [hphase] at connecting
            cases connecting
        refine hsocket ▸ h.socket ?_
        unfold onSocket
        rw [← hsame, connecting, Bool.or_true]
      · rw [hnew] at opening
        exact opening
  · obtain ⟨earlier, hearlier, hcemi, hrequest⟩ := stays.awaits attempt hwaits
    rw [stays.channelId, stays.sendSeq, hcemi, hrequest]
    exact h.asks earlier hearlier
  · obtain ⟨earlier, hearlier, hcemi, _⟩ := stays.awaits attempt hwaits
    have connected : isConnected task.phase := by
      rw [hwaits]
      rfl
    rw [stays.channelId, stays.sendSeq, hcemi, stays_socket stays connected]
    exact h.awaits earlier hearlier
  · have hsocket := stays_socket stays connected
    have ht : tunnelOf x.client.state.channelId x.server.tunnels = some t := stays.channelId ▸ ht
    have hdata : t.dataAddr = socketOf x.client := hdata.trans hsocket
    rw [stays.channelId, stays.sendSeq, hsocket]
    exact h.lockstep (stays.connected connected) t ht hdata

theorem Held.clientRequests (h : Held own x) {task : TunnelTask} {attempt : Attempt}
    (connected : isConnected x.client.phase) (state : task.state = x.client.state)
    (hphase : task.phase = .awaitingAck attempt)
    (octets : (KnxIpFrame.tunnelingRequest x.client.state.channelId x.client.state.sendSeq
      attempt.cemi.val.data).tryToBytes = .ok attempt.request)
    (latest : x.started.getLast? = some ⟨attempt.cemi, x.client.state.channelId,
      x.client.state.sendSeq, socketOf x.client⟩)
    (unconfirmed : Unconfirmed x) :
    Held own { x with
      client := task
      toServer := x.toServer ++ [⟨socketOf task, attempt.request, x.started.length⟩] } := by
  have connected' : isConnected task.phase := by
    rw [hphase]
    rfl
  have hsocket : socketOf task = socketOf x.client := by
    rw [socketOf_connected connected', socketOf_connected connected, state]
  refine {
    separate := h.separate
    served := h.served
    queue := h.queue
    once := h.once
    ordered := h.ordered
    frames := h.frames
    confirmed := h.confirmed
    unconfirmed := fun _ _ => unconfirmed
    requests := fun p hp ch cemi hrequest => ?_
    answers := h.answers
    positive := h.positive
    socket := fun _ => hsocket ▸ h.socket (connected_onSocket connected)
    addresses := h.addresses
    asks := fun waiting hwaits => ?_
    awaits := fun waiting hwaits => ?_
    last := h.last
    lockstep := fun _ t ht hdata => ?_ }
  · rcases List.mem_append.mp hp with hp | hp
    · exact h.requests p hp ch cemi hrequest
    · rw [List.mem_singleton.mp hp] at hrequest ⊢
      rw [requestOf_request octets] at hrequest
      cases hrequest
      exact ⟨_, (sending_last x).trans latest, rfl, rfl, hsocket, rfl⟩
  · rw [hphase] at hwaits
    cases hwaits
    rw [state]
    exact octets
  · rw [hphase] at hwaits
    cases hwaits
    rw [state, hsocket]
    exact latest
  · have ht : tunnelOf x.client.state.channelId x.server.tunnels = some t := state ▸ ht
    have hdata : t.dataAddr = socketOf x.client := hdata.trans hsocket
    rw [state, hsocket]
    exact h.lockstep connected t ht hdata

/-- When the client takes an acknowledgement, the frame of its send has been delivered. -/
theorem Held.confirms_taken (h : Held own x) {attempt : Attempt} {p : Packet}
    (waits : x.client.phase = .awaitingAck attempt) (hp : p ∈ x.toClient)
    (haddress : p.address = socketOf x.client) (timely : x.repeatsAck p = false)
    (hconfirms : confirms x.client p.octets) : x.taken := by
  by_contra untaken
  unfold Exchange.repeatsAck at timely
  rw [hconfirms, Bool.not_eq_true _ |>.mp untaken, Bool.true_and, Bool.not_false,
    Bool.and_true] at timely
  have hstamp := not_not.mp (of_decide_eq_false timely)
  obtain ⟨_, frame, hparse, hform⟩ := h.answers p hp
  refine untaken (h.positive p hp hstamp _ (h.awaits attempt waits) haddress ?_)
  unfold confirms at hconfirms
  obtain ⟨_, hconfirms⟩ := Bool.and_eq_true_iff.mp hconfirms
  rw [waits] at hconfirms
  rcases hread : KnxIpFrame.parse (p.octets.take recvBufSize) with e | resp
  · rw [hread] at hconfirms
    cases hconfirms
  · rw [hread] at hconfirms
    have hstatus : x.client.awaitedStatus resp = some eNoError := of_decide_eq_true hconfirms
    rw [KnxIpFrame.parse_take hparse hread, hparse] at hread
    cases hread
    unfold TunnelTask.awaitedStatus at hstatus
    split_ifs at hstatus with hs
    obtain ⟨c, q, status, rfl⟩ := hform hs
    have hheader : ConnectionHeader.parse (KnxIpFrame.tunnelingAck c q status).body =
        some ⟨c, q, status⟩ := by
      change ConnectionHeader.parse (ConnectionHeader.toBytes ⟨c, q, status⟩) = _
      rw [← List.append_nil (ConnectionHeader.toBytes _), ConnectionHeader.parse_toBytes]
    rw [hheader] at hstatus
    dsimp only at hstatus
    split_ifs at hstatus with hsame
    cases hstatus
    rw [hparse, hsame.1, hsame.2]

theorem Held.clientConfirms (h : Held own x) {task : TunnelTask} {attempt : Attempt}
    (waits : x.client.phase = .awaitingAck attempt) (taken : x.taken)
    (channelId : task.state.channelId = x.client.state.channelId)
    (sendSeq : task.state.sendSeq = x.client.state.sendSeq + 1)
    (localAddr : task.state.localAddr = x.client.state.localAddr)
    (ends : ∀ attempt, task.phase ≠ .awaitingAck attempt)
    (connecting : isConnecting task.phase = false) {packets : List Packet}
    (quiet : ∀ p ∈ packets, requestOf p.octets = none) {replies : List Cemi}
    (hreplies : replies = [] ∨ replies = [attempt.cemi]) :
    Held own { x with
      client := task
      toServer := x.toServer ++ packets
      confirmed := x.confirmed ++ replies.map fun cemi => (x.started.length, cemi.val) } := by
  have connected : isConnected x.client.phase := by
    rw [waits]
    rfl
  have hsocket (connected' : isConnected task.phase) : socketOf task = socketOf x.client := by
    rw [socketOf_connected connected', socketOf_connected connected, localAddr]
  have latest := h.awaits attempt waits
  obtain ⟨before, earlier⟩ := h.unconfirmed attempt waits
  refine {
    separate := h.separate
    served := h.served
    queue := h.queue
    once := h.once
    frames := h.frames
    ordered := ?_
    confirmed := ?_
    unconfirmed := fun waiting hwaits => absurd hwaits (ends waiting)
    requests := fun p hp ch cemi hrequest => ?_
    answers := h.answers
    positive := h.positive
    socket := fun hopen => ?_
    addresses := h.addresses
    asks := fun waiting hwaits => absurd hwaits (ends waiting)
    awaits := fun waiting hwaits => absurd hwaits (ends waiting)
    last := h.last
    lockstep := fun connected' t ht hdata => .inl ?_ }
  · rcases hreplies with rfl | rfl
    · rw [List.map_nil, List.append_nil]
      exact h.ordered
    · refine List.pairwise_append.mpr ⟨h.ordered, List.pairwise_singleton _ _, fun y hy z hz => ?_⟩
      rw [List.mem_singleton.mp hz]
      exact before y hy
  · rcases hreplies with rfl | rfl
    · rw [List.map_nil, List.append_nil]
      exact h.confirmed
    · obtain ⟨⟨n, frame⟩, hy, hnumber⟩ := List.mem_map.mp (taken_iff.mp taken)
      have hnumber : n = x.started.length := hnumber
      subst hnumber
      obtain ⟨s, hs, hframe⟩ := h.frames _ hy
      rw [sending_last, latest] at hs
      cases hs
      have hframe : attempt.cemi.val = frame := hframe
      obtain ⟨first, rest, hsplit⟩ := List.append_of_mem hy
      change (x.confirmed ++ [(x.started.length, attempt.cemi.val)]).Sublist x.delivered
      rw [hsplit, hframe]
      refine (earlier first frame rest hsplit).append ?_
      exact (List.nil_sublist rest).cons_cons _
  · rcases List.mem_append.mp hp with hp | hp
    · exact h.requests p hp ch cemi hrequest
    · rw [quiet p hp] at hrequest
      cases hrequest
  · rcases Bool.or_eq_true_iff.mp hopen with connected' | hconnecting
    · rw [hsocket connected']
      exact h.socket (connected_onSocket connected)
    · have hconnecting : isConnecting task.phase := hconnecting
      rw [connecting] at hconnecting
      cases hconnecting
  · have ht : tunnelOf x.client.state.channelId x.server.tunnels = some t := channelId ▸ ht
    have hdata : t.dataAddr = socketOf x.client := hdata.trans (hsocket connected')
    rw [sendSeq]
    exact (h.last _ latest t ht hdata).1 taken

theorem Held.clientJoins (h : Held own x) {task : TunnelTask} {channelId : UInt8}
    {data : List UInt8} (takes : takesUp x.client data = some channelId)
    (connecting : isConnecting x.client.phase)
    (state : task.state = ⟨socketOf x.client, channelId, 0, 0, 0⟩) (hphase : task.phase = .idle)
    (fresh : x.rejoins data = false) : Held own { x with client := task } := by
  have hsocket : socketOf task = socketOf x.client := by
    rw [socketOf_connected (by rw [hphase]; rfl), state]
  refine {
    separate := h.separate
    served := h.served
    queue := h.queue
    once := h.once
    ordered := h.ordered
    frames := h.frames
    confirmed := h.confirmed
    unconfirmed := fun waiting hwaits => ?_
    requests := h.requests
    answers := h.answers
    positive := h.positive
    socket := fun _ => ?_
    addresses := h.addresses
    asks := fun waiting hwaits => ?_
    awaits := fun waiting hwaits => ?_
    last := h.last
    lockstep := fun _ t ht hdata => .inl ?_ }
  · rw [hphase] at hwaits
    cases hwaits
  · rw [hsocket]
    refine h.socket ?_
    unfold onSocket
    rw [connecting, Bool.or_true]
  · rw [hphase] at hwaits
    cases hwaits
  · rw [hphase] at hwaits
    cases hwaits
  · have ht : tunnelOf channelId x.server.tunnels = some t := by
      have hc : task.state.channelId = channelId := by rw [state]
      exact hc ▸ ht
    have hdata : t.dataAddr = socketOf x.client := hdata.trans hsocket
    unfold Exchange.rejoins at fresh
    rw [takes, Option.any_some, ht, Option.any_some, decide_eq_true hdata, Bool.true_and] at fresh
    rw [state]
    exact not_not.mp (of_decide_eq_false fresh)

theorem clientStep_eq {env : Env} {event : Event} {started : List Sending} {replies : List Cemi}
    (begun : x.begun event = started)
    (hreplies : successes (x.client.step env event).2.replies = replies) :
    x.clientStep env event = { x with
      client := x.client.next (env, event)
      started := started
      toServer := x.toServer ++ (x.client.step env event).2.sends.map fun d =>
        ⟨socketOf (x.client.next (env, event)), d.octets, started.length⟩
      confirmed := x.confirmed ++ replies.map fun cemi => (started.length, cemi.val) } := by
  unfold Exchange.clientStep
  rw [begun, hreplies]

theorem quiet_packets {sends : List Datagram} (quiet : Quiet sends) (address : SocketAddr)
    (stamp : Nat) : ∀ p ∈ sends.map fun d => (⟨address, d.octets, stamp⟩ : Packet),
      requestOf p.octets = none := by
  intro p hp
  obtain ⟨d, hd, rfl⟩ := List.mem_map.mp hp
  exact quiet d hd

theorem Held.clientStep (h : Held own x) {env : Env} {event : Event}
    (opening : env.localAddr.all own)
    (fresh : ∀ cemi, begins x.client event = some cemi → x.reuses = false)
    (received : ∀ data, event = .datagram data → x.rejoins data = false ∧
      ∃ p ∈ x.toClient, p.octets = data ∧ p.address = socketOf x.client ∧
        x.repeatsAck p = false) :
    Held own (x.clientStep env event) := by
  rcases step_acts env event h.asks with ⟨stays, begun, quiet, none⟩ |
    ⟨cemi, request, attempt, sends, connected, octets, state, hphase, ⟨rfl, rfl⟩, sent⟩ |
    ⟨cemi, stays, begun, quiet, none, _⟩ |
    ⟨attempt, data, waits, rfl, positive, channelId, sendSeq, localAddr, ends, connecting, quiet,
      hreplies⟩ |
    ⟨channelId, data, rfl, takes, connecting, state, hphase, nothing⟩
  · rw [clientStep_eq (begun_none begun) none, List.map_nil, List.append_nil]
    exact h.clientStays stays opening (quiet_packets quiet _ _)
  · have none : successes (x.client.step env event).2.replies = [] := by
      rw [sent]
      rfl
    rcases sends with begun | ⟨begun, earlier, hearlier, hcemi⟩
    · have idle := begins_idle begun
      rw [clientStep_eq (begun_some begun) none, List.map_nil, List.append_nil, sent]
      refine (h.begin idle (fresh _ begun) attempt.cemi).clientRequests connected state hphase
        octets (List.getLast?_concat ..) (h.begin_unconfirmed _)
    · rw [clientStep_eq (begun_none begun) none, List.map_nil, List.append_nil, sent]
      exact h.clientRequests connected state hphase octets (hcemi ▸ h.awaits earlier hearlier)
        (h.unconfirmed earlier hearlier)
  · rw [clientStep_eq (begun_some begun) none, List.map_nil, List.append_nil]
    exact (h.begin (begins_idle begun) (fresh _ begun) cemi).clientStays stays opening
      (quiet_packets quiet _ _)
  · obtain ⟨_, p, hp, rfl, haddress, timely⟩ := received data rfl
    rw [clientStep_eq (begun_none (begins_datagram _ _)) rfl]
    exact h.clientConfirms waits (h.confirms_taken waits hp haddress timely positive)
      channelId sendSeq localAddr ends connecting (quiet_packets quiet _ _) hreplies
  · have none : successes (x.client.step env (.datagram data)).2.replies = [] := by
      rw [nothing]
      rfl
    rw [clientStep_eq (begun_none (begins_datagram _ _)) none, nothing, List.map_nil,
      List.append_nil]
    have hsends : (Outcome.none.sends.map fun d => (⟨socketOf (x.client.next (env, .datagram data)),
        d.octets, x.started.length⟩ : Packet)) = [] := rfl
    rw [hsends, List.append_nil]
    exact h.clientJoins takes connecting state hphase (received data rfl).1

/-! ## Runs -/

theorem start_held {env : Env} (opening : env.localAddr.all own) (config : TunnelConfig)
    (description : Option ServerDescription.DeviceDescription)
    (multicastTarget : Option SocketAddr) :
    Held own (.start env config description multicastTarget) := by
  obtain ⟨stays, quiet, _⟩ := establish_stays env (TunnelTask.initial config) none
  have off : isConnected (TunnelTask.connect env config).1.phase = false := by
    cases hconnected : isConnected (TunnelTask.connect env config).1.phase with
    | false => rfl
    | true => cases stays.connected hconnected
  have waits : ∀ attempt, (TunnelTask.connect env config).1.phase ≠ .awaitingAck attempt := by
    intro attempt hphase
    rw [hphase] at off
    cases off
  refine {
    separate := start_separate description multicastTarget
    served := ⟨[], fun c t ht => ?_⟩
    queue := ⟨[], EventDelivery.new_holds (by decide), List.Sublist.refl _⟩
    once := List.nodup_nil
    ordered := List.Pairwise.nil
    frames := fun y hy => absurd hy List.not_mem_nil
    confirmed := List.Sublist.refl _
    unconfirmed := fun attempt hphase => absurd hphase (waits attempt)
    requests := fun p hp ch cemi hrequest => ?_
    answers := fun p hp => absurd hp List.not_mem_nil
    positive := fun p hp => absurd hp List.not_mem_nil
    socket := fun hopen => ?_
    addresses := fun s hs => absurd hs List.not_mem_nil
    asks := fun attempt hphase => absurd hphase (waits attempt)
    awaits := fun attempt hphase => absurd hphase (waits attempt)
    last := fun s latest => ?_
    lockstep := fun connected => ?_ }
  · cases ht
  · rw [quiet_packets quiet _ _ p hp] at hrequest
    cases hrequest
  · rcases Bool.or_eq_true_iff.mp hopen with connected | connecting
    · have connected : isConnected (TunnelTask.connect env config).1.phase := connected
      rw [off] at connected
      cases connected
    · rcases stays.opens connecting with hsame | hnew
      · have connecting : isConnecting (TunnelTask.connect env config).1.phase := connecting
        have hended : (TunnelTask.connect env config).1.phase = .ended := hsame
        rw [hended] at connecting
        cases connecting
      · rw [hnew] at opening
        exact opening
  · cases latest
  · have connected : isConnected (TunnelTask.connect env config).1.phase := connected
    rw [off] at connected
    cases connected

theorem Held.step (h : Held own x) {move : Move} {x' : Exchange} (timely : x.timely move)
    (hstep : x.step own move = some x') : Held own x' := by
  cases move with
  | server env input =>
    have fresh : x.renews (env, input) = false := Bool.not_eq_true' _ |>.mp timely
    cases input with
    | datagram src data =>
      unfold Exchange.step at hstep
      dsimp only at hstep
      split_ifs at hstep with hown
      cases hstep
      refine h.serverStep (.inl ⟨rfl, fun src' data' heq => ?_⟩) fresh
      cases heq
      exact Bool.not_eq_true _ |>.mp hown
    | _ =>
      cases hstep
      exact h.serverStep (.inl ⟨rfl, fun _ _ heq => Input.noConfusion heq⟩) fresh
  | client env event =>
    unfold Exchange.step at hstep
    dsimp only at hstep
    split_ifs at hstep with hother
    cases hstep
    obtain ⟨other, opening⟩ := Bool.or_eq_false_iff.mp (Bool.not_eq_true _ |>.mp hother)
    refine h.clientStep (Bool.not_eq_false' _ |>.mp opening) (fun cemi hbegins => ?_)
      fun data heq => ?_
    · unfold Exchange.timely at timely
      dsimp only at timely
      rw [hbegins] at timely
      exact Bool.not_eq_true' _ |>.mp timely
    · rw [heq] at other
      cases other
  | toServer env place =>
    unfold Exchange.step at hstep
    unfold Exchange.timely at timely
    dsimp only at hstep timely
    obtain ⟨p, hp, rfl⟩ := Option.map_eq_some_iff.mp hstep
    rw [hp, Option.all_some] at timely
    obtain ⟨fresh, once⟩ := Bool.and_eq_true_iff.mp timely
    exact h.serverStep
      (.inr ⟨p, List.mem_of_getElem? hp, rfl, rfl, Bool.not_eq_true' _ |>.mp once⟩)
      (Bool.not_eq_true' _ |>.mp fresh)
  | toClient env place =>
    unfold Exchange.step at hstep
    unfold Exchange.timely at timely
    dsimp only at hstep timely
    obtain ⟨p, hp, hopen⟩ := Option.bind_eq_some_iff.mp hstep
    rw [hp, Option.all_some] at timely
    split_ifs at hopen with hon
    cases hopen
    obtain ⟨hon, opening⟩ := Bool.and_eq_true_iff.mp hon
    obtain ⟨_, haddress⟩ := Bool.and_eq_true_iff.mp hon
    obtain ⟨present, fresh⟩ := Bool.and_eq_true_iff.mp timely
    refine h.clientStep opening (fun cemi hbegins => ?_) fun data heq => ?_
    · cases hbegins
    · cases heq
      exact ⟨Bool.not_eq_true' _ |>.mp fresh, p, List.mem_of_getElem? hp, rfl,
        of_decide_eq_true haddress, Bool.not_eq_true' _ |>.mp present⟩

theorem Held.faithful (h : Held own x) : x.Faithful where
  once := h.once
  ordered := h.ordered
  frames := h.frames
  confirmed := h.confirmed
  reaches := by
    intro hopen
    obtain ⟨past, holds, hsub⟩ := h.queue
    rw [holds.held hopen]
    exact hsub
  repeats := by
    intro p hp ch cemi t hstamp hrequest ht hdata hother
    obtain ⟨s, hs, hchannel, hsequence, haddress, _⟩ := h.requests p hp ch cemi hrequest
    rw [hstamp, sending_last] at hs
    by_contra htaken
    refine hother (hsequence.trans ?_)
    exact ((h.last s hs t (hchannel ▸ ht) (hdata.trans haddress)).2 htaken).symm

/-- In every run whose steps are timely, no frame is delivered twice, and the successful sends are
    delivered in their order. -/
theorem sends_are_delivered {env : Env} {config : TunnelConfig}
    {description : Option ServerDescription.DeviceDescription}
    {multicastTarget : Option SocketAddr} {moves : List (Transition Exchange Move)}
    (opening : env.localAddr.all own)
    (run : Run (fun s m s' => s.step own m = some s')
      (.start env config description multicastTarget) moves x)
    (timely : ∀ y ∈ moves, y.source.timely y.event) : x.Faithful := by
  have held := run.invariant (I := Held own) (fun y => y.source.timely y.event)
    (start_held opening config description multicastTarget) timely
    fun y h htimely hstep => h.step htimely hstep
  exact held.faithful

end

def ownSocket : SocketAddr := .v4 ⟨192, 168, 1, 2⟩ 5000

def socketEnv (now : Nat) : Env := { calm now with localAddr := some ownSocket }

def isOwn (address : SocketAddr) : Bool := address = ownSocket

def groupClear : Cemi :=
  ⟨⟨[0x11, 0, 0xBC, 0xE0, 0, 0, 0x08, 0x01, 1, 0, 0x80], 2, withoutInfo rfl, rfl⟩, rfl⟩

def opening : Exchange :=
  .start (socketEnv 0) ⟨.v4 ⟨192, 168, 1, 1⟩ 3671, false⟩ none none

/-- The client connects and sends a frame; the first acknowledgement comes late, after the request
    has been repeated. -/
def repeated : List Move :=
  [.toServer (calm 1) 0, .toClient (socketEnv 1) 0, .client (socketEnv 2) (.send groupWrite),
    .toServer (calm 3) 1, .client (socketEnv 2000) .elapsed, .toServer (calm 2001) 2,
    .toClient (socketEnv 2002) 1]

theorem repeated_delivered :
    ∃ (moves : List (Transition Exchange Move)) (x : Exchange),
      moves.map Transition.event = repeated ∧ x.confirmed.map Prod.fst = [1] ∧ x.Faithful := by
  have passes : ∃ (moves : List (Transition Exchange Move)) (x : Exchange),
      moves.map Transition.event = repeated ∧
      Run (fun s m s' => s.step isOwn m = some s') opening moves x ∧
      (moves.all fun y => y.source.timely y.event) ∧ x.confirmed.map Prod.fst = [1] :=
    ⟨_, _, rfl, .next rfl (.next rfl (.next rfl (.next rfl (.next rfl (.next rfl (.next rfl
      (.refl _))))))), rfl, rfl⟩
  obtain ⟨moves, x, hmoves, hrun, htimely, hconfirmed⟩ := passes
  exact ⟨moves, x, hmoves, hconfirmed,
    sends_are_delivered rfl hrun (List.all_eq_true.mp htimely)⟩

/-- The server takes the first frame over, but its acknowledgement is lost, and the client gives the
    send up and sends the other frame. -/
def abandoned : List Move :=
  [.toServer (calm 1) 0, .toClient (socketEnv 1) 0, .client (socketEnv 2) (.send groupWrite),
    .toServer (calm 3) 1, .client (socketEnv 2000) .elapsed, .client (socketEnv 4000) .elapsed,
    .client (socketEnv 6000) .elapsed, .client (socketEnv 6001) (.send groupClear),
    .toServer (calm 6002) 4, .toClient (socketEnv 6003) 3]

/-- The second send succeeds, though only the first frame has been delivered. -/
theorem abandoned_number_reused :
    ∃ (moves : List (Transition Exchange Move)) (x : Exchange),
      moves.map Transition.event = abandoned ∧
      Run (fun s m s' => s.step isOwn m = some s') opening moves x ∧
      (x.confirmed.map fun y => (y.1, y.2.data)) = [(2, groupClear.val.data)] ∧
      (x.delivered.map fun y => (y.1, y.2.data)) = [(1, groupWrite.val.data)] ∧ ¬ x.Faithful := by
  have passes : ∃ (moves : List (Transition Exchange Move)) (x : Exchange),
      moves.map Transition.event = abandoned ∧
      Run (fun s m s' => s.step isOwn m = some s') opening moves x ∧
      (x.confirmed.map fun y => (y.1, y.2.data)) = [(2, groupClear.val.data)] ∧
      (x.delivered.map fun y => (y.1, y.2.data)) = [(1, groupWrite.val.data)] :=
    ⟨_, _, rfl, .next rfl (.next rfl (.next rfl (.next rfl (.next rfl (.next rfl (.next rfl
      (.next rfl (.next rfl (.next rfl (.refl _)))))))))), rfl, rfl⟩
  obtain ⟨moves, x, hmoves, hrun, hconfirmed, hdelivered⟩ := passes
  refine ⟨moves, x, hmoves, hrun, hconfirmed, hdelivered, fun faithful => ?_⟩
  have hsub := faithful.confirmed.map fun y => (y.1, y.2.data)
  rw [hconfirmed, hdelivered] at hsub
  exact absurd (hsub.subset List.mem_cons_self) (by decide)

end KnxRs.SendDelivery
