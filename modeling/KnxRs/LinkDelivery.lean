import KnxRs.TunnelLink

set_option autoImplicit false

/-!
# What a connection conveys

Between the server and the client of one connection the frames the server has sent and
the acknowledgements under way form a stop-and-wait link. The client's application
therefore gets the frames in order, each once.
-/
namespace KnxRs.LinkDelivery
open CoreTypes CemiCodec KnxIpCodec KnxIpNetwork BoundedChannel KeyedRows TunnelServer TunnelFrames
  TunnelSteps TunnelRoster TunnelOutbox TunnelService TunnelConnection ConnectionSteps
  ConnectionFrames OutboxSteps TunnelLink Runs

/-! ## The application's frames -/

/-- The application's channel has got these frames after `base`, all of them as long as the
    application takes frames. -/
def Holds (base : List CemiFrame) (frames : List (List UInt8)) (rx : Channel CemiFrame) : Prop :=
  ∃ cemis : List CemiFrame, cemis.map CemiFrame.data = frames ∧ rx.accepted <+: base ++ cemis ∧
    (rx.closed = false → rx.accepted = base ++ cemis)

section
variable {base : List CemiFrame} {frames : List (List UInt8)} {rx : Channel CemiFrame}

theorem Holds.start (rx : Channel CemiFrame) : Holds rx.accepted [] rx :=
  ⟨[], rfl, List.prefix_append _ _, fun _ => (List.append_nil _).symm⟩

theorem Holds.recv (h : Holds base frames rx) : Holds base frames rx.recv := by
  obtain ⟨cemis, hdata, hstart, hall⟩ := h
  refine ⟨cemis, hdata, ?_, fun hopen => ?_⟩
  · rw [rx.recv_accepted]
    exact hstart
  · rw [rx.recv_closed] at hopen
    rw [rx.recv_accepted, hall hopen]

theorem Holds.close (h : Holds base frames rx) : Holds base frames rx.close := by
  obtain ⟨cemis, hdata, hstart, _⟩ := h
  refine ⟨cemis, hdata, ?_, fun hopen => by cases hopen⟩
  refine List.IsPrefix.trans ?_ hstart
  change rx.received ++ [] <+: rx.received ++ rx.buffer
  rw [List.append_nil]
  exact List.prefix_append _ _

theorem Holds.takeIn {task : TunnelTask} {cemi : List UInt8} (h : Holds base frames task.rx)
    (valid : Valid cemi) : Holds base (frames ++ [cemi]) (task.takeIn cemi).rx := by
  obtain ⟨frame, hparse⟩ := valid
  obtain ⟨cemis, hdata, hstart, hall⟩ := h
  have hlater : (cemis ++ [frame]).map CemiFrame.data = frames ++ [cemi] := by
    rw [List.map_append, hdata]
    exact congrArg (fun octets => frames ++ [octets]) (parse_data hparse)
  unfold TunnelTask.takeIn
  dsimp only
  rw [hparse]
  unfold TunnelTask.deliver
  dsimp only
  split_ifs with hclosed
  · refine ⟨cemis ++ [frame], hlater, ?_, fun hopen => ?_⟩
    · rw [← List.append_assoc]
      exact hstart.trans (List.prefix_append _ _)
    · rw [hclosed] at hopen
      cases hopen
  · have hopen := Bool.not_eq_true _ |>.mp hclosed
    have haccepted : (task.rx.put frame).accepted = base ++ (cemis ++ [frame]) := by
      rw [Channel.put_accepted, hall hopen, List.append_assoc]
    exact ⟨cemis ++ [frame], hlater, haccepted ▸ List.prefix_rfl, fun _ => haccepted⟩

end

/-! ## The invariant -/

/-- The client is on the connection of channel `c` and has taken `k` frames, or not yet. -/
structure Follows (c : UInt8) (base : List CemiFrame) (log : List (List UInt8)) (k : Nat)
    (task : TunnelTask) : Prop where
  sound : Sound task
  opening : isConnecting task.phase → k = 0 ∧ Holds base [] task.rx
  linked : task.state.channelId = c → Holds base (log.take k) task.rx
  counter : isConnected task.phase → task.state.channelId = c → task.state.recvSeq = UInt8.ofNat k

/-- The frames the server has sent and what is under way are a stop-and-wait link, and the client
    follows it. -/
structure Linked (client : SocketAddr) (c : UInt8) (base : List CemiFrame) (conn : Connection)
    (l : StopAndWait.Link (List UInt8)) : Prop where
  ok : l.Ok
  log : l.log = (logOf c conn.served).sent
  confirmed : l.confirmed = (logOf c conn.served).acked
  frames : conn.toClient.filterMap (frameOf c) = l.frames.map fun f => (UInt8.ofNat f.1, f.2)
  acks : conn.toServer.filterMap (ackOf c) = l.acks.map UInt8.ofNat
  valid : ∀ f ∈ l.frames, Valid f.2
  separate : Separate conn.server
  served : Served conn.served conn.server
  dataAddr : ∀ t, tunnelOf c conn.server.tunnels = some t → t.dataAddr = client
  follows : Follows c base l.log l.delivered conn.client

section
variable {client : SocketAddr} {c : UInt8} {base : List CemiFrame} {conn : Connection}
  {l : StopAndWait.Link (List UInt8)}

/-! ## The network -/

theorem Linked.toClient (h : Linked client c base conn l) {toClient : List (List UInt8)}
    {frames : List (Nat × List UInt8)}
    (ok : StopAndWait.Link.Ok { l with frames := frames })
    (hframes : toClient.filterMap (frameOf c) = frames.map fun f => (UInt8.ofNat f.1, f.2))
    (valid : ∀ f ∈ frames, Valid f.2) :
    Linked client c base { conn with toClient := toClient } { l with frames := frames } :=
  ⟨ok, h.log, h.confirmed, hframes, h.acks, valid, h.separate, h.served, h.dataAddr, h.follows⟩

theorem Linked.toServer (h : Linked client c base conn l) {toServer : List (List UInt8)}
    {acks : List Nat} (ok : StopAndWait.Link.Ok { l with acks := acks })
    (hacks : toServer.filterMap (ackOf c) = acks.map UInt8.ofNat) :
    Linked client c base { conn with toServer := toServer } { l with acks := acks } :=
  ⟨ok, h.log, h.confirmed, h.frames, hacks, h.valid, h.separate, h.served, h.dataAddr, h.follows⟩

theorem Linked.loseFrames (h : Linked client c base conn l) {toClient : List (List UInt8)}
    (sub : toClient.Sublist conn.toClient) :
    ∃ l', Linked client c base { conn with toClient := toClient } l' := by
  have hsub := sub.filterMap (frameOf c)
  rw [h.frames] at hsub
  obtain ⟨frames, hframes, heq⟩ := List.sublist_map_iff.mp hsub
  exact ⟨_, h.toClient (h.ok.lose hframes (.refl _)) heq fun f hf => h.valid f (hframes.subset hf)⟩

theorem Linked.loseAcks (h : Linked client c base conn l) {toServer : List (List UInt8)}
    (sub : toServer.Sublist conn.toServer) :
    ∃ l', Linked client c base { conn with toServer := toServer } l' := by
  have hsub := sub.filterMap (ackOf c)
  rw [h.acks] at hsub
  obtain ⟨acks, hacks, heq⟩ := List.sublist_map_iff.mp hsub
  exact ⟨_, h.toServer (h.ok.lose (.refl _) hacks) heq⟩

theorem Linked.repeatFrame (h : Linked client c base conn l) {d : List UInt8}
    {rest : List (List UInt8)} (head : conn.toClient = d :: rest) :
    ∃ l', Linked client c base { conn with toClient := d :: conn.toClient } l' := by
  rcases hd : frameOf c d with _ | x
  · have hframes : (d :: conn.toClient).filterMap (frameOf c) =
        conn.toClient.filterMap (frameOf c) := List.filterMap_cons_none hd
    exact ⟨_, h.toClient h.ok (hframes.trans h.frames) h.valid⟩
  · have hall := h.frames
    rw [head, List.filterMap_cons_some hd] at hall
    obtain ⟨f, frames, hl, hf, _⟩ := List.map_eq_cons_iff.mp hall.symm
    refine ⟨_, h.toClient (h.ok.repeatFrame hl) ?_ ?_⟩
    · rw [List.filterMap_cons_some hd, h.frames, List.map_cons, hf]
    · intro g hg
      rcases List.mem_cons.mp hg with rfl | hg
      · exact h.valid g (by rw [hl]; exact List.mem_cons_self)
      · exact h.valid g hg

theorem Linked.repeatAck (h : Linked client c base conn l) {d : List UInt8}
    {rest : List (List UInt8)} (head : conn.toServer = d :: rest) :
    ∃ l', Linked client c base { conn with toServer := d :: conn.toServer } l' := by
  rcases hd : ackOf c d with _ | x
  · have hacks : (d :: conn.toServer).filterMap (ackOf c) =
        conn.toServer.filterMap (ackOf c) := List.filterMap_cons_none hd
    exact ⟨_, h.toServer h.ok (hacks.trans h.acks)⟩
  · have hall := h.acks
    rw [head, List.filterMap_cons_some hd] at hall
    obtain ⟨i, acks, hl, hi, _⟩ := List.map_eq_cons_iff.mp hall.symm
    refine ⟨_, h.toServer (h.ok.repeatAck hl) ?_⟩
    rw [List.filterMap_cons_some hd, h.acks, List.map_cons, hi]

/-! ## A step of the server -/

theorem filterMap_arriving {sends : List Datagram} {k : Nat} {log : List (List UInt8)}
    (h : ∀ d ∈ sends, ∀ x, frameOf c d.octets = some x →
      d.address = client ∧ x.1 = UInt8.ofNat k ∧ log[k]? = some x.2 ∧ Valid x.2) :
    ∃ copies : List (Nat × List UInt8),
      (arriving client sends).filterMap (frameOf c) =
        copies.map (fun f => (UInt8.ofNat f.1, f.2)) ∧
      ∀ f ∈ copies, f.1 = k ∧ log[k]? = some f.2 ∧ Valid f.2 := by
  have each : ∀ x ∈ (arriving client sends).filterMap (frameOf c),
      x.1 = UInt8.ofNat k ∧ log[k]? = some x.2 ∧ Valid x.2 := by
    intro x hx
    obtain ⟨octets, hoctets, hframe⟩ := List.mem_filterMap.mp hx
    obtain ⟨d, hd, rfl⟩ := List.mem_map.mp hoctets
    exact (h d (List.mem_filter.mp hd).1 x hframe).2
  refine ⟨((arriving client sends).filterMap (frameOf c)).map fun x => (k, x.2), ?_, ?_⟩
  · rw [List.map_map]
    refine (List.map_id _).symm.trans (List.map_congr_left fun x hx => ?_)
    exact Prod.ext (each x hx).1 rfl
  · intro f hf
    obtain ⟨x, hx, rfl⟩ := List.mem_map.mp hf
    exact ⟨rfl, (each x hx).2⟩

theorem Linked.extend (h : Linked client c base conn l) {t : TunnelClient}
    (ht : tunnelOf c conn.server.tunnels = some t) (env : Env) (input : Input)
    {toServer : List (List UInt8)} {acks : List Nat} {confirmed : Nat}
    (ok : StopAndWait.Link.Ok { l with confirmed := confirmed, acks := acks })
    (hconfirmed : confirmed = (logOf c (conn.served ++
      [⟨conn.server, (env, input), conn.server.next (env, input)⟩])).acked)
    (hacks : toServer.filterMap (ackOf c) = acks.map UInt8.ofNat) :
    ∃ l', Linked client c base
      (Connection.serverStep client { conn with toServer := toServer } env input) l' := by
  obtain ⟨grows, window, _, hsends⟩ := step_adds h.separate h.served ht env input rfl
  rw [h.dataAddr t ht, ← hconfirmed] at hsends
  rw [← hconfirmed] at window
  obtain ⟨copies, hcopies, hcurrent⟩ := filterMap_arriving hsends
  have hok := StopAndWait.Link.Ok.extend ok (h.log ▸ grows) window
    fun f hf => ⟨(hcurrent f hf).1, (hcurrent f hf).2.1⟩
  refine ⟨_, hok, rfl, hconfirmed, ?_, hacks, ?_, h.separate.changes (next_changes _ _),
    h.served.step h.separate (env, input), fun t' ht' => ?_, ?_⟩
  · change (conn.toClient ++ arriving client _).filterMap (frameOf c) = _
    rw [List.filterMap_append, h.frames, hcopies, List.map_append]
  · intro f hf
    rcases List.mem_append.mp hf with hf | hf
    · exact h.valid f hf
    · exact (hcurrent f hf).2.2
  · have ht'' : tunnelOf c (conn.server.next (env, input)).tunnels = some t' := ht'
    by_cases taken : reads conn.server input
    · rw [step_row h.separate.distinct ht input taken] at ht''
      exact (run_ends ht'').dataAddr.trans (h.dataAddr t ht)
    · rw [step_idle (Bool.not_eq_true _ |>.mp taken), ht] at ht''
      cases ht''
      exact h.dataAddr t ht
  · have htake : (logOf c (conn.served ++
        [⟨conn.server, (env, input), conn.server.next (env, input)⟩])).sent.take l.delivered =
          l.log.take l.delivered := by
      obtain ⟨later, hlater⟩ := grows
      rw [← hlater, ← h.log, List.take_append_of_le_length h.ok.delivered_le]
    refine ⟨h.follows.sound, h.follows.opening, fun hc => ?_, h.follows.counter⟩
    exact htake.symm ▸ h.follows.linked hc

/-- The acknowledgement that a tunnel waits for carries the place of its frame. -/
theorem Linked.acknowledged (h : Linked client c base conn l) {t : TunnelClient}
    (ht : tunnelOf c conn.server.tunnels = some t) {input : Input} (hack : Acknowledges t input) :
    ∃ d, input = .datagram client d ∧ ackOf c d = some (UInt8.ofNat l.confirmed) := by
  obtain ⟨data, frame, ch, f, hinput, hparse, hs, hch, hchannel, hf, hseq⟩ := hack
  obtain ⟨⟨blocks, agrees⟩, _⟩ := h.served c t ht
  refine ⟨data, h.dataAddr t ht ▸ hinput, ?_⟩
  unfold ackOf
  rw [hparse]
  dsimp only
  rw [if_pos hs, hch]
  dsimp only
  rw [if_pos (hchannel.trans (row_some ht).2), hseq, (agrees.busy f hf).1, agrees.sequence,
    h.confirmed]

theorem Linked.serverMoves (h : Linked client c base conn l) {t : TunnelClient}
    (ht : tunnelOf c conn.server.tunnels = some t) (env : Env) {input : Input}
    (elsewhere : comesFrom client input = false) :
    ∃ l', Linked client c base (conn.serverStep client env input) l' := by
  obtain ⟨_, _, hacked, _⟩ := step_adds h.separate h.served ht env input rfl
  refine h.extend ht env input h.ok ?_ h.acks
  rcases hacked with hsame | ⟨_, hack⟩
  · rw [hsame, h.confirmed]
  · obtain ⟨d, rfl, _⟩ := h.acknowledged ht hack
    exact absurd rfl (of_decide_eq_false elsewhere)

theorem ofNat_mod {i j : Nat} (h : UInt8.ofNat i = UInt8.ofNat j) : i % 256 = j % 256 := by
  have hval := congrArg UInt8.toNat h
  rwa [UInt8.toNat_ofNat', UInt8.toNat_ofNat'] at hval

theorem Linked.serverReads (h : Linked client c base conn l) {t : TunnelClient}
    (ht : tunnelOf c conn.server.tunnels = some t) (env : Env) {d : List UInt8}
    {rest : List (List UInt8)} (head : conn.toServer = d :: rest) :
    ∃ l', Linked client c base
      (Connection.serverStep client { conn with toServer := rest } env (.datagram client d)) l' := by
  obtain ⟨_, _, hacked, _⟩ := step_adds h.separate h.served ht env (.datagram client d) rfl
  have hacks := h.acks
  rw [head] at hacks
  rcases hd : ackOf c d with _ | q
  · rw [List.filterMap_cons_none hd] at hacks
    refine h.extend ht env _ h.ok ?_ hacks
    rcases hacked with hsame | ⟨_, hack⟩
    · rw [hsame, h.confirmed]
    · obtain ⟨d', hinput, hd'⟩ := h.acknowledged ht hack
      cases hinput
      rw [hd] at hd'
      cases hd'
  · rw [List.filterMap_cons_some hd] at hacks
    obtain ⟨i, acks, hl, hi, hrest⟩ := List.map_eq_cons_iff.mp hacks.symm
    rcases hacked with hsame | ⟨hmore, hack⟩
    · have hsub : acks.Sublist l.acks := by
        rw [hl]
        exact List.sublist_cons_self i acks
      refine h.extend ht env _ (h.ok.lose (.refl _) hsub) ?_ hrest.symm
      rw [hsame, h.confirmed]
    · obtain ⟨d', hinput, hd'⟩ := h.acknowledged ht hack
      cases hinput
      rw [hd] at hd'
      have hseq : i = l.confirmed := by
        refine h.ok.ack_is_current (by decide) ?_ (ofNat_mod (hi.trans (Option.some.inj hd')))
        rw [hl]
        exact List.mem_cons_self
      have hok := h.ok.confirm (hseq ▸ hl)
      have htail : l.acks.tail = acks := by
        rw [hl]
        rfl
      unfold StopAndWait.Link.confirm at hok
      rw [htail] at hok
      refine h.extend ht env _ hok ?_ hrest.symm
      rw [hmore, h.confirmed]

/-! ## A step of the client -/

theorem sound_keeps {task task' : TunnelTask} (h : Sound task) (keeps : Keeps task task') :
    Sound task' := by
  intro attempt hphase
  rw [keeps.phase] at hphase
  obtain ⟨aside, hrequest⟩ := h attempt hphase
  rw [keeps.channelId, keeps.sendSeq]
  exact ⟨aside, hrequest⟩

theorem not_connecting {phase : Phase} (h : isConnected phase) : isConnecting phase = false := by
  cases phase with
  | connecting localAddr retry deadline => cases h
  | _ => rfl

theorem takeIn_recvSeq (task : TunnelTask) (cemi : List UInt8) :
    (task.takeIn cemi).state.recvSeq = task.state.recvSeq + 1 := by
  unfold TunnelTask.takeIn
  dsimp only
  split
  · rfl
  · unfold TunnelTask.deliver
    split_ifs <;> rfl

section
variable {log : List (List UInt8)} {k : Nat} {task task' : TunnelTask}

theorem Follows.moves (h : Follows c base log k task) (moves : Moves task task') :
    Follows c base log k task' := by
  rcases moves with ⟨connected, goes⟩ | ⟨_, after, hstate, hrx, hconnecting⟩ |
    ⟨hconnecting, hphase, hrx, hseq⟩
  · refine ⟨goes.sound, fun hc => ?_, fun hc => ?_, fun _ hc => ?_⟩
    · rw [goes.connecting] at hc
      cases hc
    · rw [goes.rx]
      exact h.linked (goes.channelId ▸ hc)
    · rw [goes.recvSeq]
      exact h.counter connected (goes.channelId ▸ hc)
  · refine ⟨fun attempt hphase => ?_, fun hc => ?_, fun hc => ?_, fun hc => ?_⟩
    · rw [hphase] at after
      cases after
    · rw [hrx]
      exact h.opening (hconnecting hc)
    · rw [hrx]
      exact h.linked (hstate ▸ hc)
    · rw [after] at hc
      cases hc
  · obtain ⟨hk, hholds⟩ := h.opening hconnecting
    subst hk
    refine ⟨sound_of_idle hphase, fun hc => ?_, fun _ => ?_, fun _ _ => hseq⟩
    · rw [hphase] at hc
      cases hc
    · rw [hrx]
      exact hholds

theorem Follows.application (h : Follows c base log k task) {rx : Channel CemiFrame}
    (holds : ∀ frames, Holds base frames task.rx → Holds base frames rx) :
    Follows c base log k { task with rx := rx } :=
  ⟨h.sound, fun hc => ⟨(h.opening hc).1, holds _ (h.opening hc).2⟩,
    fun hc => holds _ (h.linked hc), h.counter⟩

theorem Follows.elsewhere (h : Follows c base log k task) (connected : isConnected task.phase)
    (hc : task.state.channelId ≠ c) (keeps : Keeps task task') : Follows c base log k task' := by
  refine ⟨sound_keeps h.sound keeps, fun hconnecting => ?_, fun hc' => ?_, fun _ hc' => ?_⟩
  · rw [keeps.phase, not_connecting connected] at hconnecting
    cases hconnecting
  · exact absurd (keeps.channelId ▸ hc') hc
  · exact absurd (keeps.channelId ▸ hc') hc

theorem Follows.takeIn (h : Follows c base log k task) (connected : isConnected task.phase)
    (hc : task.state.channelId = c) {cemi : List UInt8} (hget : log[k]? = some cemi)
    (valid : Valid cemi) : Follows c base log (k + 1) (task.takeIn cemi) := by
  have keeps := takeIn_keeps task cemi
  refine ⟨sound_keeps h.sound keeps, fun hconnecting => ?_, fun _ => ?_, fun _ _ => ?_⟩
  · rw [keeps.phase, not_connecting connected] at hconnecting
    cases hconnecting
  · rw [List.take_add_one, hget]
    exact (h.linked hc).takeIn valid
  · rw [takeIn_recvSeq, h.counter connected hc]
    exact (UInt8.ofNat_add k 1).symm

end

theorem Linked.clientStep (h : Linked client c base conn l) (env : Env) (event : Event)
    {toClient : List (List UInt8)} {frames : List (Nat × List UInt8)} {acks : List Nat}
    {delivered : Nat}
    (ok : StopAndWait.Link.Ok
      { l with delivered := delivered, frames := frames, acks := l.acks ++ acks })
    (hframes : toClient.filterMap (frameOf c) = frames.map fun f => (UInt8.ofNat f.1, f.2))
    (valid : ∀ f ∈ frames, Valid f.2)
    (hacks : ((conn.client.step env event).2.sends.map Datagram.octets).filterMap (ackOf c) =
      acks.map UInt8.ofNat)
    (follows : Follows c base l.log delivered (conn.client.next (env, event))) :
    Linked client c base (Connection.clientStep { conn with toClient := toClient } env event)
      { l with delivered := delivered, frames := frames, acks := l.acks ++ acks } := by
  refine ⟨ok, h.log, h.confirmed, hframes, ?_, valid, h.separate, h.served, h.dataAddr, follows⟩
  change (conn.toServer ++ _).filterMap (ackOf c) = _
  rw [List.filterMap_append, h.acks, hacks, List.map_append]

theorem noAcks_octets {sends : List Datagram} (h : NoAcks sends) (c : UInt8) :
    (sends.map Datagram.octets).filterMap (ackOf c) = [] := by
  rw [List.filterMap_eq_nil_iff]
  intro octets hoctets
  obtain ⟨d, hd, rfl⟩ := List.mem_map.mp hoctets
  exact h d hd c

theorem Linked.clientQuiet (h : Linked client c base conn l) (env : Env) (event : Event)
    (hacks : ((conn.client.step env event).2.sends.map Datagram.octets).filterMap (ackOf c) = [])
    (follows : Follows c base l.log l.delivered (conn.client.next (env, event))) :
    ∃ l', Linked client c base (conn.clientStep env event) l' := by
  have hok : StopAndWait.Link.Ok { l with acks := l.acks ++ [] } := by
    rw [List.append_nil]
    exact h.ok
  exact ⟨_, h.clientStep env event hok h.frames h.valid hacks follows⟩

theorem Linked.clientActs (h : Linked client c base conn l) (env : Env) {event : Event}
    (hstep : conn.client.step env event =
      if conn.client.blocked then (conn.client, .none) else conn.client.act env event)
    (htaken : taken conn.client event = none) (stays : reopens conn.client event = false) :
    ∃ l', Linked client c base (conn.clientStep env event) l' := by
  split_ifs at hstep with hblocked
  · refine h.clientQuiet env event ?_ ?_
    · rw [hstep]
      rfl
    · have hnext : conn.client.next (env, event) = conn.client := congrArg Prod.fst hstep
      rw [hnext]
      exact h.follows
  · obtain ⟨moves, hacks⟩ :=
      act_moves env h.follows.sound htaken (Bool.not_eq_true _ |>.mp hblocked) stays
    rw [← hstep] at moves hacks
    exact h.clientQuiet env event (noAcks_octets hacks c) (h.follows.moves moves)

theorem acks_sent (env : Env) (channelId sequence : UInt8) (dst : SocketAddr) :
    ∃ k, k ≤ 1 ∧ ((env.send (.tunnelingAck channelId sequence eNoError) dst).map
      Datagram.octets).filterMap (ackOf channelId) = List.replicate k sequence := by
  unfold Env.send
  rcases hbytes : (KnxIpFrame.tunnelingAck channelId sequence eNoError).tryToBytes with e | octets
  · exact ⟨0, Nat.zero_le 1, rfl⟩
  · obtain ⟨k, hk, hoctets⟩ := sendTo_octets env octets dst
    refine ⟨k, hk, ?_⟩
    dsimp only
    rw [hoctets, List.filterMap_replicate_of_some
      ((ackOf_ack (KnxIpFrame.parse_tryToBytes hbytes)).trans (if_pos rfl))]

theorem acks_elsewhere (env : Env) {channelId : UInt8} (hc : channelId ≠ c) (sequence : UInt8)
    (dst : SocketAddr) :
    ((env.send (.tunnelingAck channelId sequence eNoError) dst).map
      Datagram.octets).filterMap (ackOf c) = [] := by
  rw [List.filterMap_eq_nil_iff]
  intro octets hoctets
  obtain ⟨d, hd, rfl⟩ := List.mem_map.mp hoctets
  exact (ackOf_ack (Env.mem_send hd).2).trans (if_neg hc)

theorem taken_some {task : TunnelTask} {data : List UInt8} {x : UInt8 × List UInt8}
    (h : taken task (.datagram data) = some x) :
    isConnected task.phase ∧ frameOf task.state.channelId data = some x := by
  unfold taken at h
  dsimp only at h
  split_ifs at h with hready
  exact ⟨(Bool.and_eq_true_iff.mp hready).2, h⟩

theorem Linked.clientTakes (h : Linked client c base conn l) (env : Env) {d : List UInt8}
    {rest : List (List UInt8)} (head : conn.toClient = d :: rest)
    (hc : conn.client.state.channelId = c) {sequence : UInt8} {cemi : List UInt8}
    (htaken : taken conn.client (.datagram d) = some (sequence, cemi)) :
    ∃ l', Linked client c base
      (Connection.clientStep { conn with toClient := rest } env (.datagram d)) l' := by
  obtain ⟨connected, hframe⟩ := taken_some htaken
  have hstep := step_takes env htaken
  have hnext : conn.client.next (env, .datagram d) = (takes env conn.client sequence cemi).1 :=
    congrArg Prod.fst hstep
  obtain ⟨k, hk, hsends⟩ := acks_sent env conn.client.state.channelId sequence
    conn.client.config.remote
  have hacks : ((conn.client.step env (.datagram d)).2.sends.map Datagram.octets).filterMap
      (ackOf c) = List.replicate k sequence := by
    rw [hstep]
    exact hc ▸ hsends
  rw [hc] at hframe
  have hframes := h.frames
  rw [head, List.filterMap_cons_some hframe] at hframes
  obtain ⟨⟨i, octets⟩, frames, hl, hf, hrest⟩ := List.map_eq_cons_iff.mp hframes.symm
  cases hf
  have hmem : (i, octets) ∈ l.frames := hl ▸ List.mem_cons_self
  have htail : l.frames.tail = frames := by
    rw [hl]
    rfl
  have valid : ∀ f ∈ frames, Valid f.2 := fun f hf => h.valid f (hl ▸ List.mem_cons_of_mem _ hf)
  have copies (j : Nat) : (List.replicate k j).Sublist [j] :=
    (List.replicate_sublist_replicate j).mpr hk
  have hcounter := h.follows.counter connected hc
  by_cases hseq : UInt8.ofNat i = conn.client.state.recvSeq
  · have hi : i = l.delivered :=
      h.ok.frame_is_next (by decide) hmem (ofNat_mod (hseq.trans hcounter))
    subst hi
    have hok := (h.ok.receive hl).lose (.refl _) ((copies l.delivered).append_left l.acks)
    unfold StopAndWait.Link.receive at hok
    rw [htail] at hok
    refine ⟨_, h.clientStep env _ hok hrest.symm valid ?_ ?_⟩
    · rw [hacks, List.map_replicate]
    · rw [hnext]
      unfold takes
      rw [if_pos hseq]
      exact h.follows.takeIn connected hc (h.ok.frame _ hmem).1 (h.valid _ hmem)
  · have hle := h.ok.frame_le hmem
    have hge := (h.ok.frame _ hmem).2
    have hne : i ≠ l.delivered := fun hi => hseq (hi ▸ hcounter.symm)
    have hlast : l.delivered - 1 = i := by
      dsimp only at hle hge
      omega
    have hok := (h.ok.receiveAgain (by dsimp only at hle hge; omega)).lose (.refl _)
      ((copies (l.delivered - 1)).append_left l.acks)
    unfold StopAndWait.Link.receiveAgain at hok
    rw [htail] at hok
    refine ⟨_, h.clientStep env _ hok hrest.symm valid ?_ ?_⟩
    · rw [hacks, List.map_replicate, hlast]
    · rw [hnext]
      unfold takes
      rw [if_neg hseq]
      exact h.follows

theorem Linked.clientReads (h : Linked client c base conn l) (env : Env) {d : List UInt8}
    {rest : List (List UInt8)} (head : conn.toClient = d :: rest) :
    ∃ l', Linked client c base
      (Connection.clientStep { conn with toClient := rest } env (.datagram d)) l' := by
  obtain ⟨l₁, h₁⟩ := h.loseFrames (head ▸ List.sublist_cons_self d rest)
  rcases htaken : taken conn.client (.datagram d) with _ | ⟨sequence, cemi⟩
  · exact h₁.clientActs env rfl htaken rfl
  · by_cases hc : conn.client.state.channelId = c
    · exact h.clientTakes env head hc htaken
    · have hstep := step_takes env htaken
      refine h₁.clientQuiet env _ ?_ ?_
      · rw [hstep]
        exact acks_elsewhere env hc sequence _
      · have hnext : conn.client.next (env, .datagram d) =
            (takes env conn.client sequence cemi).1 := congrArg Prod.fst hstep
        rw [hnext]
        refine h₁.follows.elsewhere (taken_some htaken).1 hc ?_
        unfold takes
        dsimp only
        split_ifs
        · exact takeIn_keeps _ _
        · exact .refl _

theorem Linked.clientMoves (h : Linked client c base conn l) (env : Env) {event : Event}
    (other : isDatagram event = false) (stays : reopens conn.client event = false) :
    ∃ l', Linked client c base (conn.clientStep env event) l' := by
  cases event with
  | datagram data => cases other
  | receive => exact h.clientQuiet env _ rfl (h.follows.application fun _ => Holds.recv)
  | dropReceiver => exact h.clientQuiet env _ rfl (h.follows.application fun _ => Holds.close)
  | receiveError => exact h.clientActs env rfl rfl stays
  | send cemi => exact h.clientActs env rfl rfl stays
  | close => exact h.clientActs env rfl rfl stays
  | heartbeat => exact h.clientActs env rfl rfl stays
  | elapsed => exact h.clientActs env rfl rfl stays

/-! ## Runs -/

theorem Linked.step (h : Linked client c base conn l) {move : Move} {conn' : Connection}
    (hstep : conn.step client c move = some conn') : ∃ l', Linked client c base conn' l' := by
  cases move with
  | server env input =>
    unfold Connection.step at hstep
    dsimp only at hstep
    split_ifs at hstep with hlive
    cases hstep
    obtain ⟨live, elsewhere⟩ := Bool.and_eq_true_iff.mp hlive
    obtain ⟨t, ht⟩ := Option.isSome_iff_exists.mp live
    exact h.serverMoves ht env (Bool.not_eq_true' _ |>.mp elsewhere)
  | client env event =>
    unfold Connection.step at hstep
    dsimp only at hstep
    split_ifs at hstep with hother
    cases hstep
    obtain ⟨other, stays⟩ := Bool.or_eq_false_iff.mp (Bool.not_eq_true _ |>.mp hother)
    exact h.clientMoves env other stays
  | serverReads env again =>
    unfold Connection.step at hstep
    rcases head : conn.toServer with _ | ⟨d, rest⟩
    · rw [head] at hstep
      cases hstep
    · rw [head] at hstep
      dsimp only at hstep
      split_ifs at hstep with hlive
      all_goals cases hstep
      all_goals obtain ⟨t, ht⟩ := Option.isSome_iff_exists.mp hlive
      · obtain ⟨l', h'⟩ := h.repeatAck head
        rw [head] at h'
        exact h'.serverReads ht env rfl
      · exact h.serverReads ht env head
  | clientReads env again =>
    unfold Connection.step at hstep
    rcases head : conn.toClient with _ | ⟨d, rest⟩
    · rw [head] at hstep
      cases hstep
    · rw [head] at hstep
      dsimp only at hstep
      split_ifs at hstep with hopen
      all_goals cases hstep
      · obtain ⟨l', h'⟩ := h.repeatFrame head
        rw [head] at h'
        exact h'.clientReads env rfl
      · exact h.clientReads env head
  | loseToServer place =>
    cases hstep
    exact h.loseAcks (List.eraseIdx_sublist _ _)
  | loseToClient place =>
    cases hstep
    exact h.loseFrames (List.eraseIdx_sublist _ _)

theorem opening_linked {description : Option ServerDescription.DeviceDescription}
    {multicastTarget : Option SocketAddr}
    (h : conn.Opening client c description multicastTarget) :
    Linked client c conn.client.rx.accepted conn .empty := by
  obtain ⟨separate, served⟩ := run_served h.history
  obtain ⟨past, x, hpast, absent⟩ := h.opened
  have hlog : logOf c conn.served = .empty := by
    rw [hpast, logOf_append]
    unfold Log.record
    rw [absent]
  have off : isConnected conn.client.phase = false := by
    have connecting := h.connecting
    cases hphase : conn.client.phase with
    | connecting localAddr retry deadline => rfl
    | _ =>
      rw [hphase] at connecting
      cases connecting
  obtain ⟨t, ht, hdata⟩ := h.tunnel
  refine ⟨StopAndWait.Link.empty_ok, by rw [hlog]; rfl, by rw [hlog]; rfl, h.noFrames, h.noAcks,
    fun f hf => absurd hf List.not_mem_nil, separate, served, fun t' ht' => ?_,
    fun attempt hphase => ?_, fun _ => ⟨rfl, .start _⟩, fun _ => .start _, fun hon => ?_⟩
  · rw [ht] at ht'
    cases ht'
    exact hdata
  · rw [hphase] at off
    cases off
  · rw [off] at hon
    cases hon

/-- On a network that loses and repeats datagrams but keeps their order, the application gets an
    initial segment of the frames the server has sent on the connection, in order, each once;
    all that the server has moved past is in it, and at most one frame is still undecided. -/
theorem received_in_order {description : Option ServerDescription.DeviceDescription}
    {multicastTarget : Option SocketAddr} {start : Connection}
    {moves : List (Transition Connection Move)}
    (opening : start.Opening client c description multicastTarget)
    (run : Run (fun s m s' => s.step client c m = some s') start moves conn)
    (hc : conn.client.state.channelId = c) :
    ∃ frames : List CemiFrame,
      conn.client.rx.accepted <+: start.client.rx.accepted ++ frames ∧
      (conn.client.rx.closed = false →
        conn.client.rx.accepted = start.client.rx.accepted ++ frames) ∧
      frames.map CemiFrame.data <+: (logOf c conn.served).sent ∧
      (logOf c conn.served).acked ≤ frames.length ∧
      (logOf c conn.served).sent.length ≤ (logOf c conn.served).acked + 1 := by
  obtain ⟨l, h⟩ := run.invariant
    (I := fun s => ∃ l, Linked client c start.client.rx.accepted s l) (fun _ => True)
    ⟨_, opening_linked opening⟩ (fun _ _ => trivial) fun x ⟨_, h⟩ _ hstep => h.step hstep
  obtain ⟨frames, hdata, hstart, hall⟩ := h.follows.linked hc
  have hlength : frames.length = l.delivered := by
    rw [← List.length_map (f := CemiFrame.data), hdata, List.length_take,
      Nat.min_eq_left h.ok.delivered_le]
  refine ⟨frames, hstart, hall, ?_, ?_, ?_⟩
  · rw [hdata, h.log]
    exact List.take_prefix _ _
  · rw [hlength, ← h.confirmed]
    exact h.ok.confirmed_le
  · rw [← h.log, ← h.confirmed]
    exact h.ok.window

end

def clientAddr : SocketAddr := .v4 ⟨192, 168, 1, 2⟩ 5000

def granting : Connection where
  server := connectInputs.foldl ServerState.next (.start none none)
  client := (TunnelTask.connect { calm 0 with localAddr := some clientAddr }
    ⟨.v4 ⟨192, 168, 1, 1⟩ 3671, false⟩).1
  toServer := []
  toClient := arriving clientAddr (connectInputs.flatMap fun event =>
    ((ServerState.start none none).step event.1 event.2).2.sends)
  served := trace ServerState.next (.start none none) connectInputs

theorem granting_opens : granting.Opening clientAddr 1 none none where
  history := trace_run ServerState.next (.start none none) connectInputs
  opened := ⟨[], _, rfl, rfl⟩
  tunnel := ⟨_, rfl, rfl⟩
  connecting := rfl
  noFrames := rfl
  noAcks := rfl

def framePassed : List Move :=
  [.clientReads (calm 1) false, .server (calm 2) (.sendFrame groupWrite),
    .clientReads (calm 3) true, .serverReads (calm 4) false, .clientReads (calm 5) false]

theorem frame_received :
    ∃ (moves : List (Transition Connection Move)) (conn : Connection) (frames : List CemiFrame),
      moves.map Transition.event = framePassed ∧ conn.client.rx.accepted.length = 1 ∧
        conn.client.rx.accepted = granting.client.rx.accepted ++ frames ∧
        (logOf 1 conn.served).acked = 1 ∧ (logOf 1 conn.served).acked ≤ frames.length := by
  have passes : ∃ moves conn, moves.map Transition.event = framePassed ∧
      Run (fun s m s' => s.step clientAddr 1 m = some s') granting moves conn ∧
      conn.client.state.channelId = 1 ∧ conn.client.rx.accepted.length = 1 ∧
      conn.client.rx.closed = false ∧ (logOf 1 conn.served).acked = 1 :=
    ⟨_, _, rfl, .next rfl (.next rfl (.next rfl (.next rfl (.next rfl (.refl _))))), rfl, rfl,
      rfl, rfl⟩
  obtain ⟨moves, conn, hmoves, hrun, hc, hlength, hopen, hacked⟩ := passes
  obtain ⟨frames, _, hall, _, hmore, _⟩ := received_in_order granting_opens hrun hc
  exact ⟨moves, conn, frames, hmoves, hlength, hall hopen, hacked, hmore⟩

end KnxRs.LinkDelivery
