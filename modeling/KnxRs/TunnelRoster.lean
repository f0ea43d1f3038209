import KnxRs.Runs
import KnxRs.TunnelSteps
import Mathlib.Data.List.Perm.Subperm

set_option autoImplicit false

/-!
# The tunnels of a server

Channels are distinct and never zero, their number is bounded, a free one is always
found, and a datagram reaches only the tunnels of its sender.
-/
namespace KnxRs.TunnelRoster
open CoreTypes CemiCodec KnxIpCodec KnxIpNetwork ServerEvents KeyedRows TunnelServer TunnelSteps Runs

/-! ## Free channels -/

theorem nextId_ne_zero (channelId : UInt8) : nextId channelId ≠ 0 := by
  unfold nextId
  split_ifs with h
  · decide
  · exact h

theorem freeChannel_ne_zero {tunnels : List TunnelClient} {budget : Nat} {start channelId : UInt8}
    (hstart : start ≠ 0) (h : freeChannel tunnels budget start = some channelId) :
    channelId ≠ 0 := by
  induction budget generalizing start with
  | zero => cases h
  | succ budget ih =>
    unfold freeChannel at h
    split_ifs at h
    · exact ih (nextId_ne_zero start) h
    · cases h
      exact hstart

theorem four_channels (channelId : UInt8) :
    [channelId, nextId channelId, nextId (nextId channelId),
      nextId (nextId (nextId channelId))].Nodup := by
  revert channelId
  exact forall_octet (by decide +kernel)

theorem freeChannel_used {tunnels : List TunnelClient} {budget : Nat} {start : UInt8}
    (h : freeChannel tunnels (budget + 1) start = none) :
    start ∈ tunnels.map TunnelClient.channelId ∧
      freeChannel tunnels budget (nextId start) = none := by
  unfold freeChannel at h
  split_ifs at h with hused
  · obtain ⟨t, ht, hid⟩ := List.any_eq_true.mp hused
    exact ⟨List.mem_map.mpr ⟨t, ht, of_decide_eq_true hid⟩, h⟩

/-- With a slot free, the allocation finds a channel after three others at most. -/
theorem freeChannel_found {tunnels : List TunnelClient} {budget : Nat} (start : UInt8)
    (slot : tunnels.length < maxTunnels) :
    ∃ channelId, freeChannel tunnels (budget + 4) start = some channelId := by
  rcases h : freeChannel tunnels (budget + 4) start with _ | channelId
  · obtain ⟨h0, h⟩ := freeChannel_used h
    obtain ⟨h1, h⟩ := freeChannel_used h
    obtain ⟨h2, h⟩ := freeChannel_used h
    obtain ⟨h3, h⟩ := freeChannel_used h
    have hsubset : [start, nextId start, nextId (nextId start), nextId (nextId (nextId start))] ⊆
        tunnels.map TunnelClient.channelId := by
      intro c hc
      simp only [List.mem_cons, List.not_mem_nil, or_false] at hc
      rcases hc with rfl | rfl | rfl | rfl
      · exact h0
      · exact h1
      · exact h2
      · exact h3
    have hlength := (List.subperm_of_subset (four_channels start) hsubset).length_le
    rw [List.length_map] at hlength
    exact absurd hlength (Nat.not_le.mpr slot)
  · exact ⟨channelId, rfl⟩

/-! ## The invariant -/

structure Separate (state : ServerState) : Prop where
  distinct : (state.tunnels.map TunnelClient.channelId).Nodup
  nonzero : ∀ c ∈ state.tunnels.map TunnelClient.channelId, c ≠ 0
  count : state.tunnels.length ≤ maxTunnels
  next : state.nextChannelId ≠ 0

/-- What a step does to the list of tunnels: some of them go, or one joins. -/
inductive Changes (state : ServerState) (tunnels : List TunnelClient) (next : UInt8) : Prop where
  | keeps (sub : (tunnels.map TunnelClient.channelId).Sublist
      (state.tunnels.map TunnelClient.channelId)) (same : next = state.nextChannelId)
  | joins (channelId : UInt8) (ctrlAddr dataAddr : SocketAddr) (now : Nat)
      (slot : state.tunnels.length < maxTunnels)
      (free : freeChannel state.tunnels 256 state.nextChannelId = some channelId)
      (list : tunnels = state.tunnels ++ [.new channelId ctrlAddr dataAddr now])
      (counter : next = nextId channelId)

theorem Changes.same {state : ServerState} :
    Changes state state.tunnels state.nextChannelId := .keeps (.refl _) rfl

theorem Changes.sameIds {state : ServerState} {tunnels : List TunnelClient}
    (h : tunnels.map TunnelClient.channelId = state.tunnels.map TunnelClient.channelId) :
    Changes state tunnels state.nextChannelId := .keeps (h ▸ .refl _) rfl

theorem Separate.changes {state state' : ServerState} (h : Separate state)
    (change : Changes state state'.tunnels state'.nextChannelId) : Separate state' := by
  cases change with
  | keeps sub same =>
    have hlength := sub.length_le
    rw [List.length_map, List.length_map] at hlength
    exact ⟨h.distinct.sublist sub, fun c hc => h.nonzero c (sub.subset hc),
      Nat.le_trans hlength h.count, same ▸ h.next⟩
  | joins channelId ctrlAddr dataAddr now slot free list counter =>
    refine ⟨?_, ?_, ?_, ?_⟩
    · rw [list]
      exact nodup_append h.distinct (freeChannel_fresh free)
    · rw [list, List.map_append]
      intro c hc
      rcases List.mem_append.mp hc with hc | hc
      · exact h.nonzero c hc
      · rw [List.map_singleton, List.mem_singleton] at hc
        exact hc ▸ freeChannel_ne_zero h.next free
    · rw [list, List.length_append]
      exact slot
    · rw [counter]
      exact nextId_ne_zero channelId

theorem start_separate (description : Option ServerDescription.DeviceDescription)
    (multicastTarget : Option SocketAddr) : Separate (.start description multicastTarget) where
  distinct := List.nodup_nil
  nonzero := fun _ hc => absurd hc List.not_mem_nil
  count := Nat.zero_le _
  next := show (1 : UInt8) ≠ 0 by decide

/-! ## One step -/

section
variable {env : Env} {src : SocketAddr} {frame : KnxIpFrame} {state : ServerState}

theorem update_ids {tunnels : List TunnelClient} {p : TunnelClient → Bool}
    {f : TunnelClient → TunnelClient} (ends : ∀ t, SameEnds t (f t)) :
    (updateFirst p f tunnels).map TunnelClient.channelId = tunnels.map TunnelClient.channelId :=
  map_key_updateFirst fun t => (ends t).channelId

theorem handleTunnelingRequest_ids (tunnels : List TunnelClient) :
    (handleTunnelingRequest env src frame tunnels).1.map TunnelClient.channelId =
      tunnels.map TunnelClient.channelId := by
  unfold handleTunnelingRequest
  split
  · rfl
  · split
    · rfl
    · split_ifs
      · rfl
      · rfl
      · exact update_ids fun t => takeOver_ends env t _

theorem handleTunnelingAck_ids (tunnels : List TunnelClient) :
    (handleTunnelingAck env src frame tunnels).1.map TunnelClient.channelId =
      tunnels.map TunnelClient.channelId := by
  unfold handleTunnelingAck
  split
  · rfl
  · dsimp only
    split
    · rfl
    · split_ifs
      · exact update_ids fun t => advance_ends env t _
      · rfl

theorem handleDisconnect_sublist (tunnels : List TunnelClient) :
    (handleDisconnect env src frame tunnels).1.Sublist tunnels := by
  unfold handleDisconnect
  split
  · exact .refl _
  · split
    · exact List.filter_sublist
    · exact .refl _

theorem handlePacket_changes (data : List UInt8) :
    Changes state (state.handlePacket env src data).1.tunnels
      (state.handlePacket env src data).1.nextChannelId := by
  unfold ServerState.handlePacket
  split
  · exact .same
  · rename_i frame _
    split
    · exact .same
    · rcases handleConnect_cases env src frame state.tunnels
          state.nextChannelId with
        ⟨hsame, hnext⟩ | ⟨channelId, ctrlAddr, dataAddr, slot, free, hnew, hnext⟩
      · exact .keeps ((congrArg (List.map TunnelClient.channelId) hsame) ▸ .refl _) hnext
      · exact .joins channelId ctrlAddr dataAddr env.now slot free hnew hnext
    · refine Changes.sameIds ?_
      exact (congrArg (List.map _) handleHeartbeat_tunnels).trans
        (update_ids fun _ => ⟨rfl, rfl, rfl⟩)
    · exact .keeps ((handleDisconnect_sublist _).map _) rfl
    · exact .sameIds (handleTunnelingRequest_ids _)
    · exact .sameIds (handleTunnelingAck_ids _)
    · exact .same
    · exact .same
    · exact .same
    · exact .same

theorem sendToTunnelClient_ids (tunnels : List TunnelClient) (channelId : UInt8)
    (cemi : CemiFrame) :
    (sendToTunnelClient env tunnels channelId cemi).1.map TunnelClient.channelId =
      tunnels.map TunnelClient.channelId := by
  unfold sendToTunnelClient
  split
  · rfl
  · exact update_ids fun t => queue_ends env t _

theorem map_ids {f : TunnelClient → TunnelClient} (ends : ∀ t, SameEnds t (f t))
    (tunnels : List TunnelClient) :
    (tunnels.map f).map TunnelClient.channelId = tunnels.map TunnelClient.channelId := by
  rw [List.map_map]
  exact List.map_congr_left fun t _ => (ends t).channelId

theorem expireAcks_sublist (tunnels : List TunnelClient) :
    ((expireAcks env tunnels).1.map TunnelClient.channelId).Sublist
      (tunnels.map TunnelClient.channelId) := by
  have hsub := (dropAll_sublist env
    ((tunnels.filter fun t => t.lost env).map TunnelClient.channelId)
    (tunnels.map fun t => (t.retransmit env).1,
      tunnels.flatMap fun t => (t.retransmit env).2)).map TunnelClient.channelId
  rwa [map_ids fun t => retransmit_ends env t] at hsub

theorem next_changes (state : ServerState) (event : Env × Input) :
    Changes state (state.next event).tunnels (state.next event).nextChannelId := by
  obtain ⟨env, input⟩ := event
  unfold ServerState.next ServerState.step
  split_ifs with running
  · cases input with
    | datagram src data =>
      dsimp only [ServerState.serve]
      split_ifs
      · exact handlePacket_changes data
      · exact .same
    | sendFrame cemi => exact .sameIds (map_ids (fun t => queue_ends env t _) _)
    | sendToTunnel channelId cemi => exact .sameIds (sendToTunnelClient_ids _ _ _)
    | ackDue => exact .keeps (expireAcks_sublist _) rfl
    | cleanup => exact .keeps (List.filter_sublist.map _) rfl
    | stop => exact .keeps (List.nil_sublist _) rfl
    | deliver => exact .same
    | setDescription description => exact .same
    | receive => exact .same
    | dropReceiver => exact .same
  · cases input <;> exact .same

end

/-! ## Strangers -/

/-- Frames from an address that is not one of a tunnel's endpoints do nothing to it. -/
theorem stranger_keeps {env : Env} {t : TunnelClient} {src : SocketAddr} {data : List UInt8}
    (ctrl : src ≠ t.ctrlAddr) (dataEnd : src ≠ t.dataAddr) :
    inputOp env t (.datagram src data) = .keep := by
  have hctrl : ∀ frame, ¬fromControl t src frame :=
    fun frame h => ctrl (of_decide_eq_true h).2.symm
  have hdata : ∀ ch, ¬fromData t src ch := fun ch h => dataEnd (of_decide_eq_true h).2.symm
  unfold inputOp
  dsimp only
  split
  · rfl
  · unfold packetOp requestOp ackOp
    split
    · exact if_neg (hctrl _)
    · exact if_neg (hctrl _)
    · split
      · rfl
      · exact if_neg fun h => hdata _ h.1
    · split
      · rfl
      · exact if_neg fun h => hdata _ h.1
    · rfl

/-! ## Runs -/

theorem run_separate {description : Option ServerDescription.DeviceDescription}
    {multicastTarget : Option SocketAddr} {state : ServerState}
    {past : List (Transition ServerState (Env × Input))}
    (run : Run (fun s e s' => s.next e = s') (.start description multicastTarget) past state) :
    Separate state :=
  run.invariant (fun _ => True) (start_separate description multicastTarget) (fun _ _ => trivial)
    fun x h _ hstep => hstep ▸ h.changes (next_changes x.source x.event)

/-- In every state of a run: the tunnels are at most `maxTunnels`, their channels distinct and
    not zero, the allocation finds a channel whenever a slot is free, and a datagram from another
    address than its endpoints leaves a tunnel exactly as it is. -/
theorem tunnels_stay_separate {description : Option ServerDescription.DeviceDescription}
    {multicastTarget : Option SocketAddr} {state : ServerState}
    {past : List (Transition ServerState (Env × Input))}
    (run : Run (fun s e s' => s.next e = s') (.start description multicastTarget) past state) :
    state.tunnels.length ≤ maxTunnels ∧
      (state.tunnels.map TunnelClient.channelId).Nodup ∧
      (∀ t ∈ state.tunnels, t.channelId ≠ 0) ∧
      (state.tunnels.length < maxTunnels →
        ∃ channelId, freeChannel state.tunnels 256 state.nextChannelId = some channelId) ∧
      ∀ t ∈ state.tunnels, ∀ env src data, src ≠ t.ctrlAddr → src ≠ t.dataAddr →
        tunnelOf t.channelId (state.next (env, .datagram src data)).tunnels = some t := by
  have h := run_separate run
  refine ⟨h.count, h.distinct, fun t ht => h.nonzero _ (List.mem_map_of_mem ht),
    freeChannel_found state.nextChannelId, ?_⟩
  intro t ht env src data ctrl dataEnd
  have hrow := row_of_mem h.distinct ht
  by_cases taken : reads state (.datagram src data)
  · rw [step_row h.distinct hrow _ taken, stranger_keeps ctrl dataEnd]
    rfl
  · rw [step_idle (Bool.not_eq_true _ |>.mp taken)]
    exact hrow

/-- A client that connects from one address for both endpoints. -/
def connectInputs : List (Env × Input) :=
  [(calm 0, .datagram (.v4 ⟨192, 168, 1, 2⟩ 5000) [0x06, 0x10, 0x02, 0x05, 0x00, 0x1A, 0x08, 0x01,
      0, 0, 0, 0, 0, 0, 0x08, 0x01, 0, 0, 0, 0, 0, 0, 0x04, 0x04, 0x02, 0x00])]

theorem one_client_connects :
    (connectInputs.foldl ServerState.next (.start none none)).tunnels.length ≤ maxTunnels ∧
      (connectInputs.foldl ServerState.next (.start none none)).tunnels.map
        TunnelClient.channelId = [1] :=
  ⟨(tunnels_stay_separate (trace_run ServerState.next (.start none none) connectInputs)).1, rfl⟩

end KnxRs.TunnelRoster
