import KnxRs.TunnelFrames

set_option autoImplicit false

/-!
# What a step does to one tunnel

Every input of the server comes down to one operation on each tunnel, chosen by the
input and the tunnel alone. All that is said about runs follows from this.
-/
namespace KnxRs.TunnelSteps
open CoreTypes CemiCodec KnxIpCodec KnxIpNetwork ServerEvents KeyedRows TunnelServer TunnelFrames

/-! ## Operations -/

inductive Op where
  | keep
  | heartbeat
  | takeOver (cemiData : List UInt8)
  | queue (cemi : List UInt8)
  | advance (sequence : UInt8)
  | transmit
  | remove
  deriving DecidableEq

/-- A tunnel after an operation, and the tunnelling requests it sends. -/
def Op.run (env : Env) (t : TunnelClient) : Op → Option TunnelClient × List Datagram
  | .keep => (some t, [])
  | .heartbeat => (some { t with lastHeartbeat := env.now }, [])
  | .takeOver cemiData => (some (t.takeOver env cemiData).1, (t.takeOver env cemiData).2)
  | .queue cemi => (some (t.queue env cemi).1, (t.queue env cemi).2)
  | .advance sequence => (some (t.advance env sequence).1, (t.advance env sequence).2)
  | .transmit => (some (t.transmit env).1, (t.transmit env).2)
  | .remove => (none, [])

variable (env : Env) (t : TunnelClient)

/-- The frame is about this channel and comes from its control endpoint. -/
def fromControl (src : SocketAddr) (frame : KnxIpFrame) : Bool :=
  frame.body.head? = some t.channelId ∧ t.ctrlAddr = src

/-- The header names this channel and the sender is its data endpoint. -/
def fromData (src : SocketAddr) (ch : ConnectionHeader) : Bool :=
  ch.channelId = t.channelId ∧ t.dataAddr = src

def requestOp (src : SocketAddr) (frame : KnxIpFrame) : Op :=
  match ConnectionHeader.parse frame.body with
  | none => .keep
  | some ch =>
    if fromData t src ch ∧ ch.sequenceCounter = t.recvSeq then
      .takeOver (frame.body.drop ConnectionHeader.len)
    else .keep

def ackOp (src : SocketAddr) (frame : KnxIpFrame) : Op :=
  match ConnectionHeader.parse frame.body with
  | none => .keep
  | some ch =>
    if fromData t src ch ∧ t.expects ch.sequenceCounter then .advance ch.sequenceCounter
    else .keep

def packetOp (src : SocketAddr) (frame : KnxIpFrame) : Op :=
  match frame.serviceType with
  | .connectionStateRequest => if fromControl t src frame then .heartbeat else .keep
  | .disconnectRequest => if fromControl t src frame then .remove else .keep
  | .tunnelingRequest => requestOp t src frame
  | .tunnelingAck => ackOp t src frame
  | _ => .keep

/-- The operation of the retry timer. -/
def dueOp : Op :=
  match t.inFlight with
  | none => .keep
  | some f =>
    if env.now < f.deadline then .keep
    else if f.attempts < maxRetries then .transmit
    else .remove

def inputOp : Input → Op
  | .datagram src data =>
    match KnxIpFrame.parse data with
    | .error _ => .keep
    | .ok frame => packetOp t src frame
  | .sendFrame cemi => .queue (asIndication cemi.val)
  | .sendToTunnel channelId cemi =>
    if t.channelId = channelId then .queue (asIndication cemi.val) else .keep
  | .ackDue => dueOp env t
  | .cleanup => if t.alive env then .keep else .remove
  | .stop => .remove
  | _ => .keep

/-! ## Endpoints stay -/

/-- Two states of one tunnel: its channel and its endpoints are the same. -/
structure SameEnds (t t' : TunnelClient) : Prop where
  channelId : t'.channelId = t.channelId
  ctrlAddr : t'.ctrlAddr = t.ctrlAddr
  dataAddr : t'.dataAddr = t.dataAddr

theorem SameEnds.refl (t : TunnelClient) : SameEnds t t := ⟨rfl, rfl, rfl⟩

theorem SameEnds.trans {t t' t'' : TunnelClient} (h : SameEnds t t') (h' : SameEnds t' t'') :
    SameEnds t t'' :=
  ⟨h'.channelId.trans h.channelId, h'.ctrlAddr.trans h.ctrlAddr, h'.dataAddr.trans h.dataAddr⟩

theorem enqueue_ends (cemi : List UInt8) : SameEnds t (t.enqueue cemi) := by
  unfold TunnelClient.enqueue
  split_ifs <;> exact ⟨rfl, rfl, rfl⟩

theorem transmit_ends : SameEnds t (t.transmit env).1 := by
  unfold TunnelClient.transmit
  split <;> exact ⟨rfl, rfl, rfl⟩

theorem pump_ends : SameEnds t (t.pump env).1 := by
  unfold TunnelClient.pump
  split_ifs
  · exact .refl t
  · split
    · exact ⟨rfl, rfl, rfl⟩
    · rename_i datagram rest _
      have hends : SameEnds t { t with
          outbox := rest, inFlight := some ⟨t.sendSeq, datagram, 0, env.now, none⟩ } :=
        ⟨rfl, rfl, rfl⟩
      exact hends.trans (transmit_ends env _)

theorem queue_ends (cemi : List UInt8) : SameEnds t (t.queue env cemi).1 :=
  (enqueue_ends t cemi).trans (pump_ends env _)

theorem advance_ends (sequence : UInt8) : SameEnds t (t.advance env sequence).1 := by
  have hends : SameEnds t { t with inFlight := none, sendSeq := sequence + 1 } := ⟨rfl, rfl, rfl⟩
  exact hends.trans (pump_ends env _)

theorem takeOver_ends (cemiData : List UInt8) : SameEnds t (t.takeOver env cemiData).1 := by
  unfold TunnelClient.takeOver
  dsimp only
  split
  · exact ⟨rfl, rfl, rfl⟩
  · split
    · exact ⟨rfl, rfl, rfl⟩
    · have hends : SameEnds t { t with recvSeq := t.recvSeq + 1 } := ⟨rfl, rfl, rfl⟩
      exact hends.trans (queue_ends env _ _)

theorem retransmit_ends : SameEnds t (t.retransmit env).1 := by
  unfold TunnelClient.retransmit
  split
  · exact .refl t
  · split_ifs
    · exact .refl t
    · exact transmit_ends env t
    · exact .refl t

theorem run_ends {env : Env} {t t' : TunnelClient} {op : Op} (h : (op.run env t).1 = some t') :
    SameEnds t t' := by
  cases op with
  | keep =>
    cases h
    exact .refl t
  | heartbeat =>
    cases h
    exact ⟨rfl, rfl, rfl⟩
  | takeOver cemiData =>
    cases h
    exact takeOver_ends env t cemiData
  | queue cemi =>
    cases h
    exact queue_ends env t cemi
  | advance sequence =>
    cases h
    exact advance_ends env t sequence
  | transmit =>
    cases h
    exact transmit_ends env t
  | remove => cases h

/-! ## The tunnel of a channel -/

/-- The tunnel of a channel. -/
abbrev tunnelOf (c : UInt8) (tunnels : List TunnelClient) : Option TunnelClient :=
  row TunnelClient.channelId c tunnels

section
variable {env : Env} {src : SocketAddr} {frame : KnxIpFrame} {tunnels : List TunnelClient}
  {c : UInt8} {t : TunnelClient}

theorem fromControl_channel (h : fromControl t src frame) :
    t.channelId = frame.body.head?.getD 0 := by
  have hhead : frame.body.head? = some t.channelId ∧ t.ctrlAddr = src := of_decide_eq_true h
  rw [hhead.1]
  rfl

theorem fromData_channel {ch : ConnectionHeader} (h : fromData t src ch) :
    t.channelId = ch.channelId := by
  have hch : ch.channelId = t.channelId ∧ t.dataAddr = src := of_decide_eq_true h
  exact hch.1.symm

theorem row_update {p : TunnelClient → Bool} {f : TunnelClient → TunnelClient} {k : UInt8}
    {op : Op} (distinct : (tunnels.map TunnelClient.channelId).Nodup)
    (ends : ∀ t, SameEnds t (f t)) (only : ∀ t, p t → t.channelId = k)
    (h : tunnelOf c tunnels = some t) (hop : (op.run env t).1 = some (if p t then f t else t)) :
    tunnelOf c (updateFirst p f tunnels) = (op.run env t).1 := by
  have h : row TunnelClient.channelId c tunnels = some t := h
  have hrow := row_updateFirst (k := c) (fun t => (ends t).channelId) only distinct
  rw [tunnelOf, hrow, h, Option.map_some, hop]

theorem handleHeartbeat_tunnels : (handleHeartbeat env src frame tunnels).1 =
    updateFirst (fun t => fromControl t src frame) (fun t => { t with lastHeartbeat := env.now })
      tunnels := by
  unfold handleHeartbeat
  rcases hbody : frame.body with _ | ⟨channelId, rest⟩
  · refine (updateFirst_none (List.find?_eq_none.mpr fun t _ h => ?_)).symm
    have hhead : frame.body.head? = some t.channelId ∧ t.ctrlAddr = src := of_decide_eq_true h
    rw [hbody] at hhead
    cases hhead.1
  · have hsame : (fun t : TunnelClient => decide (t.channelId = channelId ∧ t.ctrlAddr = src)) =
        fun t => fromControl t src frame := by
      funext t
      unfold fromControl
      rw [hbody]
      simp only [List.head?_cons, Option.some.injEq, eq_comm]
    dsimp only
    rw [hsame]
    split
    · rfl
    · rename_i hnone
      exact (updateFirst_none hnone).symm

theorem handleHeartbeat_row (distinct : (tunnels.map TunnelClient.channelId).Nodup)
    (h : tunnelOf c tunnels = some t) (hs : frame.serviceType = .connectionStateRequest) :
    tunnelOf c (handleHeartbeat env src frame tunnels).1 =
      ((packetOp t src frame).run env t).1 := by
  rw [handleHeartbeat_tunnels]
  refine row_update distinct (fun _ => ⟨rfl, rfl, rfl⟩) (fun _ => fromControl_channel) h ?_
  unfold packetOp
  rw [hs]
  dsimp only
  split_ifs <;> rfl

theorem handleDisconnect_tunnels (distinct : (tunnels.map TunnelClient.channelId).Nodup) :
    (handleDisconnect env src frame tunnels).1 =
      tunnels.filter fun t => !fromControl t src frame := by
  have hkeep : (∀ t ∈ tunnels, ¬fromControl t src frame) →
      tunnels = tunnels.filter fun t => !fromControl t src frame := by
    intro hall
    refine (List.filter_eq_self.mpr fun t ht => ?_).symm
    rw [Bool.not_eq_true _ |>.mp (hall t ht)]
    rfl
  unfold handleDisconnect
  rcases hbody : frame.body with _ | ⟨channelId, rest⟩
  · refine hkeep fun t _ h => ?_
    have hhead : frame.body.head? = some t.channelId ∧ t.ctrlAddr = src := of_decide_eq_true h
    rw [hbody] at hhead
    cases hhead.1
  · have hcontrol : ∀ t, fromControl t src frame ↔ t.channelId = channelId ∧ t.ctrlAddr = src := by
      intro t
      unfold fromControl
      rw [hbody, decide_eq_true_iff, List.head?_cons, Option.some.injEq, eq_comm]
    dsimp only
    split
    · rename_i found hfound
      obtain ⟨hid, hsrc⟩ : found.channelId = channelId ∧ found.ctrlAddr = src := by
        simpa using List.find?_some hfound
      refine List.filter_congr fun t ht => ?_
      by_cases ht' : t.channelId = channelId
      · have hrow := row_of_mem distinct ht
        rw [ht', ← hid, row_of_mem distinct (List.mem_of_find?_eq_some hfound)] at hrow
        have hsame := Option.some.inj hrow
        rw [(hcontrol t).mpr ⟨ht', hsame ▸ hsrc⟩, decide_eq_false (not_not_intro ht')]
        rfl
      · rw [Bool.not_eq_true _ |>.mp fun h => ht' ((hcontrol t).mp h).1, decide_eq_true ht']
        rfl
    · rename_i hnone
      rw [List.find?_eq_none] at hnone
      exact hkeep fun t ht h => hnone t ht (decide_eq_true ((hcontrol t).mp h))

theorem handleDisconnect_row (distinct : (tunnels.map TunnelClient.channelId).Nodup)
    (h : tunnelOf c tunnels = some t) (hs : frame.serviceType = .disconnectRequest) :
    tunnelOf c (handleDisconnect env src frame tunnels).1 =
      ((packetOp t src frame).run env t).1 := by
  have h : row TunnelClient.channelId c tunnels = some t := h
  rw [handleDisconnect_tunnels distinct, tunnelOf, row_filter distinct, h]
  unfold packetOp
  rw [hs]
  dsimp only
  split_ifs with hcontrol
  · exact Option.filter_some_neg (by rw [hcontrol]; rfl)
  · exact Option.filter_some_pos (by rw [Bool.not_eq_true _ |>.mp hcontrol]; rfl)

theorem handleTunnelingRequest_row (distinct : (tunnels.map TunnelClient.channelId).Nodup)
    (h : tunnelOf c tunnels = some t) :
    tunnelOf c (handleTunnelingRequest env src frame tunnels).1 =
      ((requestOp t src frame).run env t).1 := by
  have h : row TunnelClient.channelId c tunnels = some t := h
  have hid := (row_some h).2
  unfold handleTunnelingRequest requestOp fromData
  rcases ConnectionHeader.parse frame.body with _ | ch
  · exact h
  · dsimp only
    by_cases hc : ch.channelId = c
    · rw [hc, h]
      dsimp only
      by_cases hsrc : t.dataAddr = src
      · rw [if_neg (not_not_intro hsrc)]
        by_cases hseq : ch.sequenceCounter = t.recvSeq
        · rw [if_neg (not_not_intro hseq), if_pos ⟨decide_eq_true ⟨hid.symm, hsrc⟩, hseq⟩]
          refine row_update distinct (fun t => takeOver_ends env t _)
            (fun t ht => of_decide_eq_true ht) h ?_
          rw [if_pos (decide_eq_true hid)]
          rfl
        · rw [if_pos hseq, if_neg fun hh => hseq hh.2]
          exact h
      · rw [if_pos hsrc, if_neg fun hh => hsrc (of_decide_eq_true hh.1).2]
        exact h
    · rw [if_neg fun hh => hc ((of_decide_eq_true hh.1).1.trans hid)]
      split
      · exact h
      · split_ifs
        · exact h
        · exact h
        · have hne : c ≠ ch.channelId := fun he => hc he.symm
          exact (row_updateFirst_ne (fun t => (takeOver_ends env t _).channelId)
            (fun t ht => of_decide_eq_true ht) hne).trans h

theorem handleTunnelingAck_tunnels {ch : ConnectionHeader}
    (hch : ConnectionHeader.parse frame.body = some ch) :
    (handleTunnelingAck env src frame tunnels).1 =
      updateFirst (fun t => fromData t src ch)
        (fun t => if t.expects ch.sequenceCounter then (t.advance env ch.sequenceCounter).1 else t)
        tunnels := by
  have hsame : (fun t : TunnelClient => decide (t.channelId = ch.channelId ∧ t.dataAddr = src)) =
      fun t => fromData t src ch := by
    funext t
    unfold fromData
    simp only [eq_comm]
  unfold handleTunnelingAck
  rw [hch]
  dsimp only
  rw [hsame]
  split
  · rename_i hnone
    exact (updateFirst_none hnone).symm
  · rename_i found hfound
    split_ifs with hexpects
    · refine updateFirst_congr hfound ?_
      rw [if_pos hexpects]
    · refine (updateFirst_id _).symm.trans (updateFirst_congr hfound ?_)
      rw [if_neg hexpects]

theorem handleTunnelingAck_row (distinct : (tunnels.map TunnelClient.channelId).Nodup)
    (h : tunnelOf c tunnels = some t) :
    tunnelOf c (handleTunnelingAck env src frame tunnels).1 =
      ((ackOp t src frame).run env t).1 := by
  rcases hch : ConnectionHeader.parse frame.body with _ | ch
  · unfold handleTunnelingAck ackOp
    rw [hch]
    exact h
  · rw [handleTunnelingAck_tunnels hch]
    refine row_update distinct ?_ (fun t ht => fromData_channel ht) h ?_
    · intro t
      split_ifs
      · exact advance_ends env t _
      · exact .refl t
    · unfold ackOp
      rw [hch]
      dsimp only
      by_cases hdata : fromData t src ch
      · rw [if_pos hdata]
        by_cases hexpects : t.expects ch.sequenceCounter
        · rw [if_pos ⟨hdata, hexpects⟩, if_pos hexpects]
          rfl
        · rw [if_neg fun hh => hexpects hh.2, if_neg hexpects]
          rfl
      · rw [if_neg hdata, if_neg fun hh => hdata hh.1]
        rfl

theorem handleConnect_cases (env : Env) (src : SocketAddr) (frame : KnxIpFrame)
    (tunnels : List TunnelClient) (next : UInt8) :
    ((handleConnect env src frame tunnels next).1 = tunnels ∧
        (handleConnect env src frame tunnels next).2.1 = next) ∨
      ∃ channelId ctrlAddr dataAddr, tunnels.length < maxTunnels ∧
        freeChannel tunnels 256 next = some channelId ∧
        (handleConnect env src frame tunnels next).1 =
          tunnels ++ [.new channelId ctrlAddr dataAddr env.now] ∧
        (handleConnect env src frame tunnels next).2.1 = nextId channelId := by
  unfold handleConnect
  by_cases hshort : frame.body.length < 20
  · rw [if_pos hshort]
    exact .inl ⟨rfl, rfl⟩
  · rw [if_neg hshort]
    split
    · dsimp only
      split_ifs with hmanagement hfull
      · exact .inl ⟨rfl, rfl⟩
      · exact .inl ⟨rfl, rfl⟩
      · rcases hfree : freeChannel tunnels 256 next with _ | channelId
        · exact .inl ⟨rfl, rfl⟩
        · exact .inr ⟨channelId, _, _, by omega, rfl, rfl, rfl⟩
    · exact .inl ⟨rfl, rfl⟩

theorem freeChannel_fresh {budget : Nat} {start channelId : UInt8}
    (h : freeChannel tunnels budget start = some channelId) :
    channelId ∉ tunnels.map TunnelClient.channelId := by
  induction budget generalizing start with
  | zero => cases h
  | succ budget ih =>
    unfold freeChannel at h
    split_ifs at h with hused
    · exact ih h
    · cases h
      intro hmem
      obtain ⟨t, ht, hid⟩ := List.mem_map.mp hmem
      exact hused (List.any_eq_true.mpr ⟨t, ht, decide_eq_true hid⟩)

theorem handleConnect_row {next : UInt8} (h : tunnelOf c tunnels = some t) :
    tunnelOf c (handleConnect env src frame tunnels next).1 = some t := by
  rcases handleConnect_cases env src frame tunnels next with ⟨hsame, _⟩ | ⟨_, _, _, _, _, hnew, _⟩
  · rw [hsame, h]
  · rw [hnew, tunnelOf, row_append, show row TunnelClient.channelId c tunnels = some t from h]
    rfl

theorem sendToTunnelClient_row {channelId : UInt8} {cemi : CemiFrame}
    (distinct : (tunnels.map TunnelClient.channelId).Nodup) (h : tunnelOf c tunnels = some t) :
    tunnelOf c (sendToTunnelClient env tunnels channelId cemi).1 =
      some (if t.channelId = channelId then (t.queue env (asIndication cemi)).1 else t) := by
  have h : row TunnelClient.channelId c tunnels = some t := h
  have hid := (row_some h).2
  unfold sendToTunnelClient
  split
  · rename_i hnone
    have hne : t.channelId ≠ channelId := by
      intro he
      exact row_none.mp hnone (he ▸ List.mem_map_of_mem (row_some h).1)
    rw [if_neg hne]
    exact h
  · have hrow := row_updateFirst (k := c)
      (f := fun t => (TunnelClient.queue env t (asIndication cemi)).1)
      (fun t => (queue_ends env t _).channelId)
      (fun t (ht : decide (t.channelId = channelId) = true) => of_decide_eq_true ht) distinct
    rw [tunnelOf, hrow, h, Option.map_some]
    simp only [decide_eq_true_eq]

/-! ## The retry timer -/

theorem dropLostTunnel_row {k : UInt8} {acc : List TunnelClient × List Datagram}
    (distinct : (acc.1.map TunnelClient.channelId).Nodup) :
    tunnelOf c (dropLostTunnel env k acc).1 = if c = k then none else tunnelOf c acc.1 := by
  unfold dropLostTunnel
  split
  · rename_i hnone
    split_ifs with hc
    · exact hc ▸ hnone
    · rfl
  · split_ifs with hc
    · exact hc ▸ row_eraseP_self distinct
    · exact row_eraseP_ne hc

theorem dropLostTunnel_sublist (env : Env) (k : UInt8) (acc : List TunnelClient × List Datagram) :
    (dropLostTunnel env k acc).1.Sublist acc.1 := by
  unfold dropLostTunnel
  split
  · exact .refl _
  · exact List.eraseP_sublist

theorem dropAll_row (lost : List UInt8) {acc : List TunnelClient × List Datagram}
    (distinct : (acc.1.map TunnelClient.channelId).Nodup) :
    tunnelOf c (lost.foldl (fun acc k => dropLostTunnel env k acc) acc).1 =
      if c ∈ lost then none else tunnelOf c acc.1 := by
  induction lost generalizing acc with
  | nil => rfl
  | cons k rest ih =>
    have hsub := (dropLostTunnel_sublist env k acc).map TunnelClient.channelId
    rw [List.foldl_cons, ih (distinct.sublist hsub), dropLostTunnel_row distinct]
    by_cases hrest : c ∈ rest
    · rw [if_pos hrest, if_pos (List.mem_cons_of_mem k hrest)]
    · rw [if_neg hrest]
      by_cases hk : c = k
      · rw [if_pos hk, if_pos (hk ▸ List.mem_cons_self)]
      · rw [if_neg hk, if_neg fun hmem => (List.mem_cons.mp hmem).elim hk hrest]

theorem dropAll_sublist (env : Env) (lost : List UInt8) (acc : List TunnelClient × List Datagram) :
    (lost.foldl (fun acc k => dropLostTunnel env k acc) acc).1.Sublist acc.1 := by
  induction lost generalizing acc with
  | nil => exact .refl _
  | cons k rest ih => exact (ih _).trans (dropLostTunnel_sublist env k acc)

theorem lost_dueOp : t.lost env ↔ dueOp env t = .remove := by
  unfold TunnelClient.lost dueOp
  rcases t.inFlight with _ | f
  · simp only [Bool.false_eq_true, reduceCtorEq]
  · by_cases hearly : env.now < f.deadline
    · simp [hearly]
    · by_cases hretry : f.attempts < maxRetries <;> simp [hearly, hretry]

theorem retransmit_dueOp (h : dueOp env t ≠ .remove) :
    ((dueOp env t).run env t).1 = some (t.retransmit env).1 := by
  unfold dueOp at h ⊢
  unfold TunnelClient.retransmit
  rcases hf : t.inFlight with _ | f
  · rfl
  · rw [hf] at h
    dsimp only at h ⊢
    by_cases hearly : env.now < f.deadline
    · rw [if_pos hearly, if_pos hearly]
      rfl
    · rw [if_neg hearly] at h ⊢
      rw [if_neg hearly]
      by_cases hretry : f.attempts < maxRetries
      · rw [if_pos hretry, if_pos hretry]
        rfl
      · exact absurd (if_neg hretry) h

theorem expireAcks_row (distinct : (tunnels.map TunnelClient.channelId).Nodup)
    (h : tunnelOf c tunnels = some t) :
    tunnelOf c (expireAcks env tunnels).1 = ((dueOp env t).run env t).1 := by
  have h : row TunnelClient.channelId c tunnels = some t := h
  have hids : (tunnels.map fun t => (t.retransmit env).1).map TunnelClient.channelId =
      tunnels.map TunnelClient.channelId := by
    rw [List.map_map]
    exact List.map_congr_left fun t _ => (retransmit_ends env t).channelId
  have hlost : c ∈ (tunnels.filter fun t => t.lost env).map TunnelClient.channelId ↔
      dueOp env t = .remove := by
    rw [← lost_dueOp]
    constructor
    · intro hmem
      obtain ⟨t', ht', hid'⟩ := List.mem_map.mp hmem
      obtain ⟨hmem', hlost'⟩ := List.mem_filter.mp ht'
      have hrow := row_of_mem distinct hmem'
      rw [hid', h] at hrow
      exact Option.some.inj hrow ▸ hlost'
    · intro hlost
      exact List.mem_map.mpr ⟨t, List.mem_filter.mpr ⟨(row_some h).1, hlost⟩, (row_some h).2⟩
  unfold expireAcks
  rw [dropAll_row _ (hids ▸ distinct), tunnelOf,
    row_map fun t => (retransmit_ends env t).channelId, h]
  by_cases hremove : dueOp env t = .remove
  · rw [if_pos (hlost.mpr hremove), hremove]
    rfl
  · rw [if_neg fun hmem => hremove (hlost.mp hmem), retransmit_dueOp hremove]
    rfl

end

/-! ## One step -/

/-- Whether the task takes this input now. -/
def reads (state : ServerState) : Input → Bool
  | .datagram _ _ => state.running && state.events.hasRoom
  | _ => state.running

section
variable {env : Env} {state : ServerState} {c : UInt8} {t : TunnelClient}

theorem reads_running {input : Input} (taken : reads state input) : state.running := by
  cases input with
  | datagram src data => exact (Bool.and_eq_true_iff.mp taken).1
  | _ => exact taken

theorem next_tunnels {input : Input} (running : state.running) :
    (state.next (env, input)).tunnels = (state.serve env input).1.tunnels := by
  unfold ServerState.next ServerState.step
  rw [if_pos running]

theorem handlePacket_row (distinct : (state.tunnels.map TunnelClient.channelId).Nodup)
    (h : tunnelOf c state.tunnels = some t) (src : SocketAddr) (data : List UInt8) :
    tunnelOf c (state.handlePacket env src data).1.tunnels =
      ((inputOp env t (.datagram src data)).run env t).1 := by
  rcases hparse : KnxIpFrame.parse data with e | frame
  · have hop : inputOp env t (.datagram src data) = .keep := by
      unfold inputOp
      simp only [hparse]
    rw [hop]
    unfold ServerState.handlePacket
    rw [hparse]
    exact h
  · have hop : inputOp env t (.datagram src data) = packetOp t src frame := by
      unfold inputOp
      simp only [hparse]
    rw [hop]
    unfold ServerState.handlePacket
    rw [hparse]
    dsimp only
    split
    · rename_i hs
      rw [packetOp, hs]
      exact h
    · rename_i hs
      rw [packetOp, hs]
      exact handleConnect_row h
    · rename_i hs
      exact handleHeartbeat_row distinct h hs
    · rename_i hs
      exact handleDisconnect_row distinct h hs
    · rename_i hs
      rw [packetOp, hs]
      exact handleTunnelingRequest_row distinct h
    · rename_i hs
      rw [packetOp, hs]
      exact handleTunnelingAck_row distinct h
    · rename_i hs
      rw [packetOp, hs]
      exact h
    · rename_i hs
      rw [packetOp, hs]
      exact h
    · rename_i hs
      rw [packetOp, hs]
      exact h
    · unfold packetOp
      split
      · contradiction
      · contradiction
      · contradiction
      · contradiction
      · exact h

/-- A step changes the tunnel of a channel by the operation of its input. -/
theorem step_row (distinct : (state.tunnels.map TunnelClient.channelId).Nodup)
    (h : tunnelOf c state.tunnels = some t) (input : Input) (taken : reads state input) :
    tunnelOf c (state.next (env, input)).tunnels = ((inputOp env t input).run env t).1 := by
  rw [next_tunnels (reads_running taken)]
  have h' : row TunnelClient.channelId c state.tunnels = some t := h
  cases input with
  | datagram src data =>
    unfold ServerState.serve
    dsimp only
    rw [if_pos (Bool.and_eq_true_iff.mp taken).2]
    exact handlePacket_row distinct h src data
  | sendFrame cemi =>
    change tunnelOf c (state.tunnels.map fun t => (t.queue env (asIndication cemi.val)).1) = _
    rw [tunnelOf, row_map fun t => (queue_ends env t _).channelId, h']
    rfl
  | sendToTunnel channelId cemi =>
    refine (sendToTunnelClient_row distinct h).trans ?_
    unfold inputOp
    dsimp only
    split_ifs <;> rfl
  | ackDue => exact expireAcks_row distinct h
  | cleanup =>
    change tunnelOf c (state.tunnels.filter fun t => t.alive env) = _
    rw [tunnelOf, row_filter distinct, h']
    unfold inputOp
    dsimp only
    split_ifs with halive
    · exact Option.filter_some_pos halive
    · exact Option.filter_some_neg (Bool.not_eq_true _ |>.mp halive)
  | stop => rfl
  | deliver => exact h
  | setDescription description => exact h
  | receive => exact h
  | dropReceiver => exact h

/-- An input that is not taken leaves the tunnels as they are and brings nothing out. -/
theorem step_unread {input : Input} (idle : reads state input = false) :
    (state.next (env, input)).tunnels = state.tunnels ∧ (state.step env input).2 = ⟨[], []⟩ := by
  unfold ServerState.next ServerState.step
  by_cases running : state.running
  · rw [if_pos running]
    cases input with
    | datagram src data =>
      have room : state.events.hasRoom = false := by
        unfold reads at idle
        rw [running] at idle
        exact idle
      dsimp only [ServerState.serve]
      rw [if_neg (by rw [room]; decide)]
      exact ⟨rfl, rfl⟩
    | _ => exact absurd running (Bool.not_eq_true _ |>.mpr idle)
  · rw [if_neg running]
    cases input <;> exact ⟨rfl, rfl⟩

theorem step_idle {input : Input} (idle : reads state input = false) :
    (state.next (env, input)).tunnels = state.tunnels := (step_unread idle).1

end

end KnxRs.TunnelSteps
