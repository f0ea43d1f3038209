import KnxRs.ConnectionSteps

set_option autoImplicit false

/-!
# What the client takes from its channel

A connected client acknowledges every tunnelling request of its channel at once, in
each of its phases, and takes the frame of the next one in line. Nothing else moves its
receive counter or reaches the application.
-/
namespace KnxRs.ConnectionFrames
open CoreTypes CemiCodec KnxIpCodec KnxIpNetwork BoundedChannel TunnelServer TunnelRequests
  TunnelConnection ConnectionSteps

def frameOf (c : UInt8) (data : List UInt8) : Option (UInt8 × List UInt8) :=
  match requestOf (data.take recvBufSize) with
  | none => none
  | some (ch, cemi) => if ch.channelId = c then some (ch.sequenceCounter, cemi) else none

def ackOf (c : UInt8) (octets : List UInt8) : Option UInt8 :=
  match KnxIpFrame.parse octets with
  | .error _ => none
  | .ok frame =>
    if frame.serviceType = .tunnelingAck then
      match ConnectionHeader.parse frame.body with
      | none => none
      | some ch => if ch.channelId = c then some ch.sequenceCounter else none
    else none

/-- The request of its channel that the client takes in a step. -/
def taken (task : TunnelTask) : Event → Option (UInt8 × List UInt8)
  | .datagram data =>
    if !task.blocked && isConnected task.phase then frameOf task.state.channelId data else none
  | _ => none

/-- A send waits with its own request, and what it has put aside holds no tunnelling request. -/
def Sound (task : TunnelTask) : Prop :=
  ∀ attempt, task.phase = .awaitingAck attempt →
    (∀ data ∈ attempt.buffered, requestOf data = none) ∧
      (KnxIpFrame.tunnelingRequest task.state.channelId task.state.sendSeq
        attempt.cemi.val.data).tryToBytes = .ok attempt.request

def NoAcks (sends : List Datagram) : Prop := ∀ d ∈ sends, ∀ c, ackOf c d.octets = none

section
variable {env : Env} {task : TunnelTask}

theorem NoAcks.nil : NoAcks [] := fun _ hd => absurd hd List.not_mem_nil

theorem NoAcks.append {xs ys : List Datagram} (hx : NoAcks xs) (hy : NoAcks ys) :
    NoAcks (xs ++ ys) := by
  intro d hd
  rcases List.mem_append.mp hd with hd | hd
  · exact hx d hd
  · exact hy d hd

theorem ackOf_other {c : UInt8} {octets : List UInt8} {frame : KnxIpFrame}
    (h : KnxIpFrame.parse octets = .ok frame) (hs : frame.serviceType ≠ .tunnelingAck) :
    ackOf c octets = none := by
  unfold ackOf
  rw [h]
  dsimp only
  rw [if_neg hs]

theorem NoAcks.send {frame : KnxIpFrame} (hs : frame.serviceType ≠ .tunnelingAck)
    (dst : SocketAddr) : NoAcks (env.send frame dst) :=
  fun _ hd _ => ackOf_other (Env.mem_send hd).2 hs

theorem disconnectResponse_noAcks (channelId : UInt8) (dst : SocketAddr) :
    NoAcks (env.send ⟨.disconnectResponse, [channelId, eNoError]⟩ dst) := by
  refine NoAcks.send ?_ _
  change ServiceType.disconnectResponse ≠ .tunnelingAck
  decide

theorem NoAcks.trySend {frame : KnxIpFrame} {dst : SocketAddr} {d : Datagram}
    (h : trySend env frame dst = .ok d) (hs : frame.serviceType ≠ .tunnelingAck) :
    NoAcks [d] := by
  intro d' hd c
  rw [List.mem_singleton.mp hd]
  exact ackOf_other (trySend_ok h).2 hs

theorem ackOf_ack {c channelId sequence status : UInt8} {octets : List UInt8}
    (h : KnxIpFrame.parse octets = .ok (.tunnelingAck channelId sequence status)) :
    ackOf c octets = if channelId = c then some sequence else none := by
  unfold ackOf
  rw [h]
  dsimp only
  refine (if_pos rfl).trans ?_
  have hheader : ConnectionHeader.parse (KnxIpFrame.tunnelingAck channelId sequence status).body =
      some ⟨channelId, sequence, status⟩ := by
    change ConnectionHeader.parse (ConnectionHeader.toBytes ⟨channelId, sequence, status⟩) = _
    rw [← List.append_nil (ConnectionHeader.toBytes _), ConnectionHeader.parse_toBytes]
  rw [hheader]

/-! ## Handlers -/

theorem requestOf_some {data : List UInt8} {ch : ConnectionHeader} {cemi : List UInt8}
    (h : requestOf data = some (ch, cemi)) :
    ∃ frame, KnxIpFrame.parse data = .ok frame ∧ frame.serviceType = .tunnelingRequest ∧
      ConnectionHeader.parse frame.body = some ch ∧
      frame.body.drop ConnectionHeader.len = cemi := by
  unfold requestOf at h
  rcases hparse : KnxIpFrame.parse data with e | frame
  · rw [hparse] at h
    cases h
  · rw [hparse] at h
    dsimp only at h
    split_ifs at h with hs
    obtain ⟨ch', hch, heq⟩ := Option.map_eq_some_iff.mp h
    cases heq
    exact ⟨frame, rfl, hs, hch, rfl⟩

theorem frameOf_some {c sequence : UInt8} {data cemi : List UInt8}
    (h : frameOf c data = some (sequence, cemi)) :
    ∃ ch, requestOf (data.take recvBufSize) = some (ch, cemi) ∧ ch.channelId = c ∧
      ch.sequenceCounter = sequence := by
  unfold frameOf at h
  rcases hrequest : requestOf (data.take recvBufSize) with _ | ⟨ch, cemi'⟩
  · rw [hrequest] at h
    cases h
  · rw [hrequest] at h
    dsimp only at h
    split_ifs at h with hc
    cases h
    exact ⟨ch, rfl, hc, rfl⟩

def takes (env : Env) (task : TunnelTask) (sequence : UInt8) (cemi : List UInt8) :
    TunnelTask × Outcome :=
  (if sequence = task.state.recvSeq then task.takeIn cemi else task,
    ⟨env.send (.tunnelingAck task.state.channelId sequence eNoError) task.config.remote, []⟩)

theorem handleTunnelingRequest_takes {frame : KnxIpFrame} {ch : ConnectionHeader}
    (hch : ConnectionHeader.parse frame.body = some ch)
    (hc : ch.channelId = task.state.channelId) :
    ((task.handleTunnelingRequest env frame).1,
      (⟨(task.handleTunnelingRequest env frame).2, []⟩ : Outcome)) =
      takes env task ch.sequenceCounter (frame.body.drop ConnectionHeader.len) := by
  unfold TunnelTask.handleTunnelingRequest takes
  rw [hch]
  dsimp only
  rw [if_neg (not_not.mpr hc)]
  by_cases hseq : ch.sequenceCounter = task.state.recvSeq
  · rw [if_neg (not_not.mpr hseq), if_pos hseq]
  · rw [if_pos hseq, if_neg hseq]

theorem handleTunnelingRequest_other {data : List UInt8} {frame : KnxIpFrame}
    (hparse : KnxIpFrame.parse (data.take recvBufSize) = .ok frame)
    (hs : frame.serviceType = .tunnelingRequest)
    (h : frameOf task.state.channelId data = none) :
    task.handleTunnelingRequest env frame = (task, []) := by
  unfold frameOf requestOf at h
  rw [hparse] at h
  dsimp only at h
  rw [if_pos hs] at h
  unfold TunnelTask.handleTunnelingRequest
  rcases hch : ConnectionHeader.parse frame.body with _ | ch
  · rfl
  · rw [hch] at h
    dsimp only [Option.map_some] at h ⊢
    split_ifs at h with hc
    rw [if_pos hc]

theorem handleIncoming_takes {data : List UInt8} {sequence : UInt8} {cemi : List UInt8}
    (env : Env) (h : frameOf task.state.channelId data = some (sequence, cemi)) :
    ((task.handleIncoming env (data.take recvBufSize)).1,
      (⟨(task.handleIncoming env (data.take recvBufSize)).2.1, []⟩ : Outcome)) =
      takes env task sequence cemi ∧
    (task.handleIncoming env (data.take recvBufSize)).2.2 = true := by
  obtain ⟨ch, hrequest, hc, rfl⟩ := frameOf_some h
  obtain ⟨frame, hparse, hs, hch, rfl⟩ := requestOf_some hrequest
  unfold TunnelTask.handleIncoming
  rw [hparse]
  dsimp only
  rw [hs]
  exact ⟨handleTunnelingRequest_takes hch hc, rfl⟩

theorem handleIncoming_other {data : List UInt8} (env : Env)
    (h : frameOf task.state.channelId data = none) :
    (task.handleIncoming env (data.take recvBufSize)).1 = task ∧
      NoAcks (task.handleIncoming env (data.take recvBufSize)).2.1 := by
  unfold TunnelTask.handleIncoming
  rcases hparse : KnxIpFrame.parse (data.take recvBufSize) with e | frame
  · exact ⟨rfl, .nil⟩
  · dsimp only
    split
    · rename_i hs
      rw [handleTunnelingRequest_other hparse hs h]
      exact ⟨rfl, .nil⟩
    · exact ⟨rfl, disconnectResponse_noAcks _ _⟩
    · exact ⟨rfl, .nil⟩

theorem handleIncoming_aside {data : List UInt8} (h : requestOf data = none) (env : Env)
    (task : TunnelTask) :
    (task.handleIncoming env data).1 = task ∧ NoAcks (task.handleIncoming env data).2.1 := by
  unfold requestOf at h
  unfold TunnelTask.handleIncoming
  rcases hparse : KnxIpFrame.parse data with e | frame
  · exact ⟨rfl, .nil⟩
  · rw [hparse] at h
    dsimp only at h ⊢
    split
    · rename_i hs
      rw [if_pos hs] at h
      have hch := Option.map_eq_none_iff.mp h
      unfold TunnelTask.handleTunnelingRequest
      rw [hch]
      exact ⟨rfl, .nil⟩
    · exact ⟨rfl, disconnectResponse_noAcks _ _⟩
    · exact ⟨rfl, .nil⟩

theorem reprocess_aside {buffered : List (List UInt8)}
    (h : ∀ data ∈ buffered, requestOf data = none) (env : Env) (task : TunnelTask) :
    (TunnelTask.reprocess env buffered task).1 = task ∧
      NoAcks (TunnelTask.reprocess env buffered task).2.1 := by
  induction buffered with
  | nil => exact ⟨rfl, .nil⟩
  | cons data rest ih =>
    obtain ⟨hsame, hacks⟩ := handleIncoming_aside (h data List.mem_cons_self) env task
    obtain ⟨hrest, hmore⟩ := ih fun d hd => h d (List.mem_cons_of_mem data hd)
    unfold TunnelTask.reprocess
    dsimp only
    split_ifs
    · rw [hsame]
      exact ⟨hrest, hacks.append hmore⟩
    · exact ⟨hsame, hacks⟩

/-! ## One step -/

theorem step_act (unblocked : task.blocked = false) (data : List UInt8) :
    task.step env (.datagram data) = task.act env (.datagram data) := by
  change (if task.blocked then _ else _) = _
  rw [unblocked, if_neg Bool.false_ne_true]

/-- A request of its channel is taken in the same way in every phase of a connection. -/
theorem step_takes (env : Env) {event : Event} {sequence : UInt8} {cemi : List UInt8}
    (h : taken task event = some (sequence, cemi)) :
    task.step env event = takes env task sequence cemi := by
  cases event with
  | datagram data =>
    unfold taken at h
    dsimp only at h
    split_ifs at h with hready
    obtain ⟨unblocked, connected⟩ := Bool.and_eq_true_iff.mp hready
    rw [step_act (Bool.not_eq_true' _ |>.mp unblocked)]
    obtain ⟨htakes, hopen⟩ := handleIncoming_takes env h
    unfold TunnelTask.act
    rcases hphase : task.phase with _ | _ | attempt | deadline | _ | _ | _
    · rw [hphase] at connected
      cases connected
    · dsimp only
      unfold TunnelTask.whileIdle
      dsimp only
      rw [hopen]
      exact htakes
    · dsimp only
      unfold TunnelTask.whileAwaitingAck TunnelTask.ackReceived
      obtain ⟨ch, hrequest, hc, rfl⟩ := frameOf_some h
      obtain ⟨frame, hparse, hs, hch, rfl⟩ := requestOf_some hrequest
      have hstatus : task.awaitedStatus frame = none := by
        unfold TunnelTask.awaitedStatus
        rw [hs]
        rfl
      dsimp only
      rw [hparse]
      dsimp only
      rw [hstatus]
      dsimp only
      rw [if_pos hs]
      exact handleTunnelingRequest_takes hch hc
    · dsimp only
      unfold TunnelTask.whileAwaitingHeartbeat TunnelTask.heartbeatReceived
      obtain ⟨ch, hrequest, hc, rfl⟩ := frameOf_some h
      obtain ⟨frame, hparse, hs, hch, rfl⟩ := requestOf_some hrequest
      have hstatus : task.heartbeatStatus frame = none := by
        unfold TunnelTask.heartbeatStatus
        rw [hs]
        rfl
      dsimp only
      rw [hparse]
      dsimp only
      rw [hstatus]
      dsimp only
      rw [hopen]
      exact htakes
    · rw [hphase] at connected
      cases connected
    · rw [hphase] at connected
      cases connected
    · rw [hphase] at connected
      cases connected
  | _ => cases h

/-- The client's channel, its receive counter and the application's frames are as before. -/
structure Goes (task task' : TunnelTask) : Prop where
  rx : task'.rx = task.rx
  channelId : task'.state.channelId = task.state.channelId
  recvSeq : task'.state.recvSeq = task.state.recvSeq
  connecting : isConnecting task'.phase = false
  sound : Sound task'

theorem sound_of_idle (h : task.phase = .idle) : Sound task := by
  intro attempt hphase
  rw [h] at hphase
  cases hphase

theorem tryReconnect_goes (env : Env) (task : TunnelTask) : Goes task (task.tryReconnect env) := by
  unfold TunnelTask.tryReconnect
  split_ifs
  · exact ⟨rfl, rfl, rfl, rfl, fun _ h => by cases h⟩
  · exact ⟨rfl, rfl, rfl, rfl, fun _ h => by cases h⟩

theorem finishSend_goes (env : Env) (task : TunnelTask) (cemi : Cemi)
    (result : Except KnxIpError Unit) : Goes task (task.finishSend env cemi result).1 := by
  unfold TunnelTask.finishSend
  split
  · exact ⟨rfl, rfl, rfl, rfl, sound_of_idle rfl⟩
  · split_ifs
    · exact tryReconnect_goes env task
    · exact ⟨rfl, rfl, rfl, rfl, sound_of_idle rfl⟩

theorem finishSend_noAcks (cemi : Cemi) (result : Except KnxIpError Unit) :
    NoAcks (task.finishSend env cemi result).2.sends := by
  rw [finishSend_outcome]
  exact .nil

theorem heartbeatFailed_goes (env : Env) (task : TunnelTask) :
    Goes task (task.heartbeatFailed env) := by
  unfold TunnelTask.heartbeatFailed
  dsimp only
  split_ifs
  · obtain ⟨hrx, hchannel, hseq, hconnecting, hsound⟩ := tryReconnect_goes env { task with
      state := { task.state with heartbeatFailures := task.state.heartbeatFailures + 1 } }
    exact ⟨hrx, hchannel, hseq, hconnecting, hsound⟩
  · exact ⟨rfl, rfl, rfl, rfl, sound_of_idle rfl⟩

theorem acks_of_request {channelId sequence : UInt8} {cemi octets : List UInt8} {dst : SocketAddr}
    (h : (KnxIpFrame.tunnelingRequest channelId sequence cemi).tryToBytes = .ok octets) :
    NoAcks [⟨dst, octets⟩] := by
  intro d hd c
  rw [List.mem_singleton.mp hd]
  refine ackOf_other (KnxIpFrame.parse_tryToBytes h) ?_
  change ServiceType.tunnelingRequest ≠ .tunnelingAck
  decide

theorem transmit_goes {attempt : Attempt} (env : Env)
    (h : (KnxIpFrame.tunnelingRequest task.state.channelId task.state.sendSeq
      attempt.cemi.val.data).tryToBytes = .ok attempt.request) :
    Goes task (task.transmit env attempt).1 ∧ NoAcks (task.transmit env attempt).2.sends := by
  unfold TunnelTask.transmit
  split
  · exact ⟨finishSend_goes env task _ _, finishSend_noAcks _ _⟩
  · refine ⟨⟨rfl, rfl, rfl, rfl, fun waiting hphase => ?_⟩, acks_of_request h⟩
    cases hphase
    exact ⟨fun data hdata => absurd hdata List.not_mem_nil, h⟩

theorem sendWithRetry_goes (env : Env) (task : TunnelTask) (cemi : Cemi) :
    Goes task (task.sendWithRetry env cemi).1 ∧ NoAcks (task.sendWithRetry env cemi).2.sends := by
  unfold TunnelTask.sendWithRetry
  split
  · exact ⟨finishSend_goes env task _ _, finishSend_noAcks _ _⟩
  · rename_i hrequest
    exact transmit_goes env hrequest

theorem sendHeartbeat_goes (env : Env) (task : TunnelTask) :
    Goes task (task.sendHeartbeat env).1 ∧ NoAcks (task.sendHeartbeat env).2.sends := by
  unfold TunnelTask.sendHeartbeat
  split
  · exact ⟨heartbeatFailed_goes env task, .nil⟩
  · rename_i hsend
    refine ⟨⟨rfl, rfl, rfl, rfl, fun _ h => by cases h⟩, NoAcks.trySend hsend ?_⟩
    change ServiceType.connectionStateRequest ≠ .tunnelingAck
    decide

theorem sendDisconnect_noAcks (env : Env) (task : TunnelTask) :
    NoAcks (task.sendDisconnect env) := by
  unfold TunnelTask.sendDisconnect
  refine NoAcks.send ?_ _
  change ServiceType.disconnectRequest ≠ .tunnelingAck
  decide

theorem Goes.same (connecting : isConnecting task.phase = false) (sound : Sound task) :
    Goes task task :=
  ⟨rfl, rfl, rfl, connecting, sound⟩

theorem idle_goes {event : Event} (env : Env) (hphase : task.phase = .idle)
    (h : taken task event = none) (unblocked : task.blocked = false) :
    Goes task (task.whileIdle env event).1 ∧ NoAcks (task.whileIdle env event).2.sends := by
  have same : Goes task task := by
    refine .same ?_ (sound_of_idle hphase)
    rw [hphase]
    rfl
  cases event with
  | datagram data =>
    have hframe : frameOf task.state.channelId data = none := by
      unfold taken at h
      rw [unblocked, hphase] at h
      exact h
    obtain ⟨hsame, hacks⟩ := handleIncoming_other env hframe
    unfold TunnelTask.whileIdle
    dsimp only
    rw [hsame]
    refine ⟨?_, hacks⟩
    split_ifs
    · exact same
    · exact tryReconnect_goes env task
  | receiveError => exact ⟨tryReconnect_goes env task, .nil⟩
  | send cemi => exact sendWithRetry_goes env task cemi
  | close =>
    exact ⟨⟨rfl, rfl, rfl, rfl, fun _ h => by cases h⟩, sendDisconnect_noAcks env task⟩
  | heartbeat => exact sendHeartbeat_goes env task
  | elapsed => exact ⟨same, .nil⟩
  | receive => exact ⟨same, .nil⟩
  | dropReceiver => exact ⟨same, .nil⟩

theorem acknowledged_goes {attempt : Attempt} (env : Env) (task : TunnelTask)
    (aside : ∀ data ∈ attempt.buffered, requestOf data = none) :
    Goes task (task.acknowledged env attempt).1 ∧
      NoAcks (task.acknowledged env attempt).2.sends := by
  obtain ⟨hsame, hacks⟩ := reprocess_aside aside env
    { task with state := { task.state with sendSeq := task.state.sendSeq + 1 } }
  unfold TunnelTask.acknowledged
  dsimp only
  rw [hsame, finishSend_outcome, List.append_nil]
  obtain ⟨hrx, hchannel, hseq, hconnecting, hsound⟩ := finishSend_goes env
    { task with state := { task.state with sendSeq := task.state.sendSeq + 1 } } attempt.cemi
    (if (TunnelTask.reprocess env attempt.buffered
      { task with state := { task.state with sendSeq := task.state.sendSeq + 1 } }).2.2 then
        .ok () else .error .closed)
  exact ⟨⟨hrx, hchannel, hseq, hconnecting, hsound⟩, hacks⟩

theorem ack_goes {attempt : Attempt} {event : Event} (env : Env)
    (hphase : task.phase = .awaitingAck attempt) (sound : Sound task)
    (h : taken task event = none) (unblocked : task.blocked = false) :
    Goes task (task.whileAwaitingAck env attempt event).1 ∧
      NoAcks (task.whileAwaitingAck env attempt event).2.sends := by
  obtain ⟨aside, hrequest⟩ := sound attempt hphase
  have same : Goes task task := by
    refine .same ?_ sound
    rw [hphase]
    rfl
  cases event with
  | datagram data =>
    have hframe : frameOf task.state.channelId data = none := by
      unfold taken at h
      rw [unblocked, hphase] at h
      exact h
    unfold TunnelTask.whileAwaitingAck TunnelTask.ackReceived
    dsimp only
    rcases hparse : KnxIpFrame.parse (data.take recvBufSize) with e | resp
    · exact ⟨same, .nil⟩
    · dsimp only
      split
      · split_ifs
        · exact ⟨finishSend_goes env task _ _, finishSend_noAcks _ _⟩
        · exact acknowledged_goes env task aside
      · split_ifs with hs
        · rw [handleTunnelingRequest_other hparse hs hframe]
          exact ⟨same, .nil⟩
        · refine ⟨⟨rfl, rfl, rfl, rfl, fun waiting hwaiting => ?_⟩, .nil⟩
          cases hwaiting
          refine ⟨fun d hd => ?_, hrequest⟩
          rcases List.mem_append.mp hd with hd | hd
          · exact aside d hd
          · rw [List.mem_singleton.mp hd]
            unfold requestOf
            rw [hparse]
            dsimp only
            rw [if_neg hs]
  | receiveError => exact ⟨finishSend_goes env task _ _, finishSend_noAcks _ _⟩
  | elapsed =>
    unfold TunnelTask.whileAwaitingAck
    dsimp only
    split_ifs
    · exact ⟨same, .nil⟩
    · unfold TunnelTask.ackTimeout
      split_ifs
      · exact transmit_goes env hrequest
      · exact ⟨finishSend_goes env task _ _, finishSend_noAcks _ _⟩
  | send cemi => exact ⟨same, .nil⟩
  | close => exact ⟨same, .nil⟩
  | heartbeat => exact ⟨same, .nil⟩
  | receive => exact ⟨same, .nil⟩
  | dropReceiver => exact ⟨same, .nil⟩

theorem heartbeat_goes {deadline : Nat} {event : Event} (env : Env)
    (hphase : task.phase = .awaitingHeartbeat deadline) (h : taken task event = none)
    (unblocked : task.blocked = false) :
    Goes task (task.whileAwaitingHeartbeat env deadline event).1 ∧
      NoAcks (task.whileAwaitingHeartbeat env deadline event).2.sends := by
  have same : Goes task task := by
    refine .same ?_ fun attempt hattempt => ?_
    · rw [hphase]
      rfl
    · rw [hphase] at hattempt
      cases hattempt
  cases event with
  | datagram data =>
    have hframe : frameOf task.state.channelId data = none := by
      unfold taken at h
      rw [unblocked, hphase] at h
      exact h
    obtain ⟨hsame, hacks⟩ := handleIncoming_other env hframe
    unfold TunnelTask.whileAwaitingHeartbeat TunnelTask.heartbeatReceived
    dsimp only
    split
    · exact ⟨same, .nil⟩
    · split
      · split_ifs
        · exact ⟨heartbeatFailed_goes env task, .nil⟩
        · exact ⟨⟨rfl, rfl, rfl, rfl, sound_of_idle rfl⟩, .nil⟩
      · rw [hsame]
        refine ⟨?_, hacks⟩
        split_ifs
        · exact same
        · exact heartbeatFailed_goes env task
  | receiveError => exact ⟨heartbeatFailed_goes env task, .nil⟩
  | elapsed =>
    unfold TunnelTask.whileAwaitingHeartbeat
    dsimp only
    split_ifs
    · exact ⟨same, .nil⟩
    · exact ⟨heartbeatFailed_goes env task, .nil⟩
  | send cemi => exact ⟨same, .nil⟩
  | close => exact ⟨same, .nil⟩
  | heartbeat => exact ⟨same, .nil⟩
  | receive => exact ⟨same, .nil⟩
  | dropReceiver => exact ⟨same, .nil⟩

/-- The client opens a new socket. -/
def reopens (task : TunnelTask) : Event → Bool
  | .elapsed | .send _ =>
    match task.phase with
    | .reconnecting _ _ => true
    | _ => false
  | _ => false

/-- A step in which the client takes no request, on a connection, off it, or onto it. -/
inductive Moves (task task' : TunnelTask) : Prop where
  | on (connected : isConnected task.phase) (goes : Goes task task')
  | off (before : isConnected task.phase = false) (after : isConnected task'.phase = false)
      (state : task'.state = task.state) (rx : task'.rx = task.rx)
      (connecting : isConnecting task'.phase → isConnecting task.phase)
  | joins (connecting : isConnecting task.phase) (phase : task'.phase = .idle)
      (rx : task'.rx = task.rx) (recvSeq : task'.state.recvSeq = 0)

theorem establishFailed_off (env : Env) (task : TunnelTask) (retry : Option Nat)
    (error : KnxIpError) :
    isConnected (task.establishFailed env retry error).phase = false ∧
      isConnecting (task.establishFailed env retry error).phase = false ∧
      (task.establishFailed env retry error).state = task.state ∧
      (task.establishFailed env retry error).rx = task.rx := by
  cases retry with
  | none => exact ⟨rfl, rfl, rfl, rfl⟩
  | some delay => exact ⟨rfl, rfl, rfl, rfl⟩

theorem connecting_moves {localAddr : SocketAddr} {retry : Option Nat} {deadline : Nat}
    (env : Env) (event : Event) (hphase : task.phase = .connecting localAddr retry deadline) :
    Moves task (task.whileConnecting env localAddr retry deadline event).1 ∧
      (task.whileConnecting env localAddr retry deadline event).2 = .none := by
  have off : isConnected task.phase = false := by
    rw [hphase]
    rfl
  have connecting : isConnecting task.phase := by
    rw [hphase]
    rfl
  have failed (error : KnxIpError) : Moves task (task.establishFailed env retry error) := by
    obtain ⟨hoff, hconnecting, hstate, hrx⟩ := establishFailed_off env task retry error
    exact .off off hoff hstate hrx fun _ => connecting
  have same : Moves task task := .off off off rfl rfl id
  cases event with
  | datagram data =>
    unfold TunnelTask.whileConnecting
    dsimp only
    split
    · exact ⟨failed _, rfl⟩
    · exact ⟨.joins connecting rfl rfl rfl, rfl⟩
  | receiveError => exact ⟨failed _, rfl⟩
  | elapsed =>
    unfold TunnelTask.whileConnecting
    dsimp only
    split_ifs
    · exact ⟨same, rfl⟩
    · exact ⟨failed _, rfl⟩
  | send cemi => exact ⟨same, rfl⟩
  | close => exact ⟨same, rfl⟩
  | heartbeat => exact ⟨same, rfl⟩
  | receive => exact ⟨same, rfl⟩
  | dropReceiver => exact ⟨same, rfl⟩

theorem reconnecting_moves {delay wakeUp : Nat} {event : Event} (env : Env)
    (hphase : task.phase = .reconnecting delay wakeUp) (stays : reopens task event = false) :
    Moves task (task.whileReconnecting env delay wakeUp event).1 ∧
      (task.whileReconnecting env delay wakeUp event).2.sends = [] := by
  have off : isConnected task.phase = false := by
    rw [hphase]
    rfl
  have same : Moves task task := .off off off rfl rfl id
  cases event with
  | elapsed =>
    unfold reopens at stays
    rw [hphase] at stays
    cases stays
  | send cemi =>
    unfold reopens at stays
    rw [hphase] at stays
    cases stays
  | close => exact ⟨.off off rfl rfl rfl (fun h => by cases h), rfl⟩
  | _ => exact ⟨same, rfl⟩

theorem over_moves (event : Event) (off : isConnected task.phase = false) :
    Moves task (task.whenOver event).1 ∧ (task.whenOver event).2.sends = [] := by
  have same : Moves task task := .off off off rfl rfl id
  cases event with
  | _ => exact ⟨same, rfl⟩

theorem act_moves {event : Event} (env : Env) (sound : Sound task)
    (h : taken task event = none) (unblocked : task.blocked = false)
    (stays : reopens task event = false) :
    Moves task (task.act env event).1 ∧ NoAcks (task.act env event).2.sends := by
  unfold TunnelTask.act
  rcases hphase : task.phase with _ | _ | attempt | deadline | _ | _ | _
  · obtain ⟨moves, hout⟩ := connecting_moves env event hphase
    refine ⟨moves, ?_⟩
    dsimp only
    rw [hout]
    exact .nil
  · obtain ⟨goes, hacks⟩ := idle_goes env hphase h unblocked
    exact ⟨.on (by rw [hphase]; rfl) goes, hacks⟩
  · obtain ⟨goes, hacks⟩ := ack_goes env hphase sound h unblocked
    exact ⟨.on (by rw [hphase]; rfl) goes, hacks⟩
  · obtain ⟨goes, hacks⟩ := heartbeat_goes env hphase h unblocked
    exact ⟨.on (by rw [hphase]; rfl) goes, hacks⟩
  · obtain ⟨moves, hout⟩ := reconnecting_moves env hphase stays
    refine ⟨moves, ?_⟩
    dsimp only
    rw [hout]
    exact .nil
  · obtain ⟨moves, hout⟩ := over_moves event (show isConnected task.phase = false by rw [hphase]; rfl)
    refine ⟨moves, ?_⟩
    dsimp only
    rw [hout]
    exact .nil
  · obtain ⟨moves, hout⟩ := over_moves event (show isConnected task.phase = false by rw [hphase]; rfl)
    refine ⟨moves, ?_⟩
    dsimp only
    rw [hout]
    exact .nil

end
end KnxRs.ConnectionFrames
