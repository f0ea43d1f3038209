import KnxRs.TunnelConnection
import KnxRs.TunnelRequests

set_option autoImplicit false

/-!
# What the client's handlers do

Incoming frames change only the receive counter and the application's channel, and
are answered by acknowledgements and disconnect responses. Only a disconnect request
closes the connection.
-/
namespace KnxRs.ConnectionSteps
open CoreTypes CemiCodec KnxIpCodec KnxIpNetwork BoundedChannel TunnelServer TunnelRequests
  TunnelConnection

def isConnected : Phase → Bool
  | .idle => true
  | .awaitingAck _ => true
  | .awaitingHeartbeat _ => true
  | _ => false

def isConnecting : Phase → Bool
  | .connecting _ _ _ => true
  | _ => false

/-- All but the receive counter and the application's channel is as before. -/
structure Keeps (task task' : TunnelTask) : Prop where
  config : task'.config = task.config
  phase : task'.phase = task.phase
  localAddr : task'.state.localAddr = task.state.localAddr
  channelId : task'.state.channelId = task.state.channelId
  sendSeq : task'.state.sendSeq = task.state.sendSeq
  heartbeatFailures : task'.state.heartbeatFailures = task.state.heartbeatFailures

def Quiet (sends : List Datagram) : Prop := ∀ d ∈ sends, requestOf d.octets = none

def closes (data : List UInt8) : Bool :=
  match KnxIpFrame.parse data with
  | .error _ => false
  | .ok frame => frame.serviceType = .disconnectRequest

section
variable {env : Env} {task : TunnelTask}

theorem Keeps.refl (task : TunnelTask) : Keeps task task := ⟨rfl, rfl, rfl, rfl, rfl, rfl⟩

theorem Keeps.trans {task' task'' : TunnelTask} (h : Keeps task task') (h' : Keeps task' task'') :
    Keeps task task'' :=
  ⟨h'.config.trans h.config, h'.phase.trans h.phase, h'.localAddr.trans h.localAddr,
    h'.channelId.trans h.channelId, h'.sendSeq.trans h.sendSeq,
    h'.heartbeatFailures.trans h.heartbeatFailures⟩

theorem Quiet.nil : Quiet [] := fun _ hd => absurd hd List.not_mem_nil

theorem Quiet.append {xs ys : List Datagram} (hx : Quiet xs) (hy : Quiet ys) : Quiet (xs ++ ys) := by
  intro d hd
  rcases List.mem_append.mp hd with hd | hd
  · exact hx d hd
  · exact hy d hd

theorem Quiet.send {frame : KnxIpFrame} (hs : frame.serviceType ≠ .tunnelingRequest)
    (dst : SocketAddr) : Quiet (env.send frame dst) := by
  intro d hd
  unfold requestOf
  rw [(Env.mem_send hd).2]
  dsimp only
  rw [if_neg hs]

theorem Quiet.requests {sends : List Datagram} (h : Quiet sends) (c : UInt8) :
    requests c sends = [] := by
  refine requests_none fun d hd => ?_
  unfold onChannel
  rw [h d hd]

theorem trySend_ok {frame : KnxIpFrame} {dst : SocketAddr} {d : Datagram}
    (h : trySend env frame dst = .ok d) :
    d.address = dst ∧ KnxIpFrame.parse d.octets = .ok frame := by
  unfold trySend at h
  rcases hbytes : frame.tryToBytes with e | octets
  · rw [hbytes] at h
    cases h
  · rw [hbytes] at h
    dsimp only at h
    split at h
    · cases h
    · cases h
      exact ⟨rfl, KnxIpFrame.parse_tryToBytes hbytes⟩

theorem Quiet.trySend {frame : KnxIpFrame} {dst : SocketAddr} {d : Datagram}
    (h : trySend env frame dst = .ok d) (hs : frame.serviceType ≠ .tunnelingRequest) :
    Quiet [d] := by
  intro d' hd
  rw [List.mem_singleton.mp hd]
  unfold requestOf
  rw [(trySend_ok h).2]
  dsimp only
  rw [if_neg hs]

/-! ## Incoming frames -/

theorem deliver_keeps (task : TunnelTask) (cemi : CemiFrame) : Keeps task (task.deliver cemi) := by
  unfold TunnelTask.deliver
  split_ifs <;> exact ⟨rfl, rfl, rfl, rfl, rfl, rfl⟩

theorem takeIn_keeps (task : TunnelTask) (cemiData : List UInt8) :
    Keeps task (task.takeIn cemiData) := by
  have hcounted : Keeps task { task with
      state := { task.state with recvSeq := task.state.recvSeq + 1 } } :=
    ⟨rfl, rfl, rfl, rfl, rfl, rfl⟩
  unfold TunnelTask.takeIn
  dsimp only
  split
  · exact hcounted
  · exact hcounted.trans (deliver_keeps _ _)

theorem handleTunnelingRequest_keeps (frame : KnxIpFrame) :
    Keeps task (task.handleTunnelingRequest env frame).1 := by
  unfold TunnelTask.handleTunnelingRequest
  split
  · exact .refl task
  · dsimp only
    split_ifs
    · exact .refl task
    · exact .refl task
    · exact takeIn_keeps task _

theorem handleTunnelingRequest_quiet (frame : KnxIpFrame) :
    Quiet (task.handleTunnelingRequest env frame).2 := by
  have hack (sequence : UInt8) : Quiet (env.send
      (.tunnelingAck task.state.channelId sequence eNoError) task.config.remote) := by
    refine Quiet.send ?_ _
    change ServiceType.tunnelingAck ≠ .tunnelingRequest
    decide
  unfold TunnelTask.handleTunnelingRequest
  split
  · exact .nil
  · dsimp only
    split_ifs
    · exact .nil
    · exact hack _
    · exact hack _

theorem handleIncoming_keeps (env : Env) (task : TunnelTask) (data : List UInt8) :
    Keeps task (task.handleIncoming env data).1 := by
  unfold TunnelTask.handleIncoming
  split
  · exact .refl task
  · split
    · exact handleTunnelingRequest_keeps _
    · exact .refl task
    · exact .refl task

theorem disconnectResponse_quiet (channelId : UInt8) (dst : SocketAddr) :
    Quiet (env.send ⟨.disconnectResponse, [channelId, eNoError]⟩ dst) := by
  refine Quiet.send ?_ _
  change ServiceType.disconnectResponse ≠ .tunnelingRequest
  decide

theorem handleIncoming_quiet (data : List UInt8) : Quiet (task.handleIncoming env data).2.1 := by
  unfold TunnelTask.handleIncoming
  split
  · exact .nil
  · split
    · exact handleTunnelingRequest_quiet _
    · exact disconnectResponse_quiet _ _
    · exact .nil

theorem handleIncoming_open (env : Env) (task : TunnelTask) (data : List UInt8) :
    (task.handleIncoming env data).2.2 = !closes data := by
  unfold TunnelTask.handleIncoming closes
  rcases KnxIpFrame.parse data with e | frame
  · rfl
  · dsimp only
    split
    · rename_i hs
      rw [hs]
      rfl
    · rename_i hs
      rw [hs]
      rfl
    · rename_i hs
      rw [decide_eq_false hs]
      rfl

theorem handleIncoming_closes {data : List UInt8} (env : Env) (task : TunnelTask) (h : closes data) :
    (task.handleIncoming env data).1 = task := by
  unfold closes at h
  unfold TunnelTask.handleIncoming
  rcases hparse : KnxIpFrame.parse data with e | frame
  · rfl
  · rw [hparse] at h
    dsimp only
    rw [of_decide_eq_true h]

theorem reprocess_keeps (buffered : List (List UInt8)) (task : TunnelTask) :
    Keeps task (TunnelTask.reprocess env buffered task).1 := by
  induction buffered generalizing task with
  | nil => exact .refl task
  | cons data rest ih =>
    have hfirst := handleIncoming_keeps env task data
    unfold TunnelTask.reprocess
    dsimp only
    split_ifs
    · exact hfirst.trans (ih _)
    · exact hfirst

theorem reprocess_quiet (buffered : List (List UInt8)) (task : TunnelTask) :
    Quiet (TunnelTask.reprocess env buffered task).2.1 := by
  induction buffered generalizing task with
  | nil => exact .nil
  | cons data rest ih =>
    unfold TunnelTask.reprocess
    dsimp only
    split_ifs
    · exact (handleIncoming_quiet data).append (ih _)
    · exact handleIncoming_quiet data

theorem reprocess_open (buffered : List (List UInt8)) (task : TunnelTask) :
    (TunnelTask.reprocess env buffered task).2.2 = !buffered.any closes := by
  induction buffered generalizing task with
  | nil => rfl
  | cons data rest ih =>
    have hopen := handleIncoming_open env task data
    unfold TunnelTask.reprocess
    dsimp only
    rw [List.any_cons]
    split_ifs with h
    · rw [h] at hopen
      rw [ih, ← Bool.not_not (closes data), ← hopen]
      rfl
    · rw [Bool.not_eq_true] at h
      rw [h] at hopen
      rw [h, ← Bool.not_not (closes data), ← hopen]
      rfl

/-! ## The end of a send -/

theorem finishSend_outcome (cemi : Cemi) (result : Except KnxIpError Unit) :
    (task.finishSend env cemi result).2 = ⟨[], [(cemi, result)]⟩ := by
  unfold TunnelTask.finishSend
  split
  · rfl
  · split_ifs <;> rfl

end
end KnxRs.ConnectionSteps
