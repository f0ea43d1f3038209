import KnxRs.SendExchange

set_option autoImplicit false

/-!
# What a step does to a send

A step of the client leaves its connection and its send as they are, puts a request of
the send on the wire, gives a new send up at once, ends one by its acknowledgement, or
takes up a new connection.
-/
namespace KnxRs.SendSteps
open CoreTypes CemiCodec KnxIpCodec KnxIpNetwork ServerEvents TunnelServer TunnelSteps TunnelRequests
  TunnelConnection ConnectionSteps ConnectionFrames TunnelLink SendExchange

/-! ## The client -/

/-- The numbers of the connection are as before, and nothing new is awaited. -/
structure Stays (env : Env) (task task' : TunnelTask) : Prop where
  channelId : task'.state.channelId = task.state.channelId
  sendSeq : task'.state.sendSeq = task.state.sendSeq
  localAddr : task'.state.localAddr = task.state.localAddr
  connected : isConnected task'.phase → isConnected task.phase
  opens : isConnecting task'.phase →
    task'.phase = task.phase ∨ env.localAddr = some (socketOf task')
  awaits : ∀ attempt', task'.phase = .awaitingAck attempt' → ∃ attempt,
    task.phase = .awaitingAck attempt ∧ attempt'.cemi = attempt.cemi ∧
      attempt'.request = attempt.request

def Asks (task : TunnelTask) : Prop :=
  ∀ attempt, task.phase = .awaitingAck attempt →
    (KnxIpFrame.tunnelingRequest task.state.channelId task.state.sendSeq
      attempt.cemi.val.data).tryToBytes = .ok attempt.request

def Sends (task : TunnelTask) (event : Event) (cemi : Cemi) : Prop :=
  begins task event = some cemi ∨
    (begins task event = none ∧ ∃ attempt, task.phase = .awaitingAck attempt ∧ attempt.cemi = cemi)

inductive Acts (env : Env) (task : TunnelTask) (event : Event) (task' : TunnelTask)
    (outcome : Outcome) : Prop where
  | stays (stays : Stays env task task') (begun : begins task event = none)
      (quiet : Quiet outcome.sends) (none : successes outcome.replies = [])
  | requests (cemi : Cemi) (request : List UInt8) (attempt : Attempt)
      (sends : Sends task event cemi) (connected : isConnected task.phase)
      (octets : (KnxIpFrame.tunnelingRequest task.state.channelId task.state.sendSeq
        cemi.val.data).tryToBytes = .ok request)
      (state : task'.state = task.state) (phase : task'.phase = .awaitingAck attempt)
      (same : attempt.cemi = cemi ∧ attempt.request = request)
      (sent : outcome = ⟨[⟨task.config.remote, request⟩], []⟩)
  | fails (cemi : Cemi) (stays : Stays env task task') (begun : begins task event = some cemi)
      (quiet : Quiet outcome.sends) (none : successes outcome.replies = [])
      (ends : ∀ attempt, task'.phase ≠ .awaitingAck attempt)
  | confirmed (attempt : Attempt) (data : List UInt8) (waits : task.phase = .awaitingAck attempt)
      (hevent : event = .datagram data) (positive : confirms task data)
      (channelId : task'.state.channelId = task.state.channelId)
      (sendSeq : task'.state.sendSeq = task.state.sendSeq + 1)
      (localAddr : task'.state.localAddr = task.state.localAddr)
      (ends : ∀ attempt, task'.phase ≠ .awaitingAck attempt)
      (connecting : isConnecting task'.phase = false) (quiet : Quiet outcome.sends)
      (replies : successes outcome.replies = [] ∨ successes outcome.replies = [attempt.cemi])
  | joins (channelId : UInt8) (data : List UInt8) (hevent : event = .datagram data)
      (takes : takesUp task data = some channelId) (connecting : isConnecting task.phase)
      (state : task'.state = ⟨socketOf task, channelId, 0, 0, 0⟩) (phase : task'.phase = .idle)
      (nothing : outcome = .none)

section
variable {env : Env} {task task' : TunnelTask}

theorem Stays.keeps (env : Env) (h : Keeps task task') : Stays env task task' where
  channelId := h.channelId
  sendSeq := h.sendSeq
  localAddr := h.localAddr
  connected := fun hc => h.phase ▸ hc
  opens := fun _ => .inl h.phase
  awaits := fun attempt hphase => ⟨attempt, h.phase ▸ hphase, rfl, rfl⟩

theorem Stays.refl (env : Env) (task : TunnelTask) : Stays env task task := .keeps env (.refl task)

theorem Stays.idle (env : Env) (connected : isConnected task.phase)
    (state : task'.state.channelId = task.state.channelId ∧
      task'.state.sendSeq = task.state.sendSeq ∧ task'.state.localAddr = task.state.localAddr)
    (phase : task'.phase = .idle) : Stays env task task' where
  channelId := state.1
  sendSeq := state.2.1
  localAddr := state.2.2
  connected := fun _ => connected
  opens := fun hc => by
    rw [phase] at hc
    cases hc
  awaits := fun attempt hphase => by
    rw [phase] at hphase
    cases hphase

theorem Stays.away (env : Env)
    (state : task'.state.channelId = task.state.channelId ∧
      task'.state.sendSeq = task.state.sendSeq ∧ task'.state.localAddr = task.state.localAddr)
    (off : isConnected task'.phase = false) (closed : isConnecting task'.phase = false) :
    Stays env task task' where
  channelId := state.1
  sendSeq := state.2.1
  localAddr := state.2.2
  connected := fun hc => by
    rw [off] at hc
    cases hc
  opens := fun hc => by
    rw [closed] at hc
    cases hc
  awaits := fun attempt hphase => by
    rw [hphase] at off
    cases off

theorem tryReconnect_stays (env : Env) (task : TunnelTask) :
    Stays env task (task.tryReconnect env) := by
  unfold TunnelTask.tryReconnect
  split_ifs
  · exact .away env ⟨rfl, rfl, rfl⟩ rfl rfl
  · exact .away env ⟨rfl, rfl, rfl⟩ rfl rfl

theorem finishSend_stays (env : Env) (connected : isConnected task.phase) (cemi : Cemi)
    (result : Except KnxIpError Unit) : Stays env task (task.finishSend env cemi result).1 := by
  unfold TunnelTask.finishSend
  split
  · exact .idle env connected ⟨rfl, rfl, rfl⟩ rfl
  · split_ifs
    · exact tryReconnect_stays env task
    · exact .idle env connected ⟨rfl, rfl, rfl⟩ rfl

theorem tryReconnect_over (env : Env) (task : TunnelTask) :
    (∀ attempt, (task.tryReconnect env).phase ≠ .awaitingAck attempt) ∧
      isConnecting (task.tryReconnect env).phase = false := by
  unfold TunnelTask.tryReconnect
  split_ifs
  · exact ⟨fun _ h => Phase.noConfusion h, rfl⟩
  · exact ⟨fun _ h => Phase.noConfusion h, rfl⟩

theorem finishSend_over (env : Env) (task : TunnelTask) (cemi : Cemi)
    (result : Except KnxIpError Unit) :
    (∀ attempt, (task.finishSend env cemi result).1.phase ≠ .awaitingAck attempt) ∧
      isConnecting (task.finishSend env cemi result).1.phase = false := by
  unfold TunnelTask.finishSend
  split
  · exact ⟨fun _ h => Phase.noConfusion h, rfl⟩
  · split_ifs
    · exact tryReconnect_over env task
    · exact ⟨fun _ h => Phase.noConfusion h, rfl⟩

theorem heartbeatFailed_stays (env : Env) (connected : isConnected task.phase) :
    Stays env task (task.heartbeatFailed env) := by
  unfold TunnelTask.heartbeatFailed
  dsimp only
  split_ifs
  · obtain ⟨hchannel, hseq, haddr, hconnected, hopens, hawaits⟩ := tryReconnect_stays env { task with
      state := { task.state with heartbeatFailures := task.state.heartbeatFailures + 1 } }
    exact ⟨hchannel, hseq, haddr, hconnected, hopens, hawaits⟩
  · exact .idle env connected ⟨rfl, rfl, rfl⟩ rfl

theorem establishFailed_stays (env : Env) (task : TunnelTask) (retry : Option Nat)
    (error : KnxIpError) : Stays env task (task.establishFailed env retry error) := by
  cases retry with
  | none => exact .away env ⟨rfl, rfl, rfl⟩ rfl rfl
  | some delay => exact .away env ⟨rfl, rfl, rfl⟩ rfl rfl

theorem Stays.after (keeps : Keeps task task') {task'' : TunnelTask}
    (h : Stays env task' task'') : Stays env task task'' where
  channelId := h.channelId.trans keeps.channelId
  sendSeq := h.sendSeq.trans keeps.sendSeq
  localAddr := h.localAddr.trans keeps.localAddr
  connected := fun hc => keeps.phase ▸ h.connected hc
  opens := fun hc => keeps.phase ▸ h.opens hc
  awaits := fun attempt hphase => keeps.phase ▸ h.awaits attempt hphase

theorem establish_stays (env : Env) (task : TunnelTask) (retry : Option Nat) :
    Stays env task (task.establish env retry).1 ∧ Quiet (task.establish env retry).2.sends ∧
      (task.establish env retry).2.replies = [] := by
  unfold TunnelTask.establish
  rcases haddr : env.localAddr with _ | localAddr
  · exact ⟨establishFailed_stays env task retry _, .nil, rfl⟩
  · dsimp only
    rcases hsend : trySend env (.connectRequest (buildHpai localAddr) (buildHpai localAddr) tunnelCri)
        task.config.remote with e | request
    · exact ⟨establishFailed_stays env task retry _, .nil, rfl⟩
    · refine ⟨⟨rfl, rfl, rfl, fun h => ?_, fun _ => .inr haddr, fun _ h => ?_⟩, ?_, rfl⟩
      · cases h
      · cases h
      · refine Quiet.trySend hsend ?_
        change ServiceType.connectRequest ≠ .tunnelingRequest
        decide

/-! ## One phase -/

theorem successes_error (cemi : Cemi) (error : KnxIpError) : successes [(cemi, .error error)] = [] :=
  rfl

theorem begins_datagram (task : TunnelTask) (data : List UInt8) :
    begins task (.datagram data) = none := rfl

theorem connecting_acts {localAddr : SocketAddr} {retry : Option Nat} {deadline : Nat}
    (event : Event) (hphase : task.phase = .connecting localAddr retry deadline)
    (unblocked : task.blocked = false) :
    Acts env task event (task.whileConnecting env localAddr retry deadline event).1
      (task.whileConnecting env localAddr retry deadline event).2 := by
  have begun : begins task event = none := by
    unfold begins
    rw [hphase]
    cases event <;> rfl
  have same : Acts env task event task .none := .stays (.refl env task) begun .nil rfl
  have failed (error : KnxIpError) :
      Acts env task event (task.establishFailed env retry error) .none :=
    .stays (establishFailed_stays env task retry error) begun .nil rfl
  cases event with
  | datagram data =>
    unfold TunnelTask.whileConnecting
    dsimp only
    rcases hgranted : grantedChannel (data.take recvBufSize) with e | channelId
    · exact failed e
    · refine .joins channelId data rfl ?_ ?_ ?_ rfl rfl
      · unfold takesUp
        rw [hphase, hgranted]
        dsimp only
        rw [unblocked]
        rfl
      · rw [hphase]
        rfl
      · unfold socketOf
        rw [hphase]
        rfl
  | receiveError => exact failed _
  | elapsed =>
    unfold TunnelTask.whileConnecting
    dsimp only
    split_ifs
    · exact same
    · exact failed _
  | send cemi => exact same
  | close => exact same
  | heartbeat => exact same
  | receive => exact same
  | dropReceiver => exact same

theorem transmit_acts {event : Event} (attempt : Attempt) (sends : Sends task event attempt.cemi)
    (connected : isConnected task.phase)
    (octets : (KnxIpFrame.tunnelingRequest task.state.channelId task.state.sendSeq
      attempt.cemi.val.data).tryToBytes = .ok attempt.request) :
    Acts env task event (task.transmit env attempt).1 (task.transmit env attempt).2 := by
  unfold TunnelTask.transmit
  split
  · have stays := finishSend_stays env connected attempt.cemi (.error .io)
    have hout : (task.finishSend env attempt.cemi (.error .io)).2 =
        ⟨[], [(attempt.cemi, .error .io)]⟩ := finishSend_outcome _ _
    rcases sends with begun | ⟨begun, _⟩
    · refine .fails attempt.cemi stays begun ?_ ?_ (finishSend_over env task _ _).1
      · rw [hout]
        exact .nil
      · rw [hout]
        exact successes_error _ _
    · refine .stays stays begun ?_ ?_
      · rw [hout]
        exact .nil
      · rw [hout]
        exact successes_error _ _
  · exact .requests attempt.cemi attempt.request _ sends connected octets rfl rfl ⟨rfl, rfl⟩ rfl

theorem sendHeartbeat_stays (env : Env) (connected : isConnected task.phase) :
    Stays env task (task.sendHeartbeat env).1 ∧ Quiet (task.sendHeartbeat env).2.sends ∧
      (task.sendHeartbeat env).2.replies = [] := by
  unfold TunnelTask.sendHeartbeat
  split
  · exact ⟨heartbeatFailed_stays env connected, .nil, rfl⟩
  · rename_i hsend
    refine ⟨⟨rfl, rfl, rfl, fun _ => connected, fun h => ?_, fun _ h => ?_⟩, ?_, rfl⟩
    · cases h
    · cases h
    · refine Quiet.trySend hsend ?_
      change ServiceType.connectionStateRequest ≠ .tunnelingRequest
      decide

theorem idle_acts (event : Event) (hphase : task.phase = .idle)
    (unblocked : task.blocked = false) :
    Acts env task event (task.whileIdle env event).1 (task.whileIdle env event).2 := by
  have connected : isConnected task.phase := by
    rw [hphase]
    rfl
  cases event with
  | datagram data =>
    have keeps := handleIncoming_keeps env task (data.take recvBufSize)
    refine .stays ?_ rfl (handleIncoming_quiet _) rfl
    unfold TunnelTask.whileIdle
    dsimp only
    split_ifs
    · exact .keeps env keeps
    · exact .after keeps (tryReconnect_stays env _)
  | receiveError => exact .stays (tryReconnect_stays env task) rfl .nil rfl
  | send cemi =>
    have begun : begins task (.send cemi) = some cemi := by
      unfold begins
      rw [hphase]
      dsimp only
      rw [unblocked]
      rfl
    unfold TunnelTask.whileIdle
    dsimp only
    unfold TunnelTask.sendWithRetry
    split
    · refine .fails cemi (finishSend_stays env connected cemi _) begun ?_ ?_
        (finishSend_over env task _ _).1
      · rw [finishSend_outcome]
        exact .nil
      · rw [finishSend_outcome]
        exact successes_error _ _
    · rename_i hrequest
      exact transmit_acts _ (.inl begun) connected hrequest
  | close =>
    have quiet : Quiet (task.sendDisconnect env) := by
      unfold TunnelTask.sendDisconnect
      refine Quiet.send ?_ _
      change ServiceType.disconnectRequest ≠ .tunnelingRequest
      decide
    exact .stays (.away env ⟨rfl, rfl, rfl⟩ rfl rfl) rfl quiet rfl
  | heartbeat =>
    obtain ⟨stays, quiet, hreplies⟩ := sendHeartbeat_stays env connected
    refine .stays stays rfl quiet ?_
    exact congrArg successes hreplies
  | elapsed => exact .stays (.refl env task) rfl .nil rfl
  | receive => exact .stays (.refl env task) rfl .nil rfl
  | dropReceiver => exact .stays (.refl env task) rfl .nil rfl

theorem finished_acts {attempt : Attempt} {data : List UInt8}
    (hphase : task.phase = .awaitingAck attempt) (positive : confirms task data)
    {rest : TunnelTask} {sends : List Datagram} (opened : Bool)
    (keeps : Keeps { task with state := { task.state with sendSeq := task.state.sendSeq + 1 } } rest)
    (quiet : Quiet sends) :
    Acts env task (.datagram data)
      (rest.finishSend env attempt.cemi (if opened then .ok () else .error .closed)).1
      ⟨sends ++ (rest.finishSend env attempt.cemi
          (if opened then .ok () else .error .closed)).2.sends,
        (rest.finishSend env attempt.cemi
          (if opened then .ok () else .error .closed)).2.replies⟩ := by
  have connected : isConnected rest.phase := by
    rw [keeps.phase, hphase]
    rfl
  have stays := finishSend_stays env connected attempt.cemi
    (if opened then .ok () else .error .closed)
  obtain ⟨ends, connecting⟩ := finishSend_over env rest attempt.cemi
    (if opened then .ok () else .error .closed)
  refine .confirmed attempt data hphase rfl positive (stays.channelId.trans keeps.channelId)
    (stays.sendSeq.trans keeps.sendSeq) (stays.localAddr.trans keeps.localAddr) ends connecting
    ?_ ?_
  · dsimp only
    rw [finishSend_outcome, List.append_nil]
    exact quiet
  · dsimp only
    rw [finishSend_outcome]
    split_ifs
    · exact .inr rfl
    · exact .inl rfl

theorem acknowledged_acts {attempt : Attempt} {data : List UInt8}
    (hphase : task.phase = .awaitingAck attempt) (positive : confirms task data) :
    Acts env task (.datagram data) (task.acknowledged env attempt).1
      (task.acknowledged env attempt).2 :=
  finished_acts hphase positive _ (reprocess_keeps attempt.buffered _)
    (reprocess_quiet attempt.buffered _)

theorem ack_acts {attempt : Attempt} (event : Event) (hphase : task.phase = .awaitingAck attempt)
    (unblocked : task.blocked = false) (asks : Asks task) :
    Acts env task event (task.whileAwaitingAck env attempt event).1
      (task.whileAwaitingAck env attempt event).2 := by
  have connected : isConnected task.phase := by
    rw [hphase]
    rfl
  have begun : begins task event = none := by
    unfold begins
    rw [hphase]
    cases event <;> rfl
  have same : Acts env task event task .none := .stays (.refl env task) begun .nil rfl
  have failed (error : KnxIpError) : Acts env task event
      (task.finishSend env attempt.cemi (.error error)).1
      (task.finishSend env attempt.cemi (.error error)).2 := by
    refine .stays (finishSend_stays env connected _ _) begun ?_ ?_
    · rw [finishSend_outcome]
      exact .nil
    · rw [finishSend_outcome]
      exact successes_error _ _
  cases event with
  | datagram data =>
    unfold TunnelTask.whileAwaitingAck TunnelTask.ackReceived
    dsimp only
    rcases hparse : KnxIpFrame.parse (data.take recvBufSize) with e | resp
    · exact same
    · dsimp only
      rcases hstatus : task.awaitedStatus resp with _ | status
      · dsimp only
        split_ifs
        · exact .stays (.keeps env (handleTunnelingRequest_keeps resp)) begun
            (handleTunnelingRequest_quiet resp) rfl
        · refine .stays ⟨rfl, rfl, rfl, fun _ => connected, fun h => ?_, fun waiting h => ?_⟩
            begun .nil rfl
          · cases h
          · cases h
            exact ⟨attempt, hphase, rfl, rfl⟩
      · dsimp only
        split_ifs with hok
        · exact failed _
        · refine acknowledged_acts hphase ?_
          unfold confirms
          rw [hphase, hparse, unblocked]
          dsimp only
          rw [hstatus, not_not.mp hok]
          rfl
  | receiveError => exact failed _
  | elapsed =>
    unfold TunnelTask.whileAwaitingAck
    dsimp only
    split_ifs
    · exact same
    · unfold TunnelTask.ackTimeout
      split_ifs
      · exact transmit_acts { attempt with attempt := attempt.attempt + 1 }
          (.inr ⟨begun, attempt, hphase, rfl⟩) connected (asks attempt hphase)
      · exact failed _
  | send cemi => exact same
  | close => exact same
  | heartbeat => exact same
  | receive => exact same
  | dropReceiver => exact same

theorem heartbeat_acts {deadline : Nat} (event : Event)
    (hphase : task.phase = .awaitingHeartbeat deadline) :
    Acts env task event (task.whileAwaitingHeartbeat env deadline event).1
      (task.whileAwaitingHeartbeat env deadline event).2 := by
  have connected : isConnected task.phase := by
    rw [hphase]
    rfl
  have begun : begins task event = none := by
    unfold begins
    rw [hphase]
    cases event <;> rfl
  have same : Acts env task event task .none := .stays (.refl env task) begun .nil rfl
  have failed : Acts env task event (task.heartbeatFailed env) .none :=
    .stays (heartbeatFailed_stays env connected) begun .nil rfl
  cases event with
  | datagram data =>
    unfold TunnelTask.whileAwaitingHeartbeat TunnelTask.heartbeatReceived
    dsimp only
    split
    · exact same
    · split
      · split_ifs
        · exact failed
        · exact .stays (.idle env connected ⟨rfl, rfl, rfl⟩ rfl) begun .nil rfl
      · have keeps := handleIncoming_keeps env task (data.take recvBufSize)
        refine .stays ?_ begun (handleIncoming_quiet _) rfl
        split_ifs
        · exact .keeps env keeps
        · exact .after keeps (heartbeatFailed_stays env (keeps.phase ▸ connected))
  | receiveError => exact failed
  | elapsed =>
    unfold TunnelTask.whileAwaitingHeartbeat
    dsimp only
    split_ifs
    · exact same
    · exact failed
  | send cemi => exact same
  | close => exact same
  | heartbeat => exact same
  | receive => exact same
  | dropReceiver => exact same

theorem reconnecting_acts {delay wakeUp : Nat} (event : Event)
    (hphase : task.phase = .reconnecting delay wakeUp) :
    Acts env task event (task.whileReconnecting env delay wakeUp event).1
      (task.whileReconnecting env delay wakeUp event).2 := by
  have begun : begins task event = none := by
    unfold begins
    rw [hphase]
    cases event <;> rfl
  have same : Acts env task event task .none := .stays (.refl env task) begun .nil rfl
  cases event with
  | elapsed =>
    unfold TunnelTask.whileReconnecting
    dsimp only
    split_ifs
    · exact same
    · obtain ⟨stays, quiet, hreplies⟩ := establish_stays env task (some delay)
      exact .stays stays begun quiet (congrArg successes hreplies)
  | close => exact .stays (.away env ⟨rfl, rfl, rfl⟩ rfl rfl) begun .nil rfl
  | send cemi =>
    obtain ⟨stays, quiet, -⟩ := establish_stays env task (some delay)
    exact .stays stays begun quiet (successes_error _ _)
  | datagram data => exact same
  | receiveError => exact same
  | heartbeat => exact same
  | receive => exact same
  | dropReceiver => exact same

theorem over_acts (event : Event) (begun : begins task event = none) :
    Acts env task event (task.whenOver event).1 (task.whenOver event).2 := by
  cases event with
  | send cemi => exact .stays (.refl env task) begun .nil (successes_error _ _)
  | _ => exact .stays (.refl env task) begun .nil rfl

/-! ## One step -/

theorem act_acts (env : Env) (event : Event) (unblocked : task.blocked = false)
    (asks : Asks task) :
    Acts env task event (task.act env event).1 (task.act env event).2 := by
  unfold TunnelTask.act
  rcases hphase : task.phase with _ | _ | attempt | deadline | _ | _ | _
  · exact connecting_acts event hphase unblocked
  · exact idle_acts event hphase unblocked
  · exact ack_acts event hphase unblocked asks
  · exact heartbeat_acts event hphase
  · exact reconnecting_acts event hphase
  · refine over_acts event ?_
    unfold begins
    rw [hphase]
    cases event <;> rfl
  · refine over_acts event ?_
    unfold begins
    rw [hphase]
    cases event <;> rfl

theorem step_acts (env : Env) (event : Event) (asks : Asks task) :
    Acts env task event (task.step env event).1 (task.step env event).2 := by
  have own (hstep : task.step env event =
      if task.blocked then (task, .none) else task.act env event) :
      Acts env task event (task.step env event).1 (task.step env event).2 := by
    rw [hstep]
    split_ifs with hblocked
    · refine .stays (.refl env task) ?_ .nil rfl
      unfold begins
      split
      · split
        · rw [hblocked]
          rfl
        · rfl
      · rfl
    · exact act_acts env event (Bool.not_eq_true _ |>.mp hblocked) asks
  cases event with
  | receive => exact .stays (.keeps env ⟨rfl, rfl, rfl, rfl, rfl, rfl⟩) rfl .nil rfl
  | dropReceiver => exact .stays (.keeps env ⟨rfl, rfl, rfl, rfl, rfl, rfl⟩) rfl .nil rfl
  | datagram data => exact own rfl
  | receiveError => exact own rfl
  | send cemi => exact own rfl
  | close => exact own rfl
  | heartbeat => exact own rfl
  | elapsed => exact own rfl

end
end KnxRs.SendSteps
