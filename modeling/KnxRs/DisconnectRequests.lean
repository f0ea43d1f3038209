import KnxRs.ConnectionSteps
import KnxRs.Runs

set_option autoImplicit false

/-!
# Disconnect requests at the client

What is to follow a disconnect request for the client's channel, and when it does. A
send that waits for its acknowledgement only puts the request aside; a heartbeat that
waits counts it as one failure.
-/
namespace KnxRs.DisconnectRequests
open CoreTypes CemiCodec KnxIpCodec KnxIpNetwork BoundedChannel TunnelServer TunnelRequests
  TunnelConnection ConnectionSteps Runs

def isDisconnect (c : UInt8) (data : List UInt8) : Bool :=
  match KnxIpFrame.parse data with
  | .error _ => false
  | .ok frame => frame.serviceType = .disconnectRequest ∧ frame.body.head? = some c

def hears (task : TunnelTask) : Event → Bool
  | .datagram data => !task.blocked && isConnected task.phase &&
      isDisconnect task.state.channelId (data.take recvBufSize)
  | _ => false

abbrev ClientStep := Transition TunnelTask (Env × Event)

def stepOf (task : TunnelTask) (env : Env) (event : Event) : ClientStep :=
  ⟨task, (env, event), task.next (env, event)⟩

def joins (x : ClientStep) : Bool :=
  match x.source.phase, x.target.phase with
  | .connecting _ _ _, .idle => true
  | _, _ => false

/-- Whether the connection has been told to close, from whether it was before the step. -/
def toldAfter (told : Bool) (x : ClientStep) : Bool :=
  if joins x then false else told || hears x.source x.event.2

/-- The connection is closed, or the client reconnects, or its last send still waits. -/
def Leaving (task : TunnelTask) : Prop :=
  match task.phase with
  | .idle => False
  | .awaitingHeartbeat _ => False
  | .reconnecting _ _ => task.config.autoReconnect
  | .connecting _ _ _ => task.config.autoReconnect
  | .awaitingAck _ => True
  | .refused _ => True
  | .ended => True

def emitted (x : ClientStep) : Outcome := (x.source.step x.event.1 x.event.2).2

/-- A client that has been told to close sends no tunnelling request, lets no send succeed, and
    leaves the connection. -/
structure Obeys (told : Bool) (x : ClientStep) : Prop where
  silent : told → requests x.source.state.channelId (emitted x).sends = []
  refuses : told → ∀ r ∈ (emitted x).replies, r.2 ≠ .ok ()
  leaves : toldAfter told x → Leaving x.target

/-- Every step of a run obeys what has been heard before it. -/
def Obeyed : Bool → List ClientStep → Prop
  | _, [] => True
  | told, x :: rest => Obeys told x ∧ Obeyed (toldAfter told x) rest

/-! ## The condition -/

def endsWait (env : Env) (task : TunnelTask) (attempt : Attempt) : Event → Prop
  | .datagram data => ∃ resp, KnxIpFrame.parse (data.take recvBufSize) = .ok resp ∧
      (task.awaitedStatus resp).isSome
  | .receiveError => True
  | .elapsed => attempt.deadline ≤ env.now
  | _ => False

def retries (env : Env) (task : TunnelTask) (attempt : Attempt) : Event → Prop
  | .elapsed => attempt.deadline ≤ env.now ∧ attempt.attempt + 1 < maxRetries ∧
      env.sendError task.config.remote attempt.request = none
  | _ => False

/-- A disconnect request during a heartbeat is the third failure; one put aside during a send is
    not followed by a retry, and the wait ends only where the client then reconnects. -/
def Heeds (task : TunnelTask) (event : Env × Event) : Prop :=
  task.blocked = false →
    (∀ deadline, task.phase = .awaitingHeartbeat deadline → hears task event.2 →
      maxHeartbeatFailures ≤ task.state.heartbeatFailures + 1) ∧
    (∀ attempt, task.phase = .awaitingAck attempt →
      attempt.buffered.any (isDisconnect task.state.channelId) →
        ¬ retries event.1 task attempt event.2 ∧
        (endsWait event.1 task attempt event.2 → task.config.autoReconnect))

/-! ## What the client knows -/

/-- The client is off the connection; one that was told to close tries a new one only with
    auto-reconnect. -/
def Away (told : Bool) (task : TunnelTask) : Prop :=
  match task.phase with
  | .connecting _ _ _ => told → task.config.autoReconnect
  | .reconnecting _ _ => told → task.config.autoReconnect
  | .refused _ => True
  | .ended => True
  | _ => False

/-- A connected client has been told to close only if it has put the request aside. -/
def Aware (told : Bool) (task : TunnelTask) : Prop :=
  match task.phase with
  | .idle => told = false
  | .awaitingHeartbeat _ => told = false
  | .awaitingAck attempt => told = attempt.buffered.any (isDisconnect task.state.channelId) ∧
      ∃ sequence cemi, (KnxIpFrame.tunnelingRequest task.state.channelId sequence cemi).tryToBytes =
        .ok attempt.request
  | _ => Away told task

section
variable {env : Env} {event : Event} {task : TunnelTask} {told : Bool}

theorem closes_of_isDisconnect {c : UInt8} {data : List UInt8} (h : isDisconnect c data) :
    closes data := by
  unfold isDisconnect at h
  unfold closes
  rcases hparse : KnxIpFrame.parse data with e | frame
  · rw [hparse] at h
    cases h
  · rw [hparse] at h
    exact decide_eq_true (of_decide_eq_true h).1

theorem any_closes {c : UInt8} {buffered : List (List UInt8)}
    (h : buffered.any (isDisconnect c)) : buffered.any closes := by
  obtain ⟨data, hmem, hdata⟩ := List.any_eq_true.mp h
  exact List.any_eq_true.mpr ⟨data, hmem, closes_of_isDisconnect hdata⟩

theorem Away.aware (h : Away told task) : Aware told task := by
  obtain ⟨config, state, phase, rx⟩ := task
  cases phase with
  | connecting localAddr retry deadline => exact h
  | idle => exact h.elim
  | awaitingAck attempt => exact h.elim
  | awaitingHeartbeat deadline => exact h.elim
  | reconnecting delay wakeUp => exact h
  | refused error => trivial
  | ended => trivial

theorem Aware.leaving (h : Aware told task) (ht : told) : Leaving task := by
  obtain ⟨config, state, phase, rx⟩ := task
  cases phase with
  | connecting localAddr retry deadline => exact h ht
  | idle => exact absurd ht (Bool.eq_false_iff.mp h)
  | awaitingAck attempt => trivial
  | awaitingHeartbeat deadline => exact absurd ht (Bool.eq_false_iff.mp h)
  | reconnecting delay wakeUp => exact h ht
  | refused error => trivial
  | ended => trivial

/-! ## Off the connection -/

theorem tryReconnect_away (env : Env) (task : TunnelTask) (told : Bool) :
    Away told (task.tryReconnect env) := by
  unfold TunnelTask.tryReconnect
  split_ifs with h
  · exact fun _ => h
  · trivial

theorem establishFailed_away (h : told → task.config.autoReconnect) (retry : Option Nat)
    (error : KnxIpError) : Away told (task.establishFailed env retry error) := by
  cases retry with
  | none => trivial
  | some delay => exact h

theorem establish_away (h : told → task.config.autoReconnect) (retry : Option Nat) :
    Away told (task.establish env retry).1 := by
  unfold TunnelTask.establish
  split
  · exact establishFailed_away h retry _
  · split
    · exact establishFailed_away h retry _
    · exact h

theorem establish_quiet (retry : Option Nat) : Quiet (task.establish env retry).2.sends := by
  unfold TunnelTask.establish
  split
  · exact .nil
  · split
    · exact .nil
    · rename_i hsend
      refine Quiet.trySend hsend ?_
      change ServiceType.connectRequest ≠ .tunnelingRequest
      decide

theorem establish_replies (retry : Option Nat) : (task.establish env retry).2.replies = [] := by
  unfold TunnelTask.establish
  split
  · rfl
  · split <;> rfl

/-! ## Not told to close -/

/-- A send that waits has put nothing aside, and what it sends is a tunnelling request. -/
def Starting (task : TunnelTask) : Prop :=
  ∀ attempt, task.phase = .awaitingAck attempt → attempt.buffered = [] ∧
    ∃ sequence cemi, (KnxIpFrame.tunnelingRequest task.state.channelId sequence cemi).tryToBytes =
      .ok attempt.request

theorem Starting.aware (h : Starting task) : Aware false task := by
  obtain ⟨config, state, phase, rx⟩ := task
  cases phase with
  | connecting localAddr retry deadline => exact fun ht => by cases ht
  | idle => rfl
  | awaitingAck attempt =>
    obtain ⟨hempty, hrequest⟩ := h attempt rfl
    refine ⟨?_, hrequest⟩
    rw [hempty]
    rfl
  | awaitingHeartbeat deadline => rfl
  | reconnecting delay wakeUp => exact fun ht => by cases ht
  | refused error => trivial
  | ended => trivial

theorem starting_of_idle (h : task.phase = .idle) : Starting task := by
  intro attempt hphase
  rw [h] at hphase
  cases hphase

theorem Away.starting (h : Away told task) : Starting task := by
  intro attempt hphase
  unfold Away at h
  rw [hphase] at h
  exact h.elim

theorem finishSend_starting (cemi : Cemi) (result : Except KnxIpError Unit) :
    Starting (task.finishSend env cemi result).1 := by
  unfold TunnelTask.finishSend
  split
  · exact starting_of_idle rfl
  · split_ifs
    · exact (tryReconnect_away env task false).starting
    · exact starting_of_idle rfl

theorem heartbeatFailed_starting : Starting (task.heartbeatFailed env) := by
  unfold TunnelTask.heartbeatFailed
  dsimp only
  split_ifs
  · exact (tryReconnect_away env _ false).starting
  · exact starting_of_idle rfl

theorem transmit_starting {attempt : Attempt} {sequence : UInt8} {cemi : List UInt8}
    (h : (KnxIpFrame.tunnelingRequest task.state.channelId sequence cemi).tryToBytes =
      .ok attempt.request) : Starting (task.transmit env attempt).1 := by
  unfold TunnelTask.transmit
  split
  · exact finishSend_starting _ _
  · intro waiting hphase
    cases hphase
    exact ⟨rfl, sequence, cemi, h⟩

theorem sendWithRetry_starting (cemi : Cemi) : Starting (task.sendWithRetry env cemi).1 := by
  unfold TunnelTask.sendWithRetry
  split
  · exact finishSend_starting _ _
  · rename_i hrequest
    exact transmit_starting hrequest

theorem sendHeartbeat_starting : Starting (task.sendHeartbeat env).1 := by
  unfold TunnelTask.sendHeartbeat
  split
  · exact heartbeatFailed_starting
  · intro attempt hphase
    cases hphase

/-! ## One step -/

/-- The step obeys, and the client knows afterwards what it has been told. -/
structure Right (told : Bool) (x : ClientStep) : Prop where
  quiet : told → Quiet (emitted x).sends
  refuses : told → ∀ r ∈ (emitted x).replies, r.2 ≠ .ok ()
  aware : Aware (toldAfter told x) x.target

theorem Right.obeys {x : ClientStep} (h : Right told x) : Obeys told x :=
  ⟨fun ht => (h.quiet ht).requests _, h.refuses, h.aware.leaving⟩

theorem toldAfter_hears {x : ClientStep} (h : isConnected x.source.phase) :
    toldAfter told x = (told || hears x.source x.event.2) := by
  obtain ⟨⟨config, state, phase, rx⟩, event, target⟩ := x
  cases phase with
  | idle => rfl
  | awaitingAck attempt => rfl
  | awaitingHeartbeat deadline => rfl
  | _ => cases h

theorem toldAfter_away {x : ClientStep} (h : isConnected x.source.phase = false) :
    toldAfter told x = if joins x then false else told := by
  have hears : hears x.source x.event.2 = false := by
    unfold DisconnectRequests.hears
    split
    · rw [h, Bool.and_false, Bool.false_and]
    · rfl
  unfold toldAfter
  rw [hears, Bool.or_false]

theorem right_untold {x : ClientStep} (h : isConnected x.source.phase)
    (unheard : hears x.source x.event.2 = false) (starting : Starting x.target) :
    Right false x := by
  refine ⟨fun ht => absurd ht Bool.false_ne_true, fun ht => absurd ht Bool.false_ne_true, ?_⟩
  rw [toldAfter_hears h, unheard]
  exact starting.aware

theorem right_away {x : ClientStep} (away : ∀ b, Away b x.target)
    (quiet : told → Quiet (emitted x).sends)
    (refuses : told → ∀ r ∈ (emitted x).replies, r.2 ≠ .ok ()) : Right told x :=
  ⟨quiet, refuses, (away _).aware⟩

variable {x : ClientStep}

theorem hears_datagram {data : List UInt8} (h : hears task (.datagram data)) :
    isDisconnect task.state.channelId (data.take recvBufSize) := by
  unfold hears at h
  rw [Bool.and_eq_true] at h
  exact h.2

theorem idle_right (env : Env) (event : Event) (hphase : task.phase = .idle)
    (hx : x = ⟨task, (env, event), (task.whileIdle env event).1⟩) : Right false x := by
  subst hx
  have connected : isConnected task.phase := by
    rw [hphase]
    rfl
  cases event with
  | datagram data =>
    have keeps := handleIncoming_keeps env task (data.take recvBufSize)
    have hopen := handleIncoming_open env task (data.take recvBufSize)
    by_cases hclose : closes (data.take recvBufSize)
    · rw [hclose] at hopen
      refine right_away (fun b => ?_) (fun ht => absurd ht Bool.false_ne_true)
        fun ht => absurd ht Bool.false_ne_true
      have haway := tryReconnect_away env
        (task.handleIncoming env (data.take recvBufSize)).1 b
      unfold TunnelTask.whileIdle
      dsimp only
      rw [hopen]
      exact haway
    · rw [Bool.not_eq_true] at hclose
      rw [hclose] at hopen
      refine right_untold connected ?_ ?_
      · refine Bool.eq_false_iff.mpr fun hh => ?_
        have := closes_of_isDisconnect (hears_datagram hh)
        rw [hclose] at this
        cases this
      · unfold TunnelTask.whileIdle
        dsimp only
        rw [hopen]
        exact starting_of_idle (keeps.phase.trans hphase)
  | receiveError => exact right_untold connected rfl (tryReconnect_away env task false).starting
  | send cemi => exact right_untold connected rfl (sendWithRetry_starting cemi)
  | close =>
    refine right_untold connected rfl fun attempt h => ?_
    cases h
  | heartbeat => exact right_untold connected rfl sendHeartbeat_starting
  | elapsed => exact right_untold connected rfl (starting_of_idle hphase)
  | receive => exact right_untold connected rfl (starting_of_idle hphase)
  | dropReceiver => exact right_untold connected rfl (starting_of_idle hphase)

/-! ### During a heartbeat -/

theorem heartbeatReceived_closes {data : List UInt8} (h : closes data) :
    (task.heartbeatReceived env data).1 = task.heartbeatFailed env := by
  have hopen := handleIncoming_open env task data
  have hsame := handleIncoming_closes env task h
  rw [h] at hopen
  unfold closes at h
  unfold TunnelTask.heartbeatReceived
  rcases hparse : KnxIpFrame.parse data with e | resp
  · rw [hparse] at h
    cases h
  · rw [hparse] at h
    have hstatus : task.heartbeatStatus resp = none := by
      unfold TunnelTask.heartbeatStatus
      rw [of_decide_eq_true h]
      rfl
    dsimp only
    rw [hstatus]
    dsimp only
    rw [hopen, hsame]
    rfl

theorem heartbeatReceived_starting {data : List UInt8} {deadline : Nat}
    (hphase : task.phase = .awaitingHeartbeat deadline) :
    Starting (task.heartbeatReceived env data).1 := by
  have waits {task' : TunnelTask} (h : task'.phase = .awaitingHeartbeat deadline) :
      Starting task' := by
    intro attempt hattempt
    rw [h] at hattempt
    cases hattempt
  unfold TunnelTask.heartbeatReceived
  split
  · exact waits hphase
  · split
    · split_ifs
      · exact heartbeatFailed_starting
      · exact starting_of_idle rfl
    · dsimp only
      split_ifs
      · exact waits ((handleIncoming_keeps env task data).phase.trans hphase)
      · exact heartbeatFailed_starting

theorem heartbeatFailed_away (env : Env)
    (h : maxHeartbeatFailures ≤ task.state.heartbeatFailures + 1) (told : Bool) : Away told (task.heartbeatFailed env) := by
  unfold TunnelTask.heartbeatFailed
  dsimp only
  rw [if_pos h]
  exact tryReconnect_away env _ told

theorem heartbeat_right {deadline : Nat} (env : Env) (event : Event)
    (hphase : task.phase = .awaitingHeartbeat deadline)
    (heeds : hears task event → maxHeartbeatFailures ≤ task.state.heartbeatFailures + 1)
    (hx : x = ⟨task, (env, event), (task.whileAwaitingHeartbeat env deadline event).1⟩) :
    Right false x := by
  subst hx
  have connected : isConnected task.phase := by
    rw [hphase]
    rfl
  have waits : Starting task := by
    intro attempt h
    rw [hphase] at h
    cases h
  cases event with
  | datagram data =>
    by_cases heard : hears task (.datagram data)
    · refine right_away (fun b => ?_) (fun ht => absurd ht Bool.false_ne_true)
        fun ht => absurd ht Bool.false_ne_true
      have hclose := closes_of_isDisconnect (hears_datagram heard)
      have haway := heartbeatFailed_away env (heeds heard) b
      rw [← heartbeatReceived_closes hclose] at haway
      exact haway
    · exact right_untold connected (Bool.not_eq_true _ |>.mp heard)
        (heartbeatReceived_starting hphase)
  | receiveError => exact right_untold connected rfl heartbeatFailed_starting
  | elapsed =>
    refine right_untold connected rfl ?_
    unfold TunnelTask.whileAwaitingHeartbeat
    dsimp only
    split_ifs
    · exact waits
    · exact heartbeatFailed_starting
  | send cemi => exact right_untold connected rfl waits
  | close => exact right_untold connected rfl waits
  | heartbeat => exact right_untold connected rfl waits
  | receive => exact right_untold connected rfl waits
  | dropReceiver => exact right_untold connected rfl waits

/-! ### During a send -/

theorem Aware.keeps {task' : TunnelTask} (h : Aware told task) (keeps : Keeps task task') :
    Aware told task' := by
  have hphase := keeps.phase
  have hchannel := keeps.channelId
  have hconfig := keeps.config
  unfold Aware Away at h ⊢
  rw [hphase, hchannel, hconfig]
  exact h

theorem right_still (h : isConnected task.phase) (hsource : x.source = task)
    (unheard : hears task x.event.2 = false) (aware : Aware told task) (keeps : Keeps task x.target)
    (quiet : Quiet (emitted x).sends) (refuses : (emitted x).replies = []) : Right told x := by
  subst hsource
  refine ⟨fun _ => quiet, fun _ r hr => ?_, ?_⟩
  · rw [refuses] at hr
    cases hr
  · rw [toldAfter_hears h, unheard, Bool.or_false]
    exact aware.keeps keeps

theorem right_idle (h : isConnected task.phase) (hsource : x.source = task)
    (unheard : hears task x.event.2 = false) (aware : Aware told task) (keeps : Keeps task x.target)
    (hout : emitted x = .none) : Right told x := by
  refine right_still h hsource unheard aware keeps ?_ ?_
  · rw [hout]
    exact .nil
  · rw [hout]
    rfl

theorem finishSend_away (auto : task.config.autoReconnect) (cemi : Cemi) (error : KnxIpError)
    (told : Bool) : Away told (task.finishSend env cemi (.error error)).1 := by
  unfold TunnelTask.finishSend
  dsimp only
  rw [if_pos auto]
  exact tryReconnect_away env task told

/-- With auto-reconnect a send that fails costs the connection. -/
theorem failed_right (auto : task.config.autoReconnect) (cemi : Cemi) (error : KnxIpError)
    (htarget : x.target = (task.finishSend env cemi (.error error)).1)
    {sends : List Datagram} (quiet : Quiet sends)
    (hout : emitted x = ⟨sends, [(cemi, .error error)]⟩) : Right told x := by
  refine right_away (fun b => ?_) (fun _ => ?_) fun _ r hr => ?_
  · rw [htarget]
    exact finishSend_away auto cemi error b
  · rw [hout]
    exact quiet
  · rw [hout] at hr
    rw [List.mem_singleton.mp hr]
    intro h
    cases h

theorem awaitedStatus_unheard {c : UInt8} {data : List UInt8} {resp : KnxIpFrame} {status : UInt8}
    (hparse : KnxIpFrame.parse data = .ok resp) (h : task.awaitedStatus resp = some status) :
    isDisconnect c data = false := by
  unfold TunnelTask.awaitedStatus at h
  split_ifs at h with hs
  unfold isDisconnect
  rw [hparse]
  dsimp only
  rw [hs]
  rfl

theorem request_unheard {c : UInt8} {data : List UInt8} {resp : KnxIpFrame}
    (hparse : KnxIpFrame.parse data = .ok resp) (h : resp.serviceType = .tunnelingRequest) :
    isDisconnect c data = false := by
  unfold isDisconnect
  rw [hparse]
  dsimp only
  rw [h]
  rfl

theorem unheard_datagram {data : List UInt8}
    (h : isDisconnect task.state.channelId (data.take recvBufSize) = false) :
    hears task (.datagram data) = false := by
  unfold hears
  dsimp only
  rw [h, Bool.and_false]

theorem acknowledged_starting (attempt : Attempt) :
    Starting (task.acknowledged env attempt).1 := by
  unfold TunnelTask.acknowledged
  dsimp only
  exact finishSend_starting _ _

/-- An acknowledged send fails when a disconnect request has been put aside. -/
theorem acknowledged_closed {attempt : Attempt} {c : UInt8} (env : Env) (task : TunnelTask)
    (h : attempt.buffered.any (isDisconnect c)) :
    ∃ (task' : TunnelTask) (sends : List Datagram), task'.config = task.config ∧ Quiet sends ∧
      (task.acknowledged env attempt).1 = (task'.finishSend env attempt.cemi (.error .closed)).1 ∧
      (task.acknowledged env attempt).2 = ⟨sends, [(attempt.cemi, .error .closed)]⟩ := by
  have hclosed := any_closes h
  unfold TunnelTask.acknowledged
  dsimp only
  rw [reprocess_open, hclosed, Bool.not_true, if_neg Bool.false_ne_true, finishSend_outcome,
    List.append_nil]
  refine ⟨_, _, ?_, reprocess_quiet _ _, rfl, rfl⟩
  exact (reprocess_keeps attempt.buffered _).config

theorem ackReceived_right {attempt : Attempt} {data : List UInt8} (env : Env)
    (unblocked : task.blocked = false) (hphase : task.phase = .awaitingAck attempt)
    (aware : Aware told task)
    (auto : told → endsWait env task attempt (.datagram data) → task.config.autoReconnect)
    (hsource : x.source = task) (hevent : x.event.2 = .datagram data)
    (htarget : x.target = (task.ackReceived env attempt (data.take recvBufSize)).1)
    (hout : emitted x = (task.ackReceived env attempt (data.take recvBufSize)).2) :
    Right told x := by
  have connected : isConnected task.phase := by
    rw [hphase]
    rfl
  have known := aware
  unfold Aware at known
  rw [hphase] at known
  obtain ⟨htold, hrequest⟩ := known
  unfold TunnelTask.ackReceived at htarget hout
  rcases hparse : KnxIpFrame.parse (data.take recvBufSize) with e | resp
  · rw [hparse] at htarget hout
    have unheard : isDisconnect task.state.channelId (data.take recvBufSize) = false := by
      unfold isDisconnect
      rw [hparse]
    exact right_idle connected hsource (hevent ▸ unheard_datagram unheard) aware
      (htarget ▸ .refl task) hout
  rw [hparse] at htarget hout
  dsimp only at htarget hout
  rcases hstatus : task.awaitedStatus resp with _ | status
  · rw [hstatus] at htarget hout
    dsimp only at htarget hout
    by_cases hs : resp.serviceType = .tunnelingRequest
    · rw [if_pos hs] at htarget hout
      refine right_still connected hsource
        (hevent ▸ unheard_datagram (request_unheard hparse hs)) aware ?_ ?_ ?_
      · rw [htarget]
        exact handleTunnelingRequest_keeps resp
      · rw [hout]
        exact handleTunnelingRequest_quiet resp
      · rw [hout]
    · rw [if_neg hs] at htarget hout
      refine ⟨fun _ => ?_, fun _ r hr => ?_, ?_⟩
      · rw [hout]
        exact .nil
      · rw [hout] at hr
        cases hr
      · have heard : hears task (.datagram data) =
            isDisconnect task.state.channelId (data.take recvBufSize) := by
          unfold hears
          rw [unblocked, connected]
          rfl
        rw [toldAfter_hears (hsource ▸ connected), hsource, hevent, heard, htarget]
        refine ⟨?_, hrequest⟩
        rw [List.any_append, List.any_cons, List.any_nil, Bool.or_false, htold]
  · rw [hstatus] at htarget hout
    dsimp only at htarget hout
    have unheard := unheard_datagram (awaitedStatus_unheard (c := task.state.channelId)
      hparse hstatus)
    have ends : endsWait env task attempt (.datagram data) :=
      ⟨resp, hparse, by rw [hstatus]; rfl⟩
    rcases told with _ | _
    · refine right_untold (hsource ▸ connected) ?_ ?_
      · rw [hsource, hevent, unheard]
      · rw [htarget]
        split_ifs
        · exact finishSend_starting _ _
        · exact acknowledged_starting attempt
    · have auto := auto rfl ends
      by_cases hok : status = eNoError
      · rw [if_neg (not_not.mpr hok)] at htarget hout
        obtain ⟨task', sends, hconfig, quiet, htask, hemitted⟩ :=
          acknowledged_closed env task htold.symm
        rw [htask] at htarget
        rw [hemitted] at hout
        exact failed_right (hconfig ▸ auto) _ _ htarget quiet hout
      · rw [if_pos hok] at htarget hout
        exact failed_right auto _ _ htarget .nil (hout.trans (finishSend_outcome _ _))

theorem ack_right {attempt : Attempt} (env : Env) (event : Event)
    (unblocked : task.blocked = false) (hphase : task.phase = .awaitingAck attempt)
    (aware : Aware told task) (steady : told → ¬ retries env task attempt event)
    (auto : told → endsWait env task attempt event → task.config.autoReconnect)
    (hsource : x.source = task) (hevent : x.event.2 = event)
    (htarget : x.target = (task.whileAwaitingAck env attempt event).1)
    (hout : emitted x = (task.whileAwaitingAck env attempt event).2) : Right told x := by
  have connected : isConnected task.phase := by
    rw [hphase]
    rfl
  have known := aware
  unfold Aware at known
  rw [hphase] at known
  obtain ⟨htold, sequence, cemi, hrequest⟩ := known
  have still (unheard : hears task event = false) (htarget : x.target = task)
      (hout : emitted x = .none) : Right told x :=
    right_idle connected hsource (hevent ▸ unheard) aware (htarget ▸ .refl task) hout
  cases event with
  | datagram data =>
    exact ackReceived_right env unblocked hphase aware auto hsource hevent htarget hout
  | receiveError =>
    rcases told with _ | _
    · refine right_untold (hsource ▸ connected) ?_ ?_
      · rw [hevent]
        rfl
      · rw [htarget]
        exact finishSend_starting _ _
    · exact failed_right (auto rfl trivial) _ _ htarget .nil (hout.trans (finishSend_outcome _ _))
  | elapsed =>
    unfold TunnelTask.whileAwaitingAck at htarget hout
    dsimp only at htarget hout
    by_cases due : env.now < attempt.deadline
    · rw [if_pos due] at htarget hout
      exact still rfl htarget hout
    · rw [if_neg due] at htarget hout
      have due := Nat.le_of_not_lt due
      unfold TunnelTask.ackTimeout at htarget hout
      rcases told with _ | _
      · refine right_untold (hsource ▸ connected) ?_ ?_
        · rw [hevent]
          rfl
        · rw [htarget]
          split_ifs
          · exact transmit_starting hrequest
          · exact finishSend_starting _ _
      · have auto := auto rfl due
        by_cases more : attempt.attempt + 1 < maxRetries
        · rw [if_pos more] at htarget hout
          unfold TunnelTask.transmit at htarget hout
          dsimp only at htarget hout
          rcases herror : env.sendError task.config.remote attempt.request with _ | error
          · exact absurd ⟨due, more, herror⟩ (steady rfl)
          · rw [herror] at htarget hout
            exact failed_right auto _ _ htarget .nil (hout.trans (finishSend_outcome _ _))
        · rw [if_neg more] at htarget hout
          exact failed_right auto _ _ htarget .nil (hout.trans (finishSend_outcome _ _))
  | send cemi => exact still rfl htarget hout
  | close => exact still rfl htarget hout
  | heartbeat => exact still rfl htarget hout
  | receive => exact still rfl htarget hout
  | dropReceiver => exact still rfl htarget hout

/-! ### Off the connection -/

theorem Away.mono {b : Bool} (h : Away told task) (hb : b → told) : Away b task := by
  obtain ⟨config, state, phase, rx⟩ := task
  cases phase with
  | connecting localAddr retry deadline => exact fun ht => h (hb ht)
  | idle => exact h
  | awaitingAck attempt => exact h
  | awaitingHeartbeat deadline => exact h
  | reconnecting delay wakeUp => exact fun ht => h (hb ht)
  | refused error => trivial
  | ended => trivial

theorem Aware.away (h : Aware told task) (off : isConnected task.phase = false) :
    Away told task := by
  obtain ⟨config, state, phase, rx⟩ := task
  cases phase with
  | connecting localAddr retry deadline => exact h
  | idle => cases off
  | awaitingAck attempt => cases off
  | awaitingHeartbeat deadline => cases off
  | reconnecting delay wakeUp => exact h
  | refused error => trivial
  | ended => trivial

theorem right_off (off : isConnected x.source.phase = false) (away : Away told x.target)
    (quiet : Quiet (emitted x).sends) (refuses : ∀ r ∈ (emitted x).replies, r.2 ≠ .ok ()) :
    Right told x := by
  refine ⟨fun _ => quiet, fun _ => refuses, (away.mono ?_).aware⟩
  rw [toldAfter_away off]
  split_ifs
  · exact False.elim
  · exact id

theorem refuses_error (cemi : Cemi) (error : KnxIpError) :
    ∀ r ∈ [(cemi, (.error error : Except KnxIpError Unit))], r.2 ≠ .ok () := by
  intro r hr h
  rw [List.mem_singleton.mp hr] at h
  cases h

theorem refuses_none : ∀ r ∈ Outcome.none.replies, r.2 ≠ .ok () :=
  fun _ hr => absurd hr List.not_mem_nil

theorem right_silent (off : isConnected x.source.phase = false) (away : Away told x.target)
    (hout : emitted x = .none) : Right told x := by
  refine right_off off away ?_ ?_
  · rw [hout]
    exact .nil
  · rw [hout]
    exact refuses_none

theorem right_refused (off : isConnected x.source.phase = false) (away : Away told x.target)
    {cemi : Cemi} {error : KnxIpError}
    (hout : emitted x = { Outcome.none with replies := [(cemi, .error error)] }) :
    Right told x := by
  refine right_off off away ?_ ?_
  · rw [hout]
    exact .nil
  · rw [hout]
    exact refuses_error cemi error

theorem connecting_right {localAddr : SocketAddr} {retry : Option Nat} {deadline : Nat} (env : Env)
    (event : Event) (hphase : task.phase = .connecting localAddr retry deadline)
    (aware : Aware told task) (hsource : x.source = task)
    (htarget : x.target = (task.whileConnecting env localAddr retry deadline event).1)
    (hout : emitted x = (task.whileConnecting env localAddr retry deadline event).2) :
    Right told x := by
  have off : isConnected task.phase = false := by
    rw [hphase]
    rfl
  have away := aware.away off
  have auto : told → task.config.autoReconnect := by
    unfold Away at away
    rw [hphase] at away
    exact away
  have leaves (h : Away told x.target) (hout : emitted x = .none) : Right told x :=
    right_silent (hsource ▸ off) h hout
  cases event with
  | datagram data =>
    unfold TunnelTask.whileConnecting at htarget hout
    dsimp only at htarget hout
    rcases hgranted : grantedChannel (data.take recvBufSize) with e | channelId
    · rw [hgranted] at htarget hout
      exact leaves (htarget ▸ establishFailed_away auto retry e) hout
    · rw [hgranted] at htarget hout
      have hjoins : joins x = true := by
        unfold joins
        rw [hsource, hphase, htarget]
        rfl
      refine ⟨fun _ => ?_, fun _ => ?_, ?_⟩
      · rw [hout]
        exact .nil
      · rw [hout]
        exact refuses_none
      · unfold toldAfter
        rw [hjoins, htarget]
        rfl
  | receiveError => exact leaves (htarget ▸ establishFailed_away auto retry _) hout
  | elapsed =>
    unfold TunnelTask.whileConnecting at htarget hout
    dsimp only at htarget hout
    split_ifs at htarget hout
    · exact leaves (htarget ▸ away) hout
    · exact leaves (htarget ▸ establishFailed_away auto retry _) hout
  | send cemi => exact leaves (htarget ▸ away) hout
  | close => exact leaves (htarget ▸ away) hout
  | heartbeat => exact leaves (htarget ▸ away) hout
  | receive => exact leaves (htarget ▸ away) hout
  | dropReceiver => exact leaves (htarget ▸ away) hout

theorem reconnecting_right {delay wakeUp : Nat} (env : Env) (event : Event)
    (hphase : task.phase = .reconnecting delay wakeUp) (aware : Aware told task)
    (hsource : x.source = task)
    (htarget : x.target = (task.whileReconnecting env delay wakeUp event).1)
    (hout : emitted x = (task.whileReconnecting env delay wakeUp event).2) : Right told x := by
  have off : isConnected task.phase = false := by
    rw [hphase]
    rfl
  have away := aware.away off
  have auto : told → task.config.autoReconnect := by
    unfold Away at away
    rw [hphase] at away
    exact away
  have leaves (h : Away told x.target) (hout : emitted x = .none) : Right told x :=
    right_silent (hsource ▸ off) h hout
  cases event with
  | send cemi =>
    refine right_off (hsource ▸ off) (htarget ▸ establish_away auto _) ?_ ?_
    · rw [hout]
      exact establish_quiet _
    · rw [hout]
      exact refuses_error cemi _
  | close =>
    refine leaves ?_ hout
    rw [htarget]
    trivial
  | elapsed =>
    unfold TunnelTask.whileReconnecting at htarget hout
    dsimp only at htarget hout
    split_ifs at htarget hout
    · exact leaves (htarget ▸ away) hout
    · refine right_off (hsource ▸ off) (htarget ▸ establish_away auto _) ?_ ?_
      · rw [hout]
        exact establish_quiet _
      · rw [hout, establish_replies]
        exact refuses_none
  | datagram data => exact leaves (htarget ▸ away) hout
  | receiveError => exact leaves (htarget ▸ away) hout
  | heartbeat => exact leaves (htarget ▸ away) hout
  | receive => exact leaves (htarget ▸ away) hout
  | dropReceiver => exact leaves (htarget ▸ away) hout

theorem over_right (event : Event) (off : isConnected task.phase = false)
    (away : Away told task) (hsource : x.source = task)
    (htarget : x.target = (task.whenOver event).1) (hout : emitted x = (task.whenOver event).2) :
    Right told x := by
  cases event with
  | send cemi => exact right_refused (hsource ▸ off) (htarget ▸ away) hout
  | _ => exact right_silent (hsource ▸ off) (htarget ▸ away) hout

/-! ### Any step -/

theorem right_kept (aware : Aware told task) (hsource : x.source = task)
    (unheard : hears task x.event.2 = false) (keeps : Keeps task x.target)
    (hout : emitted x = .none) : Right told x := by
  rcases hconnected : isConnected task.phase with _ | _
  · have off : isConnected x.target.phase = false := by
      rw [keeps.phase]
      exact hconnected
    exact right_silent (hsource ▸ hconnected) ((aware.keeps keeps).away off) hout
  · exact right_idle hconnected hsource unheard aware keeps hout

theorem step_task (env : Env) (task : TunnelTask) (h : event ≠ .receive) (h' : event ≠ .dropReceiver) :
    task.step env event = if task.blocked then (task, .none) else task.act env event := by
  cases event with
  | receive => exact absurd rfl h
  | dropReceiver => exact absurd rfl h'
  | _ => rfl

theorem step_right (aware : Aware told task) (heeds : Heeds task (env, event)) :
    Right told (stepOf task env event) := by
  by_cases hreceive : event = .receive
  · subst hreceive
    exact right_kept aware rfl rfl ⟨rfl, rfl, rfl, rfl, rfl, rfl⟩ rfl
  by_cases hdrop : event = .dropReceiver
  · subst hdrop
    exact right_kept aware rfl rfl ⟨rfl, rfl, rfl, rfl, rfl, rfl⟩ rfl
  have hstep := step_task env task hreceive hdrop
  rcases unblocked : task.blocked with _ | _
  · rw [unblocked, if_neg Bool.false_ne_true] at hstep
    have htarget : (stepOf task env event).target = (task.act env event).1 :=
      congrArg Prod.fst hstep
    have hout : emitted (stepOf task env event) = (task.act env event).2 := congrArg Prod.snd hstep
    obtain ⟨hheartbeat, hack⟩ := heeds unblocked
    unfold TunnelTask.act at htarget hout
    rcases hphase : task.phase with _ | _ | attempt | deadline | _ | _ | _
    all_goals rw [hphase] at htarget hout
    · exact connecting_right env event hphase aware rfl htarget hout
    · have htold : told = false := by
        unfold Aware at aware
        rw [hphase] at aware
        exact aware
      subst htold
      exact idle_right env event hphase (congrArg (Transition.mk task (env, event)) htarget)
    · have htold : told → attempt.buffered.any (isDisconnect task.state.channelId) := by
        unfold Aware at aware
        rw [hphase] at aware
        exact fun ht => aware.1 ▸ ht
      exact ack_right env event unblocked hphase aware
        (fun ht => (hack attempt hphase (htold ht)).1)
        (fun ht => (hack attempt hphase (htold ht)).2) rfl rfl htarget hout
    · have htold : told = false := by
        unfold Aware at aware
        rw [hphase] at aware
        exact aware
      subst htold
      exact heartbeat_right env event hphase (hheartbeat deadline hphase)
        (congrArg (Transition.mk task (env, event)) htarget)
    · exact reconnecting_right env event hphase aware rfl htarget hout
    · have off : isConnected task.phase = false := by
        rw [hphase]
        rfl
      exact over_right event off (aware.away off) rfl htarget hout
    · have off : isConnected task.phase = false := by
        rw [hphase]
        rfl
      exact over_right event off (aware.away off) rfl htarget hout
  · rw [unblocked, if_pos rfl] at hstep
    have htarget : (stepOf task env event).target = task := congrArg Prod.fst hstep
    have hout : emitted (stepOf task env event) = .none := congrArg Prod.snd hstep
    have unheard : hears task event = false := by
      unfold hears
      split
      · rw [unblocked]
        rfl
      · rfl
    refine right_kept aware rfl unheard ?_ hout
    rw [htarget]
    exact .refl task

/-! ## Where a client does not obey -/

theorem finishSend_idle (h : ¬ task.config.autoReconnect) (cemi : Cemi)
    (result : Except KnxIpError Unit) : (task.finishSend env cemi result).1.phase = .idle := by
  unfold TunnelTask.finishSend
  split
  · rfl
  · rw [if_neg h]

theorem not_leaving_idle (h : task.phase = .idle) : ¬ Leaving task := by
  unfold Leaving
  rw [h]
  exact id

/-- After a disconnect request put aside, a wait that ends without auto-reconnect leads back to
    the loop, or to another request on the channel. -/
theorem goesOn {attempt : Attempt} (h : attempt.buffered.any (isDisconnect task.state.channelId))
    (ends : endsWait env task attempt event) (auto : ¬ task.config.autoReconnect) :
    (task.whileAwaitingAck env attempt event).1.phase = .idle ∨
      retries env task attempt event := by
  cases event with
  | datagram data =>
    obtain ⟨resp, hparse, hsome⟩ := ends
    obtain ⟨status, hstatus⟩ := Option.isSome_iff_exists.mp hsome
    refine .inl ?_
    unfold TunnelTask.whileAwaitingAck TunnelTask.ackReceived
    dsimp only
    rw [hparse]
    dsimp only
    rw [hstatus]
    dsimp only
    split_ifs
    · exact finishSend_idle auto _ _
    · obtain ⟨task', sends, hconfig, _, htask, _⟩ := acknowledged_closed env task h
      rw [htask]
      exact finishSend_idle (hconfig ▸ auto) _ _
  | receiveError => exact .inl (finishSend_idle auto _ _)
  | elapsed =>
    have due : attempt.deadline ≤ env.now := ends
    unfold TunnelTask.whileAwaitingAck
    dsimp only
    rw [if_neg (Nat.not_lt.mpr due)]
    unfold TunnelTask.ackTimeout
    split_ifs with more
    · rcases herror : env.sendError task.config.remote attempt.request with _ | error
      · exact .inr ⟨due, more, herror⟩
      · unfold TunnelTask.transmit
        dsimp only
        rw [herror]
        exact .inl (finishSend_idle auto _ _)
    · exact .inl (finishSend_idle auto _ _)
  | send cemi => exact ends.elim
  | close => exact ends.elim
  | heartbeat => exact ends.elim
  | receive => exact ends.elim
  | dropReceiver => exact ends.elim

theorem retries_sends {attempt : Attempt} {sequence : UInt8} {cemi : List UInt8}
    (h : retries env task attempt event)
    (hrequest : (KnxIpFrame.tunnelingRequest task.state.channelId sequence cemi).tryToBytes =
      .ok attempt.request) :
    requests task.state.channelId (task.whileAwaitingAck env attempt event).2.sends ≠ [] := by
  cases event with
  | elapsed =>
    obtain ⟨due, more, hsend⟩ := h
    unfold TunnelTask.whileAwaitingAck
    dsimp only
    rw [if_neg (Nat.not_lt.mpr due)]
    unfold TunnelTask.ackTimeout TunnelTask.transmit
    rw [if_pos more]
    dsimp only
    rw [hsend]
    have hmem : (⟨task.config.remote, attempt.request⟩ : Datagram) ∈
        requests task.state.channelId [⟨task.config.remote, attempt.request⟩] :=
      List.mem_filter.mpr ⟨List.mem_singleton_self _, (onChannel_request hrequest).mpr rfl⟩
    exact List.ne_nil_of_mem hmem
  | _ => exact absurd h id

theorem obeys_heeds (aware : Aware told task) (obeys : Obeys told (stepOf task env event)) :
    Heeds task (env, event) := by
  intro unblocked
  have acts (h : event ≠ .receive) (h' : event ≠ .dropReceiver) :
      task.step env event = task.act env event := by
    rw [step_task env task h h', unblocked, if_neg Bool.false_ne_true]
  refine ⟨fun deadline hphase heard => ?_, fun attempt hphase hany => ?_⟩
  · by_contra hfew
    cases event with
    | datagram data =>
      have hclose := closes_of_isDisconnect (hears_datagram heard)
      have connected : isConnected task.phase := by
        rw [hphase]
        rfl
      have htarget : (stepOf task env (.datagram data)).target = task.heartbeatFailed env := by
        refine (congrArg Prod.fst (acts Event.noConfusion Event.noConfusion)).trans ?_
        unfold TunnelTask.act
        rw [hphase]
        exact heartbeatReceived_closes hclose
      have leaves := obeys.leaves (by
        rw [toldAfter_hears connected]
        exact Bool.or_eq_true _ _ |>.mpr (.inr heard))
      rw [htarget] at leaves
      refine not_leaving_idle ?_ leaves
      unfold TunnelTask.heartbeatFailed
      dsimp only
      rw [if_neg hfew]
    | _ => cases heard
  · unfold Aware at aware
    rw [hphase] at aware
    obtain ⟨htold, sequence, cemi, hrequest⟩ := aware
    have ht : told = true := htold.trans hany
    have hact : task.act env event = task.whileAwaitingAck env attempt event := by
      unfold TunnelTask.act
      rw [hphase]
    have waits (h : endsWait env task attempt event) :
        task.step env event = task.whileAwaitingAck env attempt event := by
      refine (acts ?_ ?_).trans hact
      · rintro rfl
        exact h
      · rintro rfl
        exact h
    have steady : ¬ retries env task attempt event := by
      intro hr
      have ends : endsWait env task attempt event := by
        cases event with
        | elapsed => exact hr.1
        | _ => exact absurd hr id
      have silent := obeys.silent ht
      unfold emitted stepOf at silent
      dsimp only at silent
      rw [waits ends] at silent
      exact retries_sends hr hrequest silent
    refine ⟨steady, fun ends => ?_⟩
    by_contra auto
    rcases goesOn hany ends auto with hidle | hr
    · have connected : isConnected task.phase := by
        rw [hphase]
        rfl
      have leaves := obeys.leaves (by
        rw [toldAfter_hears connected, ht]
        rfl)
      refine not_leaving_idle ?_ leaves
      unfold stepOf TunnelTask.next
      dsimp only
      rw [waits ends]
      exact hidle
    · exact steady hr

theorem heeds_idle {event : Env × Event} (h : task.phase = .idle) : Heeds task event := by
  refine fun _ => ⟨fun deadline hphase => ?_, fun attempt hphase => ?_⟩
  · rw [h] at hphase
    cases hphase
  · rw [h] at hphase
    cases hphase

theorem heeds_off {event : Env × Event} (h : isConnected task.phase = false) :
    Heeds task event := by
  refine fun _ => ⟨fun deadline hphase => ?_, fun attempt hphase => ?_⟩
  · rw [hphase] at h
    cases h
  · rw [hphase] at h
    cases h

/-! ## Runs -/

theorem obeyed_iff {state : TunnelTask} {steps : List ClientStep} (aware : Aware told task)
    (run : Run (fun t e t' => t.next e = t') task steps state) :
    Obeyed told steps ↔ ∀ x ∈ steps, Heeds x.source x.event := by
  induction run generalizing told with
  | refl t => exact ⟨fun _ x hx => absurd hx List.not_mem_nil, fun _ => trivial⟩
  | @next t u v e rest hstep _ ih =>
    obtain ⟨env, event⟩ := e
    subst hstep
    rw [List.forall_mem_cons]
    constructor
    · rintro ⟨obeys, later⟩
      have heeds := obeys_heeds aware obeys
      exact ⟨heeds, (ih (step_right aware heeds).aware).mp later⟩
    · rintro ⟨heeds, later⟩
      have right := step_right aware heeds
      exact ⟨right.obeys, (ih right.aware).mpr later⟩

end

/-- From the first connection on, the client obeys the disconnect requests of a run exactly when
    each of its steps heeds them. -/
theorem disconnect_obeyed_iff {config : TunnelConfig} {env : Env} {state : TunnelTask}
    {steps : List ClientStep}
    (run : Run (fun t e t' => t.next e = t') (TunnelTask.connect env config).1 steps state) :
    Obeyed false steps ↔ ∀ x ∈ steps, Heeds x.source x.event := by
  refine obeyed_iff (Away.aware ?_) run
  exact establish_away (fun ht => absurd ht Bool.false_ne_true) none

def clientEnv (now : Nat) : Env :=
  { calm now with localAddr := some (.v4 ⟨192, 168, 1, 7⟩ 50000) }

def gateway : TunnelConfig := ⟨.v4 ⟨192, 168, 1, 1⟩ 3671, false⟩

def granted : List UInt8 := [0x06, 0x10, 0x02, 0x06, 0x00, 0x08, 0x01, 0x00]

def disconnect : List UInt8 :=
  [0x06, 0x10, 0x02, 0x09, 0x00, 0x10, 0x01, 0x00, 0x08, 0x01, 0, 0, 0, 0, 0x0E, 0x57]

def idleInputs : List (Env × Event) :=
  [(clientEnv 1, .datagram granted), (clientEnv 2, .datagram disconnect),
    (clientEnv 3, .send groupWrite)]

theorem idle_obeyed :
    Obeyed false
      (trace TunnelTask.next (TunnelTask.connect (clientEnv 0) gateway).1 idleInputs) := by
  refine (disconnect_obeyed_iff (trace_run TunnelTask.next _ idleInputs)).mpr fun x hx => ?_
  rcases List.mem_cons.mp hx with rfl | hx
  · exact heeds_off rfl
  rcases List.mem_cons.mp hx with rfl | hx
  · exact heeds_idle rfl
  rw [List.mem_singleton.mp hx]
  exact heeds_off rfl

def heartbeatInputs : List (Env × Event) :=
  [(clientEnv 1, .datagram granted), (clientEnv 2, .heartbeat),
    (clientEnv 3, .datagram disconnect), (clientEnv 4, .send groupWrite)]

theorem heartbeat_not_obeyed :
    ¬ Obeyed false
        (trace TunnelTask.next (TunnelTask.connect (clientEnv 0) gateway).1 heartbeatInputs) ∧
      (requests 1 (((heartbeatInputs.take 3).foldl TunnelTask.next
        (TunnelTask.connect (clientEnv 0) gateway).1).step (clientEnv 4)
          (.send groupWrite)).2.sends).length = 1 := by
  refine ⟨?_, rfl⟩
  rintro ⟨_, _, h, _⟩
  exact h.leaves rfl

end KnxRs.DisconnectRequests
