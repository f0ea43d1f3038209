import KnxRs.TunnelServer

set_option autoImplicit false

/-!
# The tunnel client

The client task as a state machine. Between two of its waits the task runs without a
pause, so a step takes one event and goes on to the next wait. A send or a heartbeat
that waits for its answer is a phase of its own.
-/
namespace KnxRs.TunnelConnection
open CoreTypes CemiCodec KnxIpCodec KnxIpNetwork BoundedChannel TunnelServer

def connectTimeout : Nat := 10000
def maxHeartbeatFailures : Nat := 3
def recvBufSize : Nat := 1024
def reconnectDelayInitial : Nat := 1000
def reconnectDelayMax : Nat := 60000

/-- `io` stands for an error of the operating system. -/
inductive KnxIpError where
  | io
  | frame (error : KnxIpParseError)
  | timeout (label : String)
  | connectionRejected (status : UInt8)
  | protocol (text : String)
  | closed
  deriving DecidableEq

structure TunnelConfig where
  remote : SocketAddr
  autoReconnect : Bool

structure TunnelState where
  localAddr : SocketAddr
  channelId : UInt8
  sendSeq : UInt8
  recvSeq : UInt8
  heartbeatFailures : Nat

/-- One attempt of `send_with_retry`, with the datagrams `wait_for_ack` has put aside. -/
structure Attempt where
  cemi : Cemi
  request : List UInt8
  attempt : Nat
  deadline : Nat
  buffered : List (List UInt8)

/-- What the task waits for. In `connecting`, `retry` is the delay of a reconnect and `none` for
    the first connection, which may be `refused`. -/
inductive Phase where
  | connecting (localAddr : SocketAddr) (retry : Option Nat) (deadline : Nat)
  | idle
  | awaitingAck (attempt : Attempt)
  | awaitingHeartbeat (deadline : Nat)
  | reconnecting (delay wakeUp : Nat)
  | refused (error : KnxIpError)
  | ended

/-- The channel to the application takes a frame at once; one beyond its capacity is the frame
    that the task waits to hand over. -/
structure TunnelTask where
  config : TunnelConfig
  state : TunnelState
  phase : Phase
  rx : Channel CemiFrame

/-- The datagrams a step sends, and the results it gives to senders. -/
structure Outcome where
  sends : List Datagram
  replies : List (Cemi × Except KnxIpError Unit)

def Outcome.none : Outcome := ⟨[], []⟩

inductive Event where
  | datagram (data : List UInt8)
  | receiveError
  | send (cemi : Cemi)
  | close
  | heartbeat
  | elapsed
  | receive
  | dropReceiver

/-! ## Establishing a connection -/

/-- The format `{:#04x}` of an octet. -/
def hexOctet (octet : UInt8) : String :=
  "0x" ++ String.ofList [(octet.toNat / 16).digitChar, (octet.toNat % 16).digitChar]

/-- The format `{:?}` of a service type. -/
def serviceName : ServiceType → String
  | .searchRequest => "SearchRequest"
  | .searchResponse => "SearchResponse"
  | .descriptionRequest => "DescriptionRequest"
  | .descriptionResponse => "DescriptionResponse"
  | .connectRequest => "ConnectRequest"
  | .connectResponse => "ConnectResponse"
  | .connectionStateRequest => "ConnectionStateRequest"
  | .connectionStateResponse => "ConnectionStateResponse"
  | .disconnectRequest => "DisconnectRequest"
  | .disconnectResponse => "DisconnectResponse"
  | .searchRequestExtended => "SearchRequestExtended"
  | .searchResponseExtended => "SearchResponseExtended"
  | .deviceConfigurationRequest => "DeviceConfigurationRequest"
  | .deviceConfigurationAck => "DeviceConfigurationAck"
  | .tunnelingRequest => "TunnelingRequest"
  | .tunnelingAck => "TunnelingAck"
  | .routingIndication => "RoutingIndication"
  | .routingLostMessage => "RoutingLostMessage"
  | .routingBusy => "RoutingBusy"

def grantedChannel (data : List UInt8) : Except KnxIpError UInt8 :=
  match KnxIpFrame.parse data with
  | .error e => .error (.frame e)
  | .ok resp =>
    if resp.serviceType ≠ .connectResponse then
      .error (.protocol ("expected ConnectResponse, got " ++ serviceName resp.serviceType))
    else match resp.body with
      | channelId :: status :: _ =>
        if status ≠ eNoError then .error (.connectionRejected status) else .ok channelId
      | _ => .error (.protocol "connect response too short")

/-- `serialize_frame` and a send whose outcome counts. -/
def trySend (env : Env) (frame : KnxIpFrame) (dst : SocketAddr) : Except KnxIpError Datagram :=
  match frame.tryToBytes with
  | .error e => .error (.frame e)
  | .ok octets =>
    match env.sendError dst octets with
    | some _ => .error .io
    | none => .ok ⟨dst, octets⟩

namespace TunnelTask
variable (env : Env) (task : TunnelTask)

def establishFailed (retry : Option Nat) (error : KnxIpError) : TunnelTask :=
  match retry with
  | none => { task with phase := .refused error }
  | some delay =>
    let delay := min (2 * delay) reconnectDelayMax
    { task with phase := .reconnecting delay (env.now + delay) }

/-- `establish` up to the wait for the response. -/
def establish (retry : Option Nat) : TunnelTask × Outcome :=
  match env.localAddr with
  | none => (task.establishFailed env retry .io, .none)
  | some localAddr =>
    match trySend env (.connectRequest (buildHpai localAddr) (buildHpai localAddr) tunnelCri)
        task.config.remote with
    | .error e => (task.establishFailed env retry e, .none)
    | .ok request =>
      ({ task with phase := .connecting localAddr retry (env.now + connectTimeout) },
        ⟨[request], []⟩)

def connected (localAddr : SocketAddr) (channelId : UInt8) : TunnelTask :=
  { task with state := ⟨localAddr, channelId, 0, 0, 0⟩, phase := .idle }

def tryReconnect : TunnelTask :=
  if task.config.autoReconnect then
    { task with
      phase := .reconnecting reconnectDelayInitial (env.now + reconnectDelayInitial) }
  else { task with phase := .ended }

/-! ## Incoming frames -/

def deliver (cemi : CemiFrame) : TunnelTask :=
  if task.rx.closed then task else { task with rx := task.rx.put cemi }

/-- A frame for the application still waits for a slot. -/
def blocked : Bool := task.rx.capacity < task.rx.buffer.length

/-- A frame with the expected sequence number goes to the application. -/
def takeIn (cemiData : List UInt8) : TunnelTask :=
  let task := { task with state := { task.state with recvSeq := task.state.recvSeq + 1 } }
  match CemiFrame.parse cemiData with
  | .error _ => task
  | .ok cemi => task.deliver cemi

def handleTunnelingRequest (frame : KnxIpFrame) : TunnelTask × List Datagram :=
  match ConnectionHeader.parse frame.body with
  | none => (task, [])
  | some ch =>
    if ch.channelId ≠ task.state.channelId then (task, [])
    else
      let ack := env.send (.tunnelingAck task.state.channelId ch.sequenceCounter eNoError)
        task.config.remote
      if ch.sequenceCounter ≠ task.state.recvSeq then (task, ack)
      else (task.takeIn (frame.body.drop ConnectionHeader.len), ack)

/-- The task, what it sends, and whether the connection stays open. -/
def handleIncoming (data : List UInt8) : TunnelTask × List Datagram × Bool :=
  match KnxIpFrame.parse data with
  | .error _ => (task, [], true)
  | .ok frame =>
    match frame.serviceType with
    | .tunnelingRequest =>
      ((task.handleTunnelingRequest env frame).1, (task.handleTunnelingRequest env frame).2, true)
    | .disconnectRequest =>
      (task, env.send ⟨.disconnectResponse, [task.state.channelId, eNoError]⟩ task.config.remote,
        false)
    | _ => (task, [], true)

/-- The frames put aside, until one of them closes the connection. -/
def reprocess : List (List UInt8) → TunnelTask → TunnelTask × List Datagram × Bool
  | [], task => (task, [], true)
  | data :: rest, task =>
    let first := task.handleIncoming env data
    if first.2.2 then
      let more := reprocess rest first.1
      (more.1, first.2.1 ++ more.2.1, more.2.2)
    else first

/-! ## Sending -/

def finishSend (cemi : Cemi) (result : Except KnxIpError Unit) : TunnelTask × Outcome :=
  match result with
  | .ok _ => ({ task with phase := .idle }, ⟨[], [(cemi, result)]⟩)
  | .error _ =>
    if task.config.autoReconnect then (task.tryReconnect env, ⟨[], [(cemi, result)]⟩)
    else ({ task with phase := .idle }, ⟨[], [(cemi, result)]⟩)

/-- An attempt starts: the request is sent and its acknowledgement awaited. -/
def transmit (attempt : Attempt) : TunnelTask × Outcome :=
  match env.sendError task.config.remote attempt.request with
  | some _ => task.finishSend env attempt.cemi (.error .io)
  | none =>
    ({ task with phase := .awaitingAck { attempt with
        deadline := env.now + requestTimeout
        buffered := [] } },
      ⟨[⟨task.config.remote, attempt.request⟩], []⟩)

def sendWithRetry (cemi : Cemi) : TunnelTask × Outcome :=
  match (KnxIpFrame.tunnelingRequest task.state.channelId task.state.sendSeq
      cemi.val.data).tryToBytes with
  | .error e => task.finishSend env cemi (.error (.frame e))
  | .ok request => task.transmit env ⟨cemi, request, 0, env.now, []⟩

def awaitedStatus (resp : KnxIpFrame) : Option UInt8 :=
  if resp.serviceType = .tunnelingAck then
    match ConnectionHeader.parse resp.body with
    | none => none
    | some ch =>
      if ch.channelId = task.state.channelId ∧ ch.sequenceCounter = task.state.sendSeq then
        some ch.status
      else none
  else none

def acknowledged (attempt : Attempt) : TunnelTask × Outcome :=
  let task := { task with state := { task.state with sendSeq := task.state.sendSeq + 1 } }
  let rest := reprocess env attempt.buffered task
  let done := rest.1.finishSend env attempt.cemi (if rest.2.2 then .ok () else .error .closed)
  (done.1, ⟨rest.2.1 ++ done.2.sends, done.2.replies⟩)

/-- A datagram during `wait_for_ack`. -/
def ackReceived (attempt : Attempt) (data : List UInt8) : TunnelTask × Outcome :=
  match KnxIpFrame.parse data with
  | .error _ => (task, .none)
  | .ok resp =>
    match task.awaitedStatus resp with
    | some status =>
      if status ≠ eNoError then
        task.finishSend env attempt.cemi
          (.error (.protocol ("tunneling ack error: " ++ hexOctet status)))
      else task.acknowledged env attempt
    | none =>
      if resp.serviceType = .tunnelingRequest then
        ((task.handleTunnelingRequest env resp).1, ⟨(task.handleTunnelingRequest env resp).2, []⟩)
      else
        ({ task with phase := .awaitingAck { attempt with
            buffered := attempt.buffered ++ [data] } }, .none)

def ackTimeout (attempt : Attempt) : TunnelTask × Outcome :=
  if attempt.attempt + 1 < maxRetries then
    task.transmit env { attempt with attempt := attempt.attempt + 1 }
  else task.finishSend env attempt.cemi (.error (.timeout "tunneling ack after max retries"))

/-! ## Heartbeats -/

def heartbeatFailed : TunnelTask :=
  let failures := task.state.heartbeatFailures + 1
  let task := { task with state := { task.state with heartbeatFailures := failures } }
  if maxHeartbeatFailures ≤ failures then task.tryReconnect env else { task with phase := .idle }

def sendHeartbeat : TunnelTask × Outcome :=
  match trySend env (.connectionStateRequest task.state.channelId
      (buildHpai task.state.localAddr)) task.config.remote with
  | .error _ => (task.heartbeatFailed env, .none)
  | .ok request =>
    ({ task with phase := .awaitingHeartbeat (env.now + requestTimeout) }, ⟨[request], []⟩)

def heartbeatStatus (resp : KnxIpFrame) : Option UInt8 :=
  if resp.serviceType = .connectionStateResponse then
    match resp.body with
    | channelId :: status :: _ => if channelId = task.state.channelId then some status else none
    | _ => none
  else none

/-- A datagram during `send_heartbeat`. -/
def heartbeatReceived (data : List UInt8) : TunnelTask × Outcome :=
  match KnxIpFrame.parse data with
  | .error _ => (task, .none)
  | .ok resp =>
    match task.heartbeatStatus resp with
    | some status =>
      if status ≠ eNoError then (task.heartbeatFailed env, .none)
      else
        ({ task with
          state := { task.state with heartbeatFailures := 0 }, phase := .idle }, .none)
    | none =>
      let incoming := task.handleIncoming env data
      (if incoming.2.2 then incoming.1 else incoming.1.heartbeatFailed env,
        ⟨incoming.2.1, []⟩)

/-! ## The task -/

def sendDisconnect : List Datagram :=
  env.send (.disconnectRequest task.state.channelId (buildHpai task.state.localAddr))
    task.config.remote

def whileConnecting (localAddr : SocketAddr) (retry : Option Nat) (deadline : Nat) :
    Event → TunnelTask × Outcome
  | .datagram data =>
    match grantedChannel (data.take recvBufSize) with
    | .error e => (task.establishFailed env retry e, .none)
    | .ok channelId => (task.connected localAddr channelId, .none)
  | .receiveError => (task.establishFailed env retry .io, .none)
  | .elapsed =>
    if env.now < deadline then (task, .none)
    else (task.establishFailed env retry (.timeout "connect response"), .none)
  | _ => (task, .none)

def whileIdle : Event → TunnelTask × Outcome
  | .datagram data =>
    let incoming := task.handleIncoming env (data.take recvBufSize)
    (if incoming.2.2 then incoming.1 else incoming.1.tryReconnect env, ⟨incoming.2.1, []⟩)
  | .receiveError => (task.tryReconnect env, .none)
  | .send cemi => task.sendWithRetry env cemi
  | .close => ({ task with phase := .ended }, ⟨task.sendDisconnect env, []⟩)
  | .heartbeat => task.sendHeartbeat env
  | _ => (task, .none)

def whileAwaitingAck (attempt : Attempt) : Event → TunnelTask × Outcome
  | .datagram data => task.ackReceived env attempt (data.take recvBufSize)
  | .receiveError => task.finishSend env attempt.cemi (.error .io)
  | .elapsed => if env.now < attempt.deadline then (task, .none) else task.ackTimeout env attempt
  | _ => (task, .none)

def whileAwaitingHeartbeat (deadline : Nat) : Event → TunnelTask × Outcome
  | .datagram data => task.heartbeatReceived env (data.take recvBufSize)
  | .receiveError => (task.heartbeatFailed env, .none)
  | .elapsed => if env.now < deadline then (task, .none) else (task.heartbeatFailed env, .none)
  | _ => (task, .none)

def whileReconnecting (delay wakeUp : Nat) : Event → TunnelTask × Outcome
  -- A command ends the delay, as its end does.
  | .send cemi =>
    ((task.establish env (some delay)).1,
      { (task.establish env (some delay)).2 with
        replies := [(cemi, .error (.timeout "reconnecting"))] })
  | .close => ({ task with phase := .ended }, .none)
  | .elapsed => if env.now < wakeUp then (task, .none) else task.establish env (some delay)
  | _ => (task, .none)

def whenOver : Event → TunnelTask × Outcome
  | .send cemi => (task, ⟨[], [(cemi, .error .closed)]⟩)
  | _ => (task, .none)

/-- The step of a task that does not wait for the application. -/
def act (event : Event) : TunnelTask × Outcome :=
  match task.phase with
  | .connecting localAddr retry deadline =>
    task.whileConnecting env localAddr retry deadline event
  | .idle => task.whileIdle env event
  | .awaitingAck attempt => task.whileAwaitingAck env attempt event
  | .awaitingHeartbeat deadline => task.whileAwaitingHeartbeat env deadline event
  | .reconnecting delay wakeUp => task.whileReconnecting env delay wakeUp event
  | .refused _ => task.whenOver event
  | .ended => task.whenOver event

/-- One step: what the application does with its frames, or one event of the task. -/
def step : Event → TunnelTask × Outcome
  | .receive => ({ task with rx := task.rx.recv }, .none)
  | .dropReceiver => ({ task with rx := task.rx.close }, .none)
  | event => if task.blocked then (task, .none) else task.act env event

def next (event : Env × Event) : TunnelTask := (task.step event.1 event.2).1

def initial (config : TunnelConfig) : TunnelTask where
  config := config
  state := ⟨config.remote, 0, 0, 0, 0⟩
  phase := .ended
  rx := .new 64

/-- `connect_with_config`. -/
def connect (config : TunnelConfig) : TunnelTask × Outcome := (initial config).establish env none

end TunnelTask
end KnxRs.TunnelConnection
