import KnxRs.KeyedRows
import KnxRs.ServerDescription
import KnxRs.ServerEvents

set_option autoImplicit false

/-!
# The tunnel server

One function a handler of the server task, each with the datagrams it sends. A step of
the task takes one input: a datagram, a command, a timer, or what the application does
with the events.
-/
namespace KnxRs.TunnelServer
open CoreTypes CemiCodec KnxIpCodec KnxIpNetwork ServerDescription ServerEvents KeyedRows

def maxTunnels : Nat := 4
def tunnelTimeout : Nat := 120000
def maxClientQueue : Nat := 128
def maxRetries : Nat := 3
def requestTimeout : Nat := 1000

/-- A frame of the program: its message code is one the library knows. -/
abbrev Cemi := { frame : CemiFrame // (MessageCode.tryFrom frame.messageCodeRaw).isSome }

structure InFlight where
  sequence : UInt8
  datagram : List UInt8
  attempts : Nat
  deadline : Nat
  lastError : Option String

structure TunnelClient where
  channelId : UInt8
  ctrlAddr : SocketAddr
  dataAddr : SocketAddr
  sendSeq : UInt8
  recvSeq : UInt8
  lastHeartbeat : Nat
  outbox : List (List UInt8)
  inFlight : Option InFlight
  overflowReported : Bool

def TunnelClient.new (channelId : UInt8) (ctrlAddr dataAddr : SocketAddr) (now : Nat) :
    TunnelClient where
  channelId := channelId
  ctrlAddr := ctrlAddr
  dataAddr := dataAddr
  sendSeq := 0
  recvSeq := 0
  lastHeartbeat := now
  outbox := []
  inFlight := none
  overflowReported := false

/-! ## One tunnel -/

/-- The first frame of an outbox that can be serialized, as a request, and the frames after it. -/
def nextRequest (channelId sequence : UInt8) :
    List (List UInt8) → Option (List UInt8 × List (List UInt8))
  | [] => none
  | cemi :: rest =>
    match (KnxIpFrame.tunnelingRequest channelId sequence cemi).tryToBytes with
    | .ok datagram => some (datagram, rest)
    | .error _ => nextRequest channelId sequence rest

namespace TunnelClient
variable (env : Env) (tunnel : TunnelClient)

def enqueue (cemi : List UInt8) : TunnelClient :=
  if maxClientQueue ≤ tunnel.outbox.length then
    { tunnel with outbox := tunnel.outbox.tail ++ [cemi], overflowReported := true }
  else { tunnel with outbox := tunnel.outbox ++ [cemi] }

def transmit : TunnelClient × List Datagram :=
  match tunnel.inFlight with
  | none => (tunnel, [])
  | some f =>
    ({ tunnel with inFlight := some { f with
        attempts := f.attempts + 1
        deadline := env.now + requestTimeout
        lastError := env.sendError tunnel.dataAddr f.datagram } },
      env.sendTo f.datagram tunnel.dataAddr)

def pump : TunnelClient × List Datagram :=
  if tunnel.inFlight.isSome then (tunnel, [])
  else match nextRequest tunnel.channelId tunnel.sendSeq tunnel.outbox with
    | none => ({ tunnel with outbox := [], overflowReported := false }, [])
    | some (datagram, rest) =>
      transmit env { tunnel with
        outbox := rest
        inFlight := some ⟨tunnel.sendSeq, datagram, 0, env.now, none⟩ }

/-- `enqueue` and `pump`. -/
def queue (cemi : List UInt8) : TunnelClient × List Datagram := (tunnel.enqueue cemi).pump env

/-- The client has acknowledged what is on the wire. -/
def advance (sequence : UInt8) : TunnelClient × List Datagram :=
  pump env { tunnel with inFlight := none, sendSeq := sequence + 1 }

def expects (sequence : UInt8) : Bool :=
  match tunnel.inFlight with
  | none => false
  | some f => f.sequence = sequence

/-- What `expire_acks` does with a tunnel that it keeps. -/
def retransmit : TunnelClient × List Datagram :=
  match tunnel.inFlight with
  | none => (tunnel, [])
  | some f =>
    if env.now < f.deadline then (tunnel, [])
    else if f.attempts < maxRetries then tunnel.transmit env
    else (tunnel, [])

def lost : Bool :=
  match tunnel.inFlight with
  | none => false
  | some f => ¬env.now < f.deadline ∧ ¬f.attempts < maxRetries

def alive : Bool := env.now - tunnel.lastHeartbeat < tunnelTimeout

end TunnelClient

/-! ## Frames for the clients -/

/-- The octets with another message code. -/
def recoded (cemi : CemiFrame) (code : MessageCode) : List UInt8 := cemi.data.set 0 code.raw

def asIndication (cemi : CemiFrame) : List UInt8 :=
  if cemi.data.head? = some MessageCode.lDataReq.raw then recoded cemi .lDataInd else cemi.data

def confirmationOf (cemi : CemiFrame) : Option (List UInt8) :=
  if cemi.data.head? ≠ some MessageCode.lDataReq.raw then none
  else match cemi.data[1]? with
    | none => none
    | some infoLength =>
      let control1 := 2 + infoLength.toNat
      match (recoded cemi .lDataCon)[control1]? with
      | none => none
      | some octet => some ((recoded cemi .lDataCon).set control1 (octet &&& ~~~0x01))

/-- What a tunnel does with the frame of a request it takes over. -/
def TunnelClient.takeOver (env : Env) (tunnel : TunnelClient) (cemiData : List UInt8) :
    TunnelClient × List Datagram :=
  let tunnel := { tunnel with recvSeq := tunnel.recvSeq + 1 }
  match CemiFrame.parse cemiData with
  | .error _ => (tunnel, [])
  | .ok cemi =>
    match confirmationOf cemi with
    | none => (tunnel, [])
    | some confirmation => tunnel.queue env confirmation

def tunnelEvents (cemiData : List UInt8) : List ServerEvent :=
  match CemiFrame.parse cemiData with
  | .error _ => []
  | .ok cemi => [.tunnelFrame cemi]

/-! ## Handlers -/

def nextId (channelId : UInt8) : UInt8 := if channelId + 1 = 0 then 1 else channelId + 1

/-- The allocation loop: `budget` checks at most, from `channelId` on. -/
def freeChannel (tunnels : List TunnelClient) : Nat → UInt8 → Option UInt8
  | 0, _ => none
  | budget + 1, channelId =>
    if tunnels.any fun t => t.channelId = channelId then
      freeChannel tunnels budget (nextId channelId)
    else some channelId

def buildConnectResponse (channelId status : UInt8) (individualAddr port : UInt16) : KnxIpFrame :=
  ⟨.connectResponse,
    [channelId, status] ++ (Hpai.natUdp port).toBytes ++ tunnelCrd individualAddr⟩

section
variable (env : Env) (src : SocketAddr) (frame : KnxIpFrame) (tunnels : List TunnelClient)

/-- The tunnels, the next channel to try and the answer after a `CONNECT_REQUEST`. -/
def handleConnect (nextChannelId : UInt8) : List TunnelClient × UInt8 × List Datagram :=
  if frame.body.length < 20 then (tunnels, nextChannelId, [])
  else match Hpai.parse frame.body, Hpai.parse (frame.body.drop Hpai.len) with
  | some ctrlHpai, some dataHpai =>
    let ctrlAddr := hpaiToSocketAddr ctrlHpai src
    let dataAddr := hpaiToSocketAddr dataHpai src
    let connType := frame.body.getD (Hpai.len + Hpai.len + 1) 0
    if connType = deviceMgmtConnection then
      (tunnels, nextChannelId,
        env.send (buildConnectResponse 0 eConnectionType 0 env.port) ctrlAddr)
    else if maxTunnels ≤ tunnels.length then
      (tunnels, nextChannelId,
        env.send (buildConnectResponse 0 eNoMoreConnections 0 env.port) ctrlAddr)
    else match freeChannel tunnels 256 nextChannelId with
      | none => (tunnels, nextChannelId, [])
      | some channelId =>
        (tunnels ++ [.new channelId ctrlAddr dataAddr env.now], nextId channelId,
          env.send (buildConnectResponse channelId eNoError
            (tunnelIaBase ||| channelId.toUInt16) env.port) ctrlAddr)
  | _, _ => (tunnels, nextChannelId, [])

def handleHeartbeat : List TunnelClient × List Datagram :=
  match frame.body with
  | [] => (tunnels, [])
  | channelId :: _ =>
    let known (t : TunnelClient) : Bool := t.channelId = channelId ∧ t.ctrlAddr = src
    match tunnels.find? known with
    | some t =>
      (updateFirst known (fun t => { t with lastHeartbeat := env.now }) tunnels,
        env.send ⟨.connectionStateResponse, [channelId, eNoError]⟩ t.ctrlAddr)
    | none =>
      (tunnels, env.send ⟨.connectionStateResponse, [channelId, eConnectionId]⟩ src)

def handleDisconnect : List TunnelClient × List Datagram :=
  match frame.body with
  | [] => (tunnels, [])
  | channelId :: _ =>
    match tunnels.find? fun t => t.channelId = channelId ∧ t.ctrlAddr = src with
    | some t =>
      (tunnels.filter fun t => t.channelId ≠ channelId,
        env.send ⟨.disconnectResponse, [channelId, eNoError]⟩ t.ctrlAddr)
    | none => (tunnels, env.send ⟨.disconnectResponse, [channelId, eConnectionId]⟩ src)

def sendTunnelingAck (dst : SocketAddr) (ch : ConnectionHeader) (status : UInt8) : List Datagram :=
  env.send (.tunnelingAck ch.channelId ch.sequenceCounter status) dst

/-- The tunnels, the datagrams and the events of a `TUNNELLING_REQUEST`. -/
def handleTunnelingRequest : List TunnelClient × List Datagram × List ServerEvent :=
  match ConnectionHeader.parse frame.body with
  | none => (tunnels, [], [])
  | some ch =>
    match row TunnelClient.channelId ch.channelId tunnels with
    | none => (tunnels, sendTunnelingAck env src ch eConnectionId, [])
    | some tunnel =>
      if tunnel.dataAddr ≠ src then (tunnels, sendTunnelingAck env src ch eConnectionId, [])
      else
        let ack := sendTunnelingAck env tunnel.dataAddr ch eNoError
        if ch.sequenceCounter ≠ tunnel.recvSeq then (tunnels, ack, [])
        else
          let cemiData := frame.body.drop ConnectionHeader.len
          (updateFirst (fun t => t.channelId = ch.channelId) (fun t => (t.takeOver env cemiData).1)
              tunnels,
            ack ++ (tunnel.takeOver env cemiData).2, tunnelEvents cemiData)

def handleTunnelingAck : List TunnelClient × List Datagram :=
  match ConnectionHeader.parse frame.body with
  | none => (tunnels, [])
  | some header =>
    let known (t : TunnelClient) : Bool := t.channelId = header.channelId ∧ t.dataAddr = src
    match tunnels.find? known with
    | none => (tunnels, [])
    | some tunnel =>
      if tunnel.expects header.sequenceCounter then
        (updateFirst known (fun t => (t.advance env header.sequenceCounter).1) tunnels,
          (tunnel.advance env header.sequenceCounter).2)
      else (tunnels, [])

/-- Forget a tunnel whose acknowledgements stayed away and tell its client. -/
def dropLostTunnel (channelId : UInt8) (acc : List TunnelClient × List Datagram) :
    List TunnelClient × List Datagram :=
  match row TunnelClient.channelId channelId acc.1 with
  | none => acc
  | some tunnel =>
    (acc.1.eraseP fun t => t.channelId = channelId,
      acc.2 ++ env.send (.disconnectRequest channelId (.natUdp env.port)) tunnel.ctrlAddr)

def expireAcks : List TunnelClient × List Datagram :=
  ((tunnels.filter fun t => t.lost env).map TunnelClient.channelId).foldl
    (fun acc channelId => dropLostTunnel env channelId acc)
    (tunnels.map fun t => (t.retransmit env).1, tunnels.flatMap fun t => (t.retransmit env).2)

def cleanupStaleTunnels : List TunnelClient := tunnels.filter fun t => t.alive env

def queueAll (cemi : List UInt8) : List TunnelClient × List Datagram :=
  (tunnels.map fun t => (t.queue env cemi).1, tunnels.flatMap fun t => (t.queue env cemi).2)

def sendToTunnelClient (channelId : UInt8) (cemi : CemiFrame) :
    List TunnelClient × List Datagram :=
  match row TunnelClient.channelId channelId tunnels with
  | none => (tunnels, [])
  | some tunnel =>
    (updateFirst (fun t => t.channelId = channelId) (fun t => (t.queue env (asIndication cemi)).1)
        tunnels,
      (tunnel.queue env (asIndication cemi)).2)

/-- The `DISCONNECT_REQUEST` every client gets when the server stops. -/
def farewells : List Datagram :=
  tunnels.flatMap fun t => env.send (.disconnectRequest t.channelId (.natUdp env.port)) t.ctrlAddr

end

/-! ## The server task -/

structure ServerState where
  tunnels : List TunnelClient
  nextChannelId : UInt8
  events : EventQueue ServerEvent
  description : Option DeviceDescription
  multicastTarget : Option SocketAddr
  running : Bool

/-- What a step has brought out: datagrams, and events for the application. -/
structure Output where
  sends : List Datagram
  events : List ServerEvent

inductive Input where
  | datagram (src : SocketAddr) (data : List UInt8)
  | sendFrame (cemi : Cemi)
  | sendToTunnel (channelId : UInt8) (cemi : Cemi)
  | deliver
  | ackDue
  | cleanup
  | stop
  | setDescription (description : DeviceDescription)
  | receive
  | dropReceiver

/-- An environment in which every send succeeds. -/
def calm (now : Nat) : Env := ⟨now, none, fun _ => none, fun _ _ => none⟩

/-- A group write request of one bit. -/
def groupWrite : Cemi :=
  ⟨⟨[0x11, 0, 0xBC, 0xE0, 0, 0, 0x08, 0x01, 1, 0, 0x81], 2, withoutInfo rfl, rfl⟩, rfl⟩

namespace ServerState
variable (env : Env) (state : ServerState)

/-- The state of a server that has just been started, with a channel for 64 events. -/
def start (description : Option DeviceDescription) (multicastTarget : Option SocketAddr) :
    ServerState where
  tunnels := []
  nextChannelId := 1
  events := .new (.new 64)
  description := description
  multicastTarget := multicastTarget
  running := true

def routing : Bool := state.multicastTarget.isSome

def routingEvents (body : List UInt8) : List ServerEvent :=
  match CemiFrame.parse body with
  | .error _ => []
  | .ok cemi => [.routingFrame cemi]

def handlePacket (src : SocketAddr) (data : List UInt8) : ServerState × Output :=
  match KnxIpFrame.parse data with
  | .error _ => (state, ⟨[], []⟩)
  | .ok frame =>
    match frame.serviceType with
    | .routingIndication => (state, ⟨[], routingEvents frame.body⟩)
    | .connectRequest =>
      let (tunnels, nextChannelId, sends) :=
        handleConnect env src frame state.tunnels state.nextChannelId
      ({ state with tunnels := tunnels, nextChannelId := nextChannelId }, ⟨sends, []⟩)
    | .connectionStateRequest =>
      let (tunnels, sends) := handleHeartbeat env src frame state.tunnels
      ({ state with tunnels := tunnels }, ⟨sends, []⟩)
    | .disconnectRequest =>
      let (tunnels, sends) := handleDisconnect env src frame state.tunnels
      ({ state with tunnels := tunnels }, ⟨sends, []⟩)
    | .tunnelingRequest =>
      let (tunnels, sends, events) := handleTunnelingRequest env src frame state.tunnels
      ({ state with tunnels := tunnels }, ⟨sends, events⟩)
    | .tunnelingAck =>
      let (tunnels, sends) := handleTunnelingAck env src frame state.tunnels
      ({ state with tunnels := tunnels }, ⟨sends, []⟩)
    | .searchRequest =>
      (state, ⟨handleSearch env state.description state.routing src frame, []⟩)
    | .searchRequestExtended =>
      (state, ⟨handleSearchExtended env state.description state.routing src frame, []⟩)
    | .descriptionRequest =>
      (state, ⟨handleDescription env state.description state.routing src frame, []⟩)
    | _ => (state, ⟨[], []⟩)

def sendToAll (cemi : CemiFrame) : ServerState × Output :=
  let cemi := asIndication cemi
  let routed := state.multicastTarget.elim [] fun target =>
    env.send (.routingIndication cemi) target
  let (tunnels, sends) := queueAll env state.tunnels cemi
  ({ state with tunnels := tunnels }, ⟨routed ++ sends, []⟩)

/-- What the running task does with an input; a datagram is read only when there is room for
    its event. -/
def serve : Input → ServerState × Output
  | .datagram src data =>
    if state.events.hasRoom then state.handlePacket env src data else (state, ⟨[], []⟩)
  | .sendFrame cemi => state.sendToAll env cemi.val
  | .sendToTunnel channelId cemi =>
    let (tunnels, sends) := sendToTunnelClient env state.tunnels channelId cemi.val
    ({ state with tunnels := tunnels }, ⟨sends, []⟩)
  | .deliver => ({ state with events := state.events.deliver }, ⟨[], []⟩)
  | .ackDue =>
    let (tunnels, sends) := expireAcks env state.tunnels
    ({ state with tunnels := tunnels }, ⟨sends, []⟩)
  | .cleanup => ({ state with tunnels := cleanupStaleTunnels env state.tunnels }, ⟨[], []⟩)
  | .stop => ({ state with tunnels := [], running := false }, ⟨farewells env state.tunnels, []⟩)
  | .setDescription description => ({ state with description := some description }, ⟨[], []⟩)
  | .receive => ({ state with events := state.events.receive }, ⟨[], []⟩)
  | .dropReceiver => ({ state with events := state.events.drop }, ⟨[], []⟩)

/-- One step, with the events it brings out pushed to the application. -/
def step (input : Input) : ServerState × Output :=
  if state.running then
    let (next, output) := state.serve env input
    ({ next with events := output.events.foldl EventQueue.push next.events }, output)
  else match input with
    | .receive => ({ state with events := state.events.receive }, ⟨[], []⟩)
    | _ => (state, ⟨[], []⟩)

def next (event : Env × Input) : ServerState := (state.step event.1 event.2).1

end ServerState
end KnxRs.TunnelServer
