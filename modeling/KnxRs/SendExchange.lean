import KnxRs.TunnelLink

set_option autoImplicit false

/-!
# Sends over a lossy network

The server task and a client task over all its connections, with every datagram that
either has sent. The network delivers any of these at any time, any number of times, or
never. Kept beside are the client's sends, those that have succeeded, and what the
server's application has got of them.
-/
namespace KnxRs.SendExchange
open CoreTypes CemiCodec KnxIpCodec KnxIpNetwork ServerEvents TunnelServer TunnelSteps TunnelRequests
  TunnelConnection ConnectionSteps ConnectionFrames TunnelLink Runs

/-- A datagram on its way between the client's socket at `address` and the server, sent when the
    client had begun `stamp` sends. -/
structure Packet where
  address : SocketAddr
  octets : List UInt8
  stamp : Nat

/-- A send of the client, with the connection and the number it began on. -/
structure Sending where
  cemi : Cemi
  channelId : UInt8
  sequence : UInt8
  address : SocketAddr

/-- Sends are numbered from one. -/
structure Exchange where
  server : ServerState
  client : TunnelTask
  toServer : List Packet
  toClient : List Packet
  started : List Sending
  confirmed : List (Nat × CemiFrame)
  delivered : List (Nat × CemiFrame)

inductive Move where
  | server (env : Env) (input : Input)
  | client (env : Env) (event : Event)
  | toServer (env : Env) (place : Nat)
  | toClient (env : Env) (place : Nat)

def socketOf (task : TunnelTask) : SocketAddr :=
  match task.phase with
  | .connecting localAddr _ _ => localAddr
  | _ => task.state.localAddr

def begins (task : TunnelTask) : Event → Option Cemi
  | .send cemi =>
    match task.phase with
    | .idle => if task.blocked then none else some cemi
    | _ => none
  | _ => none

def successes (replies : List (Cemi × Except KnxIpError Unit)) : List Cemi :=
  replies.filterMap fun reply =>
    match reply.2 with
    | .ok _ => some reply.1
    | .error _ => none

def framesOf (events : List ServerEvent) : List CemiFrame :=
  events.filterMap fun event =>
    match event with
    | .tunnelFrame cemi => some cemi
    | .routingFrame _ => none

def takesOver (state : ServerState) (src : SocketAddr) (octets : List UInt8) : Bool :=
  reads state (.datagram src octets) &&
    match requestOf octets with
    | none => false
    | some (ch, _) =>
      (tunnelOf ch.channelId state.tunnels).any fun t =>
        t.dataAddr = src && ch.sequenceCounter = t.recvSeq

def confirms (task : TunnelTask) (data : List UInt8) : Bool :=
  !task.blocked &&
    match task.phase, KnxIpFrame.parse (data.take recvBufSize) with
    | .awaitingAck _, .ok resp => task.awaitedStatus resp = some eNoError
    | _, _ => false

def takesUp (task : TunnelTask) (data : List UInt8) : Option UInt8 :=
  match task.phase, grantedChannel (data.take recvBufSize) with
  | .connecting _ _ _, .ok channelId => if task.blocked then none else some channelId
  | _, _ => none

namespace Exchange
variable (own : SocketAddr → Bool) (x : Exchange)

def sending : Nat → Option Sending
  | 0 => none
  | n + 1 => x.started[n]?

/-- The server's step; `sender` is the send that a datagram of the client belongs to. -/
def serverStep (env : Env) (input : Input) (sender : Option Nat) : Exchange :=
  { x with
    server := x.server.next (env, input)
    toClient := x.toClient ++ (x.server.step env input).2.sends.map fun d =>
      ⟨d.address, d.octets, x.started.length⟩
    delivered := x.delivered ++ sender.elim [] fun n =>
      (framesOf (x.server.step env input).2.events).map fun cemi => (n, cemi) }

def begun (event : Event) : List Sending :=
  x.started ++ (begins x.client event).toList.map fun cemi =>
    ⟨cemi, x.client.state.channelId, x.client.state.sendSeq, socketOf x.client⟩

def clientStep (env : Env) (event : Event) : Exchange :=
  { x with
    client := x.client.next (env, event)
    started := x.begun event
    toServer := x.toServer ++ (x.client.step env event).2.sends.map fun d =>
      ⟨socketOf (x.client.next (env, event)), d.octets, (x.begun event).length⟩
    confirmed := x.confirmed ++ (successes (x.client.step env event).2.replies).map fun cemi =>
      ((x.begun event).length, cemi.val) }

/-- A step, where `own` are the addresses of the client's sockets: everyone else sends from other
    addresses. -/
def step : Move → Option Exchange
  | .server env (.datagram src data) =>
    if own src then none else some (x.serverStep env (.datagram src data) none)
  | .server env input => some (x.serverStep env input none)
  | .client env event =>
    if isDatagram event || !env.localAddr.all own then none else some (x.clientStep env event)
  | .toServer env place =>
    (x.toServer[place]?).map fun p =>
      x.serverStep env (.datagram p.address p.octets) (some p.stamp)
  | .toClient env place =>
    (x.toClient[place]?).bind fun p =>
      if onSocket x.client && p.address = socketOf x.client && env.localAddr.all own then
        some (x.clientStep env (.datagram p.octets))
      else none

def start (env : Env) (config : TunnelConfig)
    (description : Option ServerDescription.DeviceDescription)
    (multicastTarget : Option SocketAddr) : Exchange where
  server := .start description multicastTarget
  client := (TunnelTask.connect env config).1
  toServer := (TunnelTask.connect env config).2.sends.map fun d =>
    ⟨socketOf (TunnelTask.connect env config).1, d.octets, 0⟩
  toClient := []
  started := []
  confirmed := []
  delivered := []

def taken : Bool := (x.delivered.map Prod.fst).contains x.started.length

/-! ## What may not happen -/

/-- The send that would begin has the number of the one before it, whose frame the server has taken
    over. -/
def reuses : Bool :=
  x.started.getLast?.any fun s =>
    s.channelId = x.client.state.channelId && s.sequence = x.client.state.sendSeq &&
      s.address = socketOf x.client && x.taken

/-- The channels and data endpoints of the client's last send and of its connection, with the
    number that is next on each. -/
def endpoints : List (UInt8 × SocketAddr × UInt8) :=
  (x.started.getLast?.toList.map fun s =>
    (s.channelId, s.address, if x.taken then s.sequence + 1 else s.sequence)) ++
  if isConnected x.client.phase then
    [(x.client.state.channelId, socketOf x.client, x.client.state.sendSeq)]
  else []

/-- The server makes a tunnel of these once more that does not expect the number. -/
def renews (event : Env × Input) : Bool :=
  x.endpoints.any fun e =>
    (tunnelOf e.1 x.server.tunnels).isNone &&
      (tunnelOf e.1 (x.server.next event).tunnels).any fun t =>
        t.dataAddr = e.2.1 && t.recvSeq ≠ e.2.2

/-- The server takes over a request of an earlier send, on one of these or once more. -/
def repeatsRequest (p : Packet) : Bool :=
  takesOver x.server p.address p.octets && p.stamp ≠ x.started.length &&
    ((x.delivered.map Prod.fst).contains p.stamp ||
      (requestOf p.octets).any fun request =>
        x.endpoints.any fun e => e.1 = request.1.channelId && e.2.1 = p.address)

/-- The client takes an acknowledgement from before its send, whose frame has not been delivered. -/
def repeatsAck (p : Packet) : Bool :=
  confirms x.client p.octets && p.stamp ≠ x.started.length && !x.taken

/-- The client takes up a channel on which its endpoint has been heard before. -/
def rejoins (data : List UInt8) : Bool :=
  (takesUp x.client data).any fun channelId =>
    (tunnelOf channelId x.server.tunnels).any fun t =>
      t.dataAddr = socketOf x.client && t.recvSeq ≠ 0

/-- No send begins with the number of a failed one whose frame was taken over, and no datagram of an
    earlier send or connection is mistaken for one of the present. -/
def timely : Move → Bool
  | .server env input => !x.renews (env, input)
  | .client _ event => !((begins x.client event).isSome && x.reuses)
  | .toServer env place =>
    (x.toServer[place]?).all fun p =>
      !x.renews (env, .datagram p.address p.octets) && !x.repeatsRequest p
  | .toClient _ place =>
    (x.toClient[place]?).all fun p => !x.repeatsAck p && !x.rejoins p.octets

/-! ## What is to hold -/

/-- No frame is delivered twice, the successful sends are delivered in their order, and on to the
    application while it listens; and a request of the last send counts as a repetition only if
    its frame has been delivered. -/
structure Faithful : Prop where
  once : (x.delivered.map Prod.fst).Nodup
  frames : ∀ y ∈ x.delivered, ∃ s, x.sending y.1 = some s ∧ s.cemi.val = y.2
  ordered : x.confirmed.Pairwise fun y z => y.1 < z.1
  confirmed : x.confirmed.Sublist x.delivered
  reaches : x.server.events.tx.closed = false →
    (x.delivered.map fun y => ServerEvent.tunnelFrame y.2).Sublist x.server.events.held
  repeats : ∀ p ∈ x.toServer, ∀ ch cemi t, p.stamp = x.started.length →
    requestOf p.octets = some (ch, cemi) → tunnelOf ch.channelId x.server.tunnels = some t →
    t.dataAddr = p.address → ch.sequenceCounter ≠ t.recvSeq → x.taken

end Exchange
end KnxRs.SendExchange
