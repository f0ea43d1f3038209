import KnxRs.OutboxSteps
import KnxRs.StopAndWait

set_option autoImplicit false

/-!
# One tunnel connection

The server task and a client task with the datagrams between them. The network may lose
a datagram or repeat it in its place, but keeps the order. The server also takes
commands, timers and the datagrams of everyone else.
-/
namespace KnxRs.TunnelLink
open CoreTypes CemiCodec KnxIpCodec KnxIpNetwork BoundedChannel KeyedRows TunnelServer TunnelSteps
  TunnelOutbox TunnelConnection ConnectionSteps ConnectionFrames Runs

/-- Both ends, the datagrams under way, oldest first, and the history of the server. -/
structure Connection where
  server : ServerState
  client : TunnelTask
  toServer : List (List UInt8)
  toClient : List (List UInt8)
  served : List (Transition ServerState (Env × Input))

/-- With `again`, the datagram that is read comes once more. -/
inductive Move where
  | server (env : Env) (input : Input)
  | client (env : Env) (event : Event)
  | serverReads (env : Env) (again : Bool)
  | clientReads (env : Env) (again : Bool)
  | loseToServer (place : Nat)
  | loseToClient (place : Nat)

/-- What reaches the client's socket of all the server sends. -/
def arriving (client : SocketAddr) (sends : List Datagram) : List (List UInt8) :=
  (sends.filter fun d => d.address = client).map Datagram.octets

def comesFrom (client : SocketAddr) : Input → Bool
  | .datagram src _ => src = client
  | _ => false

def isDatagram : Event → Bool
  | .datagram _ => true
  | _ => false

def onSocket (task : TunnelTask) : Bool := isConnected task.phase || isConnecting task.phase

namespace Connection
variable (client : SocketAddr) (c : UInt8) (conn : Connection)

def serverStep (env : Env) (input : Input) : Connection :=
  { conn with
    server := conn.server.next (env, input)
    toClient := conn.toClient ++ arriving client (conn.server.step env input).2.sends
    served := conn.served ++ [⟨conn.server, (env, input), conn.server.next (env, input)⟩] }

def clientStep (env : Env) (event : Event) : Connection :=
  { conn with
    client := conn.client.next (env, event)
    toServer := conn.toServer ++ (conn.client.step env event).2.sends.map Datagram.octets }

def live : Bool := (tunnelOf c conn.server.tunnels).isSome

/-- A step of the connection on channel `c` with the client's socket at `client`: the server takes
    part while it has the tunnel, the client until it opens another socket. -/
def step : Move → Option Connection
  | .server env input =>
    if conn.live c && !comesFrom client input then some (conn.serverStep client env input)
    else none
  | .client env event =>
    if isDatagram event || reopens conn.client event then none
    else some (conn.clientStep env event)
  | .serverReads env again =>
    match conn.toServer with
    | [] => none
    | d :: rest =>
      if conn.live c then
        some (serverStep client { conn with toServer := if again then d :: rest else rest } env
          (.datagram client d))
      else none
  | .clientReads env again =>
    match conn.toClient with
    | [] => none
    | d :: rest =>
      if onSocket conn.client then
        some (clientStep { conn with toClient := if again then d :: rest else rest } env
          (.datagram d))
      else none
  | .loseToServer place => some { conn with toServer := conn.toServer.eraseIdx place }
  | .loseToClient place => some { conn with toClient := conn.toClient.eraseIdx place }

/-- The server has just made the tunnel of channel `c` for the client's socket, on which the client
    still waits for its response. -/
structure Opening (description : Option ServerDescription.DeviceDescription)
    (multicastTarget : Option SocketAddr) : Prop where
  history : Run (fun s e s' => s.next e = s') (.start description multicastTarget) conn.served
    conn.server
  opened : ∃ past x, conn.served = past ++ [x] ∧ tunnelOf c x.source.tunnels = none
  tunnel : ∃ t, tunnelOf c conn.server.tunnels = some t ∧ t.dataAddr = client
  connecting : isConnecting conn.client.phase
  noFrames : conn.toClient.filterMap (frameOf c) = []
  noAcks : conn.toServer.filterMap (ackOf c) = []

end Connection
end KnxRs.TunnelLink
