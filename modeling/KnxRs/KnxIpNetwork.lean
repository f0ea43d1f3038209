import KnxRs.KnxIpCodec

set_option autoImplicit false

/-!
# Endpoints and the network a server step sees

Socket addresses, datagrams, and what a step learns from the operating system: the
time, the addresses of its socket, and whether a send fails.
-/
namespace KnxRs.KnxIpNetwork
open CoreTypes KnxIpCodec

inductive SocketAddr where
  | v4 (ip : Ipv4Addr) (port : UInt16)
  | v6 (ip : BitVec 128) (port : UInt16) (flowinfo scopeId : UInt32)
  deriving DecidableEq

def SocketAddr.port : SocketAddr → UInt16
  | .v4 _ port => port
  | .v6 _ port _ _ => port

def socketAddrWithPort (src : SocketAddr) (port : UInt16) : SocketAddr :=
  let port := if port = 0 then src.port else port
  match src with
  | .v4 ip _ => .v4 ip port
  | .v6 ip _ flowinfo scopeId => .v6 ip port flowinfo scopeId

def hpaiToSocketAddr (hpai : Hpai) (src : SocketAddr) : SocketAddr :=
  if hpai.isUnspecified then socketAddrWithPort src hpai.port else .v4 hpai.ip hpai.port

/-- The endpoint information of a local socket address. -/
def buildHpai : SocketAddr → Hpai
  | .v4 ip port => ⟨.ipv4Udp, ip, port⟩
  | .v6 _ port _ _ => .natUdp port

structure Datagram where
  address : SocketAddr
  octets : List UInt8
  deriving DecidableEq

/-- What one step of the server task sees of its surroundings. Instants are milliseconds. -/
structure Env where
  now : Nat
  localAddr : Option SocketAddr
  sourceAddressTowards : SocketAddr → Option Ipv4Addr
  sendError : SocketAddr → List UInt8 → Option String

namespace Env
variable (env : Env)

/-- `socket.local_addr().map_or(KNX_PORT, |addr| addr.port())`. -/
def port : UInt16 := env.localAddr.elim knxPort SocketAddr.port

def sendTo (octets : List UInt8) (dst : SocketAddr) : List Datagram :=
  if env.sendError dst octets = none then [⟨dst, octets⟩] else []

/-- `serialize_frame` and a send whose outcome is ignored. -/
def send (frame : KnxIpFrame) (dst : SocketAddr) : List Datagram :=
  match frame.tryToBytes with
  | .ok octets => env.sendTo octets dst
  | .error _ => []

variable {env}

theorem mem_sendTo {octets : List UInt8} {dst : SocketAddr} {d : Datagram}
    (h : d ∈ env.sendTo octets dst) : d = ⟨dst, octets⟩ := by
  unfold sendTo at h
  split_ifs at h
  · exact List.mem_singleton.mp h
  · cases h

theorem mem_send {frame : KnxIpFrame} {dst : SocketAddr} {d : Datagram}
    (h : d ∈ env.send frame dst) :
    d.address = dst ∧ KnxIpFrame.parse d.octets = .ok frame := by
  unfold send at h
  rcases hbytes : frame.tryToBytes with e | octets
  · rw [hbytes] at h
    cases h
  · rw [hbytes] at h
    have hd := mem_sendTo h
    subst hd
    exact ⟨rfl, KnxIpFrame.parse_tryToBytes hbytes⟩

end Env
end KnxRs.KnxIpNetwork
