import KnxRs.CemiCodec

set_option autoImplicit false

/-!
# KNXnet/IP frames

The common header, the connection header and the endpoint information, with the
frames that client and server build from them.
-/
namespace KnxRs.KnxIpCodec
open CoreTypes

def headerLen : Nat := 6
def protocolVersion10 : UInt8 := 0x10
def knxPort : UInt16 := 3671

def tunnelConnection : UInt8 := 0x04
def deviceMgmtConnection : UInt8 := 0x03
def tunnelLinklayer : UInt8 := 0x02
def criCrdLen : UInt8 := 0x04
def tunnelIaBase : UInt16 := 0xFF00

def eNoError : UInt8 := 0x00
def eConnectionId : UInt8 := 0x21
def eConnectionType : UInt8 := 0x22
def eNoMoreConnections : UInt8 := 0x24

def tunnelCri : List UInt8 := [criCrdLen, tunnelConnection, tunnelLinklayer, 0x00]

def tunnelCrd (individualAddress : UInt16) : List UInt8 :=
  [criCrdLen, tunnelConnection] ++ be16Bytes individualAddress

/-! ## Service types -/

inductive ServiceType where
  | searchRequest
  | searchResponse
  | descriptionRequest
  | descriptionResponse
  | connectRequest
  | connectResponse
  | connectionStateRequest
  | connectionStateResponse
  | disconnectRequest
  | disconnectResponse
  | searchRequestExtended
  | searchResponseExtended
  | deviceConfigurationRequest
  | deviceConfigurationAck
  | tunnelingRequest
  | tunnelingAck
  | routingIndication
  | routingLostMessage
  | routingBusy
  deriving DecidableEq

namespace ServiceType

def raw : ServiceType → UInt16
  | searchRequest => 0x0201
  | searchResponse => 0x0202
  | descriptionRequest => 0x0203
  | descriptionResponse => 0x0204
  | connectRequest => 0x0205
  | connectResponse => 0x0206
  | connectionStateRequest => 0x0207
  | connectionStateResponse => 0x0208
  | disconnectRequest => 0x0209
  | disconnectResponse => 0x020A
  | searchRequestExtended => 0x020B
  | searchResponseExtended => 0x020C
  | deviceConfigurationRequest => 0x0310
  | deviceConfigurationAck => 0x0311
  | tunnelingRequest => 0x0420
  | tunnelingAck => 0x0421
  | routingIndication => 0x0530
  | routingLostMessage => 0x0531
  | routingBusy => 0x0532

def fromRaw (raw : UInt16) : Option ServiceType :=
  if raw = 0x0201 then some searchRequest
  else if raw = 0x0202 then some searchResponse
  else if raw = 0x0203 then some descriptionRequest
  else if raw = 0x0204 then some descriptionResponse
  else if raw = 0x0205 then some connectRequest
  else if raw = 0x0206 then some connectResponse
  else if raw = 0x0207 then some connectionStateRequest
  else if raw = 0x0208 then some connectionStateResponse
  else if raw = 0x0209 then some disconnectRequest
  else if raw = 0x020A then some disconnectResponse
  else if raw = 0x020B then some searchRequestExtended
  else if raw = 0x020C then some searchResponseExtended
  else if raw = 0x0310 then some deviceConfigurationRequest
  else if raw = 0x0311 then some deviceConfigurationAck
  else if raw = 0x0420 then some tunnelingRequest
  else if raw = 0x0421 then some tunnelingAck
  else if raw = 0x0530 then some routingIndication
  else if raw = 0x0531 then some routingLostMessage
  else if raw = 0x0532 then some routingBusy
  else none

theorem fromRaw_raw (service : ServiceType) : fromRaw service.raw = some service := by
  cases service <;> rfl

theorem of_ite_some {c : Prop} [Decidable c] {service service' : ServiceType}
    {rest : Option ServiceType} (h : (if c then some service' else rest) = some service) :
    c ∧ service' = service ∨ rest = some service := by
  split at h
  · exact .inl ⟨‹_›, Option.some.inj h⟩
  · exact .inr h

theorem fromRaw_some {raw : UInt16} {service : ServiceType} (h : fromRaw raw = some service) :
    service.raw = raw := by
  unfold fromRaw at h
  repeat'
    obtain ⟨hraw, rfl⟩ | h := of_ite_some h
    · exact hraw.symm
  cases h

end ServiceType

/-! ## Frames -/

inductive KnxIpParseError where
  | tooShort
  | invalidHeaderLength
  | invalidProtocolVersion
  | lengthMismatch
  | unknownServiceType (raw : UInt16)
  | frameTooLong (len : Nat)
  deriving DecidableEq

structure KnxIpFrame where
  serviceType : ServiceType
  body : List UInt8
  deriving DecidableEq

namespace KnxIpFrame

def parse (data : List UInt8) : Except KnxIpParseError KnxIpFrame :=
  if data.length < headerLen then .error .tooShort
  else if data.getD 0 0 ≠ UInt8.ofNat headerLen then .error .invalidHeaderLength
  else if data.getD 1 0 ≠ protocolVersion10 then .error .invalidProtocolVersion
  else
    let serviceRaw := be16 (data.getD 2 0) (data.getD 3 0)
    let totalLen := (be16 (data.getD 4 0) (data.getD 5 0)).toNat
    if data.length ≠ totalLen then .error .lengthMismatch
    else match ServiceType.fromRaw serviceRaw with
      | none => .error (.unknownServiceType serviceRaw)
      | some serviceType => .ok ⟨serviceType, (data.take totalLen).drop headerLen⟩

/-- The octets of a frame with `totalLen` in its length field. -/
def octets (frame : KnxIpFrame) (totalLen : UInt16) : List UInt8 :=
  [UInt8.ofNat headerLen, protocolVersion10] ++ be16Bytes frame.serviceType.raw ++
    be16Bytes totalLen ++ frame.body

def tryToBytes (frame : KnxIpFrame) : Except KnxIpParseError (List UInt8) :=
  let totalLen := headerLen + frame.body.length
  if totalLen < 2 ^ 16 then .ok (frame.octets (UInt16.ofNat totalLen))
  else .error (.frameTooLong totalLen)

end KnxIpFrame

/-! ## Connection header and endpoint information -/

structure ConnectionHeader where
  channelId : UInt8
  sequenceCounter : UInt8
  status : UInt8
  deriving DecidableEq

namespace ConnectionHeader

def len : Nat := 4

def parse (data : List UInt8) : Option ConnectionHeader :=
  if data.length < len then none
  else some ⟨data.getD 1 0, data.getD 2 0, data.getD 3 0⟩

def toBytes (header : ConnectionHeader) : List UInt8 :=
  [UInt8.ofNat len, header.channelId, header.sequenceCounter, header.status]

theorem parse_toBytes (header : ConnectionHeader) (rest : List UInt8) :
    parse (header.toBytes ++ rest) = some header := by
  unfold parse
  rw [if_neg (by simp only [toBytes, len, List.length_append, List.length_cons]; omega)]
  rfl

theorem toBytes_parse {data : List UInt8} {header : ConnectionHeader}
    (h : parse data = some header) : header.toBytes = UInt8.ofNat len :: (data.take len).drop 1 := by
  rcases data with _ | ⟨a, _ | ⟨b, _ | ⟨c, _ | ⟨d, rest⟩⟩⟩⟩
  all_goals cases h
  rfl

end ConnectionHeader

inductive HostProtocol where
  | ipv4Udp
  | ipv4Tcp
  deriving DecidableEq

namespace HostProtocol

def raw : HostProtocol → UInt8
  | ipv4Udp => 0x01
  | ipv4Tcp => 0x02

def fromRaw (raw : UInt8) : Option HostProtocol :=
  if raw = 0x01 then some ipv4Udp
  else if raw = 0x02 then some ipv4Tcp
  else none

theorem fromRaw_some {raw : UInt8} {protocol : HostProtocol} (h : fromRaw raw = some protocol) :
    protocol.raw = raw := by
  unfold fromRaw at h
  split_ifs at h with hraw hraw
  · cases h
    exact hraw.symm
  · cases h
    exact hraw.symm

end HostProtocol

structure Ipv4Addr where
  a : UInt8
  b : UInt8
  c : UInt8
  d : UInt8
  deriving DecidableEq

def Ipv4Addr.unspecified : Ipv4Addr := ⟨0, 0, 0, 0⟩

def Ipv4Addr.octets (ip : Ipv4Addr) : List UInt8 := [ip.a, ip.b, ip.c, ip.d]

structure Hpai where
  protocol : HostProtocol
  ip : Ipv4Addr
  port : UInt16
  deriving DecidableEq

namespace Hpai

def len : Nat := 8

def parse (data : List UInt8) : Option Hpai :=
  if data.length < len ∨ data.getD 0 0 ≠ UInt8.ofNat len then none
  else match HostProtocol.fromRaw (data.getD 1 0) with
    | none => none
    | some protocol =>
      some ⟨protocol, ⟨data.getD 2 0, data.getD 3 0, data.getD 4 0, data.getD 5 0⟩,
        be16 (data.getD 6 0) (data.getD 7 0)⟩

def natUdp (port : UInt16) : Hpai := ⟨.ipv4Udp, .unspecified, port⟩

def isUnspecified (hpai : Hpai) : Bool := hpai.ip = .unspecified

def toBytes (hpai : Hpai) : List UInt8 :=
  [UInt8.ofNat len, hpai.protocol.raw] ++ hpai.ip.octets ++ be16Bytes hpai.port

theorem toBytes_length (hpai : Hpai) : hpai.toBytes.length = len := rfl

theorem parse_toBytes (hpai : Hpai) (rest : List UInt8) :
    parse (hpai.toBytes ++ rest) = some hpai := by
  have hport := be16_be16Bytes hpai.port
  have hlen : ¬((hpai.toBytes ++ rest).length < len ∨
      (hpai.toBytes ++ rest).getD 0 0 ≠ UInt8.ofNat len) := by
    rw [List.length_append, toBytes_length]
    rintro (h | h)
    · omega
    · exact h rfl
  unfold parse
  rw [if_neg hlen]
  obtain ⟨protocol, ip, port⟩ := hpai
  cases protocol with
  | ipv4Udp => exact congrArg (fun p => some (Hpai.mk .ipv4Udp ip p)) hport
  | ipv4Tcp => exact congrArg (fun p => some (Hpai.mk .ipv4Tcp ip p)) hport

theorem toBytes_parse {data : List UInt8} {hpai : Hpai} (h : parse data = some hpai) :
    hpai.toBytes = data.take len := by
  unfold parse at h
  split_ifs at h with hform
  obtain ⟨hlength, hlen⟩ := not_or.mp hform
  split at h
  · cases h
  · next protocol hprotocol =>
    have hraw := HostProtocol.fromRaw_some hprotocol
    cases h
    rcases data with _ | ⟨a, _ | ⟨b, _ | ⟨c, _ | ⟨d, _ | ⟨e, _ | ⟨f, _ | ⟨g, _ | ⟨i, rest⟩⟩⟩⟩⟩⟩⟩⟩
    case cons.cons.cons.cons.cons.cons.cons.cons =>
      have hfirst : a = UInt8.ofNat len := not_not.mp hlen
      have hprotocolRaw : protocol.raw = b := hraw
      rw [toBytes, hprotocolRaw, hfirst]
      show _ ++ be16Bytes (be16 g i) = _
      rw [be16Bytes_be16]
      rfl
    all_goals exact absurd (by simp only [List.length_cons, List.length_nil, len]; omega) hlength

end Hpai

/-! ## Typed constructors -/

namespace KnxIpFrame

def connectionManagementBody (channelId : UInt8) (control : Hpai) : List UInt8 :=
  [channelId, 0] ++ control.toBytes

def routingIndication (cemi : List UInt8) : KnxIpFrame := ⟨.routingIndication, cemi⟩

def tunnelingRequest (channelId sequence : UInt8) (cemi : List UInt8) : KnxIpFrame :=
  ⟨.tunnelingRequest, (ConnectionHeader.mk channelId sequence eNoError).toBytes ++ cemi⟩

def tunnelingAck (channelId sequence status : UInt8) : KnxIpFrame :=
  ⟨.tunnelingAck, (ConnectionHeader.mk channelId sequence status).toBytes⟩

def connectionStateRequest (channelId : UInt8) (control : Hpai) : KnxIpFrame :=
  ⟨.connectionStateRequest, connectionManagementBody channelId control⟩

def disconnectRequest (channelId : UInt8) (control : Hpai) : KnxIpFrame :=
  ⟨.disconnectRequest, connectionManagementBody channelId control⟩

def searchResponse (control : Hpai) (dibs : List UInt8) : KnxIpFrame :=
  ⟨.searchResponse, control.toBytes ++ dibs⟩

def searchResponseExtended (control : Hpai) (dibs : List UInt8) : KnxIpFrame :=
  { searchResponse control dibs with serviceType := .searchResponseExtended }

def descriptionResponse (dibs : List UInt8) : KnxIpFrame := ⟨.descriptionResponse, dibs⟩

def connectRequest (control data : Hpai) (cri : List UInt8) : KnxIpFrame :=
  ⟨.connectRequest, control.toBytes ++ data.toBytes ++ cri⟩

/-! ## What is written is read back -/

variable {frame : KnxIpFrame} {bytes : List UInt8}

theorem tryToBytes_ok (h : headerLen + frame.body.length < 2 ^ 16) :
    frame.tryToBytes = .ok (frame.octets (UInt16.ofNat (headerLen + frame.body.length))) := by
  unfold tryToBytes
  rw [if_pos h]

theorem octets_length (frame : KnxIpFrame) (totalLen : UInt16) :
    (frame.octets totalLen).length = headerLen + frame.body.length := by
  simp only [octets, be16Bytes, headerLen, List.length_append, List.length_cons, List.length_nil]

theorem parse_octets (h : headerLen + frame.body.length < 2 ^ 16) :
    parse (frame.octets (UInt16.ofNat (headerLen + frame.body.length))) = .ok frame := by
  have hlen := frame.octets_length (UInt16.ofNat (headerLen + frame.body.length))
  have htotal : (be16 ((frame.octets (UInt16.ofNat (headerLen + frame.body.length))).getD 4 0)
      ((frame.octets (UInt16.ofNat (headerLen + frame.body.length))).getD 5 0)).toNat =
      headerLen + frame.body.length := by
    refine (congrArg UInt16.toNat (be16_be16Bytes _)).trans ?_
    rw [UInt16.toNat_ofNat', Nat.mod_eq_of_lt h]
  have hservice : be16 ((frame.octets (UInt16.ofNat (headerLen + frame.body.length))).getD 2 0)
      ((frame.octets (UInt16.ofNat (headerLen + frame.body.length))).getD 3 0) =
      frame.serviceType.raw := be16_be16Bytes frame.serviceType.raw
  have hbody : ((frame.octets (UInt16.ofNat (headerLen + frame.body.length))).take
      (headerLen + frame.body.length)).drop headerLen = frame.body := by
    rw [List.take_of_length_le (by omega)]
    rfl
  unfold parse
  dsimp only
  rw [if_neg (by omega), if_neg (fun h => h rfl), if_neg (fun h => h rfl), htotal, hservice,
    if_neg (by omega), ServiceType.fromRaw_raw, hbody]

theorem parse_tryToBytes (h : frame.tryToBytes = .ok bytes) : parse bytes = .ok frame := by
  unfold tryToBytes at h
  dsimp only at h
  split_ifs at h with hlen
  cases h
  exact parse_octets hlen

theorem tryToBytes_length (h : frame.tryToBytes = .ok bytes) :
    bytes.length = headerLen + frame.body.length := by
  unfold tryToBytes at h
  dsimp only at h
  split_ifs at h with hlen
  cases h
  exact frame.octets_length _

theorem parse_length {data : List UInt8} (h : parse data = .ok frame) :
    headerLen ≤ data.length ∧ data.length = (be16 (data.getD 4 0) (data.getD 5 0)).toNat := by
  unfold parse at h
  dsimp only at h
  split_ifs at h with hshort _ _ hlen
  exact ⟨Nat.le_of_not_lt hshort, not_not.mp hlen⟩

/-- A parsed frame is written as the octets that its header declares, all those received. -/
theorem tryToBytes_parse {data : List UInt8} (h : parse data = .ok frame) :
    frame.tryToBytes = .ok data := by
  obtain ⟨hmin, htotal⟩ := parse_length h
  rcases data with _ | ⟨a, _ | ⟨b, _ | ⟨c, _ | ⟨d, _ | ⟨e, _ | ⟨f, body⟩⟩⟩⟩⟩⟩
  case cons.cons.cons.cons.cons.cons =>
    have htotal' : (a :: b :: c :: d :: e :: f :: body).length = (be16 e f).toNat := htotal
    have hwhole : headerLen + body.length = (be16 e f).toNat := by
      rw [← htotal']
      simp only [List.length_cons, headerLen]
      omega
    unfold parse at h
    dsimp only at h
    split_ifs at h with _ hfirst hversion _
    split at h
    · cases h
    · next service hservice =>
      have hraw : service.raw = be16 c d := ServiceType.fromRaw_some hservice
      have hbody : frame = ⟨service, body⟩ := by
        rw [← Except.ok.inj h, ← htotal, List.take_length]
        rfl
      rw [hbody, tryToBytes_ok (hwhole ▸ (be16 e f).toNat_lt), octets, hwhole, UInt16.ofNat_toNat,
        hraw, be16Bytes_be16, be16Bytes_be16]
      have hlen : a = UInt8.ofNat headerLen := not_not.mp hfirst
      have hprotocol : b = protocolVersion10 := not_not.mp hversion
      rw [hlen, hprotocol]
      rfl
  all_goals exact absurd hmin (by simp only [List.length_cons, List.length_nil, headerLen]; omega)

theorem parse_take {data : List UInt8} {n : Nat} {frame' : KnxIpFrame}
    (h : parse data = .ok frame) (h' : parse (data.take n) = .ok frame') :
    data.take n = data := by
  obtain ⟨_, htotal⟩ := parse_length h
  obtain ⟨hmin, htotal'⟩ := parse_length h'
  have hkept : headerLen ≤ n := by
    rw [List.length_take] at hmin
    exact Nat.le_trans hmin (Nat.min_le_left _ _)
  have hsame (i : Nat) (hi : i < headerLen) : (data.take n).getD i 0 = data.getD i 0 := by
    rw [List.getD_eq_getElem?_getD, List.getD_eq_getElem?_getD,
      List.getElem?_take_of_lt (Nat.lt_of_lt_of_le hi hkept)]
  rw [hsame 4 (by decide), hsame 5 (by decide), ← htotal, List.length_take] at htotal'
  have hle := Nat.min_le_left n data.length
  rw [htotal'] at hle
  exact List.take_of_length_le hle

end KnxIpFrame

/-- A frame, an endpoint and a connection header that were read are written as they were, and
what was written is read as it was. -/
theorem written_readBack :
    (∀ data frame, KnxIpFrame.parse data = .ok frame → frame.tryToBytes =
      .ok (data.take (be16 (data.getD 4 0) (data.getD 5 0)).toNat)) ∧
    (∀ (frame : KnxIpFrame) bytes, frame.tryToBytes = .ok bytes →
      KnxIpFrame.parse bytes = .ok frame) ∧
    (∀ data hpai, Hpai.parse data = some hpai → hpai.toBytes = data.take Hpai.len) ∧
    (∀ hpai : Hpai, Hpai.parse hpai.toBytes = some hpai) ∧
    (∀ data header, ConnectionHeader.parse data = some header →
      data.getD 0 0 = UInt8.ofNat ConnectionHeader.len →
      header.toBytes = data.take ConnectionHeader.len) ∧
    ∀ header : ConnectionHeader, ConnectionHeader.parse header.toBytes = some header := by
  refine ⟨?_, ?_, ?_, ?_, ?_, ?_⟩
  · intro data frame h
    rw [← (KnxIpFrame.parse_length h).2, List.take_length]
    exact KnxIpFrame.tryToBytes_parse h
  · intro frame bytes h
    exact KnxIpFrame.parse_tryToBytes h
  · intro data hpai h
    exact Hpai.toBytes_parse h
  · intro hpai
    have := Hpai.parse_toBytes hpai []
    rwa [List.append_nil] at this
  · intro data header h hlen
    rw [ConnectionHeader.toBytes_parse h, ← hlen]
    rcases data with _ | ⟨octet, rest⟩
    · cases h
    · rfl
  · intro header
    have := ConnectionHeader.parse_toBytes header []
    rwa [List.append_nil] at this

theorem ack_readBack : ∃ bytes, (KnxIpFrame.tunnelingAck 1 2 eNoError).tryToBytes = .ok bytes ∧
    KnxIpFrame.parse bytes = .ok (KnxIpFrame.tunnelingAck 1 2 eNoError) :=
  ⟨_, rfl, written_readBack.2.1 _ _ rfl⟩

end KnxRs.KnxIpCodec
