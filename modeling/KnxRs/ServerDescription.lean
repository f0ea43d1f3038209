import KnxRs.KnxIpNetwork

set_option autoImplicit false

/-!
# Search and description requests

The description blocks a server presents itself with, the parameters of an extended
search, and the answers the server gives.
-/
namespace KnxRs.ServerDescription
open CoreTypes KnxIpCodec KnxIpNetwork

/-! ## Description blocks -/

inductive KnxMedium where
  | tp1
  | pl110
  | radioFrequency
  | ip
  deriving DecidableEq

def KnxMedium.raw : KnxMedium → UInt8
  | tp1 => 0x02
  | pl110 => 0x04
  | radioFrequency => 0x10
  | ip => 0x20

inductive ServiceFamily where
  | core
  | deviceManagement
  | tunneling
  | routing
  | remoteLogging
  | remoteConfiguration
  | objectServer
  deriving DecidableEq

def ServiceFamily.raw : ServiceFamily → UInt8
  | core => 0x02
  | deviceManagement => 0x03
  | tunneling => 0x04
  | routing => 0x05
  | remoteLogging => 0x06
  | remoteConfiguration => 0x07
  | objectServer => 0x08

/-- A six-octet serial number or hardware address. -/
abbrev SixOctets := { octets : List UInt8 // octets.length = 6 }

structure DeviceInformation where
  medium : KnxMedium
  programmingMode : Bool
  individualAddress : UInt16
  projectInstallationIdentifier : UInt16
  serialNumber : SixOctets
  routingMulticastAddress : Ipv4Addr
  macAddress : SixOctets
  friendlyName : String

def friendlyNameLen : Nat := 30

/-- A character as an ISO-8859-1 octet, `?` for one outside that set. -/
def latin1 (ch : Char) : UInt8 := if ch.toNat < 256 then UInt8.ofNat ch.toNat else 0x3F

def DeviceInformation.toBytes (information : DeviceInformation) : List UInt8 :=
  let name := (information.friendlyName.toList.take friendlyNameLen).map latin1
  [54, 0x01, information.medium.raw, if information.programmingMode then 1 else 0] ++
    be16Bytes information.individualAddress ++
    be16Bytes information.projectInstallationIdentifier ++ information.serialNumber.val ++
    information.routingMulticastAddress.octets ++ information.macAddress.val ++ name ++
    List.replicate (friendlyNameLen - name.length) 0

def maxServiceFamilies : Nat := 126

def supportedServiceFamiliesDib (families : List (ServiceFamily × UInt8)) : List UInt8 :=
  let families := families.take maxServiceFamilies
  [UInt8.ofNat (2 + 2 * families.length), 0x02] ++
    families.flatMap fun pair => [pair.1.raw, pair.2]

/-! ## Search request parameters -/

def srpHeaderLen : Nat := 2
def mandatoryFlag : UInt8 := 0x80
def typeMask : UInt8 := 0x7F

inductive SrpType where
  | invalid
  | selectByProgrammingMode
  | selectByMacAddress
  | selectByService
  | requestDibs
  deriving DecidableEq

def SrpType.fromRaw (raw : UInt8) : Option SrpType :=
  if raw = 0x00 then some invalid
  else if raw = 0x01 then some selectByProgrammingMode
  else if raw = 0x02 then some selectByMacAddress
  else if raw = 0x03 then some selectByService
  else if raw = 0x04 then some requestDibs
  else none

inductive SrpParseError where
  | tooShort (remaining : Nat)
  | lengthBelowHeader (length : Nat)
  | lengthExceedsData (length remaining : Nat)
  deriving DecidableEq

structure Srp where
  bytes : List UInt8
  deriving DecidableEq

namespace Srp
variable (srp : Srp)

def isMandatory : Bool := srp.bytes.getD 1 0 &&& mandatoryFlag ≠ 0

def typeRaw : UInt8 := srp.bytes.getD 1 0 &&& typeMask

def srpType : Option SrpType := SrpType.fromRaw srp.typeRaw

def data : List UInt8 := srp.bytes.drop srpHeaderLen

end Srp

def splitFirst (bytes : List UInt8) : Except SrpParseError (Srp × List UInt8) :=
  let length := (bytes.getD 0 0).toNat
  if bytes.length < srpHeaderLen then .error (.tooShort bytes.length)
  else if length < srpHeaderLen then .error (.lengthBelowHeader length)
  else if bytes.length < length then .error (.lengthExceedsData length bytes.length)
  else .ok (⟨bytes.take length⟩, bytes.drop length)

theorem splitFirst_tail_lt {bytes tail : List UInt8} {srp : Srp}
    (h : splitFirst bytes = .ok (srp, tail)) : tail.length < bytes.length := by
  unfold splitFirst at h
  dsimp only at h
  split_ifs at h with hshort hbelow hexceeds
  cases h
  rw [List.length_drop]
  dsimp only [srpHeaderLen] at hshort hbelow
  omega

/-- `SrpSequence::parse`: every parameter of the sequence is well formed. -/
def SrpSequence.validate (rest : List UInt8) : Except SrpParseError Unit :=
  if rest = [] then .ok ()
  else match h : splitFirst rest with
    | .error e => .error e
    | .ok (_, tail) =>
      have := splitFirst_tail_lt h
      SrpSequence.validate tail
termination_by rest.length

def SrpSequence.iter (rest : List UInt8) : List Srp :=
  if rest = [] then []
  else match h : splitFirst rest with
    | .error _ => []
    | .ok (srp, tail) =>
      have := splitFirst_tail_lt h
      srp :: SrpSequence.iter tail
termination_by rest.length

/-! ## The description of a server -/

def knxMulticastAddr : Ipv4Addr := ⟨224, 0, 23, 12⟩

structure DeviceDescription where
  name : String
  individualAddress : IndividualAddress
  serialNumber : SixOctets
  macAddress : SixOctets
  medium : KnxMedium
  projectInstallationIdentifier : UInt16
  programmingMode : Bool

namespace DeviceDescription
variable (description : DeviceDescription) (routing : Bool)

def families : List (ServiceFamily × UInt8) :=
  [(.core, 1), (.tunneling, 1)] ++ if routing then [(.routing, 1)] else []

def dibs : List UInt8 :=
  DeviceInformation.toBytes {
    medium := description.medium
    programmingMode := description.programmingMode
    individualAddress := description.individualAddress.raw
    projectInstallationIdentifier := description.projectInstallationIdentifier
    serialNumber := description.serialNumber
    routingMulticastAddress := if routing then knxMulticastAddr else .unspecified
    macAddress := description.macAddress
    friendlyName := description.name } ++
  supportedServiceFamiliesDib (families routing)

/-- Whether a parameter is understood, and then whether it is satisfied. -/
def satisfies (srp : Srp) : Option Bool :=
  let data := srp.data
  match srp.srpType with
  | some .selectByProgrammingMode => if data = [] then some description.programmingMode else none
  | some .selectByMacAddress =>
    if data.length = 6 then some (data = description.macAddress.val) else none
  | some .selectByService =>
    if data.length = 2 then
      some ((families routing).any fun pair =>
        pair.1.raw = data.getD 0 0 ∧ data.getD 1 0 ≤ pair.2)
    else none
  | some .requestDibs => if data ≠ [] then some true else none
  | _ => none

def answersExtendedSearch (srps : List UInt8) : Bool :=
  match SrpSequence.validate srps with
  | .error _ => false
  | .ok _ =>
    (SrpSequence.iter srps).all fun srp =>
      ¬(description.satisfies routing srp ≠ some true ∧ srp.isMandatory)

end DeviceDescription

/-! ## Answers -/

def replyEndpoint (body : List UInt8) (src : SocketAddr) : Option SocketAddr :=
  match Hpai.parse body with
  | none => none
  | some hpai => if hpai.protocol = .ipv4Udp then some (hpaiToSocketAddr hpai src) else none

def controlEndpoint (env : Env) : SocketAddr → Hpai
  | .v6 _ _ _ _ => .natUdp env.port
  | .v4 ip port =>
    let bound : Option Ipv4Addr := match env.localAddr with
      | some (.v4 boundIp _) =>
        if boundIp ≠ .unspecified then some boundIp else env.sourceAddressTowards (.v4 ip port)
      | _ => env.sourceAddressTowards (.v4 ip port)
    match bound with
    | none => .natUdp env.port
    | some ip => ⟨.ipv4Udp, ip, env.port⟩

variable (env : Env) (description : Option DeviceDescription) (routing : Bool) (src : SocketAddr)
  (frame : KnxIpFrame)

def handleSearch : List Datagram :=
  match description, replyEndpoint frame.body src with
  | some description, some replyTo =>
    env.send (.searchResponse (controlEndpoint env src) (description.dibs routing)) replyTo
  | _, _ => []

def handleSearchExtended : List Datagram :=
  match description, replyEndpoint frame.body src with
  | some description, some replyTo =>
    if description.answersExtendedSearch routing (frame.body.drop Hpai.len) then
      env.send (.searchResponseExtended (controlEndpoint env src) (description.dibs routing))
        replyTo
    else []
  | _, _ => []

def handleDescription : List Datagram :=
  match description, replyEndpoint frame.body src with
  | some description, some replyTo =>
    env.send (.descriptionResponse (description.dibs routing)) replyTo
  | _, _ => []

/-! ## What kind of frame an answer is -/

/-- The services that only carry a description. -/
def DescribesOnly (d : Datagram) : Prop :=
  ∃ answer, KnxIpFrame.parse d.octets = .ok answer ∧
    (answer.serviceType = .searchResponse ∨ answer.serviceType = .searchResponseExtended ∨
      answer.serviceType = .descriptionResponse)

variable {env description routing src frame} {d : Datagram}

theorem handleSearch_describes (h : d ∈ handleSearch env description routing src frame) :
    DescribesOnly d := by
  unfold handleSearch at h
  split at h
  · exact ⟨_, (Env.mem_send h).2, .inl rfl⟩
  · cases h

theorem handleSearchExtended_describes
    (h : d ∈ handleSearchExtended env description routing src frame) : DescribesOnly d := by
  unfold handleSearchExtended at h
  split at h
  · split_ifs at h
    · exact ⟨_, (Env.mem_send h).2, .inr (.inl rfl)⟩
    · cases h
  · cases h

theorem handleDescription_describes
    (h : d ∈ handleDescription env description routing src frame) : DescribesOnly d := by
  unfold handleDescription at h
  split at h
  · exact ⟨_, (Env.mem_send h).2, .inr (.inr rfl)⟩
  · cases h

end KnxRs.ServerDescription
