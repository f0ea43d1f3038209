import KnxRs.CemiCodec

set_option autoImplicit false

/-!
# Frames built from their parts

What the constructor of an `L_Data` frame puts where the accessors look.
-/
namespace KnxRs.CemiCodec
open CoreTypes TpduCodec CemiFrame

def addressTypeOf : DestinationAddress → AddressType
  | .group _ => .group
  | .individual _ => .individual

/-- A frame whose octets are those of the constructor. -/
structure BuiltFrom (messageCode : MessageCode) (source : IndividualAddress)
    (destination : DestinationAddress) (priority : Priority) (payload : List UInt8)
    (frame : CemiFrame) : Prop where
  length : payload.length ≤ 256
  data : frame.data = lDataBytes messageCode source destination priority payload
  ctrlOffset : frame.ctrlOffset = 2

variable {messageCode : MessageCode} {source : IndividualAddress}
  {destination : DestinationAddress} {priority : Priority} {payload : List UInt8}
  {frame : CemiFrame}

theorem tryNewLData_built
    (h : tryNewLData messageCode source destination priority payload = .ok frame) :
    BuiltFrom messageCode source destination priority payload frame := by
  unfold tryNewLData at h
  split_ifs at h with hlen
  cases h
  exact ⟨hlen, rfl, rfl⟩

theorem newLData_built
    (h : newLData messageCode source destination priority payload = .ok frame) :
    BuiltFrom messageCode source destination priority payload frame := by
  unfold newLData at h
  split at h
  · next built hbuilt =>
    cases h
    exact tryNewLData_built hbuilt
  · cases h

theorem tryNewLData_ok (messageCode : MessageCode) (source : IndividualAddress)
    (destination : DestinationAddress) (priority : Priority) (h : payload.length ≤ 256) :
    ∃ frame, tryNewLData messageCode source destination priority payload = .ok frame := by
  unfold tryNewLData
  rw [dif_pos h]
  exact ⟨_, rfl⟩

namespace BuiltFrom

variable (built : BuiltFrom messageCode source destination priority payload frame)
include built

theorem octet_eq (i : Nat) : frame.octet i =
    (lDataBytes messageCode source destination priority payload).getD i 0 := by
  rw [CemiFrame.octet, built.data]

theorem messageCodeRaw_eq : frame.messageCodeRaw = messageCode.raw := built.octet_eq 0

theorem ctrl2_eq : frame.ctrl2 = (addressTypeOf destination).raw ||| ((6 : UInt8) <<< 4) := by
  rw [CemiFrame.ctrl2, built.ctrlOffset, built.octet_eq]
  cases destination <;> rfl

theorem addressType_eq : frame.addressType = addressTypeOf destination := by
  rw [CemiFrame.addressType, built.ctrl2_eq]
  cases destination with
  | group _ => exact if_pos (by decide : ((0x80 : UInt8) ||| ((6 : UInt8) <<< 4)) &&& 0x80 = 0x80)
  | individual _ => exact if_neg (by decide : ¬((0x00 : UInt8) ||| ((6 : UInt8) <<< 4)) &&& 0x80 = 0x80)

theorem destination_eq : frame.destinationAddressRaw = destination.raw := by
  rw [CemiFrame.destinationAddressRaw, built.ctrlOffset, built.octet_eq, built.octet_eq]
  exact be16_be16Bytes destination.raw

theorem npduLength_eq : frame.npduLength = UInt8.ofNat (payload.length - 1) := by
  rw [CemiFrame.npduLength, built.ctrlOffset, built.octet_eq]
  rfl

theorem payload_eq : frame.payload = payload ++ List.replicate (2 - payload.length) 0 := by
  rw [CemiFrame.payload, built.ctrlOffset, built.data]
  rfl

theorem payload_whole (h : 2 ≤ payload.length) : frame.payload = payload := by
  rw [built.payload_eq, Nat.sub_eq_zero_of_le h, List.replicate_zero, List.append_nil]

theorem tpdu_eq (h : 2 ≤ payload.length) : frame.tpdu = Tpdu.parse payload
    (UInt8.ofNat (payload.length - 1)) (addressTypeOf destination) destination.raw := by
  rw [CemiFrame.tpdu, built.payload_whole h, built.npduLength_eq, built.addressType_eq,
    built.destination_eq]

end BuiltFrom
end KnxRs.CemiCodec
