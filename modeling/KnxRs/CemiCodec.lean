import KnxRs.TpduCodec

set_option autoImplicit false

/-!
# cEMI frames

A frame is its octets and the place of its control fields. That the octets are as
long as their length fields say is part of the type.
-/
namespace KnxRs.CemiCodec
open CoreTypes TpduCodec

def minFrameSize : Nat := 9
def npduLenOffset : Nat := 6
def tpduOffset : Nat := 7

inductive CemiError where
  | tooShort
  | lengthMismatch
  | unknownMessageCode (code : UInt8)
  | payloadTooLong (len : Nat)
  deriving DecidableEq

/-- What keeps a call from returning: the panic of `new_l_data`, or a loop that outlives the
    bound the model gives it. -/
inductive Fault where
  | cemiPayloadTooLong (len : Nat)
  | outOfFuel
  deriving DecidableEq

/-- The payload length a given NPDU length octet stands for. -/
def payloadLen (npduOctetCount : UInt8) : Nat := max (npduOctetCount.toNat + 1) 2

structure CemiFrame where
  data : List UInt8
  ctrlOffset : Nat
  offset_eq : ctrlOffset = 2 + (data.getD 1 0).toNat
  length_eq : data.length =
    ctrlOffset + tpduOffset + payloadLen (data.getD (ctrlOffset + npduLenOffset) 0)
  deriving DecidableEq

theorem withoutInfo {data : List UInt8} (h : data.getD 1 0 = 0) :
    2 = 2 + (data.getD 1 0).toNat := by
  rw [h]
  rfl

namespace CemiFrame

def parse (data : List UInt8) : Except CemiError CemiFrame :=
  if data.length < 2 then .error .tooShort
  else match MessageCode.tryFrom (data.getD 0 0) with
  | none => .error (.unknownMessageCode (data.getD 0 0))
  | some _ =>
    let ctrlOffset := 2 + (data.getD 1 0).toNat
    if data.length < ctrlOffset + 7 then .error .tooShort
    else if h : data.length = ctrlOffset + tpduOffset +
        payloadLen (data.getD (ctrlOffset + npduLenOffset) 0) then
      .ok ⟨data, ctrlOffset, rfl, h⟩
    else .error .lengthMismatch

/-- The octets of an `L_Data` frame with no additional information and hop count 6. -/
def lDataBytes (messageCode : MessageCode) (source : IndividualAddress)
    (destination : DestinationAddress) (priority : Priority) (payload : List UInt8) :
    List UInt8 :=
  let addressType : AddressType := match destination with
    | .group _ => .group
    | .individual _ => .individual
  [messageCode.raw, 0, 0x80 ||| 0x20 ||| 0x10 ||| priority.raw, addressType.raw ||| ((6 : UInt8) <<< 4)] ++
    be16Bytes source.raw ++ be16Bytes destination.raw ++
    UInt8.ofNat (payload.length - 1) :: payload ++ List.replicate (2 - payload.length) 0

theorem lDataBytes_length_eq (messageCode : MessageCode) (source : IndividualAddress)
    (destination : DestinationAddress) (priority : Priority) {payload : List UInt8}
    (h : payload.length ≤ 256) :
    (lDataBytes messageCode source destination priority payload).length = 2 + tpduOffset +
      payloadLen ((lDataBytes messageCode source destination priority payload).getD
        (2 + npduLenOffset) 0) := by
  have hlen : (lDataBytes messageCode source destination priority payload).length =
      minFrameSize + payload.length + (2 - payload.length) := by
    simp only [lDataBytes, be16Bytes, minFrameSize, List.length_append, List.length_cons,
      List.length_nil, List.length_replicate]
    omega
  have hnpdu : (lDataBytes messageCode source destination priority payload).getD
      (2 + npduLenOffset) 0 = UInt8.ofNat (payload.length - 1) := rfl
  rw [hlen, hnpdu, payloadLen, UInt8.toNat_ofNat']
  simp only [minFrameSize, tpduOffset]
  omega

def tryNewLData (messageCode : MessageCode) (source : IndividualAddress)
    (destination : DestinationAddress) (priority : Priority) (payload : List UInt8) :
    Except CemiError CemiFrame :=
  if h : payload.length ≤ 256 then
    .ok ⟨lDataBytes messageCode source destination priority payload, 2, rfl,
      lDataBytes_length_eq messageCode source destination priority h⟩
  else .error (.payloadTooLong payload.length)

def newLData (messageCode : MessageCode) (source : IndividualAddress)
    (destination : DestinationAddress) (priority : Priority) (payload : List UInt8) :
    Except Fault CemiFrame :=
  match tryNewLData messageCode source destination priority payload with
  | .ok frame => .ok frame
  | .error _ => .error (.cemiPayloadTooLong payload.length)

variable (frame : CemiFrame)

def octet (i : Nat) : UInt8 := frame.data.getD i 0

def messageCodeRaw : UInt8 := frame.octet 0

def ctrl1 : UInt8 := frame.octet frame.ctrlOffset

def ctrl2 : UInt8 := frame.octet (frame.ctrlOffset + 1)

def priority : Priority :=
  if frame.ctrl1 &&& 0x0C = 0x00 then .system
  else if frame.ctrl1 &&& 0x0C = 0x04 then .normal
  else if frame.ctrl1 &&& 0x0C = 0x08 then .urgent
  else .low

def confirm : Confirm := if frame.ctrl1 &&& 0x01 ≠ 0 then .error else .noError

def addressType : AddressType := if frame.ctrl2 &&& 0x80 = 0x80 then .group else .individual

def sourceAddress : IndividualAddress :=
  ⟨be16 (frame.octet (frame.ctrlOffset + 2)) (frame.octet (frame.ctrlOffset + 3))⟩

def destinationAddressRaw : UInt16 :=
  be16 (frame.octet (frame.ctrlOffset + 4)) (frame.octet (frame.ctrlOffset + 5))

def npduLength : UInt8 := frame.octet (frame.ctrlOffset + npduLenOffset)

def payload : List UInt8 := frame.data.drop (frame.ctrlOffset + tpduOffset)

def tpdu : Option Tpdu :=
  Tpdu.parse frame.payload frame.npduLength frame.addressType frame.destinationAddressRaw

theorem payload_length : frame.payload.length = payloadLen frame.npduLength := by
  have h := frame.length_eq
  rw [payload, List.length_drop, h]
  change _ = payloadLen (frame.data.getD (frame.ctrlOffset + npduLenOffset) 0)
  omega

theorem payload_length_le : frame.payload.length ≤ 256 := by
  rw [payload_length, payloadLen]
  have := frame.npduLength.toNat_lt
  omega

end CemiFrame

open CemiFrame

theorem newLData_ok {messageCode : MessageCode} {source : IndividualAddress}
    {destination : DestinationAddress} {priority : Priority} {payload : List UInt8}
    (h : payload.length ≤ 256) :
    ∃ frame, newLData messageCode source destination priority payload = .ok frame := by
  unfold newLData tryNewLData
  rw [dif_pos h]
  exact ⟨_, rfl⟩

theorem newLData_error {messageCode : MessageCode} {source : IndividualAddress}
    {destination : DestinationAddress} {priority : Priority} {payload : List UInt8}
    (h : 256 < payload.length) :
    newLData messageCode source destination priority payload =
      .error (.cemiPayloadTooLong payload.length) := by
  unfold newLData tryNewLData
  rw [dif_neg (by omega)]

theorem newLData_destination {messageCode : MessageCode} {source : IndividualAddress}
    {destination : DestinationAddress} {priority : Priority} {payload : List UInt8}
    {frame : CemiFrame}
    (h : newLData messageCode source destination priority payload = .ok frame) :
    frame.destinationAddressRaw = destination.raw := by
  unfold newLData tryNewLData at h
  split_ifs at h
  · cases h
    exact be16_be16Bytes destination.raw

theorem parse_data {data : List UInt8} {frame : CemiFrame} (h : parse data = .ok frame) :
    frame.data = data := by
  unfold parse at h
  split_ifs at h
  split at h
  · cases h
  · dsimp only at h
    split_ifs at h
    cases h
    rfl

theorem parse_of_frame {frame : CemiFrame} {code : MessageCode}
    (h : MessageCode.tryFrom frame.messageCodeRaw = some code) :
    parse frame.data = .ok frame := by
  obtain ⟨data, ctrlOffset, rfl, hlen⟩ := frame
  have hcode : MessageCode.tryFrom (data.getD 0 0) = some code := h
  have hmin : 2 ≤ payloadLen (data.getD (2 + (data.getD 1 0).toNat + npduLenOffset) 0) :=
    Nat.le_max_right _ _
  have hnum : data.length = 2 + (data.getD 1 0).toNat + 7 +
      payloadLen (data.getD (2 + (data.getD 1 0).toNat + npduLenOffset) 0) := hlen
  unfold parse
  dsimp only
  rw [if_neg (by omega), hcode]
  dsimp only
  rw [if_neg (by omega), dif_pos hlen]

end KnxRs.CemiCodec
