import KnxRs.ApduCodec

set_option autoImplicit false

/-!
# Transport protocol data units

The first payload octet says whether a frame is control or data, numbered or not.
-/
namespace KnxRs.TpduCodec
open CoreTypes ApduCodec

inductive Tpdu where
  | data (tpduType : TpduType) (sequenceNumber : UInt8) (apdu : Apdu)
  | control (tpduType : TpduType) (sequenceNumber : UInt8)
  deriving DecidableEq

def Tpdu.parse (payload : List UInt8) (npduLength : UInt8) (addressType : AddressType)
    (destinationRaw : UInt16) : Option Tpdu :=
  match payload with
  | [] => none
  | tpci :: _ =>
    let isControl : Bool := tpci &&& 0x80 ≠ 0
    let isNumbered : Bool := tpci &&& 0x40 ≠ 0
    let sequenceNumber := (tpci >>> 2) &&& 0x0F
    if isControl then
      let tpduType : TpduType :=
        if isNumbered then (if tpci &&& 0x01 = 0 then .ack else .nack)
        else (if tpci &&& 0x01 = 0 then .connect else .disconnect)
      some (.control tpduType sequenceNumber)
    else
      let tpduType : TpduType :=
        if addressType = .group then (if destinationRaw = 0 then .dataBroadcast else .dataGroup)
        else if isNumbered then .dataConnected
        else .dataIndividual
      match Apdu.parse payload npduLength with
      | none => none
      | some apdu => some (.data tpduType sequenceNumber apdu)

def encodeControl (tpduType : TpduType) (seqNo : UInt8) : List UInt8 :=
  match tpduType with
  | .connect => [0x80]
  | .disconnect => [0x81]
  | .ack => [(0xC0 : UInt8) ||| ((seqNo &&& 0x0F) <<< 2)]
  | .nack => [(0xC0 : UInt8) ||| ((seqNo &&& 0x0F) <<< 2) ||| 0x01]
  | _ => []

def encodeDataConnected (seqNo : UInt8) (apdu : List UInt8) : List UInt8 :=
  let tpci := (0x40 : UInt8) ||| ((seqNo &&& 0x0F) <<< 2)
  match apdu with
  | [] => [tpci]
  | first :: rest => (tpci ||| (first &&& 0x03)) :: rest

theorem Tpdu.parse_data {payload : List UInt8} {npduLength : UInt8} {addressType : AddressType}
    {destinationRaw : UInt16} {tpduType : TpduType} {seqNo : UInt8} {apdu : Apdu}
    (h : Tpdu.parse payload npduLength addressType destinationRaw =
      some (.data tpduType seqNo apdu)) :
    (tpduType = .dataConnected → addressType = .individual) ∧
      apdu.data.length + 1 ≤ payload.length := by
  unfold Tpdu.parse at h
  split at h
  · cases h
  · next tpci rest =>
    dsimp only at h
    split_ifs at h with hc hn ha ha hg hz
    all_goals
      try cases h
    all_goals
      split at h
      · cases h
      · next a hp =>
        cases h
        refine ⟨?_, Apdu.parse_length hp⟩
        intro hd
        first
          | (cases addressType with
             | individual => rfl
             | group => exact absurd rfl hg)
          | cases hd

theorem encodeControl_length (tpduType : TpduType) (seqNo : UInt8) :
    (encodeControl tpduType seqNo).length ≤ 1 := by
  cases tpduType <;> simp [encodeControl]

theorem encodeDataConnected_length (seqNo : UInt8) (apdu : List UInt8) :
    (encodeDataConnected seqNo apdu).length = max apdu.length 1 := by
  cases apdu with
  | nil => rfl
  | cons first rest =>
    simp only [encodeDataConnected, List.length_cons]
    omega

end KnxRs.TpduCodec
