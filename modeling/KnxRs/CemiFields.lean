import KnxRs.CemiCodec

set_option autoImplicit false

/-!
# Fields of a cEMI frame

The getters and setters of a frame over its octets, and the record of fields that they
read and write.
-/
namespace KnxRs.CemiCodec
open CoreTypes

def ctrl1FrameFormatMask : UInt8 := 0x80
def ctrl1RepetitionMask : UInt8 := 0x20
def ctrl1SystemBroadcastMask : UInt8 := 0x10
def ctrl1PriorityMask : UInt8 := 0x0C
def ctrl1AckMask : UInt8 := 0x02
def ctrl1ConfirmMask : UInt8 := 0x01
def ctrl2AddressTypeMask : UInt8 := 0x80
def ctrl2HopCountMask : UInt8 := 0x70
def ctrl2HopCountShift : UInt8 := 4
def hopCountValueMask : UInt8 := 0x07

namespace CemiFrame
variable (frame : CemiFrame)

/-! ## Getters -/

def additionalInfoLength : UInt8 := frame.octet 1

def frameType : FrameFormat :=
  if frame.ctrl1 &&& ctrl1FrameFormatMask = 0x80 then .standard else .extended

def repetition : Repetition :=
  if frame.ctrl1 &&& ctrl1RepetitionMask ≠ 0 then .wasNotRepeated else .wasRepeated

def systemBroadcast : SystemBroadcast :=
  if frame.ctrl1 &&& ctrl1SystemBroadcastMask ≠ 0 then .broadcast else .system

def ack : AckType :=
  if frame.ctrl1 &&& ctrl1AckMask ≠ 0 then .requested else .dontCare

def hopCount : UInt8 := (frame.ctrl2 >>> ctrl2HopCountShift) &&& hopCountValueMask

def destinationAddress : DestinationAddress :=
  match frame.addressType with
  | .group => .group ⟨frame.destinationAddressRaw⟩
  | .individual => .individual ⟨frame.destinationAddressRaw⟩

def totalLength : Nat := frame.data.length

/-! ## Setters -/

/-- `data[ctrl_offset + k] = v`, for an octet before the NPDU length. -/
def setOctet (k : Nat) (hk : k < npduLenOffset) (v : UInt8) : CemiFrame where
  data := frame.data.set (frame.ctrlOffset + k) v
  ctrlOffset := frame.ctrlOffset
  offset_eq := by
    have h := frame.offset_eq
    rw [List.getD_eq_getElem?_getD, List.getElem?_set_ne (by omega), ← List.getD_eq_getElem?_getD]
    exact h
  length_eq := by
    have h := frame.length_eq
    rw [List.length_set, List.getD_eq_getElem?_getD, List.getElem?_set_ne (by omega),
      ← List.getD_eq_getElem?_getD]
    exact h

/-- `data[ctrl_offset + k] = (data[ctrl_offset + k] & !mask) | value`. -/
def setBits (k : Nat) (hk : k < npduLenOffset) (mask value : UInt8) : CemiFrame :=
  frame.setOctet k hk ((frame.octet (frame.ctrlOffset + k) &&& ~~~mask) ||| value)

/-- Two octets of a big-endian word at `ctrl_offset + k`. -/
def setWord (k : Nat) (hk : k + 1 < npduLenOffset) (v : UInt16) : CemiFrame :=
  (frame.setOctet k (by omega) (UInt8.ofNat (v.toNat / 256))).setOctet (k + 1) hk
    (UInt8.ofNat v.toNat)

def setFrameType (value : FrameFormat) : CemiFrame :=
  frame.setBits 0 (by decide) ctrl1FrameFormatMask value.raw

def setRepetition (value : Repetition) : CemiFrame :=
  frame.setBits 0 (by decide) ctrl1RepetitionMask value.raw

def setSystemBroadcast (value : SystemBroadcast) : CemiFrame :=
  frame.setBits 0 (by decide) ctrl1SystemBroadcastMask value.raw

def setPriority (value : Priority) : CemiFrame :=
  frame.setBits 0 (by decide) ctrl1PriorityMask value.raw

def setAck (value : AckType) : CemiFrame :=
  frame.setBits 0 (by decide) ctrl1AckMask value.raw

def setConfirm (value : Confirm) : CemiFrame :=
  frame.setBits 0 (by decide) ctrl1ConfirmMask value.raw

def setAddressType (value : AddressType) : CemiFrame :=
  frame.setBits 1 (by decide) ctrl2AddressTypeMask value.raw

def setHopCount (value : UInt8) : CemiFrame :=
  frame.setBits 1 (by decide) ctrl2HopCountMask ((value &&& hopCountValueMask) <<< ctrl2HopCountShift)

def setSourceAddress (addr : IndividualAddress) : CemiFrame :=
  frame.setWord 2 (by decide) addr.raw

def setDestinationAddressRaw (addr : UInt16) : CemiFrame :=
  frame.setWord 4 (by decide) addr

end CemiFrame

inductive Setter where
  | frameType (value : FrameFormat)
  | repetition (value : Repetition)
  | systemBroadcast (value : SystemBroadcast)
  | priority (value : Priority)
  | ack (value : AckType)
  | confirm (value : Confirm)
  | addressType (value : AddressType)
  | hopCount (value : UInt8)
  | sourceAddress (addr : IndividualAddress)
  | destinationAddressRaw (addr : UInt16)

def CemiFrame.set (frame : CemiFrame) : Setter → CemiFrame
  | .frameType value => frame.setFrameType value
  | .repetition value => frame.setRepetition value
  | .systemBroadcast value => frame.setSystemBroadcast value
  | .priority value => frame.setPriority value
  | .ack value => frame.setAck value
  | .confirm value => frame.setConfirm value
  | .addressType value => frame.setAddressType value
  | .hopCount value => frame.setHopCount value
  | .sourceAddress addr => frame.setSourceAddress addr
  | .destinationAddressRaw addr => frame.setDestinationAddressRaw addr

/-! ## The record of fields -/

/-- The first control field: the flags, and the bit that no getter reads. -/
structure Control1 where
  frameType : FrameFormat
  repetition : Repetition
  systemBroadcast : SystemBroadcast
  priority : Priority
  ack : AckType
  confirm : Confirm
  reserved : UInt8
  deriving DecidableEq

/-- The second control field, with the extended frame format. -/
structure Control2 where
  addressType : AddressType
  hopCount : UInt8
  extendedFormat : UInt8
  deriving DecidableEq

/-- What the octets of a frame stand for. -/
structure Fields where
  totalLength : Nat
  messageCodeRaw : UInt8
  additionalInfoLength : UInt8
  additionalInfo : List UInt8
  control1 : Control1
  control2 : Control2
  sourceAddress : IndividualAddress
  destinationAddressRaw : UInt16
  npduLength : UInt8
  payload : List UInt8

def Fields.destinationAddress (f : Fields) : DestinationAddress :=
  match f.control2.addressType with
  | .group => .group ⟨f.destinationAddressRaw⟩
  | .individual => .individual ⟨f.destinationAddressRaw⟩

def Fields.set (f : Fields) : Setter → Fields
  | .frameType value => { f with control1 := { f.control1 with frameType := value } }
  | .repetition value => { f with control1 := { f.control1 with repetition := value } }
  | .systemBroadcast value => { f with control1 := { f.control1 with systemBroadcast := value } }
  | .priority value => { f with control1 := { f.control1 with priority := value } }
  | .ack value => { f with control1 := { f.control1 with ack := value } }
  | .confirm value => { f with control1 := { f.control1 with confirm := value } }
  | .addressType value => { f with control2 := { f.control2 with addressType := value } }
  | .hopCount value =>
    { f with control2 := { f.control2 with hopCount := UInt8.ofNat (value.toNat % 8) } }
  | .sourceAddress addr => { f with sourceAddress := addr }
  | .destinationAddressRaw addr => { f with destinationAddressRaw := addr }

namespace CemiFrame
variable (frame : CemiFrame)

def control1 : Control1 where
  frameType := frame.frameType
  repetition := frame.repetition
  systemBroadcast := frame.systemBroadcast
  priority := frame.priority
  ack := frame.ack
  confirm := frame.confirm
  reserved := frame.ctrl1 &&& 0x40

def control2 : Control2 where
  addressType := frame.addressType
  hopCount := frame.hopCount
  extendedFormat := frame.ctrl2 &&& 0x0F

def fields : Fields where
  totalLength := frame.totalLength
  messageCodeRaw := frame.messageCodeRaw
  additionalInfoLength := frame.additionalInfoLength
  additionalInfo := (frame.data.take frame.ctrlOffset).drop 2
  control1 := frame.control1
  control2 := frame.control2
  sourceAddress := frame.sourceAddress
  destinationAddressRaw := frame.destinationAddressRaw
  npduLength := frame.npduLength
  payload := frame.payload

/-! ## Octets after a setter -/

theorem octet_setOctet {k : Nat} (hk : k < npduLenOffset) (v : UInt8) (i : Nat) :
    (frame.setOctet k hk v).octet i =
      if i = frame.ctrlOffset + k then v else frame.octet i := by
  have hlen := frame.length_eq
  have hmin : 2 ≤ payloadLen (frame.data.getD (frame.ctrlOffset + npduLenOffset) 0) :=
    Nat.le_max_right _ _
  dsimp only [npduLenOffset, tpduOffset] at hk hlen hmin
  unfold octet setOctet
  rw [List.getD_eq_getElem?_getD, List.getD_eq_getElem?_getD]
  split_ifs with hi
  · rw [hi, List.getElem?_set_self (by omega)]
    rfl
  · rw [List.getElem?_set_ne (fun he => hi he.symm)]

theorem offset_ge : 2 ≤ frame.ctrlOffset := by
  have := frame.offset_eq
  omega

/-- The octets outside the control fields and addresses, which no setter writes. -/
structure SameRest (frame' : CemiFrame) : Prop where
  ctrlOffset : frame'.ctrlOffset = frame.ctrlOffset
  totalLength : frame'.totalLength = frame.totalLength
  additionalInfoLength : frame'.additionalInfoLength = frame.additionalInfoLength
  messageCodeRaw : frame'.messageCodeRaw = frame.messageCodeRaw
  additionalInfo : (frame'.data.take frame'.ctrlOffset).drop 2 =
    (frame.data.take frame.ctrlOffset).drop 2
  npduLength : frame'.npduLength = frame.npduLength
  payload : frame'.payload = frame.payload

theorem setOctet_sameRest {k : Nat} (hk : k < npduLenOffset) (v : UInt8) :
    frame.SameRest (frame.setOctet k hk v) := by
  have hoffset := frame.offset_ge
  have hk' := hk
  dsimp only [npduLenOffset] at hk'
  refine ⟨rfl, List.length_set, ?_, ?_, ?_, ?_, ?_⟩
  · exact (frame.octet_setOctet hk v 1).trans (if_neg (by omega))
  · exact (frame.octet_setOctet hk v 0).trans (if_neg (by omega))
  · change ((frame.data.set (frame.ctrlOffset + k) v).take frame.ctrlOffset).drop 2 = _
    rw [List.take_set_of_le (by omega)]
  · refine (frame.octet_setOctet hk v _).trans (if_neg ?_)
    dsimp only [npduLenOffset, setOctet]
    omega
  · change (frame.data.set (frame.ctrlOffset + k) v).drop (frame.ctrlOffset + tpduOffset) = _
    rw [List.drop_set_of_lt (by dsimp only [tpduOffset]; omega)]
    rfl

variable {frame}

theorem SameRest.trans {frame' frame'' : CemiFrame} (h : frame.SameRest frame')
    (h' : frame'.SameRest frame'') : frame.SameRest frame'' :=
  ⟨h'.ctrlOffset.trans h.ctrlOffset, h'.totalLength.trans h.totalLength,
    h'.additionalInfoLength.trans h.additionalInfoLength,
    h'.messageCodeRaw.trans h.messageCodeRaw, h'.additionalInfo.trans h.additionalInfo,
    h'.npduLength.trans h.npduLength, h'.payload.trans h.payload⟩

theorem SameRest.fields {frame' : CemiFrame} (h : frame.SameRest frame') :
    frame'.fields = { frame.fields with
      control1 := frame'.control1
      control2 := frame'.control2
      sourceAddress := frame'.sourceAddress
      destinationAddressRaw := frame'.destinationAddressRaw } := by
  unfold CemiFrame.fields
  rw [h.totalLength, h.additionalInfoLength, h.messageCodeRaw, h.additionalInfo, h.npduLength,
    h.payload]

end CemiFrame

/-! ## Control fields -/

def Control1.ofOctet (x : UInt8) : Control1 where
  frameType := if x &&& ctrl1FrameFormatMask = 0x80 then .standard else .extended
  repetition := if x &&& ctrl1RepetitionMask ≠ 0 then .wasNotRepeated else .wasRepeated
  systemBroadcast := if x &&& ctrl1SystemBroadcastMask ≠ 0 then .broadcast else .system
  priority :=
    if x &&& 0x0C = 0x00 then .system
    else if x &&& 0x0C = 0x04 then .normal
    else if x &&& 0x0C = 0x08 then .urgent
    else .low
  ack := if x &&& ctrl1AckMask ≠ 0 then .requested else .dontCare
  confirm := if x &&& 0x01 ≠ 0 then .error else .noError
  reserved := x &&& 0x40

def Control2.ofOctet (x : UInt8) : Control2 where
  addressType := if x &&& 0x80 = 0x80 then .group else .individual
  hopCount := (x >>> ctrl2HopCountShift) &&& hopCountValueMask
  extendedFormat := x &&& 0x0F

open CemiFrame

/-! ### An octet whose bits under a mask were written -/

theorem written_and (x mask value read : UInt8) :
    ((x &&& ~~~mask) ||| value) &&& read = (x &&& (~~~mask &&& read)) ||| (value &&& read) := by
  apply UInt8.toBitVec_inj.mp
  simp only [UInt8.toBitVec_and, UInt8.toBitVec_or, UInt8.toBitVec_not]
  ext i hi
  simp [Bool.and_or_distrib_right, Bool.and_assoc]

theorem written_own {x mask value read : UInt8} (hvalue : value &&& mask = value)
    (hread : mask = read) : ((x &&& ~~~mask) ||| value) &&& read = value := by
  subst hread
  rw [written_and, UInt8.and_comm (~~~mask), UInt8.and_not_self, UInt8.and_zero, UInt8.zero_or,
    hvalue]

theorem written_other {x mask value read : UInt8} (hvalue : value &&& mask = value)
    (hread : ~~~mask &&& read = read) :
    ((x &&& ~~~mask) ||| value) &&& read = x &&& read := by
  have hdisjoint : value &&& read = 0 := by
    rw [← hvalue, ← hread, UInt8.and_assoc, ← UInt8.and_assoc mask, UInt8.and_not_self,
      UInt8.zero_and, UInt8.and_zero]
  rw [written_and, hread, hdisjoint, UInt8.or_zero]

theorem hopCount_read : ∀ y : UInt8, (y >>> ctrl2HopCountShift) &&& hopCountValueMask =
    (y &&& ctrl2HopCountMask) >>> ctrl2HopCountShift :=
  forall_octet (by decide +kernel)

theorem Control1.set_frameType (x : UInt8) (value : FrameFormat) :
    ofOctet ((x &&& ~~~ctrl1FrameFormatMask) ||| value.raw) =
      { ofOctet x with frameType := value } := by
  have hvalue : value.raw &&& ctrl1FrameFormatMask = value.raw := by cases value <;> rfl
  simp (disch := decide) only [Control1.ofOctet, written_own hvalue, written_other hvalue]
  cases value <;> rfl

theorem Control1.set_repetition (x : UInt8) (value : Repetition) :
    ofOctet ((x &&& ~~~ctrl1RepetitionMask) ||| value.raw) =
      { ofOctet x with repetition := value } := by
  have hvalue : value.raw &&& ctrl1RepetitionMask = value.raw := by cases value <;> rfl
  simp (disch := decide) only [Control1.ofOctet, written_own hvalue, written_other hvalue]
  cases value <;> rfl

theorem Control1.set_systemBroadcast (x : UInt8) (value : SystemBroadcast) :
    ofOctet ((x &&& ~~~ctrl1SystemBroadcastMask) ||| value.raw) =
      { ofOctet x with systemBroadcast := value } := by
  have hvalue : value.raw &&& ctrl1SystemBroadcastMask = value.raw := by cases value <;> rfl
  simp (disch := decide) only [Control1.ofOctet, written_own hvalue, written_other hvalue]
  cases value <;> rfl

theorem Control1.set_priority (x : UInt8) (value : Priority) :
    ofOctet ((x &&& ~~~ctrl1PriorityMask) ||| value.raw) =
      { ofOctet x with priority := value } := by
  have hvalue : value.raw &&& ctrl1PriorityMask = value.raw := by cases value <;> rfl
  simp (disch := decide) only [Control1.ofOctet, written_own hvalue, written_other hvalue]
  cases value <;> rfl

theorem Control1.set_ack (x : UInt8) (value : AckType) :
    ofOctet ((x &&& ~~~ctrl1AckMask) ||| value.raw) = { ofOctet x with ack := value } := by
  have hvalue : value.raw &&& ctrl1AckMask = value.raw := by cases value <;> rfl
  simp (disch := decide) only [Control1.ofOctet, written_own hvalue, written_other hvalue]
  cases value <;> rfl

theorem Control1.set_confirm (x : UInt8) (value : Confirm) :
    ofOctet ((x &&& ~~~ctrl1ConfirmMask) ||| value.raw) = { ofOctet x with confirm := value } := by
  have hvalue : value.raw &&& ctrl1ConfirmMask = value.raw := by cases value <;> rfl
  simp (disch := decide) only [Control1.ofOctet, written_own hvalue, written_other hvalue]
  cases value <;> rfl

theorem Control2.set_addressType (x : UInt8) (value : AddressType) :
    ofOctet ((x &&& ~~~ctrl2AddressTypeMask) ||| value.raw) =
      { ofOctet x with addressType := value } := by
  have hvalue : value.raw &&& ctrl2AddressTypeMask = value.raw := by cases value <;> rfl
  simp (disch := decide) only [Control2.ofOctet, hopCount_read, written_own hvalue,
    written_other hvalue]
  cases value <;> rfl

theorem Control2.set_hopCount (x value : UInt8) :
    ofOctet ((x &&& ~~~ctrl2HopCountMask) |||
        ((value &&& hopCountValueMask) <<< ctrl2HopCountShift)) =
      { ofOctet x with hopCount := UInt8.ofNat (value.toNat % 8) } := by
  have hvalue : ((value &&& hopCountValueMask) <<< ctrl2HopCountShift) &&& ctrl2HopCountMask =
      (value &&& hopCountValueMask) <<< ctrl2HopCountShift :=
    forall_octet (P := fun v => ((v &&& hopCountValueMask) <<< ctrl2HopCountShift) &&&
      ctrl2HopCountMask = (v &&& hopCountValueMask) <<< ctrl2HopCountShift) (by decide +kernel) value
  have hshift : ((value &&& hopCountValueMask) <<< ctrl2HopCountShift) >>> ctrl2HopCountShift =
      UInt8.ofNat (value.toNat % 8) :=
    forall_octet (P := fun v => ((v &&& hopCountValueMask) <<< ctrl2HopCountShift) >>>
      ctrl2HopCountShift = UInt8.ofNat (v.toNat % 8)) (by decide +kernel) value
  have hhop : (((x &&& ~~~ctrl2HopCountMask) |||
      ((value &&& hopCountValueMask) <<< ctrl2HopCountShift)) >>> ctrl2HopCountShift) &&&
      hopCountValueMask = UInt8.ofNat (value.toNat % 8) := by
    rw [hopCount_read, written_own hvalue rfl, hshift]
  simp (disch := decide) only [Control2.ofOctet, hhop, written_other hvalue]

namespace CemiFrame
variable (frame : CemiFrame)

/-! ## The fields after a setter -/

theorem setOctet_control1 {k : Nat} (hk : k < npduLenOffset) (v : UInt8) :
    (frame.setOctet k hk v).control1 = if k = 0 then .ofOctet v else frame.control1 := by
  change Control1.ofOctet ((frame.setOctet k hk v).octet frame.ctrlOffset) = _
  rw [octet_setOctet]
  by_cases h : k = 0
  · rw [if_pos h, if_pos (by omega)]
  · rw [if_neg h, if_neg (by omega)]
    rfl

theorem setOctet_control2 {k : Nat} (hk : k < npduLenOffset) (v : UInt8) :
    (frame.setOctet k hk v).control2 = if k = 1 then .ofOctet v else frame.control2 := by
  change Control2.ofOctet ((frame.setOctet k hk v).octet (frame.ctrlOffset + 1)) = _
  rw [octet_setOctet]
  by_cases h : k = 1
  · rw [if_pos h, if_pos (by omega)]
  · rw [if_neg h, if_neg (by omega)]
    rfl

theorem setOctet_sourceAddress {k : Nat} (hk : k < npduLenOffset) (v : UInt8) (h2 : k ≠ 2)
    (h3 : k ≠ 3) : (frame.setOctet k hk v).sourceAddress = frame.sourceAddress := by
  change IndividualAddress.mk (be16 ((frame.setOctet k hk v).octet (frame.ctrlOffset + 2))
    ((frame.setOctet k hk v).octet (frame.ctrlOffset + 3))) = _
  rw [octet_setOctet, octet_setOctet, if_neg (by omega), if_neg (by omega)]
  rfl

theorem setOctet_destinationAddressRaw {k : Nat} (hk : k < npduLenOffset) (v : UInt8) (h4 : k ≠ 4)
    (h5 : k ≠ 5) :
    (frame.setOctet k hk v).destinationAddressRaw = frame.destinationAddressRaw := by
  change be16 ((frame.setOctet k hk v).octet (frame.ctrlOffset + 4))
    ((frame.setOctet k hk v).octet (frame.ctrlOffset + 5)) = _
  rw [octet_setOctet, octet_setOctet, if_neg (by omega), if_neg (by omega)]
  rfl

theorem setBits_fields_control1 (mask value : UInt8) :
    (frame.setBits 0 (by decide) mask value).fields = { frame.fields with
      control1 := .ofOctet ((frame.ctrl1 &&& ~~~mask) ||| value) } := by
  unfold setBits
  rw [(frame.setOctet_sameRest _ _).fields, setOctet_control1, if_pos rfl, setOctet_control2,
    if_neg (by decide), setOctet_sourceAddress _ _ _ (by decide) (by decide),
    setOctet_destinationAddressRaw _ _ _ (by decide) (by decide)]
  rfl

theorem setBits_fields_control2 (mask value : UInt8) :
    (frame.setBits 1 (by decide) mask value).fields = { frame.fields with
      control2 := .ofOctet ((frame.ctrl2 &&& ~~~mask) ||| value) } := by
  unfold setBits
  rw [(frame.setOctet_sameRest _ _).fields, setOctet_control1, if_neg (by decide),
    setOctet_control2, if_pos rfl, setOctet_sourceAddress _ _ _ (by decide) (by decide),
    setOctet_destinationAddressRaw _ _ _ (by decide) (by decide)]
  rfl

theorem setOctet_word {k : Nat} (hk : k + 1 < npduLenOffset) (v : UInt16) :
    be16 ((frame.setWord k hk v).octet (frame.ctrlOffset + k))
      ((frame.setWord k hk v).octet (frame.ctrlOffset + (k + 1))) = v := by
  have hsame : (frame.setOctet k (by omega) (UInt8.ofNat (v.toNat / 256))).ctrlOffset =
    frame.ctrlOffset := rfl
  unfold setWord
  rw [octet_setOctet, octet_setOctet, octet_setOctet, hsame, if_neg (by omega), if_pos rfl,
    if_pos rfl]
  exact be16_be16Bytes v

theorem setWord_fields {k : Nat} (hk : k + 1 < npduLenOffset) (h2 : 2 ≤ k) (v : UInt16) :
    (frame.setWord k hk v).fields = { frame.fields with
      sourceAddress := (frame.setWord k hk v).sourceAddress
      destinationAddressRaw := (frame.setWord k hk v).destinationAddressRaw } := by
  have hrest : frame.SameRest (frame.setWord k hk v) :=
    (frame.setOctet_sameRest _ _).trans (setOctet_sameRest _ _ _)
  have h1 : (frame.setWord k hk v).control1 = frame.control1 := by
    unfold setWord
    rw [setOctet_control1, setOctet_control1, if_neg (by omega), if_neg (by omega)]
  have h2 : (frame.setWord k hk v).control2 = frame.control2 := by
    unfold setWord
    rw [setOctet_control2, setOctet_control2, if_neg (by omega), if_neg (by omega)]
  rw [hrest.fields, h1, h2]
  rfl

theorem setSourceAddress_fields (addr : IndividualAddress) :
    (frame.setSourceAddress addr).fields = { frame.fields with sourceAddress := addr } := by
  have hsource : (frame.setSourceAddress addr).sourceAddress = addr :=
    congrArg IndividualAddress.mk (frame.setOctet_word (k := 2) (by decide) addr.raw)
  have hdestination : (frame.setSourceAddress addr).destinationAddressRaw =
      frame.destinationAddressRaw := by
    unfold setSourceAddress setWord
    rw [setOctet_destinationAddressRaw _ _ _ (by decide) (by decide),
      setOctet_destinationAddressRaw _ _ _ (by decide) (by decide)]
  have h : (frame.setSourceAddress addr).fields = _ :=
    frame.setWord_fields (by decide) (by decide) addr.raw
  rw [h]
  change { frame.fields with
    sourceAddress := (frame.setSourceAddress addr).sourceAddress
    destinationAddressRaw := (frame.setSourceAddress addr).destinationAddressRaw } = _
  rw [hsource, hdestination]
  rfl

theorem setDestinationAddressRaw_fields (addr : UInt16) :
    (frame.setDestinationAddressRaw addr).fields =
      { frame.fields with destinationAddressRaw := addr } := by
  have hdestination : (frame.setDestinationAddressRaw addr).destinationAddressRaw = addr :=
    frame.setOctet_word (k := 4) (by decide) addr
  have hsource : (frame.setDestinationAddressRaw addr).sourceAddress = frame.sourceAddress := by
    unfold setDestinationAddressRaw setWord
    rw [setOctet_sourceAddress _ _ _ (by decide) (by decide),
      setOctet_sourceAddress _ _ _ (by decide) (by decide)]
  have h : (frame.setDestinationAddressRaw addr).fields = _ :=
    frame.setWord_fields (by decide) (by decide) addr
  rw [h]
  change { frame.fields with
    sourceAddress := (frame.setDestinationAddressRaw addr).sourceAddress
    destinationAddressRaw := (frame.setDestinationAddressRaw addr).destinationAddressRaw } = _
  rw [hsource, hdestination]
  rfl

/-- A setter writes its own field and no other. -/
theorem fields_set (s : Setter) : (frame.set s).fields = frame.fields.set s := by
  cases s with
  | frameType value =>
    refine (frame.setBits_fields_control1 _ _).trans ?_
    rw [Control1.set_frameType]
    rfl
  | repetition value =>
    refine (frame.setBits_fields_control1 _ _).trans ?_
    rw [Control1.set_repetition]
    rfl
  | systemBroadcast value =>
    refine (frame.setBits_fields_control1 _ _).trans ?_
    rw [Control1.set_systemBroadcast]
    rfl
  | priority value =>
    refine (frame.setBits_fields_control1 _ _).trans ?_
    rw [Control1.set_priority]
    rfl
  | ack value =>
    refine (frame.setBits_fields_control1 _ _).trans ?_
    rw [Control1.set_ack]
    rfl
  | confirm value =>
    refine (frame.setBits_fields_control1 _ _).trans ?_
    rw [Control1.set_confirm]
    rfl
  | addressType value =>
    refine (frame.setBits_fields_control2 _ _).trans ?_
    rw [Control2.set_addressType]
    rfl
  | hopCount value =>
    refine (frame.setBits_fields_control2 _ _).trans ?_
    rw [Control2.set_hopCount]
    rfl
  | sourceAddress addr => exact frame.setSourceAddress_fields addr
  | destinationAddressRaw addr => exact frame.setDestinationAddressRaw_fields addr

def setAll (setters : List Setter) : CemiFrame := setters.foldl CemiFrame.set frame

theorem fields_setAll (setters : List Setter) :
    (frame.setAll setters).fields = setters.foldl Fields.set frame.fields := by
  induction setters generalizing frame with
  | nil => rfl
  | cons s rest ih =>
    have h := ih (frame.set s)
    rw [fields_set] at h
    exact h

theorem set_messageCodeRaw (f : Fields) (setters : List Setter) :
    (setters.foldl Fields.set f).messageCodeRaw = f.messageCodeRaw := by
  induction setters generalizing f with
  | nil => rfl
  | cons s rest ih =>
    refine (ih (f.set s)).trans ?_
    cases s <;> rfl

/-- A known message code stays known, so that the octets are accepted again. -/
theorem parse_setAll {code : MessageCode}
    (h : MessageCode.tryFrom frame.messageCodeRaw = some code) (setters : List Setter) :
    parse (frame.setAll setters).data = .ok (frame.setAll setters) := by
  have hcode : (frame.setAll setters).messageCodeRaw = frame.messageCodeRaw := by
    have hfields := congrArg Fields.messageCodeRaw (frame.fields_setAll setters)
    exact hfields.trans (set_messageCodeRaw frame.fields setters)
  rw [← hcode] at h
  exact parse_of_frame h

end CemiFrame

/-! ## Frames that the codec makes -/

/-- The two ways to a frame. -/
inductive Obtained : CemiFrame → Prop where
  | parsed {data : List UInt8} {frame : CemiFrame} : parse data = .ok frame → Obtained frame
  | built {messageCode : MessageCode} {source : IndividualAddress}
      {destination : DestinationAddress} {priority : Priority} {payload : List UInt8}
      {frame : CemiFrame} :
      tryNewLData messageCode source destination priority payload = .ok frame → Obtained frame

theorem parse_messageCode {data : List UInt8} {frame : CemiFrame} (h : parse data = .ok frame) :
    ∃ code, MessageCode.tryFrom frame.messageCodeRaw = some code := by
  have hdata := parse_data h
  unfold messageCodeRaw octet
  rw [hdata]
  unfold parse at h
  rcases hcode : MessageCode.tryFrom (data.getD 0 0) with _ | code
  · rw [hcode] at h
    dsimp only at h
    split_ifs at h
  · exact ⟨code, rfl⟩

theorem tryNewLData_frame {messageCode : MessageCode} {source : IndividualAddress}
    {destination : DestinationAddress} {priority : Priority} {payload : List UInt8}
    {frame : CemiFrame}
    (h : tryNewLData messageCode source destination priority payload = .ok frame) :
    payload.length ≤ 256 ∧ frame.data = lDataBytes messageCode source destination priority payload ∧
      frame.ctrlOffset = 2 := by
  unfold tryNewLData at h
  split_ifs at h with hlen
  cases h
  exact ⟨hlen, rfl, rfl⟩

theorem Obtained.messageCode {frame : CemiFrame} (h : Obtained frame) :
    ∃ code, MessageCode.tryFrom frame.messageCodeRaw = some code := by
  rcases h with h | h
  · exact parse_messageCode h
  · rename_i messageCode source destination priority payload
    refine ⟨messageCode, ?_⟩
    unfold messageCodeRaw octet
    rw [(tryNewLData_frame h).2.1]
    change MessageCode.tryFrom messageCode.raw = some messageCode
    cases messageCode <;> rfl

def destinationType : DestinationAddress → AddressType
  | .group _ => .group
  | .individual _ => .individual

def newFields (messageCode : MessageCode) (source : IndividualAddress)
    (destination : DestinationAddress) (priority : Priority) (payload : List UInt8) : Fields where
  totalLength := minFrameSize + max payload.length 2
  messageCodeRaw := messageCode.raw
  additionalInfoLength := 0
  additionalInfo := []
  control1 := ⟨.standard, .wasNotRepeated, .broadcast, priority, .dontCare, .noError, 0⟩
  control2 := ⟨destinationType destination, 6, 0⟩
  sourceAddress := source
  destinationAddressRaw := destination.raw
  npduLength := UInt8.ofNat (payload.length - 1)
  payload := payload ++ List.replicate (2 - payload.length) 0

theorem tryNewLData_fields {messageCode : MessageCode} {source : IndividualAddress}
    {destination : DestinationAddress} {priority : Priority} {payload : List UInt8}
    {frame : CemiFrame}
    (h : tryNewLData messageCode source destination priority payload = .ok frame) :
    frame.fields = newFields messageCode source destination priority payload := by
  unfold tryNewLData at h
  split_ifs at h with hlen
  cases h
  unfold CemiFrame.fields newFields
  congr 1
  · change (lDataBytes messageCode source destination priority payload).length = _
    simp only [lDataBytes, be16Bytes, minFrameSize, List.length_append, List.length_cons,
      List.length_nil, List.length_replicate]
    omega
  · change Control1.ofOctet (0x80 ||| 0x20 ||| 0x10 ||| priority.raw) = _
    cases priority <;> decide +kernel
  · cases destination with
    | individual address =>
      change Control2.ofOctet (AddressType.individual.raw ||| ((6 : UInt8) <<< 4)) =
        ⟨.individual, 6, 0⟩
      decide +kernel
    | group address =>
      change Control2.ofOctet (AddressType.group.raw ||| ((6 : UInt8) <<< 4)) = ⟨.group, 6, 0⟩
      decide +kernel
  · exact congrArg IndividualAddress.mk (be16_be16Bytes source.raw)
  · exact be16_be16Bytes destination.raw

theorem destinationAddress_fields (frame : CemiFrame) :
    frame.destinationAddress = frame.fields.destinationAddress := rfl

theorem newFields_destinationAddress (messageCode : MessageCode) (source : IndividualAddress)
    (destination : DestinationAddress) (priority : Priority) (payload : List UInt8) :
    (newFields messageCode source destination priority payload).destinationAddress =
      destination := by
  cases destination <;> rfl

/-- Whatever setters are called on a frame of the codec, its octets parse back to it, and the
    fields are those last set; a built frame starts from its arguments. -/
theorem frame_fields_kept :
    (∀ (frame : CemiFrame) (setters : List Setter), Obtained frame →
      parse (frame.setAll setters).data = .ok (frame.setAll setters) ∧
      (frame.setAll setters).fields = setters.foldl Fields.set frame.fields ∧
      (frame.setAll setters).destinationAddress =
        (setters.foldl Fields.set frame.fields).destinationAddress) ∧
    ∀ (messageCode : MessageCode) (source : IndividualAddress) (destination : DestinationAddress)
      (priority : Priority) (payload : List UInt8) (frame : CemiFrame),
      tryNewLData messageCode source destination priority payload = .ok frame →
      frame.fields = newFields messageCode source destination priority payload ∧
      frame.destinationAddress = destination := by
  constructor
  · intro frame setters h
    obtain ⟨code, hcode⟩ := h.messageCode
    have hfields := frame.fields_setAll setters
    refine ⟨frame.parse_setAll hcode setters, hfields, ?_⟩
    rw [destinationAddress_fields, hfields]
  · intro messageCode source destination priority payload frame h
    have hfields := tryNewLData_fields h
    refine ⟨hfields, ?_⟩
    rw [destinationAddress_fields, hfields, newFields_destinationAddress]

theorem group_write_fields :
    Obtained ⟨[0x11, 0, 0xBC, 0xE0, 0, 0, 0x08, 0x01, 1, 0, 0x81], 2, rfl, rfl⟩ ∧
      (CemiFrame.setAll ⟨[0x11, 0, 0xBC, 0xE0, 0, 0, 0x08, 0x01, 1, 0, 0x81], 2, rfl, rfl⟩
        [.hopCount 13, .priority .urgent]).fields.control2.hopCount = 5 := by
  have hparse : parse [0x11, 0, 0xBC, 0xE0, 0, 0, 0x08, 0x01, 1, 0, 0x81] =
      .ok ⟨[0x11, 0, 0xBC, 0xE0, 0, 0, 0x08, 0x01, 1, 0, 0x81], 2, rfl, rfl⟩ := rfl
  have hobtained := Obtained.parsed hparse
  refine ⟨hobtained, ?_⟩
  rw [(frame_fields_kept.1 _ _ hobtained).2.1]
  decide

end KnxRs.CemiCodec
