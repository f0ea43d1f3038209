import KnxRs.CemiFields
import KnxRs.TpDelivery

set_option autoImplicit false

/-!
# What a twisted-pair frame carries

The fields of a frame as its accessors read them, and those of the cEMI frame it is
made from: `from_cemi` reads the two control fields where they are without additional
information.
-/
namespace KnxRs.TpUart
open CoreTypes CemiCodec

namespace TpFrame
variable (frame : TpFrame)

def octet (i : Nat) : UInt8 := frame.data.val.getD i 0

def isExtended : Bool := isExtendedCtrl (frame.octet 0)

def source : IndividualAddress :=
  ⟨if frame.isExtended then be16 (frame.octet 2) (frame.octet 3)
    else be16 (frame.octet 1) (frame.octet 2)⟩

def destinationRaw : UInt16 :=
  if frame.isExtended then be16 (frame.octet 4) (frame.octet 5)
  else be16 (frame.octet 3) (frame.octet 4)

def apduSize : UInt8 :=
  if frame.isExtended then frame.octet 6 else frame.octet 5 &&& apduLenMask

def calcCrc : UInt8 :=
  if frame.len = 0 then 0 else calcCrcTp (frame.data.val.take (frame.len - 1))

def isValid : Bool := frame.len ≥ 7 ∧ frame.octet (frame.len - 1) = frame.calcCrc

/-! The fields without an accessor, at their places in the two layouts. -/

def control2 : UInt8 := if frame.isExtended then frame.octet 1 else frame.octet 5

def addressType : AddressType := (Control2.ofOctet frame.control2).addressType

def hopCount : UInt8 := (Control2.ofOctet frame.control2).hopCount

def priority : Priority := (Control1.ofOctet (frame.octet 0)).priority

def payload : List UInt8 :=
  frame.asBytes.dropLast.drop (if frame.isExtended then headerExt else headerStd)

end TpFrame

/-! ## Control octets -/

theorem masked_values : ∀ x : UInt8, (x &&& 0x0C = 0x00 ∨ x &&& 0x0C = 0x04 ∨
    x &&& 0x0C = 0x08 ∨ x &&& 0x0C = 0x0C) ∧ (x &&& 0x80 = 0x80 ∨ x &&& 0x80 = 0x00) :=
  forall_octet (by decide +kernel)

theorem masked_priority (x : UInt8) : x &&& 0x0C = 0x00 ∨ x &&& 0x0C = 0x04 ∨
    x &&& 0x0C = 0x08 ∨ x &&& 0x0C = 0x0C :=
  (masked_values x).1

theorem priority_eq_iff (x y : UInt8) :
    (Control1.ofOctet x).priority = (Control1.ofOctet y).priority ↔ x &&& 0x0C = y &&& 0x0C := by
  unfold Control1.ofOctet
  dsimp only
  rcases masked_priority x with hx | hx | hx | hx
  all_goals
    rcases masked_priority y with hy | hy | hy | hy
    all_goals
      rw [hx, hy]
      decide

theorem masked_addressType (x : UInt8) : x &&& 0x80 = 0x80 ∨ x &&& 0x80 = 0x00 :=
  (masked_values x).2

theorem addressType_eq_iff (x y : UInt8) :
    (Control2.ofOctet x).addressType = (Control2.ofOctet y).addressType ↔
      x &&& 0x80 = y &&& 0x80 := by
  unfold Control2.ofOctet
  dsimp only
  rcases masked_addressType x with hx | hx
  all_goals
    rcases masked_addressType y with hy | hy
    all_goals
      rw [hx, hy]
      decide

theorem hopCount_shifted : ∀ x : UInt8,
    x &&& 0x70 = (Control2.ofOctet x).hopCount <<< ctrl2HopCountShift :=
  forall_octet (by decide +kernel)

theorem hopCount_masked (x : UInt8) :
    (Control2.ofOctet x).hopCount = (Control2.ofOctet (x &&& 0x70)).hopCount := by
  unfold Control2.ofOctet
  dsimp only
  rw [hopCount_read, hopCount_read, show ctrl2HopCountMask = 0x70 from rfl, UInt8.and_assoc,
    UInt8.and_self]

theorem hopCount_eq_iff (x y : UInt8) :
    (Control2.ofOctet x).hopCount = (Control2.ofOctet y).hopCount ↔ x &&& 0x70 = y &&& 0x70 := by
  constructor
  · intro h
    rw [hopCount_shifted x, hopCount_shifted y, h]
  · intro h
    rw [hopCount_masked x, hopCount_masked y, h]

theorem high_bits (x : UInt8) : x &&& 0xF0 = (x &&& 0x80) ||| (x &&& 0x70) := by
  apply UInt8.toNat_inj.mp
  rw [UInt8.toNat_or, UInt8.toNat_and, UInt8.toNat_and, UInt8.toNat_and, ← Nat.and_or_distrib_left]
  rfl

theorem high_bits_eq_iff (x y : UInt8) :
    x &&& 0xF0 = y &&& 0xF0 ↔ x &&& 0x80 = y &&& 0x80 ∧ x &&& 0x70 = y &&& 0x70 := by
  constructor
  · intro h
    have htype := congrArg (· &&& 0x80) h
    have hcount := congrArg (· &&& 0x70) h
    simp only [UInt8.and_assoc] at htype hcount
    exact ⟨htype, hcount⟩
  · rintro ⟨htype, hcount⟩
    rw [high_bits x, high_bits y, htype, hcount]

theorem control2_eq_iff (x y : UInt8) :
    (Control2.ofOctet x).addressType = (Control2.ofOctet y).addressType ∧
      (Control2.ofOctet x).hopCount = (Control2.ofOctet y).hopCount ↔
      x &&& 0xF0 = y &&& 0xF0 := by
  rw [addressType_eq_iff, hopCount_eq_iff, high_bits_eq_iff]

theorem written_ctrl : ∀ x : UInt8, ((x ||| ctrlFrameType) &&& 0x0C = x &&& 0x0C ∧
    isExtendedCtrl (x ||| ctrlFrameType) = false) ∧
    (x &&& ~~~ctrlFrameType) &&& 0x0C = x &&& 0x0C ∧
      (isExtendedCtrl (x &&& ~~~ctrlFrameType) = true ↔ x &&& 0x53 = 0x10) :=
  forall_octet (by decide +kernel)

theorem standard_ctrl (x : UInt8) : (x ||| ctrlFrameType) &&& 0x0C = x &&& 0x0C ∧
    isExtendedCtrl (x ||| ctrlFrameType) = false :=
  (written_ctrl x).1

theorem extended_ctrl (x : UInt8) : (x &&& ~~~ctrlFrameType) &&& 0x0C = x &&& 0x0C ∧
    (isExtendedCtrl (x &&& ~~~ctrlFrameType) = true ↔ x &&& 0x53 = 0x10) :=
  (written_ctrl x).2

theorem length_octet_high (hi n : UInt8) :
    ((hi &&& 0xF0) ||| (n &&& apduLenMask)) &&& 0xF0 = hi &&& 0xF0 := by
  apply UInt8.toNat_inj.mp
  simp only [UInt8.toNat_and, UInt8.toNat_or]
  rw [Nat.and_or_distrib_right, Nat.and_assoc, Nat.and_assoc]
  have hzero : apduLenMask.toNat &&& (0xF0 : UInt8).toNat = 0 := rfl
  have hmask : (0xF0 : UInt8).toNat &&& (0xF0 : UInt8).toNat = (0xF0 : UInt8).toNat := rfl
  rw [hzero, hmask, Nat.and_zero, Nat.or_zero]

/-! ## Frames with their checksum -/

section
variable {octets : List UInt8} (h : octets.length + crcLen ≤ maxFrameLen)

theorem sealed_data : (TpFrame.sealed octets h).data.val =
    octets ++ calcCrcTp octets :: List.replicate (maxFrameLen - (octets.length + 1)) 0 := by
  unfold TpFrame.sealed FrameBuffer.ofOctets
  dsimp only
  rw [List.length_append, List.length_singleton, List.append_assoc, List.singleton_append]

theorem sealed_octet {i : Nat} (hi : i < octets.length) :
    (TpFrame.sealed octets h).octet i = octets.getD i 0 := by
  unfold TpFrame.octet
  rw [sealed_data, List.getD_eq_getElem?_getD, List.getD_eq_getElem?_getD,
    List.getElem?_append_left hi]

theorem sealed_isValid (hmin : headerStd ≤ octets.length) :
    (TpFrame.sealed octets h).isValid = true := by
  have hlen : (TpFrame.sealed octets h).len = octets.length + 1 := rfl
  have hcrc : (TpFrame.sealed octets h).calcCrc = calcCrcTp octets := by
    unfold TpFrame.calcCrc
    rw [hlen, if_neg (by omega), sealed_data, Nat.add_sub_cancel, List.take_left]
  have hlast : (TpFrame.sealed octets h).octet octets.length = calcCrcTp octets := by
    unfold TpFrame.octet
    rw [sealed_data, List.getD_eq_getElem?_getD, List.getElem?_append_right (Nat.le_refl _),
      Nat.sub_self]
    rfl
  unfold TpFrame.isValid
  rw [hcrc, hlen, Nat.add_sub_cancel, hlast]
  unfold headerStd at hmin
  exact decide_eq_true ⟨by omega, rfl⟩

theorem sealed_payload : (TpFrame.sealed octets h).payload =
    octets.drop (if (TpFrame.sealed octets h).isExtended then headerExt else headerStd) := by
  unfold TpFrame.payload
  rw [sealed_asBytes, List.dropLast_concat]

end

/-! ## Frames made from a cEMI frame -/

/-- The frame is valid and carries what the cEMI frame does. -/
structure Carries (cemi : CemiFrame) (frame : TpFrame) : Prop where
  valid : frame.isValid = true
  source : frame.source = cemi.sourceAddress
  destination : frame.destinationRaw = cemi.destinationAddressRaw
  addressType : frame.addressType = cemi.addressType
  hopCount : frame.hopCount = cemi.hopCount
  priority : frame.priority = cemi.priority
  length : frame.apduSize = cemi.npduLength
  payload : frame.payload = cemi.payload
  extended : frame.isExtended = true ↔ 15 < cemi.npduLength.toNat

/-- The third and the fourth octet hold the priority, the address type and the hop count, as
    they do without additional information; and in a long frame the flags of the third are
    those of an extended frame: a broadcast, no acknowledgement requested, no error. -/
structure ControlsInPlace (cemi : CemiFrame) : Prop where
  priority : cemi.octet 2 &&& 0x0C = cemi.ctrl1 &&& 0x0C
  control2 : cemi.octet 3 &&& 0xF0 = cemi.ctrl2 &&& 0xF0
  flags : 15 < cemi.npduLength.toNat → cemi.octet 2 &&& 0x53 = 0x10

theorem controlsInPlace_of_noInfo {cemi : CemiFrame} (h : cemi.additionalInfoLength = 0)
    (hflags : 15 < cemi.npduLength.toNat → cemi.ctrl1 &&& 0x53 = 0x10) :
    ControlsInPlace cemi := by
  have hoffset : cemi.ctrlOffset = 2 := by
    rw [cemi.offset_eq]
    exact congrArg (fun n : UInt8 => 2 + n.toNat) h
  have hone : cemi.ctrl1 = cemi.octet 2 := congrArg cemi.octet hoffset
  have htwo : cemi.ctrl2 = cemi.octet 3 := congrArg (fun n => cemi.octet (n + 1)) hoffset
  exact ⟨by rw [hone], by rw [htwo], fun hlong => hone ▸ hflags hlong⟩

variable {cemi : CemiFrame}

/-- The frame is valid, and its accessors find what `from_cemi` has put in place. -/
structure LaidOut (cemi : CemiFrame) (frame : TpFrame) : Prop where
  valid : frame.isValid = true
  source : frame.source = cemi.sourceAddress
  destination : frame.destinationRaw = cemi.destinationAddressRaw
  length : frame.apduSize = cemi.npduLength
  payload : frame.payload = cemi.payload
  control1 : frame.octet 0 &&& 0x0C = cemi.octet 2 &&& 0x0C
  control2 : frame.control2 &&& 0xF0 = cemi.octet 3 &&& 0xF0

theorem LaidOut.carries_iff {frame : TpFrame} (h : LaidOut cemi frame) :
    Carries cemi frame ↔ cemi.octet 2 &&& 0x0C = cemi.ctrl1 &&& 0x0C ∧
      cemi.octet 3 &&& 0xF0 = cemi.ctrl2 &&& 0xF0 ∧
        (frame.isExtended = true ↔ 15 < cemi.npduLength.toNat) := by
  have hpriority := priority_eq_iff (frame.octet 0) cemi.ctrl1
  rw [h.control1] at hpriority
  have hcontrol2 := control2_eq_iff frame.control2 cemi.ctrl2
  rw [h.control2] at hcontrol2
  constructor
  · intro hcarries
    exact ⟨hpriority.mp hcarries.priority,
      hcontrol2.mp ⟨hcarries.addressType, hcarries.hopCount⟩, hcarries.extended⟩
  · rintro ⟨hone, htwo, hextended⟩
    obtain ⟨htype, hcount⟩ := hcontrol2.mpr htwo
    exact ⟨h.valid, h.source, h.destination, htype, hcount, hpriority.mpr hone, h.length,
      h.payload, hextended⟩

theorem standard_laidOut (hshort : cemi.npduLength ≤ apduLenMask)
    (h : (TpFrame.standardOctets cemi).length + crcLen ≤ maxFrameLen) :
    LaidOut cemi (.sealed (TpFrame.standardOctets cemi) h) ∧
      (TpFrame.sealed (TpFrame.standardOctets cemi) h).isExtended = false := by
  have hlen := TpFrame.standardOctets_length cemi
  unfold headerStd at hlen
  have hoctet : ∀ i < 6, (TpFrame.sealed (TpFrame.standardOctets cemi) h).octet i =
      (TpFrame.standardOctets cemi).getD i 0 := fun i hi => sealed_octet h (by omega)
  have hvalid := sealed_isValid h (by unfold headerStd; omega)
  have hpayload := sealed_payload h
  have hctrl := hoctet 0 (by decide)
  change _ = cemi.octet 2 ||| ctrlFrameType at hctrl
  have hstandard : (TpFrame.sealed (TpFrame.standardOctets cemi) h).isExtended = false := by
    unfold TpFrame.isExtended
    rw [hctrl]
    exact (standard_ctrl _).2
  have hsize := hoctet 5 (by decide)
  change _ = (cemi.octet 3 &&& 0xF0) ||| (cemi.npduLength &&& apduLenMask) at hsize
  generalize TpFrame.sealed (TpFrame.standardOctets cemi) h = frame at *
  refine ⟨⟨hvalid, ?_, ?_, ?_, ?_, ?_, ?_⟩, hstandard⟩
  · unfold TpFrame.source
    rw [hstandard, hoctet 1 (by decide), hoctet 2 (by decide)]
    exact congrArg IndividualAddress.mk (be16_be16Bytes cemi.sourceAddress.raw)
  · unfold TpFrame.destinationRaw
    rw [hstandard, hoctet 3 (by decide), hoctet 4 (by decide)]
    exact be16_be16Bytes cemi.destinationAddressRaw
  · unfold TpFrame.apduSize
    rw [hstandard, hsize, apduLen_masked]
    exact apduLen_of_le hshort
  · rw [hpayload, hstandard]
    rfl
  · rw [hctrl]
    exact (standard_ctrl _).1
  · unfold TpFrame.control2
    rw [hstandard, hsize]
    exact length_octet_high _ _

theorem extended_laidOut (hflags : cemi.octet 2 &&& 0x53 = 0x10)
    (h : (TpFrame.extendedOctets cemi).length + crcLen ≤ maxFrameLen) :
    LaidOut cemi (.sealed (TpFrame.extendedOctets cemi) h) := by
  have hlen := TpFrame.extendedOctets_length cemi
  unfold headerExt at hlen
  have hoctet : ∀ i < 7, (TpFrame.sealed (TpFrame.extendedOctets cemi) h).octet i =
      (TpFrame.extendedOctets cemi).getD i 0 := fun i hi => sealed_octet h (by omega)
  have hvalid := sealed_isValid h (by unfold headerStd; omega)
  have hpayload := sealed_payload h
  have hctrl := hoctet 0 (by decide)
  change _ = cemi.octet 2 &&& ~~~ctrlFrameType at hctrl
  have hextended : (TpFrame.sealed (TpFrame.extendedOctets cemi) h).isExtended = true := by
    unfold TpFrame.isExtended
    rw [hctrl]
    exact (extended_ctrl _).2.mpr hflags
  generalize TpFrame.sealed (TpFrame.extendedOctets cemi) h = frame at *
  refine ⟨hvalid, ?_, ?_, ?_, ?_, ?_, ?_⟩
  · unfold TpFrame.source
    rw [hextended, hoctet 2 (by decide), hoctet 3 (by decide)]
    exact congrArg IndividualAddress.mk (be16_be16Bytes cemi.sourceAddress.raw)
  · unfold TpFrame.destinationRaw
    rw [hextended, hoctet 4 (by decide), hoctet 5 (by decide)]
    exact be16_be16Bytes cemi.destinationAddressRaw
  · unfold TpFrame.apduSize
    rw [hextended, hoctet 6 (by decide)]
    rfl
  · rw [hpayload, hextended]
    rfl
  · rw [hctrl]
    exact (extended_ctrl _).1
  · unfold TpFrame.control2
    rw [hextended, hoctet 1 (by decide)]
    rfl

theorem extended_ctrl_read (h : (TpFrame.extendedOctets cemi).length + crcLen ≤ maxFrameLen) :
    (TpFrame.sealed (TpFrame.extendedOctets cemi) h).isExtended = true ↔
      cemi.octet 2 &&& 0x53 = 0x10 := by
  have hlen := TpFrame.extendedOctets_length cemi
  unfold headerExt at hlen
  unfold TpFrame.isExtended
  rw [sealed_octet h (by omega)]
  exact (extended_ctrl _).2

/-- A frame made from a cEMI frame is valid and carries its fields, its length and its payload,
    in the format for its length, exactly where the control fields are in place. -/
theorem fromCemi_carries_iff {frame : TpFrame} (h : TpFrame.fromCemi cemi = some frame) :
    Carries cemi frame ↔ ControlsInPlace cemi := by
  unfold TpFrame.fromCemi at h
  split_ifs at h with hshort hlong hlong
  · cases h
    obtain ⟨hlaid, hstandard⟩ := standard_laidOut hshort (by
      rw [TpFrame.standardOctets_length]
      omega)
    have hle : cemi.npduLength.toNat ≤ 15 := UInt8.le_iff_toNat_le.mp hshort
    rw [hlaid.carries_iff, hstandard]
    constructor
    · rintro ⟨hone, htwo, _⟩
      exact ⟨hone, htwo, fun hlt => absurd hle (Nat.not_le.mpr hlt)⟩
    · rintro ⟨hone, htwo, _⟩
      exact ⟨hone, htwo, iff_of_false Bool.false_ne_true (Nat.not_lt.mpr hle)⟩
  · cases h
    have hlt : 15 < cemi.npduLength.toNat :=
      Nat.lt_of_not_le fun hle => hshort (UInt8.le_iff_toNat_le.mpr hle)
    have hfits : (TpFrame.extendedOctets cemi).length + crcLen ≤ maxFrameLen := by
      rw [TpFrame.extendedOctets_length]
      omega
    by_cases hflags : cemi.octet 2 &&& 0x53 = 0x10
    · rw [(extended_laidOut hflags hfits).carries_iff]
      have hextended := (extended_ctrl_read hfits).mpr hflags
      constructor
      · rintro ⟨hone, htwo, _⟩
        exact ⟨hone, htwo, fun _ => hflags⟩
      · rintro ⟨hone, htwo, _⟩
        exact ⟨hone, htwo, iff_of_true hextended hlt⟩
    · constructor
      · intro hcarries
        exact absurd ((extended_ctrl_read hfits).mp (hcarries.extended.mpr hlt)) hflags
      · intro hplace
        exact absurd (hplace.flags hlt) hflags

def plainGroupWrite : CemiFrame :=
  ⟨[0x29, 0x00, 0xBC, 0xE0, 0x11, 0x02, 0x08, 0x01, 0x01, 0x00, 0x81], 2, withoutInfo rfl, rfl⟩

theorem plainGroupWrite_carried : ∃ frame, TpFrame.fromCemi plainGroupWrite = some frame ∧
    Carries plainGroupWrite frame := by
  refine ⟨_, rfl, (fromCemi_carries_iff rfl).mpr ?_⟩
  exact controlsInPlace_of_noInfo rfl fun hlong => absurd hlong (by decide)

def informedGroupWrite : CemiFrame :=
  ⟨[0x29, 0x04, 0x03, 0x02, 0xAA, 0xBB, 0xBC, 0xE0, 0x11, 0x02, 0x08, 0x01, 0x01, 0x00, 0x81], 6,
    rfl, rfl⟩

/-- It goes out as a telegram to an individual address. -/
theorem informedGroupWrite_misread :
    ¬ ∀ (data : List UInt8) (cemi : CemiFrame) (frame : TpFrame),
      CemiFrame.parse data = .ok cemi → TpFrame.fromCemi cemi = some frame →
        Carries cemi frame := by
  intro h
  have hcarries := h informedGroupWrite.data informedGroupWrite _ rfl rfl
  exact absurd hcarries.addressType (by decide)

end KnxRs.TpUart
