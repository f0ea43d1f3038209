import KnxRs.CemiFields
import KnxRs.TunnelServer

set_option autoImplicit false

/-!
# Frames for tunnel clients

What the server queues for a client is the octets of a frame that the client accepts,
short enough for a tunnelling request.
-/
namespace KnxRs.TunnelFrames
open CoreTypes CemiCodec KnxIpCodec TunnelServer

def Valid (octets : List UInt8) : Prop := ∃ frame, CemiFrame.parse octets = .ok frame

theorem known_valid (cemi : Cemi) : Valid cemi.val.data := by
  obtain ⟨code, hcode⟩ := Option.isSome_iff_exists.mp cemi.property
  exact ⟨cemi.val, parse_of_frame hcode⟩

/-! ## The message code -/

def withCode (frame : CemiFrame) (code : MessageCode) : CemiFrame where
  data := recoded frame code
  ctrlOffset := frame.ctrlOffset
  offset_eq := by
    unfold recoded
    rw [List.getD_eq_getElem?_getD, List.getElem?_set_ne (by decide),
      ← List.getD_eq_getElem?_getD]
    exact frame.offset_eq
  length_eq := by
    have h := frame.length_eq
    have hoffset := frame.offset_ge
    dsimp only [npduLenOffset] at h ⊢
    unfold recoded
    rw [List.length_set, List.getD_eq_getElem?_getD, List.getElem?_set_ne (by omega),
      ← List.getD_eq_getElem?_getD]
    exact h

theorem data_length_ge (frame : CemiFrame) : frame.ctrlOffset + 9 ≤ frame.data.length := by
  have h := frame.length_eq
  have hmin : 2 ≤ payloadLen (frame.data.getD (frame.ctrlOffset + npduLenOffset) 0) :=
    Nat.le_max_right _ _
  dsimp only [tpduOffset] at h
  omega

theorem withCode_messageCode (frame : CemiFrame) (code : MessageCode) :
    MessageCode.tryFrom (withCode frame code).messageCodeRaw = some code := by
  have hlen := data_length_ge frame
  have hcode : (withCode frame code).messageCodeRaw = code.raw := by
    change (frame.data.set 0 code.raw).getD 0 0 = code.raw
    rw [List.getD_eq_getElem?_getD, List.getElem?_set_self (by omega)]
    rfl
  rw [hcode, MessageCode.tryFrom_raw]

theorem recoded_valid (frame : CemiFrame) (code : MessageCode) : Valid (recoded frame code) :=
  ⟨withCode frame code, parse_of_frame (withCode_messageCode frame code)⟩

theorem asIndication_valid (cemi : Cemi) : Valid (asIndication cemi.val) := by
  unfold asIndication
  split_ifs
  · exact recoded_valid cemi.val .lDataInd
  · exact known_valid cemi

theorem confirmationOf_frame {frame : CemiFrame} {confirmation : List UInt8}
    (h : confirmationOf frame = some confirmation) :
    confirmation = ((withCode frame .lDataCon).setConfirm .noError).data := by
  have hlen := data_length_ge frame
  have hoffset := frame.offset_eq
  have hoctet : frame.data[1]? = some (frame.data.getD 1 0) := by
    rw [List.getD_eq_getElem?_getD, List.getElem?_eq_getElem (by omega)]
    rfl
  unfold confirmationOf at h
  rw [hoctet] at h
  dsimp only at h
  rw [← hoffset] at h
  split_ifs at h
  have hctrl : (recoded frame .lDataCon)[frame.ctrlOffset]? =
      some ((withCode frame .lDataCon).octet frame.ctrlOffset) := by
    unfold CemiFrame.octet
    rw [List.getD_eq_getElem?_getD]
    change (recoded frame .lDataCon)[frame.ctrlOffset]? =
      some ((recoded frame .lDataCon)[frame.ctrlOffset]?.getD 0)
    rw [List.getElem?_eq_getElem (by unfold recoded; rw [List.length_set]; omega)]
    rfl
  rw [hctrl] at h
  dsimp only at h
  have hbits : ∀ x : UInt8, (x &&& ~~~0x01) = (x &&& ~~~ctrl1ConfirmMask) ||| Confirm.noError.raw :=
    forall_octet (by decide +kernel)
  rw [hbits] at h
  exact (Option.some.inj h).symm

theorem confirmationOf_valid {frame : CemiFrame} {confirmation : List UInt8}
    (h : confirmationOf frame = some confirmation) : Valid confirmation := by
  rw [confirmationOf_frame h]
  have hcode : ((withCode frame .lDataCon).setConfirm .noError).messageCodeRaw =
      (withCode frame .lDataCon).messageCodeRaw :=
    ((withCode frame .lDataCon).setOctet_sameRest (by decide) _).messageCodeRaw
  exact ⟨_, parse_of_frame (hcode ▸ withCode_messageCode frame .lDataCon)⟩

/-! ## Lengths -/

/-- The most octets a frame can have. -/
def maxFrameSize : Nat := 520

theorem data_length_le (frame : CemiFrame) : frame.data.length ≤ maxFrameSize := by
  have h := frame.length_eq
  have hoffset := frame.offset_eq
  have hinfo := (frame.data.getD 1 0).toNat_lt
  have hnpdu := (frame.data.getD (frame.ctrlOffset + npduLenOffset) 0).toNat_lt
  unfold payloadLen tpduOffset at h
  unfold maxFrameSize
  omega

theorem Valid.length_le {octets : List UInt8} (h : Valid octets) : octets.length ≤ maxFrameSize := by
  obtain ⟨frame, hframe⟩ := h
  rw [← parse_data hframe]
  exact data_length_le frame

theorem Valid.request {octets : List UInt8} (h : Valid octets) (channelId sequence : UInt8) :
    ∃ datagram, (KnxIpFrame.tunnelingRequest channelId sequence octets).tryToBytes =
      .ok datagram := by
  refine ⟨_, KnxIpFrame.tryToBytes_ok ?_⟩
  have hlen := h.length_le
  have hbody : (KnxIpFrame.tunnelingRequest channelId sequence octets).body.length =
      octets.length + 4 := rfl
  rw [hbody]
  dsimp only [maxFrameSize] at hlen
  dsimp only [headerLen]
  omega

end KnxRs.TunnelFrames
