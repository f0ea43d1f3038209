import KnxRs.CemiCodec
import KnxRs.Transducers

set_option autoImplicit false

/-!
# Twisted-pair frames and the TP-UART receiver

Frames as they are on the wire, made from a cEMI frame, and the receiver that takes the
octets of the chip one at a time.
-/
namespace KnxRs.TpUart
open CoreTypes CemiCodec

/-! ## Commands and indications -/

def uResetInd : UInt8 := 0x03
def uStateInd : UInt8 := 0x07
def uStateMask : UInt8 := 0x07
def uFrameStateInd : UInt8 := 0x13
def uFrameStateMask : UInt8 := 0x17
def lDataStandardInd : UInt8 := 0x90
def lDataExtendedInd : UInt8 := 0x10
def lDataMask : UInt8 := 0xD3
def lDataConSuccessMask : UInt8 := 0x80

inductive BcuType where
  | tpUart2
  | ncn5120
  deriving DecidableEq

/-! ## Frames -/

def maxFrameLen : Nat := 64
def headerStd : Nat := 6
def headerExt : Nat := 7
def crcLen : Nat := 1
def apduLenMask : UInt8 := 0x0F
def ctrlFrameType : UInt8 := 0x80

def isExtendedCtrl (ctrl : UInt8) : Bool := ctrl &&& lDataMask = lDataExtendedInd

/-- `CemiFrame::calc_crc_tp`. -/
def calcCrcTp (buffer : List UInt8) : UInt8 := buffer.foldl (· ^^^ ·) 0xFF

/-- `[u8; MAX_FRAME_LEN]`. -/
abbrev FrameBuffer := { octets : List UInt8 // octets.length = maxFrameLen }

/-- A buffer with octets at its start and zeros after them. -/
def FrameBuffer.ofOctets (octets : List UInt8) (h : octets.length ≤ maxFrameLen) : FrameBuffer :=
  ⟨octets ++ List.replicate (maxFrameLen - octets.length) 0, by
    rw [List.length_append, List.length_replicate]
    omega⟩

def FrameBuffer.zeros : FrameBuffer := ofOctets [] (Nat.zero_le _)

/-- `buf[i] = byte`, `none` when the index is out of bounds. -/
def FrameBuffer.write (buf : FrameBuffer) (i : Nat) (byte : UInt8) : Option FrameBuffer :=
  if i < maxFrameLen then
    some ⟨buf.val.set i byte, by rw [List.length_set]; exact buf.property⟩
  else none

/-- `&buf[..n]`, `none` when the end is out of bounds. -/
def FrameBuffer.slice (buf : FrameBuffer) (n : Nat) : Option (List UInt8) :=
  if n ≤ maxFrameLen then some (buf.val.take n) else none

structure TpFrame where
  data : FrameBuffer
  len : Nat

namespace TpFrame

def fromBytes (data : List UInt8) : Option TpFrame :=
  if h : data.length < headerStd + crcLen ∨ data.length > maxFrameLen then none
  else some ⟨.ofOctets data (Nat.le_of_not_lt (not_or.mp h).2), data.length⟩

def asBytes (frame : TpFrame) : List UInt8 := frame.data.val.take frame.len

def sealed (octets : List UInt8) (h : octets.length + crcLen ≤ maxFrameLen) : TpFrame :=
  ⟨.ofOctets (octets ++ [calcCrcTp octets]) (by rw [List.length_append]; exact h),
    octets.length + crcLen⟩

def standardOctets (cemi : CemiFrame) : List UInt8 :=
  (cemi.data.getD 2 0 ||| ctrlFrameType) :: (be16Bytes cemi.sourceAddress.raw ++
    be16Bytes cemi.destinationAddressRaw ++
    (((cemi.data.getD 3 0 &&& 0xF0) ||| (cemi.npduLength &&& apduLenMask)) :: cemi.payload))

def extendedOctets (cemi : CemiFrame) : List UInt8 :=
  (cemi.data.getD 2 0 &&& ~~~ctrlFrameType) :: cemi.data.getD 3 0 ::
    (be16Bytes cemi.sourceAddress.raw ++ be16Bytes cemi.destinationAddressRaw ++
      (cemi.npduLength :: cemi.payload))

theorem standardOctets_length (cemi : CemiFrame) :
    (standardOctets cemi).length = headerStd + cemi.payload.length := by
  simp only [standardOctets, be16Bytes, headerStd, List.length_cons, List.length_append,
    List.length_nil]
  omega

theorem extendedOctets_length (cemi : CemiFrame) :
    (extendedOctets cemi).length = headerExt + cemi.payload.length := by
  simp only [extendedOctets, be16Bytes, headerExt, List.length_cons, List.length_append,
    List.length_nil]
  omega

def fromCemi (cemi : CemiFrame) : Option TpFrame :=
  if cemi.npduLength ≤ apduLenMask then
    if h : headerStd + cemi.payload.length + crcLen > maxFrameLen then none
    else some (sealed (standardOctets cemi) (by rw [standardOctets_length]; omega))
  else
    if h : headerExt + cemi.payload.length + crcLen > maxFrameLen then none
    else some (sealed (extendedOctets cemi) (by rw [extendedOctets_length]; omega))

end TpFrame

/-! ## The receiver -/

inductive TpIndication where
  | reset
  | state (byte : UInt8)
  | frame (frame : TpFrame)
  | transmitConfirm (success : Bool)
  | overrun

structure TpUartProtocol where
  bcuType : BcuType
  rxBuf : FrameBuffer
  rxPos : Nat
  rxExpected : Nat

def isFrameStart (byte : UInt8) : Bool :=
  byte &&& lDataMask = lDataStandardInd ∨ byte &&& lDataMask = lDataExtendedInd

namespace TpUartProtocol
variable (protocol : TpUartProtocol)

def new (bcuType : BcuType) : TpUartProtocol := ⟨bcuType, .zeros, 0, 0⟩

/-- `process` at the start of a frame, or outside of one. -/
def processFirst (byte : UInt8) : Option (Option TpIndication × TpUartProtocol) :=
  if byte = uResetInd then some (some .reset, protocol)
  else if byte &&& uStateMask = uStateInd then some (some (.state byte), protocol)
  else if byte &&& uFrameStateMask = uFrameStateInd then
    some (some (.transmitConfirm (byte &&& lDataConSuccessMask = 0)), protocol)
  else if isFrameStart byte then
    (protocol.rxBuf.write 0 byte).map fun rxBuf =>
      (none, { protocol with rxBuf := rxBuf, rxPos := 1, rxExpected := 0 })
  else some (none, protocol)

/-- The octet of a frame is stored if there is room for it. -/
def store (byte : UInt8) : Option TpUartProtocol :=
  if protocol.rxPos < maxFrameLen then
    (protocol.rxBuf.write protocol.rxPos byte).map fun rxBuf =>
      { protocol with rxBuf := rxBuf, rxPos := protocol.rxPos + 1 }
  else some protocol

def expected : Nat :=
  let isExt := isExtendedCtrl (protocol.rxBuf.val.getD 0 0)
  let apduLen := if isExt then (protocol.rxBuf.val.getD 6 0).toNat
    else (protocol.rxBuf.val.getD 5 0 &&& apduLenMask).toNat
  let header := if isExt then headerExt else headerStd
  header + apduLen + 1 + crcLen

/-- The end of `process`: a frame is complete, or more octets are to come. -/
def finish : Option (Option TpIndication × TpUartProtocol) :=
  if protocol.rxExpected > 0 ∧ protocol.rxPos ≥ protocol.rxExpected then
    (protocol.rxBuf.slice protocol.rxPos).map fun octets =>
      ((TpFrame.fromBytes octets).map .frame, { protocol with rxPos := 0, rxExpected := 0 })
  else some (none, protocol)

/-- `process` for an octet that was read. -/
def processByte (byte : UInt8) : Option (Option TpIndication × TpUartProtocol) :=
  if protocol.rxPos = 0 then protocol.processFirst byte
  else
    (protocol.store byte).bind fun stored =>
      if stored.rxExpected = 0 ∧ stored.rxPos ≥ headerStd + crcLen then
        if stored.expected > maxFrameLen then
          some (some .overrun, { stored with rxPos := 0, rxExpected := 0 })
        else finish { stored with rxExpected := stored.expected }
      else stored.finish

/-- `process`, with what `read_byte` gives; `none` when it panics. -/
def process : Option UInt8 → Option (Option TpIndication × TpUartProtocol)
  | none => some (none, protocol)
  | some byte => protocol.processByte byte

end TpUartProtocol
end KnxRs.TpUart
