import Mathlib.Algebra.Group.Nat.Defs

set_option autoImplicit false

/-!
# Addresses, control-field flags and service codes of the core crate

Every enumeration keeps the wire value the source gives it as `raw`.
-/
namespace KnxRs.CoreTypes

structure IndividualAddress where
  raw : UInt16
  deriving DecidableEq

structure GroupAddress where
  raw : UInt16
  deriving DecidableEq

inductive DestinationAddress where
  | individual (address : IndividualAddress)
  | group (address : GroupAddress)
  deriving DecidableEq

def DestinationAddress.raw : DestinationAddress → UInt16
  | .individual address => address.raw
  | .group address => address.raw

/-! ## Octet order -/

/-- `u16::from_be_bytes`. -/
def be16 (hi lo : UInt8) : UInt16 := UInt16.ofNat (hi.toNat * 256 + lo.toNat)

/-- `u16::to_be_bytes`. -/
def be16Bytes (v : UInt16) : List UInt8 := [UInt8.ofNat (v.toNat / 256), UInt8.ofNat v.toNat]

/-- `u32::from_be_bytes`. -/
def be32 (a b c d : UInt8) : UInt32 :=
  UInt32.ofNat (((a.toNat * 256 + b.toNat) * 256 + c.toNat) * 256 + d.toNat)

/-- `u32::to_be_bytes`. -/
def be32Bytes (v : UInt32) : List UInt8 :=
  [UInt8.ofNat (v.toNat / 256 ^ 3), UInt8.ofNat (v.toNat / 256 ^ 2), UInt8.ofNat (v.toNat / 256),
    UInt8.ofNat v.toNat]

/-- `u32::from_le_bytes`. -/
def le32 (a b c d : UInt8) : UInt32 := be32 d c b a

/-- `u32::to_le_bytes`. -/
def le32Bytes (v : UInt32) : List UInt8 := (be32Bytes v).reverse

/-- A check of all 256 octets. -/
theorem forall_octet {P : UInt8 → Prop} (h : ∀ n : Fin 256, P (UInt8.ofNat n)) (x : UInt8) :
    P x := by
  have := h ⟨x.toNat, x.toNat_lt⟩
  rwa [UInt8.ofNat_toNat] at this

theorem be16_be16Bytes (v : UInt16) :
    be16 (UInt8.ofNat (v.toNat / 256)) (UInt8.ofNat v.toNat) = v := by
  apply UInt16.toNat_inj.mp
  have := v.toNat_lt
  simp only [be16, UInt16.toNat_ofNat', UInt8.toNat_ofNat']
  omega

theorem be16Bytes_be16 (hi lo : UInt8) : be16Bytes (be16 hi lo) = [hi, lo] := by
  have := hi.toNat_lt
  have := lo.toNat_lt
  have hvalue : (be16 hi lo).toNat = hi.toNat * 256 + lo.toNat := by
    rw [be16, UInt16.toNat_ofNat']
    omega
  have hhigh : UInt8.ofNat ((be16 hi lo).toNat / 256) = hi := by
    apply UInt8.toNat_inj.mp
    rw [UInt8.toNat_ofNat', hvalue]
    omega
  have hlow : UInt8.ofNat (be16 hi lo).toNat = lo := by
    apply UInt8.toNat_inj.mp
    rw [UInt8.toNat_ofNat', hvalue]
    omega
  rw [be16Bytes, hhigh, hlow]

theorem be32_be32Bytes (v : UInt32) :
    be32 (UInt8.ofNat (v.toNat / 256 ^ 3)) (UInt8.ofNat (v.toNat / 256 ^ 2))
      (UInt8.ofNat (v.toNat / 256)) (UInt8.ofNat v.toNat) = v := by
  apply UInt32.toNat_inj.mp
  have := v.toNat_lt
  simp only [be32, UInt32.toNat_ofNat', UInt8.toNat_ofNat']
  omega

theorem le32_le32Bytes (v : UInt32) (rest : List UInt8) :
    le32 ((le32Bytes v ++ rest).getD 0 0) ((le32Bytes v ++ rest).getD 1 0)
      ((le32Bytes v ++ rest).getD 2 0) ((le32Bytes v ++ rest).getD 3 0) = v :=
  be32_be32Bytes v

/-! ## Control fields and services -/

inductive Priority where
  | system | normal | urgent | low
  deriving DecidableEq

def Priority.raw : Priority → UInt8
  | .system => 0x00
  | .normal => 0x04
  | .urgent => 0x08
  | .low => 0x0C

inductive AddressType where
  | individual | group
  deriving DecidableEq

def AddressType.raw : AddressType → UInt8
  | .individual => 0x00
  | .group => 0x80

inductive Confirm where
  | noError | error
  deriving DecidableEq

def Confirm.raw : Confirm → UInt8
  | .noError => 0x00
  | .error => 0x01

inductive FrameFormat where
  | extended | standard
  deriving DecidableEq

def FrameFormat.raw : FrameFormat → UInt8
  | .extended => 0x00
  | .standard => 0x80

inductive Repetition where
  | wasRepeated | wasNotRepeated
  deriving DecidableEq

def Repetition.raw : Repetition → UInt8
  | .wasRepeated => 0x00
  | .wasNotRepeated => 0x20

inductive SystemBroadcast where
  | system | broadcast
  deriving DecidableEq

def SystemBroadcast.raw : SystemBroadcast → UInt8
  | .system => 0x00
  | .broadcast => 0x10

inductive AckType where
  | dontCare | requested
  deriving DecidableEq

def AckType.raw : AckType → UInt8
  | .dontCare => 0x00
  | .requested => 0x02

inductive MessageCode where
  | lDataReq | lDataCon | lDataInd
  | propReadReq | propReadCon | propWriteReq | propWriteCon | propInfoInd
  | funcPropCommandReq | funcPropStateReadReq | funcPropCon
  | resetReq | resetInd
  deriving DecidableEq

def MessageCode.raw : MessageCode → UInt8
  | .lDataReq => 0x11
  | .lDataCon => 0x2E
  | .lDataInd => 0x29
  | .propReadReq => 0xFC
  | .propReadCon => 0xFB
  | .propWriteReq => 0xF6
  | .propWriteCon => 0xF5
  | .propInfoInd => 0xF7
  | .funcPropCommandReq => 0xF8
  | .funcPropStateReadReq => 0xF9
  | .funcPropCon => 0xFA
  | .resetReq => 0xF1
  | .resetInd => 0xF0

def messageCodes : List (UInt8 × MessageCode) :=
  [(0x11, .lDataReq), (0x2E, .lDataCon), (0x29, .lDataInd), (0xFC, .propReadReq),
    (0xFB, .propReadCon), (0xF6, .propWriteReq), (0xF5, .propWriteCon), (0xF7, .propInfoInd),
    (0xF8, .funcPropCommandReq), (0xF9, .funcPropStateReadReq), (0xFA, .funcPropCon),
    (0xF1, .resetReq), (0xF0, .resetInd)]

def MessageCode.tryFrom (v : UInt8) : Option MessageCode := messageCodes.lookup v

theorem MessageCode.tryFrom_raw (c : MessageCode) : MessageCode.tryFrom c.raw = some c := by
  cases c <;> rfl

inductive TpduType where
  | dataBroadcast | dataGroup | dataIndividual | dataConnected
  | connect | disconnect | ack | nack
  deriving DecidableEq

end KnxRs.CoreTypes
