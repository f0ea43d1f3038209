import KnxRs.CoreTypes
import KnxRs.DptCodec

set_option autoImplicit false

/-!
# Numeric datapoint types

The main groups that map to one number or to the octets of a small record.
-/
namespace KnxRs.DptNumeric
open CoreTypes DptCodec

/-- `u64::from_be_bytes`. -/
def be64 (hi lo : UInt32) : UInt64 := UInt64.ofNat (hi.toNat * 2 ^ 32 + lo.toNat)

/-- `u64::to_be_bytes`. -/
def be64Bytes (v : UInt64) : List UInt8 :=
  be32Bytes (UInt32.ofNat (v.toNat / 2 ^ 32)) ++ be32Bytes (UInt32.ofNat v.toNat)

/-! ## From floats -/

def f64ToU8 (v : Float) : Except DptError UInt8 :=
  let r := v.round
  if ¬r.isFinite ∨ ¬(0.0 ≤ r ∧ r ≤ 255.0) then .error (.outOfRange "expected 0..=255")
  else .ok r.toUInt8

def f64ToU32 (v : Float) : Except DptError UInt32 :=
  let r := v.round
  if ¬r.isFinite ∨ r < 0.0 ∨ r > 4294967295.0 then
    .error (.outOfRange "expected 0..=4294967295")
  else .ok r.toUInt32

def f64ToI32 (v : Float) : Except DptError Int32 :=
  let r := v.round
  if ¬r.isFinite ∨ r < -2147483648.0 ∨ r > 2147483647.0 then
    .error (.outOfRange "expected -2147483648..=2147483647")
  else .ok r.toInt32

def f64ToI64 (v : Float) : Except DptError Int64 :=
  let r := v.round
  if ¬r.isFinite ∨ ¬(-9223372036854775808.0 ≤ r ∧ r < 9223372036854775808.0) then
    .error (.outOfRange "expected a value in the i64 range")
  else .ok r.toInt64

/-! ## Numbers of a value -/

def checkLen (payload : List UInt8) (min : Nat) : Except DptError Unit :=
  if payload.length < min then .error .payloadTooShort else .ok ()

def lowU8 (v : UInt32) : UInt8 := (v &&& 0xFF).toUInt8

def lowU16 (v : UInt32) : UInt16 := (v &&& 0xFFFF).toUInt16

def lowI8 (v : Int32) : Int8 := v.toInt8

def lowI16 (v : Int32) : Int16 := v.toInt16

def valBool : DptValue → Except DptError Bool
  | .bool v => .ok v
  | .uint v => .ok (v ≠ 0)
  | .int v => .ok (v ≠ 0)
  | .float v => .ok (v != 0.0)
  | _ => .error .typeMismatch

def valU32 : DptValue → Except DptError UInt32
  | .uint v => .ok v
  | .bool v => .ok (if v then 1 else 0)
  | .int v =>
    if v < 0 then .error (.outOfRange "negative value for unsigned DPT") else .ok v.toUInt32
  | .float v => f64ToU32 v
  | _ => .error .typeMismatch

def valU32Max (value : DptValue) (max : UInt32) : Except DptError UInt32 := do
  let v ← valU32 value
  if v > max then .error (.outOfRange "value exceeds the range of the DPT") else .ok v

def valI32 : DptValue → Except DptError Int32
  | .int v => .ok v
  | .uint v =>
    if v > 2147483647 then .error (.outOfRange "unsigned value exceeds i32::MAX")
    else .ok v.toInt32
  | .bool v => .ok (if v then 1 else 0)
  | .float v => f64ToI32 v
  | _ => .error .typeMismatch

def valI32Range (value : DptValue) (min max : Int32) : Except DptError Int32 := do
  let v ← valI32 value
  if ¬(min ≤ v ∧ v ≤ max) then .error (.outOfRange "value exceeds the range of the DPT")
  else .ok v

def valF64 (value : DptValue) : Except DptError Float :=
  match value.asF64 with
  | some v => .ok v
  | none => .error .typeMismatch

def valI64 : DptValue → Except DptError Int64
  | .int64 v => .ok v
  | .int v => .ok v.toInt64
  | .uint v => .ok v.toUInt64.toInt64
  | .bool v => .ok (if v then 1 else 0)
  | .float v => f64ToI64 v
  | _ => .error .typeMismatch

/-! ## One octet -/

def decodeDpt1 (payload : List UInt8) : Except DptError DptValue := do
  checkLen payload 1
  .ok (.bool (payload.getD 0 0 &&& 0x01 ≠ 0))

def encodeDpt1 (value : DptValue) : Except DptError (List UInt8) := do
  let v ← valBool value
  .ok [if v then 1 else 0]

def dpt2Mask : UInt8 := 0x03
def dpt3Mask : UInt8 := 0x0F
def dpt17Mask : UInt8 := 0x3F
def dpt23Mask : UInt8 := 0x03
def dpt26Mask : UInt8 := 0x7F
def dpt31Mask : UInt8 := 0x07

def decodeMasked (payload : List UInt8) (mask : UInt8) : Except DptError DptValue := do
  checkLen payload 1
  .ok (.uint (payload.getD 0 0 &&& mask).toUInt32)

def encodeMasked (value : DptValue) (mask : UInt8) : Except DptError (List UInt8) := do
  let v ← valU32Max value mask.toUInt32
  .ok [lowU8 v]

def decodeUintBe (payload : List UInt8) (len : Nat) : Except DptError DptValue := do
  checkLen payload len
  .ok (.uint ((payload.take len).foldl (fun acc b => (acc <<< 8) ||| b.toUInt32) 0))

def encodeUintBe (value : DptValue) (len : Nat) : Except DptError (List UInt8) := do
  let max : UInt32 :=
    if len ≥ 4 then 0xFFFFFFFF else ((1 : UInt32) <<< UInt32.ofNat (8 * len)) - 1
  let v ← valU32Max value max
  .ok ((be32Bytes v).drop (4 - len))

def decodeDpt4 (payload : List UInt8) : Except DptError DptValue := do
  checkLen payload 1
  .ok (.uint (payload.getD 0 0).toUInt32)

def encodeDpt4 (dpt : Dpt) (value : DptValue) : Except DptError (List UInt8) := do
  let max : UInt32 := if dpt.sub = 1 then 0x7F else 0xFF
  let v ← valU32Max value max
  .ok [lowU8 v]

def decodeDpt5 (dpt : Dpt) (payload : List UInt8) : Except DptError DptValue := do
  checkLen payload 1
  let raw := (payload.getD 0 0).toFloat
  if dpt.sub = 1 then .ok (.float (raw * 100.0 / 255.0))
  else if dpt.sub = 3 then .ok (.float (raw * 360.0 / 255.0))
  else .ok (.uint (payload.getD 0 0).toUInt32)

def encodeDpt5 (dpt : Dpt) (value : DptValue) : Except DptError (List UInt8) :=
  if dpt.sub = 1 then do
    let v ← valF64 value
    if ¬(0.0 ≤ v ∧ v ≤ 100.0) then .error (.outOfRange "expected 0..=100 %")
    else
      let octet ← f64ToU8 (v * 255.0 / 100.0).round
      .ok [octet]
  else if dpt.sub = 3 then do
    let v ← valF64 value
    if ¬(0.0 ≤ v ∧ v ≤ 360.0) then .error (.outOfRange "expected 0..=360 degrees")
    else
      let octet ← f64ToU8 (v * 255.0 / 360.0).round
      .ok [octet]
  else if dpt.sub = 6 then do
    let v ← valU32Max value 254
    .ok [lowU8 v]
  else do
    let v ← valU32Max value 255
    .ok [lowU8 v]

def dpt6StatusMode : UInt16 := 20

def decodeDpt6 (dpt : Dpt) (payload : List UInt8) : Except DptError DptValue := do
  checkLen payload 1
  if dpt.sub = dpt6StatusMode then .ok (.uint (payload.getD 0 0).toUInt32)
  else .ok (.int (payload.getD 0 0).toInt8.toInt32)

def encodeDpt6 (dpt : Dpt) (value : DptValue) : Except DptError (List UInt8) :=
  if dpt.sub = dpt6StatusMode then do
    let v ← valU32Max value 0xFF
    let mode := v &&& 0x07
    if ¬(mode = 0b001 ∨ mode = 0b010 ∨ mode = 0b100) then
      .error (.outOfRange "6.020 mode (bits 2..0) must be 001, 010 or 100")
    else .ok [lowU8 v]
  else do
    let v ← valI32Range value (-128) 127
    .ok [(lowI8 v).toUInt8]

def decodeDpt18 (payload : List UInt8) : Except DptError DptValue := do
  checkLen payload 1
  .ok (.uint (payload.getD 0 0).toUInt32)

def encodeDpt18 (value : DptValue) : Except DptError (List UInt8) := do
  let v ← valU32Max value 0xFF
  if v &&& 0x40 ≠ 0 then .error (.outOfRange "DPT 18 bit 6 is reserved (0)")
  else .ok [lowU8 v]

/-! ## Two octets -/

def decodeDpt7 (payload : List UInt8) : Except DptError DptValue := do
  checkLen payload 2
  .ok (.uint (be16 (payload.getD 0 0) (payload.getD 1 0)).toUInt32)

def encodeDpt7 (value : DptValue) : Except DptError (List UInt8) := do
  let v ← valU32Max value 65535
  .ok (be16Bytes (lowU16 v))

def decodeDpt8 (payload : List UInt8) : Except DptError DptValue := do
  checkLen payload 2
  .ok (.int (be16 (payload.getD 0 0) (payload.getD 1 0)).toInt16.toInt32)

def encodeDpt8 (value : DptValue) : Except DptError (List UInt8) := do
  let v ← valI32Range value (-32768) 32767
  .ok (be16Bytes (lowI16 v).toUInt16)

def dpt9Invalid : UInt16 := 0x7FFF

def decodeDpt9 (payload : List UInt8) : Except DptError DptValue := do
  checkLen payload 2
  let raw := be16 (payload.getD 0 0) (payload.getD 1 0)
  if raw = dpt9Invalid then .ok (.float (0.0 / 0.0))
  else
    let exponent := (raw >>> 11) &&& 0x0F
    let m : Int32 := (raw &&& 0x07FF).toUInt32.toInt32
    let mantissa := if raw &&& 0x8000 ≠ 0 then m - 0x0800 else m
    .ok (.float (0.01 * mantissa.toFloat * ((1 : UInt32) <<< exponent.toUInt32).toFloat))

/-- The loop of `encode_dpt9` over the exponents that are left. -/
def encodeF16 (hundredths : Float) : List UInt16 → Except DptError (List UInt8)
  | [] => .error (.outOfRange "KNX F16 range is -671088.64 ..= 670433.28")
  | exponent :: exponents =>
    let mantissa := (hundredths / ((1 : UInt32) <<< exponent.toUInt32).toFloat).round
    if ¬(-2048.0 ≤ mantissa ∧ mantissa ≤ 2047.0) then encodeF16 hundredths exponents
    else
      let m := mantissa.toInt32
      if exponent = 15 ∧ m = 2047 then
        .error (.outOfRange "KNX F16 range is -671088.64 ..= 670433.28")
      else
        let sign : UInt16 := if m < 0 then 0x8000 else 0
        .ok (be16Bytes (sign ||| (exponent <<< 11) ||| lowU16 (m &&& 0x07FF).toUInt32))

def encodeDpt9 (value : DptValue) : Except DptError (List UInt8) := do
  let v ← valF64 value
  if v.isNaN then .ok (be16Bytes dpt9Invalid)
  else if ¬v.isFinite then .error (.outOfRange "KNX F16 needs a finite value")
  else encodeF16 (v * 100.0) [0, 1, 2, 3, 4, 5, 6, 7, 8, 9, 10, 11, 12, 13, 14, 15]

/-! ## Three octets -/

def decodeDpt10 (payload : List UInt8) : Except DptError DptValue := do
  checkLen payload 3
  .ok (.bytes (payload.take 3))

def encodeDpt10 : DptValue → Except DptError (List UInt8)
  | .bytes b => if b.length = 3 then .ok b else .error .typeMismatch
  | .uint secs =>
    if secs > 86399 then .error (.outOfRange "expected 0..=86399 seconds")
    else
      .ok [lowU8 (secs / 3600) &&& 0x1F, lowU8 (secs % 3600 / 60) &&& 0x3F,
        lowU8 (secs % 60) &&& 0x3F]
  | _ => .error .typeMismatch

def decodeDpt232 (payload : List UInt8) : Except DptError DptValue := do
  checkLen payload 3
  .ok (.uint (((payload.getD 0 0).toUInt32 <<< 16) ||| ((payload.getD 1 0).toUInt32 <<< 8) |||
    (payload.getD 2 0).toUInt32))

def encodeDpt232 (value : DptValue) : Except DptError (List UInt8) := do
  let rgb ← valU32Max value 0x00FFFFFF
  .ok [lowU8 ((rgb >>> 16) &&& 0xFF), lowU8 ((rgb >>> 8) &&& 0xFF), lowU8 (rgb &&& 0xFF)]

/-! ## Four octets and eight -/

def be32At (payload : List UInt8) : UInt32 :=
  be32 (payload.getD 0 0) (payload.getD 1 0) (payload.getD 2 0) (payload.getD 3 0)

def decodeDpt12 (payload : List UInt8) : Except DptError DptValue := do
  checkLen payload 4
  .ok (.uint (be32At payload))

def encodeDpt12 (value : DptValue) : Except DptError (List UInt8) := do
  let v ← valU32 value
  .ok (be32Bytes v)

def decodeDpt13 (payload : List UInt8) : Except DptError DptValue := do
  checkLen payload 4
  .ok (.int (be32At payload).toInt32)

def encodeDpt13 (value : DptValue) : Except DptError (List UInt8) := do
  let v ← valI32 value
  .ok (be32Bytes v.toUInt32)

def decodeDpt14 (payload : List UInt8) : Except DptError DptValue := do
  checkLen payload 4
  .ok (.float (Float32.ofBits (be32At payload)).toFloat)

def encodeDpt14 (value : DptValue) : Except DptError (List UInt8) := do
  let v ← valF64 value
  let f := v.toFloat32
  if v.isFinite ∧ ¬f.isFinite then .error (.outOfRange "value exceeds the f32 range")
  else .ok (be32Bytes f.toBits)

def bcdDigitsValid (octets : List UInt8) : Bool :=
  octets.all (fun b => b >>> 4 ≤ 9 ∧ b &&& 0x0F ≤ 9)

def decodeDpt15 (payload : List UInt8) : Except DptError DptValue := do
  checkLen payload 4
  if ¬bcdDigitsValid (payload.take 3) then .error (.outOfRange "DPT 15 digit above 9")
  else .ok (.bytes (payload.take 4))

/-- One round of the digit loop of `encode_dpt15`: what is left of the number, and the octets. -/
def bcdRound (s : UInt32 × List UInt8) (i : Nat) : UInt32 × List UInt8 :=
  let digit := lowU8 (s.1 % 10)
  (s.1 / 10, s.2.modify (i / 2) (fun octet => octet ||| if i % 2 = 0 then digit <<< 4 else digit))

def encodeDpt15 : DptValue → Except DptError (List UInt8)
  | .bytes b =>
    if b.length = 4 then
      if ¬bcdDigitsValid (b.take 3) then .error (.outOfRange "DPT 15 digit above 9") else .ok b
    else .error (.outOfRange "DPT 15 has four octets")
  | value => do
    let v ← valU32Max value 999999
    .ok ([5, 4, 3, 2, 1, 0].foldl bcdRound (v, [0, 0, 0, 0])).2

def decodeDpt27 (payload : List UInt8) : Except DptError DptValue := do
  checkLen payload 4
  .ok (.uint (be32At payload))

def encodeDpt27 (value : DptValue) : Except DptError (List UInt8) := do
  let v ← valU32 value
  .ok (be32Bytes v)

def decodeDpt29 (payload : List UInt8) : Except DptError DptValue := do
  checkLen payload 8
  .ok (.int64 (be64 (be32At payload) (be32At (payload.drop 4))).toInt64)

def encodeDpt29 (value : DptValue) : Except DptError (List UInt8) := do
  let v ← valI64 value
  .ok (be64Bytes v.toUInt64)

/-! ## Dispatch -/

def decode (dpt : Dpt) (payload : List UInt8) : Except DptError DptValue :=
  match dpt.main with
  | 1 => decodeDpt1 payload
  | 2 => decodeMasked payload dpt2Mask
  | 3 => decodeMasked payload dpt3Mask
  | 4 => decodeDpt4 payload
  | 5 => decodeDpt5 dpt payload
  | 6 => decodeDpt6 dpt payload
  | 7 => decodeDpt7 payload
  | 8 => decodeDpt8 payload
  | 9 => decodeDpt9 payload
  | 10 => decodeDpt10 payload
  | 12 => decodeDpt12 payload
  | 13 => decodeDpt13 payload
  | 14 => decodeDpt14 payload
  | 15 => decodeDpt15 payload
  | 17 => decodeMasked payload dpt17Mask
  | 18 => decodeDpt18 payload
  | 26 => decodeMasked payload dpt26Mask
  | 27 => decodeDpt27 payload
  | 29 => decodeDpt29 payload
  | 232 => decodeDpt232 payload
  | 20 | 21 | 25 | 236 | 238 => decodeMasked payload 0xFF
  | 22 => decodeUintBe payload 2
  | 30 => decodeUintBe payload 3
  | 23 => decodeMasked payload dpt23Mask
  | 31 => decodeMasked payload dpt31Mask
  | _ => .error (.unsupportedDpt dpt)

def encode (dpt : Dpt) (value : DptValue) : Except DptError (List UInt8) :=
  match dpt.main with
  | 1 => encodeDpt1 value
  | 2 => encodeMasked value dpt2Mask
  | 3 => encodeMasked value dpt3Mask
  | 4 => encodeDpt4 dpt value
  | 5 => encodeDpt5 dpt value
  | 6 => encodeDpt6 dpt value
  | 7 => encodeDpt7 value
  | 8 => encodeDpt8 value
  | 9 => encodeDpt9 value
  | 10 => encodeDpt10 value
  | 12 => encodeDpt12 value
  | 13 => encodeDpt13 value
  | 14 => encodeDpt14 value
  | 15 => encodeDpt15 value
  | 17 => encodeMasked value dpt17Mask
  | 18 => encodeDpt18 value
  | 26 => encodeMasked value dpt26Mask
  | 27 => encodeDpt27 value
  | 29 => encodeDpt29 value
  | 232 => encodeDpt232 value
  | 20 | 21 | 25 | 236 | 238 => encodeMasked value 0xFF
  | 22 => encodeUintBe value 2
  | 30 => encodeUintBe value 3
  | 23 => encodeMasked value dpt23Mask
  | 31 => encodeMasked value dpt31Mask
  | _ => .error (.unsupportedDpt dpt)

end KnxRs.DptNumeric
