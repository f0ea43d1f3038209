import KnxRs.CoreTypes
import KnxRs.DptCodec

set_option autoImplicit false

/-!
# Typed datapoint types

The structs that name the fields of a multi-field datapoint type, with the octets they are
read from and written as.
-/
namespace KnxRs.TypedDpts
open CoreTypes DptCodec

class TypedDpt (α : Type) where
  /-- The number of octets of the format. -/
  len : Nat
  decode : List UInt8 → Except DptError α
  encode : α → Except DptError (List UInt8)

def flag (octet n : UInt8) : Bool := (octet >>> n) &&& 1 = 1

/-- Bit `n` as a mask, or 0. -/
def bit (set : Bool) (n : UInt8) : UInt8 := if set then 1 <<< n else 0

/-- An error unless `ok`. -/
def ensure (ok : Bool) (context : String) : Except DptError Unit :=
  if ok then .ok () else .error (.outOfRange context)

/-! ## Date and time -/

/-- DPT 11.001. -/
structure Date where
  day : UInt8
  month : UInt8
  year : UInt16
  deriving DecidableEq

namespace Date

def validate (x : Date) : Except DptError Unit := do
  ensure (1 ≤ x.day ∧ x.day ≤ 31) "day of month outside 1..=31"
  ensure (1 ≤ x.month ∧ x.month ≤ 12) "month outside 1..=12"
  ensure (1990 ≤ x.year ∧ x.year ≤ 2089) "year outside 1990..=2089"

def decode (payload : List UInt8) : Except DptError Date := do
  match payload with
  | day :: month :: year :: _ =>
    let year := (year &&& 0x7F).toUInt16
    let date : Date :=
      { day := day &&& 0x1F
        month := month &&& 0x0F
        year := if year ≥ 90 then 1900 + year else 2000 + year }
    date.validate
    .ok date
  | _ => .error .payloadTooShort

def wire (x : Date) : List UInt8 := [x.day, x.month, (x.year % 100).toUInt8]

def encode (x : Date) : Except DptError (List UInt8) := do
  x.validate
  .ok x.wire

instance : TypedDpt Date := ⟨3, decode, encode⟩

end Date

/-- DPT 19.001. -/
structure DateTime where
  year : UInt16
  month : UInt8
  day : UInt8
  dayOfWeek : UInt8
  hour : UInt8
  minute : UInt8
  second : UInt8
  fault : Bool
  workingDay : Bool
  workingDayInvalid : Bool
  yearInvalid : Bool
  dateInvalid : Bool
  dayOfWeekInvalid : Bool
  timeInvalid : Bool
  summerTime : Bool
  clockSynchronised : Bool
  sourceReliable : Bool
  deriving DecidableEq

namespace DateTime

def validate (x : DateTime) : Except DptError Unit := do
  ensure (1900 ≤ x.year ∧ x.year ≤ 2155) "year outside 1900..=2155"
  ensure (x.dayOfWeek ≤ 7) "day of week outside 0..=7"
  if x.dateInvalid then
    ensure (x.month ≤ 15 ∧ x.day ≤ 31) "month or day does not fit its field"
  else
    ensure (1 ≤ x.month ∧ x.month ≤ 12) "month outside 1..=12"
    ensure (1 ≤ x.day ∧ x.day ≤ 31) "day of month outside 1..=31"
  if x.timeInvalid then
    ensure (x.hour ≤ 31 ∧ x.minute ≤ 63 ∧ x.second ≤ 63)
      "hour, minutes or seconds do not fit their field"
  else
    ensure (x.hour ≤ 24) "hour outside 0..=24"
    ensure (x.minute ≤ 59) "minutes outside 0..=59"
    ensure (x.second ≤ 59) "seconds outside 0..=59"
    ensure (x.hour < 24 ∨ x.minute = 0 ∧ x.second = 0) "hour 24 needs minutes and seconds 0"

def decode (payload : List UInt8) : Except DptError DateTime := do
  match payload with
  | year :: month :: day :: dowHour :: minute :: second :: flags :: clock :: _ =>
    let value : DateTime :=
      { year := 1900 + year.toUInt16
        month := month &&& 0x0F
        day := day &&& 0x1F
        dayOfWeek := dowHour >>> 5
        hour := dowHour &&& 0x1F
        minute := minute &&& 0x3F
        second := second &&& 0x3F
        fault := flag flags 7
        workingDay := flag flags 6
        workingDayInvalid := flag flags 5
        yearInvalid := flag flags 4
        dateInvalid := flag flags 3
        dayOfWeekInvalid := flag flags 2
        timeInvalid := flag flags 1
        summerTime := flag flags 0
        clockSynchronised := flag clock 7
        sourceReliable := flag clock 6 }
    value.validate
    .ok value
  | _ => .error .payloadTooShort

def flags (x : DateTime) : UInt8 :=
  bit x.fault 7 ||| bit x.workingDay 6 ||| bit x.workingDayInvalid 5 ||| bit x.yearInvalid 4 |||
    bit x.dateInvalid 3 ||| bit x.dayOfWeekInvalid 2 ||| bit x.timeInvalid 1 |||
    bit x.summerTime 0

def clock (x : DateTime) : UInt8 := bit x.clockSynchronised 7 ||| bit x.sourceReliable 6

def wire (x : DateTime) : List UInt8 :=
  [(x.year - 1900).toUInt8, x.month, x.day, (x.dayOfWeek <<< 5) ||| x.hour, x.minute, x.second,
    x.flags, x.clock]

def encode (x : DateTime) : Except DptError (List UInt8) := do
  x.validate
  .ok x.wire

instance : TypedDpt DateTime := ⟨8, decode, encode⟩

end DateTime

/-! ## Status -/

/-- DPT 207.100. -/
structure StatusBuc where
  relativePower : UInt8
  relativePowerValid : Bool
  fault : Bool
  stage1Active : Bool
  stage2Active : Bool
  deriving DecidableEq

namespace StatusBuc

def decode (payload : List UInt8) : Except DptError StatusBuc := do
  match payload with
  | power :: attributes :: _ =>
    let value : StatusBuc :=
      { relativePower := power
        relativePowerValid := flag attributes 0
        fault := flag attributes 1
        stage1Active := flag attributes 2
        stage2Active := flag attributes 3 }
    if value.relativePowerValid then ensure (power ≤ 100) "relative power outside 0..=100"
    .ok value
  | _ => .error .payloadTooShort

def wire (x : StatusBuc) : List UInt8 :=
  [x.relativePower,
    bit x.relativePowerValid 0 ||| bit x.fault 1 ||| bit x.stage1Active 2 |||
      bit x.stage2Active 3]

def encode (x : StatusBuc) : Except DptError (List UInt8) := do
  ensure (x.relativePower ≤ 100) "relative power outside 0..=100"
  .ok x.wire

instance : TypedDpt StatusBuc := ⟨2, decode, encode⟩

end StatusBuc

/-- DPT 207.105. -/
structure StatusAct where
  position : UInt8
  failure : Bool
  manualOverride : Bool
  calibrationMode : Bool
  valveKick : Bool
  synchronizationMode : Bool
  deriving DecidableEq

namespace StatusAct

def decode (payload : List UInt8) : Except DptError StatusAct := do
  match payload with
  | position :: attributes :: _ =>
    ensure (position ≤ 100) "position outside 0..=100"
    .ok
      { position := position
        failure := flag attributes 0
        manualOverride := flag attributes 1
        calibrationMode := flag attributes 2
        valveKick := flag attributes 3
        synchronizationMode := flag attributes 4 }
  | _ => .error .payloadTooShort

def wire (x : StatusAct) : List UInt8 :=
  [x.position,
    bit x.failure 0 ||| bit x.manualOverride 1 ||| bit x.calibrationMode 2 |||
      bit x.valveKick 3 ||| bit x.synchronizationMode 4]

def encode (x : StatusAct) : Except DptError (List UInt8) := do
  ensure (x.position ≤ 100) "position outside 0..=100"
  .ok x.wire

instance : TypedDpt StatusAct := ⟨2, decode, encode⟩

end StatusAct

/-- DPT 207.600. -/
structure StatusLightingActuator where
  actualValue : UInt8
  validActualValue : Bool
  locked : Bool
  forced : Bool
  nightModeActive : Bool
  staircaseLighting : Bool
  dimming : Bool
  localOverride : Bool
  failure : Bool
  deriving DecidableEq

namespace StatusLightingActuator

def decode (payload : List UInt8) : Except DptError StatusLightingActuator :=
  match payload with
  | actualValue :: attributes :: _ =>
    .ok
      { actualValue := actualValue
        validActualValue := flag attributes 0
        locked := flag attributes 1
        forced := flag attributes 2
        nightModeActive := flag attributes 3
        staircaseLighting := flag attributes 4
        dimming := flag attributes 5
        localOverride := flag attributes 6
        failure := flag attributes 7 }
  | _ => .error .payloadTooShort

def wire (x : StatusLightingActuator) : List UInt8 :=
  [x.actualValue,
    bit x.validActualValue 0 ||| bit x.locked 1 ||| bit x.forced 2 ||| bit x.nightModeActive 3 |||
      bit x.staircaseLighting 4 ||| bit x.dimming 5 ||| bit x.localOverride 6 |||
      bit x.failure 7]

def encode (x : StatusLightingActuator) : Except DptError (List UInt8) := .ok x.wire

instance : TypedDpt StatusLightingActuator := ⟨2, decode, encode⟩

end StatusLightingActuator

/-! ## Metering -/

/-- The status octet Z8. -/
structure Z8Status where
  outOfService : Bool
  fault : Bool
  overridden : Bool
  inAlarm : Bool
  alarmUnacknowledged : Bool
  deriving DecidableEq

namespace Z8Status

def fromOctet (octet : UInt8) : Z8Status where
  outOfService := flag octet 0
  fault := flag octet 1
  overridden := flag octet 2
  inAlarm := flag octet 3
  alarmUnacknowledged := flag octet 4

def toOctet (x : Z8Status) : UInt8 :=
  bit x.outOfService 0 ||| bit x.fault 1 ||| bit x.overridden 2 ||| bit x.inAlarm 3 |||
    bit x.alarmUnacknowledged 4

end Z8Status

/-- `i32::from_be_bytes`. -/
def beI32 (b0 b1 b2 b3 : UInt8) : Int32 := (be32 b0 b1 b2 b3).toInt32

/-- `i32::to_be_bytes`. -/
def beI32Bytes (v : Int32) : List UInt8 := be32Bytes v.toUInt32

/-- DPT 229.001. -/
structure MeteringValue where
  count : Int32
  valueInfoField : UInt8
  status : Z8Status
  deriving DecidableEq

namespace MeteringValue

def decode (payload : List UInt8) : Except DptError MeteringValue :=
  match payload with
  | c0 :: c1 :: c2 :: c3 :: valueInfoField :: status :: _ =>
    .ok
      { count := beI32 c0 c1 c2 c3
        valueInfoField := valueInfoField
        status := .fromOctet status }
  | _ => .error .payloadTooShort

def wire (x : MeteringValue) : List UInt8 :=
  beI32Bytes x.count ++ [x.valueInfoField, x.status.toOctet]

def encode (x : MeteringValue) : Except DptError (List UInt8) := .ok x.wire

instance : TypedDpt MeteringValue := ⟨6, decode, encode⟩

end MeteringValue

/-- DPT 235.001. -/
structure TariffActiveEnergy where
  energy : Int32
  tariff : UInt8
  energyValid : Bool
  tariffValid : Bool
  deriving DecidableEq

namespace TariffActiveEnergy

def decode (payload : List UInt8) : Except DptError TariffActiveEnergy := do
  match payload with
  | e0 :: e1 :: e2 :: e3 :: tariff :: validity :: _ =>
    let value : TariffActiveEnergy :=
      { energy := beI32 e0 e1 e2 e3
        tariff := tariff
        energyValid := !flag validity 1
        tariffValid := !flag validity 0 }
    if value.tariffValid then ensure (tariff ≤ 254) "tariff outside 0..=254"
    .ok value
  | _ => .error .payloadTooShort

def wire (x : TariffActiveEnergy) : List UInt8 :=
  beI32Bytes x.energy ++ [x.tariff, bit (!x.energyValid) 1 ||| bit (!x.tariffValid) 0]

def encode (x : TariffActiveEnergy) : Except DptError (List UInt8) := do
  ensure (x.tariff ≤ 254) "tariff outside 0..=254"
  .ok x.wire

instance : TypedDpt TariffActiveEnergy := ⟨6, decode, encode⟩

end TariffActiveEnergy

/-! ## Colour -/

/-- DPT 251.600. -/
structure Rgbw where
  red : UInt8
  green : UInt8
  blue : UInt8
  white : UInt8
  redValid : Bool
  greenValid : Bool
  blueValid : Bool
  whiteValid : Bool
  deriving DecidableEq

namespace Rgbw

def decode (payload : List UInt8) : Except DptError Rgbw :=
  match payload with
  | red :: green :: blue :: white :: _ :: valid :: _ =>
    .ok
      { red := red
        green := green
        blue := blue
        white := white
        redValid := flag valid 3
        greenValid := flag valid 2
        blueValid := flag valid 1
        whiteValid := flag valid 0 }
  | _ => .error .payloadTooShort

def wire (x : Rgbw) : List UInt8 :=
  [x.red, x.green, x.blue, x.white, 0,
    bit x.redValid 3 ||| bit x.greenValid 2 ||| bit x.blueValid 1 ||| bit x.whiteValid 0]

def encode (x : Rgbw) : Except DptError (List UInt8) := .ok x.wire

instance : TypedDpt Rgbw := ⟨6, decode, encode⟩

end Rgbw
end KnxRs.TypedDpts
