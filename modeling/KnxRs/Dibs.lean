import KnxRs.Iterators
import KnxRs.ServerDescription
import Mathlib.Logic.Function.Basic

set_option autoImplicit false

/-!
# Description information blocks

The iterator that checks every block, the sequence that was checked once, its iterator
that does not check again, and the typed view of the device information.
-/
namespace KnxRs.Dibs
open CoreTypes ServerDescription Iterators

def dibHeaderLen : Nat := 2

inductive DibType where
  | deviceInformation
  | supportedServiceFamilies
  | ipConfiguration
  | ipCurrentConfiguration
  | knxAddresses
  | securedServiceFamilies
  | tunnelingInformation
  | extendedDeviceInformation
  | manufacturerData
  deriving DecidableEq

def DibType.raw : DibType → UInt8
  | deviceInformation => 0x01
  | supportedServiceFamilies => 0x02
  | ipConfiguration => 0x03
  | ipCurrentConfiguration => 0x04
  | knxAddresses => 0x05
  | securedServiceFamilies => 0x06
  | tunnelingInformation => 0x07
  | extendedDeviceInformation => 0x08
  | manufacturerData => 0xFE

inductive DibParseError where
  | truncatedHeader (offset remaining : Nat)
  | invalidStructureLength (offset length : Nat)
  | oddStructureLength (offset length : Nat)
  | truncatedStructure (offset declared remaining : Nat)
  | unexpectedDescriptionType (expected actual : UInt8)
  | invalidDeviceInformationLength (actual : Nat)
  | duplicateDescriptionType (typeCode : UInt8)
  deriving DecidableEq

/-- Where in the sequence a malformed structure starts. -/
def DibParseError.offset : DibParseError → Option Nat
  | truncatedHeader offset _ => some offset
  | invalidStructureLength offset _ => some offset
  | oddStructureLength offset _ => some offset
  | truncatedStructure offset _ _ => some offset
  | _ => none

structure Dib where
  bytes : List UInt8
  deriving DecidableEq

namespace Dib
variable (dib : Dib)

def structureLength : Nat := dib.bytes.length

def descriptionTypeRaw : UInt8 := dib.bytes.getD 1 0

end Dib

/-! ## The checking iterator -/

structure DibIterator where
  remaining : List UInt8
  offset : Nat
  failed : Bool

namespace DibIterator
variable (iter : DibIterator)

def new (bytes : List UInt8) : DibIterator := ⟨bytes, 0, false⟩

def fail (error : DibParseError) : Option (Except DibParseError Dib) × DibIterator :=
  (some (.error error), { iter with failed := true, remaining := [] })

def next : Option (Except DibParseError Dib) × DibIterator :=
  if iter.failed ∨ iter.remaining = [] then (none, iter)
  else if iter.remaining.length < dibHeaderLen then
    iter.fail (.truncatedHeader iter.offset iter.remaining.length)
  else
    let length := (iter.remaining.getD 0 0).toNat
    if length < dibHeaderLen then iter.fail (.invalidStructureLength iter.offset length)
    else if length % 2 ≠ 0 then iter.fail (.oddStructureLength iter.offset length)
    else if length > iter.remaining.length then
      iter.fail (.truncatedStructure iter.offset length iter.remaining.length)
    else
      (some (.ok ⟨iter.remaining.take length⟩),
        { iter with remaining := iter.remaining.drop length, offset := iter.offset + length })

theorem next_remaining_lt {iter iter' : DibIterator} {dib : Dib}
    (h : iter.next = (some (.ok dib), iter')) : iter'.remaining.length < iter.remaining.length := by
  unfold next at h
  dsimp only at h
  split_ifs at h with hend hheader hlow hodd hlong
  all_goals cases h
  dsimp only
  rw [List.length_drop]
  dsimp only [dibHeaderLen] at hlow
  omega

end DibIterator

/-! ## The checked sequence -/

structure DibSequence where
  bytes : List UInt8
  deriving DecidableEq

/-- `[u64; 4]`, a bit for every type code. -/
abbrev SeenTypes := Fin 4 → UInt64

def typeWord (typeCode : UInt8) : Fin 4 :=
  ⟨typeCode.toNat / 64, Nat.div_lt_of_lt_mul typeCode.toNat_lt⟩

def typeMask (typeCode : UInt8) : UInt64 := (1 : UInt64) <<< UInt64.ofNat (typeCode.toNat % 64)

/-- The loop of `DibSequence::parse` from an iterator and the types seen so far. -/
def checkFrom (iter : DibIterator) (seenTypes : SeenTypes) : Except DibParseError Unit :=
  match h : iter.next with
  | (none, _) => .ok ()
  | (some (.error error), _) => .error error
  | (some (.ok dib), iter') =>
    let typeCode := dib.descriptionTypeRaw
    let word := typeWord typeCode
    let mask := typeMask typeCode
    if seenTypes word &&& mask ≠ 0 then .error (.duplicateDescriptionType typeCode)
    else
      have := DibIterator.next_remaining_lt h
      checkFrom iter' (Function.update seenTypes word (seenTypes word ||| mask))
termination_by iter.remaining.length

def DibSequence.parse (bytes : List UInt8) : Except DibParseError DibSequence :=
  (checkFrom (DibIterator.new bytes) fun _ => 0).map fun _ => ⟨bytes⟩

/-! ## The iterator that does not check -/

structure DibSequenceIterator where
  remaining : List UInt8

/-- `none` when `split_at` panics. -/
def DibSequenceIterator.next (iter : DibSequenceIterator) :
    Option (Option Dib × DibSequenceIterator) :=
  if iter.remaining = [] then some (none, iter)
  else
    let length := (iter.remaining.getD 0 0).toNat
    if length > iter.remaining.length then none
    else some (some ⟨iter.remaining.take length⟩, ⟨iter.remaining.drop length⟩)

namespace DibSequence
variable (sequence : DibSequence)

def iter : DibSequenceIterator := ⟨sequence.bytes⟩

/-- Every call takes at least one octet off a checked sequence. -/
def getRaw (typeCode : UInt8) : Option (Option Dib) :=
  find DibSequenceIterator.next (fun dib => dib.descriptionTypeRaw = typeCode)
    (sequence.bytes.length + 1) sequence.iter

def get (descriptionType : DibType) : Option (Option Dib) := sequence.getRaw descriptionType.raw

end DibSequence

/-! ## Device information -/

def deviceInformationLen : Nat := 54
def individualAddressOffset : Nat := 4
def friendlyNameOffset : Nat := 24

structure DeviceInformationDib where
  dib : Dib
  length_eq : dib.structureLength = deviceInformationLen

namespace DeviceInformationDib

def parse (dib : Dib) : Except DibParseError DeviceInformationDib :=
  if dib.descriptionTypeRaw ≠ DibType.deviceInformation.raw then
    .error (.unexpectedDescriptionType DibType.deviceInformation.raw dib.descriptionTypeRaw)
  else if h : dib.structureLength = deviceInformationLen then .ok ⟨dib, h⟩
  else .error (.invalidDeviceInformationLength dib.structureLength)

variable (information : DeviceInformationDib)

def individualAddress : UInt16 :=
  be16 (information.dib.bytes.getD individualAddressOffset 0)
    (information.dib.bytes.getD (individualAddressOffset + 1) 0)

def friendlyNameBytes : List UInt8 :=
  (information.dib.bytes.drop friendlyNameOffset).take friendlyNameLen

def friendlyName : String :=
  String.ofList ((information.friendlyNameBytes.takeWhile (· ≠ 0)).map Char.ofUInt8)

end DeviceInformationDib

/-! ## Search request parameters -/

/-- The iterator over parameters stops at one that does not split off. -/
def srpNext (rest : List UInt8) : Option (Option Srp × List UInt8) :=
  if rest = [] then some (none, rest)
  else match splitFirst rest with
  | .error _ => some (none, rest)
  | .ok (srp, tail) => some (some srp, tail)

end KnxRs.Dibs
