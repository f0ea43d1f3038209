set_option autoImplicit false

/-!
# Datapoint types

A group object's datapoint type decides the wire form of its value.
-/
namespace KnxRs.DptCodec

structure Dpt where
  main : UInt16
  sub : UInt16
  index : UInt16
  deriving DecidableEq

inductive DptWireSize where
  | bits (n : UInt8)
  | bytes (n : UInt8)
  | variableBytes
  | unknown
  deriving DecidableEq

/-- The main groups of every wire size, in the order of the source's match. -/
def wireSizes : List (List UInt16 × DptWireSize) :=
  [([1], .bits 1), ([2, 23], .bits 2), ([3], .bits 4), ([31], .bits 3),
    ([4, 5, 6, 17, 18, 20, 21, 25, 26, 236, 238], .bytes 1),
    ([7, 8, 9, 22, 200, 201, 202, 204, 207, 211, 217, 234, 237, 239, 244, 246], .bytes 2),
    ([10, 11, 30, 203, 205, 206, 209, 223, 225, 232, 240, 250, 254], .bytes 3),
    ([12, 13, 14, 15, 27, 210, 214, 220, 231, 241, 253, 276], .bytes 4),
    ([215, 216, 218, 248, 252], .bytes 5),
    ([212, 219, 221, 222, 224, 229, 235, 242, 245, 249, 251, 274], .bytes 6),
    ([271, 272], .bytes 7),
    ([19, 29, 213, 230, 243, 255, 273, 275, 288], .bytes 8),
    ([265, 268], .bytes 9), ([247, 257, 266], .bytes 12), ([16, 269], .bytes 14),
    ([256, 285], .bytes 16), ([270], .bytes 20), ([277], .bytes 36), ([278], .bytes 42),
    ([281], .bytes 44), ([279], .bytes 48), ([282], .bytes 50), ([283], .bytes 56),
    ([280], .bytes 78), ([284], .bytes 86), ([24, 28, 267], .variableBytes)]

def Dpt.wireSize (dpt : Dpt) : DptWireSize :=
  match wireSizes.find? (fun row => row.1.contains dpt.main) with
  | some row => row.2
  | none => .unknown

/-- The wire length in octets; 1 where the main group has none. -/
def Dpt.dataLength (dpt : Dpt) : UInt8 :=
  match dpt.wireSize with
  | .bytes bytes => bytes
  | .bits _ | .variableBytes | .unknown => 1

/-! ## Values -/

inductive DptValue where
  | bool (v : Bool)
  | uint (v : UInt32)
  | int (v : Int32)
  | float (v : Float)
  | int64 (v : Int64)
  | text (s : String)
  | bytes (b : List UInt8)

inductive DptError where
  | payloadTooShort
  | unsupportedDpt (dpt : Dpt)
  | outOfRange (context : String)
  | typeMismatch
  | noDpt
  deriving DecidableEq

namespace DptValue

def asF64 : DptValue → Option Float
  | float v => some v
  | bool v => some (if v then 1.0 else 0.0)
  | uint v => some v.toFloat
  | int v => some v.toFloat
  | int64 v => some v.toFloat
  | _ => none

def asStr : DptValue → Option String
  | text s => some s
  | _ => none

inductive Variant where
  | bool | uint | int | float | int64 | text | bytes
  deriving DecidableEq

def variant : DptValue → Variant
  | bool _ => .bool
  | uint _ => .uint
  | int _ => .int
  | float _ => .float
  | int64 _ => .int64
  | text _ => .text
  | bytes _ => .bytes

end DptValue

end KnxRs.DptCodec
