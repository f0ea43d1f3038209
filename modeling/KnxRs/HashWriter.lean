import KnxRs.Renumber
import Mathlib.Algebra.Group.Int.Defs

set_option autoImplicit false

/-!
# Serialization of attributes

The writer of `hash.rs`: lengths and integers as octets, and the attributes of an element by
their types. What comes from other crates, and the parsing of floating-point numbers, is a
parameter.
-/
namespace KnxRs.Hash
open Texts XmlDocuments XmlScan Renumber

abbrev Octets := List UInt8

/-- The XML reader's unescaping and attribute normalization, MD5, Base64, and `f64::from_str`
with its octets. -/
structure Library where
  unescape : Text → Option Text
  normalizedValue : Text → Option Text
  md5 : Octets → Octets
  encode : Octets → Text
  decode : Text → Except Text Octets
  parseF64 : Text → Option Octets

/-! ## Writing -/

def leOctets : (width : Nat) → Nat → Octets
  | 0, _ => []
  | width + 1, n => UInt8.ofNat n :: leOctets width (n / 256)

/-- Seven bits an octet, in at most `rounds` octets. -/
def writeVarintFrom : (rounds : Nat) → Nat → Octets
  | 0, _ => []
  | rounds + 1, value =>
    if value / 128 = 0 then [UInt8.ofNat (value % 128)]
    else UInt8.ofNat (value % 128 + 128) :: writeVarintFrom rounds (value / 128)

/-- A length has at most 64 bits. -/
def writeVarint (value : Nat) : Octets := writeVarintFrom 10 value

def utf8 (s : Text) : Octets := s.flatMap String.utf8EncodeChar

def writeString (s : Text) : Octets := writeVarint (utf8 s).length ++ utf8 s

def writeBool (b : Bool) : Octets := [if b then 1 else 0]

def nullSentinel : Text := "$<null>$".toList

/-! ## Application program ids -/

def dropOctets : Nat → Text → Option Text
  | 0, xs => some xs
  | _ + 1, [] => none
  | n + 1, c :: cs =>
    if c.utf8Size ≤ n + 1 then dropOctets (n + 1 - c.utf8Size) cs else none

/-- The text up to the second dash, and the text from it on. -/
def splitSecondDash (after : Text) : Option (Text × Text) := do
  let (first, rest) ← splitOnce "-".toList after
  let (second, rest) ← splitOnce "-".toList rest
  some (first ++ '-' :: second, '-' :: rest)

/-- The id without the dash and the four octets of its fingerprint. -/
def normalizeApplProgId (id : Text) : Text :=
  match splitOnce "_A-".toList id with
  | none => id
  | some (before, afterA) =>
    match splitSecondDash afterA with
    | none => id
    | some (kept, fingerprint) =>
      match dropOctets 5 fingerprint with
      | none => id
      | some rest => before ++ "_A-".toList ++ kept ++ rest

/-! ## Attributes -/

inductive AttrType where
  | string | applProgId | bool | uint16 | uint32 | int32 | int64 | byte | double
  deriving DecidableEq

structure AttrInfo where
  xmlName : Text
  short : Text
  attrType : AttrType
  default : Option Text
  deriving DecidableEq

/-- `v == "1" || v.eq_ignore_ascii_case("true")`. -/
def isTrue (v : Text) : Bool := v = "1".toList || v.map Char.toLower = "true".toList

/-- The octets of a value, or `none` where it cannot be parsed. -/
def typedValue (lib : Library) (attrType : AttrType) (v : Text) : Option Octets :=
  match attrType with
  | .string => some (writeString v)
  | .applProgId => some (writeString (normalizeApplProgId v))
  | .bool => some (writeBool (isTrue v))
  | .uint16 => (parseUnsigned 16 v).map (leOctets 2)
  | .uint32 => (parseUnsigned 32 v).map (leOctets 4)
  | .int32 => (parseSigned 32 v).map fun n => leOctets 4 (n % 2 ^ 32).toNat
  | .int64 => (parseSigned 64 v).map fun n => leOctets 8 (n % 2 ^ 64).toNat
  | .byte => (parseUnsigned 8 v).map (leOctets 1)
  | .double => lib.parseF64 v

def writeAttr (lib : Library) (info : AttrInfo) (raw : Option Text) : Except Failure Octets :=
  let effective := (raw.filter fun s => s ≠ []).or info.default
  match effective with
  | none => .ok (writeString info.short ++ writeString nullSentinel)
  | some v =>
    match typedValue lib info.attrType v with
    | some octets => .ok (writeString info.short ++ octets)
    | none => .error (.error (.invalidStructure (.unparseable info.short v)))

/-! ## Elements -/

/-- Elements with attributes, by which they may be sorted, and elements with a text, which
begin with an octet of their own. -/
inductive ElementKind where
  | attrs (attributes : List AttrInfo) (sortAttr : Option Text)
  | innerTextBase64 (tag : UInt8)
  | innerTextUInt32 (tag : UInt8)
  | innerTextString (tag : UInt8)

structure ElementInfo where
  kind : ElementKind
  ordered : Bool

def a (xmlName short : String) (attrType : AttrType) (default : Option String) : AttrInfo :=
  ⟨xmlName.toList, short.toList, attrType, default.map String.toList⟩

def el (attributes : List AttrInfo) : ElementInfo := ⟨.attrs attributes none, false⟩

def els (attributes : List AttrInfo) (sortAttr : String) : ElementInfo :=
  ⟨.attrs attributes (some sortAttr.toList), false⟩

/-- Elements that keep their order. -/
def elo (attributes : List AttrInfo) : ElementInfo := ⟨.attrs attributes none, true⟩

def strt (tag : Char) : ElementInfo := ⟨.innerTextString (UInt8.ofNat tag.toNat), false⟩

def u32t (tag : Char) : ElementInfo := ⟨.innerTextUInt32 (UInt8.ofNat tag.toNat), false⟩

def b64 (tag : Char) : ElementInfo := ⟨.innerTextBase64 (UInt8.ofNat tag.toNat), false⟩

end KnxRs.Hash
