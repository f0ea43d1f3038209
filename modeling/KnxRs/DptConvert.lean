import KnxRs.DptNumeric

set_option autoImplicit false

/-!
# Datapoint types of several fields and of text

The main groups that are carried as the octets of their format, the three kinds of
string, and the choice between them and the numeric types.
-/
namespace KnxRs.DptConvert
open CoreTypes DptCodec

/-! ## Octets of several fields -/

/-- The fixed lengths, in the order of the source's match. -/
def lens : List (List UInt16 × Nat) :=
  [([200, 201, 202, 204, 207, 211, 217, 234, 237, 239, 244, 246], 2),
    ([11, 203, 205, 206, 209, 223, 225, 240, 250, 254], 3),
    ([210, 214, 220, 231, 241, 253, 276], 4), ([215, 216, 218, 248, 252], 5),
    ([212, 219, 221, 222, 224, 229, 235, 242, 245, 249, 251, 274], 6), ([271, 272], 7),
    ([19, 213, 230, 243, 255, 273, 275, 288], 8), ([265, 268], 9), ([247, 257, 266], 12),
    ([269], 14), ([256, 285], 16), ([270], 20), ([277], 36), ([278], 42), ([281], 44),
    ([279], 48), ([282], 50), ([283], 56), ([280], 78), ([284], 86)]

/-- `compound::len`. -/
def len (main : UInt16) : Option Nat :=
  (lens.find? (fun row => row.1.contains main)).map Prod.snd

def dpt267 : UInt16 := 267
def dpt267Header : Nat := 8

def handles (main : UInt16) : Bool := (len main).isSome || main = dpt267

def decodeCompound (dpt : Dpt) (payload : List UInt8) : Except DptError DptValue :=
  if dpt.main = dpt267 then
    if payload.length ≤ dpt267Header then .error .payloadTooShort else .ok (.bytes payload)
  else match len dpt.main with
  | none => .error (.unsupportedDpt dpt)
  | some n =>
    if payload.length < n then .error .payloadTooShort else .ok (.bytes (payload.take n))

def encodeCompound (dpt : Dpt) : DptValue → Except DptError (List UInt8)
  | .bytes bytes =>
    if dpt.main = dpt267 then
      if bytes.length ≤ dpt267Header then
        .error (.outOfRange "DPT 267 needs a date and time and a terminated string")
      else if bytes.getLast? ≠ some 0 then
        .error (.outOfRange "DPT 267 string must end with a NUL octet")
      else .ok bytes
    else match len dpt.main with
    | none => .error (.unsupportedDpt dpt)
    | some n =>
      if bytes.length ≠ n then .error (.outOfRange "value must have exactly the octets of the DPT")
      else .ok bytes
  | _ => .error .typeMismatch

/-! ## Strings -/

def nul : Char := Char.ofNat 0

def terminated (payload : List UInt8) : List UInt8 := payload.takeWhile (· ≠ 0)

def ofLatin1 (octets : List UInt8) : String := String.ofList (octets.map Char.ofUInt8)

def dpt16Len : Nat := 14

def decodeDpt16 (dpt : Dpt) (payload : List UInt8) : Except DptError String :=
  if payload.length < dpt16Len then .error .payloadTooShort
  else
    let octets := terminated (payload.take dpt16Len)
    if dpt.sub = 0 ∧ octets.any (fun b => b > 0x7F) then
      .error (.outOfRange "DPT 16.000 is ASCII (0..=127)")
    else .ok (ofLatin1 octets)

/-- A character as an octet, `?` for one beyond the character set. -/
def charOctet (limit : Nat) (ch : Char) : UInt8 :=
  if ch.toNat ≤ limit then UInt8.ofNat ch.toNat else 0x3F

def encodeDpt16 (dpt : Dpt) (value : String) : List UInt8 :=
  let limit := if dpt.sub = 0 then 0x7F else 0xFF
  let text := ((value.toList.takeWhile (· ≠ nul)).take dpt16Len).map (charOctet limit)
  text ++ List.replicate (dpt16Len - text.length) 0

def decodeDpt24 (payload : List UInt8) : String := ofLatin1 (terminated payload)

/-- The loop of `encode_dpt24` over the characters that are left. -/
def latin1Octets : List Char → Except DptError (List UInt8)
  | [] => .ok []
  | ch :: chars =>
    if ch = nul then .error (.outOfRange "DPT 24 text contains a NUL")
    else if ch.toNat > 0xFF then
      .error (.outOfRange "DPT 24 is ISO 8859-1; character above U+00FF")
    else (latin1Octets chars).map (UInt8.ofNat ch.toNat :: ·)

def encodeDpt24 (value : String) : Except DptError (List UInt8) :=
  (latin1Octets value.toList).map (· ++ [0])

def decodeDpt28 (payload : List UInt8) : Except DptError String :=
  if payload = [] then .ok ""
  else match String.fromUTF8? ⟨(terminated payload).toArray⟩ with
  | some text => .ok text
  | none => .error (.outOfRange "invalid UTF-8 in DPT 28 payload")

def encodeDpt28 (value : String) : Except DptError (List UInt8) :=
  if nul ∈ value.toList then .error (.outOfRange "DPT 28 text contains a NUL")
  else .ok (value.toUTF8.data.toList ++ [0])

def decodeString (dpt : Dpt) (payload : List UInt8) : Except DptError DptValue :=
  match dpt.main with
  | 16 => (decodeDpt16 dpt payload).map .text
  | 24 => .ok (.text (decodeDpt24 payload))
  | 28 => (decodeDpt28 payload).map .text
  | _ => .error .typeMismatch

def encodeString (dpt : Dpt) (value : DptValue) : Except DptError (List UInt8) :=
  match value.asStr with
  | none => .error .typeMismatch
  | some s =>
    match dpt.main with
    | 16 => .ok (encodeDpt16 dpt s)
    | 24 => encodeDpt24 s
    | 28 => encodeDpt28 s
    | _ => .error .typeMismatch

/-! ## Dispatch -/

/-- `dpt::decode`. -/
def decode (dpt : Dpt) (payload : List UInt8) : Except DptError DptValue :=
  match dpt.main with
  | 16 | 24 | 28 => decodeString dpt payload
  | main =>
    if handles main then decodeCompound dpt payload else DptNumeric.decode dpt payload

/-- `dpt::encode`. -/
def encode (dpt : Dpt) (value : DptValue) : Except DptError (List UInt8) :=
  match dpt.main with
  | 16 | 24 | 28 => encodeString dpt value
  | main =>
    if handles main then encodeCompound dpt value else DptNumeric.encode dpt value

end KnxRs.DptConvert
