import KnxRs.HashRegistry
import KnxRs.SortKeys
import Mathlib.Data.List.Sort

set_option autoImplicit false

/-!
# Serialization of the application program

The traversal of `hash.rs` over the events of the XML reader: each function is given the
events that are left and returns those it has not read.
-/
namespace KnxRs.Hash
open Texts XmlDocuments XmlScan Renumber

/-- An event of the XML reader. References in text are events of their own; after a failure
the reader is not read again. -/
inductive Event where
  | start (e : Element)
  | empty (e : Element)
  | finish
  | text (s : Text)
  | cdata (s : Text)
  | generalRef (name : Text)
  | other
  | failed

/-! ## Attributes -/

/-- The values by their local names, the last one first. -/
def attrMap (lib : Library) (e : Element) : List (Text × Text) :=
  (e.attributes.map fun (name, value) =>
    (localName name, (lib.normalizedValue value).getD value)).reverse

structure Serialized where
  octets : Octets
  sortKey : Option Text
  ordered : Bool

def ElementKind.tag? : ElementKind → Option UInt8
  | .attrs _ _ => none
  | .innerTextBase64 tag | .innerTextUInt32 tag | .innerTextString tag => some tag

def serializeRegistryAttrs (lib : Library) (info : ElementInfo) (e : Element) :
    Except Failure Serialized :=
  match info.kind with
  | .attrs attributes sortAttr => do
    let map := attrMap lib e
    let written ← attributes.mapM fun info => writeAttr lib info (map.lookup info.xmlName)
    .ok ⟨written.flatten, (sortAttr.bind fun name => map.lookup name).map normalizeApplProgId, info.ordered⟩
  | .innerTextUInt32 tag | .innerTextString tag | .innerTextBase64 tag => .ok ⟨[tag], none, false⟩

/-! ## Inner text -/

/-- `s.replace("\\r\\n", "\\n").replace('\\r', "\\n")`. -/
def normalizeNewlines : Text → Text
  | [] => []
  | '\r' :: '\n' :: cs => '\n' :: normalizeNewlines cs
  | '\r' :: cs => '\n' :: normalizeNewlines cs
  | c :: cs => c :: normalizeNewlines cs

def trim (s : Text) : Text :=
  ((s.dropWhile isWhitespace).reverse.dropWhile isWhitespace).reverse

def isBlank (s : Text) : Bool := s.all isWhitespace

def decodeEntity (entity : Text) : Text :=
  if entity = "lt".toList then "<".toList
  else if entity = "gt".toList then ">".toList
  else if entity = "amp".toList then "&".toList
  else if entity = "apos".toList then "'".toList
  else if entity = "quot".toList then "\"".toList
  else []

def writeCollectedText (lib : Library) (kind : ElementKind) (text : Text) :
    Except Failure Octets :=
  if trim text = [] then .ok []
  else match kind with
    | .innerTextBase64 _ =>
      match lib.decode (trim text) with
      | .ok decoded => .ok decoded
      | .error reason => .error (.error (.invalidStructure (.invalidBase64 reason)))
    | .innerTextUInt32 _ | .innerTextString _ => .ok (writeString text)
    | .attrs _ _ => .ok []

/-- `unescape(raw).unwrap_or_default()`, with its line ends normalized. -/
def textOf (lib : Library) (raw : Text) : Text := normalizeNewlines ((lib.unescape raw).getD [])

def collectRemainingText (lib : Library) (kind : ElementKind) (collected : Text) :
    List Event → Except Failure (Octets × List Event)
  | [] => (writeCollectedText lib kind collected).map fun octets => (octets, [])
  | .failed :: _ => .error (.error .xml)
  | .text raw :: rest => collectRemainingText lib kind (collected ++ textOf lib raw) rest
  | .cdata raw :: rest => collectRemainingText lib kind (collected ++ normalizeNewlines raw) rest
  | .generalRef name :: rest => collectRemainingText lib kind (collected ++ decodeEntity name) rest
  | _ :: rest => (writeCollectedText lib kind collected).map fun octets => (octets, rest)

/-- The first text that is found: inside another element it is all, else the text goes on. -/
def foundText (lib : Library) (kind : ElementKind) (depth : Int) (text : Text)
    (rest : List Event) : Except Failure (Octets × List Event) :=
  if 0 < depth then (writeCollectedText lib kind text).map fun octets => (octets, rest)
  else collectRemainingText lib kind text rest

def scanForInnerText (lib : Library) (kind : ElementKind) (depth : Int) :
    List Event → Except Failure (Octets × List Event)
  | [] => .ok ([], [])
  | .failed :: _ => .error (.error .xml)
  | .start _ :: rest => scanForInnerText lib kind (depth + 1) rest
  | .finish :: rest => scanForInnerText lib kind (depth - 1) rest
  | .text raw :: rest =>
    if isBlank (textOf lib raw) then scanForInnerText lib kind depth rest
    else foundText lib kind depth (textOf lib raw) rest
  | .cdata raw :: rest =>
    if isBlank (normalizeNewlines raw) then scanForInnerText lib kind depth rest
    else foundText lib kind depth (normalizeNewlines raw) rest
  | .generalRef name :: rest =>
    if decodeEntity name = [] then scanForInnerText lib kind depth rest
    else foundText lib kind depth (decodeEntity name) rest
  | _ :: rest => scanForInnerText lib kind depth rest

/-! ## Elements -/

structure GenResult where
  octets : Octets
  orderKey : Option Text
  orderIsRelevant : Bool

/-- `ParameterRefRef` is not ordered below these parents. -/
def orderRelevant (ordered : Bool) (name parentName : Text) : Bool :=
  ordered && !(name = "ParameterRefRef".toList &&
    (parentName = "LParameters".toList || parentName = "RParameters".toList))

/-- An element without a sort attribute is sorted by its digest, if it has any octets. -/
def orderKeyOf (lib : Library) (sortKey : Option Text) (octets : Octets) : Option Text :=
  sortKey.or (if octets = [] then none else some (lib.encode (lib.md5 octets)))

/-- The children so far, and the position of the next ordered one. -/
structure Children where
  sorted : List (SortKey × Octets)
  orderCounter : Nat

def Children.push (children : Children) (result : GenResult) : Children :=
  match result.orderKey with
  | none => children
  | some key =>
    if result.orderIsRelevant then
      ⟨children.sorted ++ [(.ordered children.orderCounter, result.octets)],
        children.orderCounter + 1⟩
    else ⟨children.sorted ++ [(.sorted key, result.octets)], children.orderCounter⟩

def keyLe (x y : SortKey × Octets) : Prop := x.1.cmp y.1 ≠ .gt

instance : DecidableRel keyLe := fun _ _ => inferInstanceAs (Decidable (_ ≠ _))

def Children.concat (children : Children) : Octets :=
  (children.sorted.insertionSort keyLe).flatMap Prod.snd

mutual

def processElement (lib : Library) (parentName : Text) (e : Element) (isEmpty : Bool) :
    (rounds : Nat) → List Event → Except Failure (GenResult × List Event)
  | 0, _ => .error .unfinished
  | rounds + 1, events =>
    let name := localName e.name
    match registry name with
    | some info => do
      let attrs ← serializeRegistryAttrs lib info e
      let (stream, rest) ←
        match info.kind with
        | .attrs _ _ =>
          if isEmpty then .ok ([], events)
          else (readChildren lib name ⟨[], 0⟩ rounds events).map fun (children, rest) =>
            (children.concat, rest)
        | kind => scanForInnerText lib kind 0 events
      let octets := attrs.octets ++ stream
      .ok (⟨octets, orderKeyOf lib attrs.sortKey octets,
        orderRelevant attrs.ordered name parentName⟩, rest)
    | none => do
      let (octets, rest) ←
        if isEmpty then .ok ([], events)
        else (readChildren lib name ⟨[], 0⟩ rounds events).map fun (children, rest) =>
          (children.concat, rest)
      .ok (⟨octets, orderKeyOf lib none octets, false⟩, rest)

/-- The children up to the first end of an element. -/
def readChildren (lib : Library) (parentName : Text) (children : Children) :
    (rounds : Nat) → List Event → Except Failure (Children × List Event)
  | 0, _ => .error .unfinished
  | _ + 1, [] => .ok (children, [])
  | _ + 1, .failed :: _ => .error (.error .xml)
  | _ + 1, .finish :: rest => .ok (children, rest)
  | rounds + 1, .start e :: rest => do
    let (result, rest) ← processElement lib parentName e false rounds rest
    readChildren lib parentName (children.push result) rounds rest
  | rounds + 1, .empty e :: rest => do
    let (result, rest) ← processElement lib parentName e true rounds rest
    readChildren lib parentName (children.push result) rounds rest
  | rounds + 1, _ :: rest => readChildren lib parentName children rounds rest

end

def applicationPrograms : Text := "ApplicationPrograms".toList

def serializeFrom (lib : Library) (rounds : Nat) : List Event → Except Failure Octets
  | [] => .error (.error (.missingElement applicationPrograms))
  | .failed :: _ => .error (.error .xml)
  | .start e :: rest =>
    if localName e.name = applicationPrograms then
      (readChildren lib applicationPrograms ⟨[], 0⟩ rounds rest).map fun (children, _) =>
        children.concat
    else serializeFrom lib rounds rest
  | _ :: rest => serializeFrom lib rounds rest

/-- Every event takes two rounds at most. -/
def serializeAppProgram (lib : Library) (reader : Text → List Event) (xml : Text) :
    Except Failure Octets :=
  serializeFrom lib (2 * (reader xml).length + 1) (reader xml)

/-! ## The hash -/

structure AppProgramHash where
  md5 : Octets
  fingerprint : Nat
  deriving DecidableEq

def hashOf (lib : Library) (octets : Octets) : AppProgramHash :=
  let md5 := lib.md5 octets
  ⟨md5, (md5.getD 0 0).toNat * 256 + (md5.getD 15 0).toNat⟩

def hashApplicationProgram (lib : Library) (reader : Text → List Event) (xml : Text) :
    Except Failure AppProgramHash :=
  (serializeAppProgram lib reader xml).map (hashOf lib)

end KnxRs.Hash
