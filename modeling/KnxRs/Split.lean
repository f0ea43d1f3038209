import KnxRs.Renumber
import KnxRs.SourceTrees
import KnxRs.TextSearch

set_option autoImplicit false

/-!
# Splitting a product document

The catalog, the hardware, the application programs and the baggages of a product document, each
in a document of its own inside the same wrapper, with the translations that belong to it.
Positions count characters.
-/
namespace KnxRs.Split
open Texts TextSearch XmlDocuments SourceTrees Renumber

/-! ## Ranges of elements -/

structure ElementRange where
  outerStart : Nat
  childrenStart : Nat
  innerEnd : Nat
  outerEnd : Nat
  deriving DecidableEq

def slice (xml : Text) (start stop : Nat) : Text := (xml.take stop).drop start

def ElementRange.outer (r : ElementRange) (xml : Text) : Text := slice xml r.outerStart r.outerEnd

/-- `xml[start..].find('>')`, as the position after it. -/
def afterTag (xml : Text) (start : Nat) : Option Nat :=
  (find ['>'] (xml.drop start)).map fun n => start + n + 1

/-- The last `<` before `p`, or `p` itself. -/
def tagBefore (xml : Text) (p : Nat) : Nat := (rfind ['<'] (xml.take p)).getD p

def findElementRange (xml localName : Text) : Option ElementRange := do
  let outerStart ← (find ('<' :: localName ++ [' ']) xml).or <|
    (find ('<' :: localName ++ ['>']) xml).or <|
    ((find (':' :: localName ++ [' ']) xml).map (tagBefore xml)).or <|
    (find (':' :: localName ++ ['>']) xml).map (tagBefore xml)
  let childrenStart ← afterTag xml outerStart
  let innerEnd ← (rfind ('<' :: '/' :: localName ++ ['>']) xml).or <|
    (rfind (':' :: localName ++ ['>']) xml).map (tagBefore xml)
  let outerEnd ← afterTag xml innerEnd
  some ⟨outerStart, childrenStart, innerEnd, outerEnd⟩

/-- The loop variables of a search for a child. -/
structure Scan where
  depth : Nat
  outerStart : Option Nat
  childrenStart : Option Nat

def Scan.initial : Scan := ⟨0, none, none⟩

/-- An end tag that is reported belongs to an open element. -/
def childRangeFrom (xml : Text) (offset : Nat) (name : Text) :
    Scan → List (Nat × TagEvent) → Option ElementRange
  | _, [] => none
  | s, (pos, .start e) :: rest =>
    if localName e.name = name then
      if s.depth = 0 then
        (afterTag xml (pos + offset)).bind fun childrenStart =>
          childRangeFrom xml offset name ⟨1, some (pos + offset), some childrenStart⟩ rest
      else childRangeFrom xml offset name { s with depth := s.depth + 1 } rest
    else childRangeFrom xml offset name s rest
  | s, (pos, .close closed) :: rest =>
    if localName closed = name then
      if s.depth - 1 = 0 then do
        let outerEnd ← afterTag xml (pos + offset)
        some ⟨← s.outerStart, ← s.childrenStart, pos + offset, outerEnd⟩
      else childRangeFrom xml offset name { s with depth := s.depth - 1 } rest
    else childRangeFrom xml offset name s rest
  | s, (_, .empty _) :: rest => childRangeFrom xml offset name s rest

/-- `&xml[parent.children_start..parent.inner_end]`, which panics when the end is before the
    start. -/
def searchArea (xml : Text) (parent : ElementRange) : Except Failure Text :=
  if parent.childrenStart ≤ parent.innerEnd then
    .ok (slice xml parent.childrenStart parent.innerEnd)
  else .error .panic

def findChildElementRange (reader : TagReader) (xml : Text) (parent : ElementRange) (name : Text) :
    Except Failure (Option ElementRange) :=
  (searchArea xml parent).map fun area =>
    childRangeFrom xml parent.childrenStart name .initial (reader area)

/-- The ranges found before are in front. -/
def childRangesFrom (xml : Text) (offset : Nat) (name : Text) :
    Scan → List (Nat × TagEvent) → List ElementRange
  | _, [] => []
  | s, (pos, .start e) :: rest =>
    if localName e.name = name then
      if s.depth = 0 then
        childRangesFrom xml offset name
          ⟨1, some (pos + offset), (afterTag xml (pos + offset)).or s.childrenStart⟩ rest
      else childRangesFrom xml offset name { s with depth := s.depth + 1 } rest
    else childRangesFrom xml offset name s rest
  | s, (pos, .empty e) :: rest =>
    if localName e.name = name ∧ s.depth = 0 then
      match afterTag xml (pos + offset) with
      | some outerEnd =>
        ⟨pos + offset, outerEnd, outerEnd, outerEnd⟩ :: childRangesFrom xml offset name s rest
      | none => childRangesFrom xml offset name s rest
    else childRangesFrom xml offset name s rest
  | s, (pos, .close closed) :: rest =>
    if localName closed = name ∧ 0 < s.depth then
      if s.depth - 1 = 0 then
        match afterTag xml (pos + offset) with
        | some outerEnd =>
          ⟨s.outerStart.getD (pos + offset), s.childrenStart.getD (pos + offset), pos + offset,
            outerEnd⟩ :: childRangesFrom xml offset name .initial rest
        | none => childRangesFrom xml offset name .initial rest
      else childRangesFrom xml offset name { s with depth := s.depth - 1 } rest
    else childRangesFrom xml offset name s rest

def findChildElementRanges (reader : TagReader) (xml : Text) (parent : ElementRange) (name : Text) :
    Except Failure (List ElementRange) :=
  (searchArea xml parent).map fun area =>
    childRangesFrom xml parent.childrenStart name .initial (reader area)

/-! ## Translations -/

inductive TranslationCategory where
  | catalog
  | hardware
  | application
  deriving DecidableEq

def contains (pat s : Text) : Bool := (find pat s).isSome

def matchesCategory (refId : Text) : TranslationCategory → Bool
  | .catalog => contains "_CS-".toList refId || contains "_CI-".toList refId
  | .hardware => contains "_H-".toList refId || contains "_HP-".toList refId
  | .application => contains "_A-".toList refId ||
      (!contains "_CS-".toList refId && !contains "_CI-".toList refId &&
        !contains "_H-".toList refId && !contains "_HP-".toList refId)

/-- The reader, and the values of its attributes: what an attribute is normalized to, if that
    succeeds. -/
structure Library where
  reader : TagReader
  normalizedValue : Text → Option Text

variable (lib : Library)

def firstElement : List (Nat × TagEvent) → Option Element
  | [] => none
  | (_, .start e) :: _ | (_, .empty e) :: _ => some e
  | (_, .close _) :: rest => firstElement rest

def extractAttribute (tag attrName : Text) : Option Text := do
  let e ← firstElement (lib.reader tag)
  let raw ← e.attr attrName
  some ((lib.normalizedValue raw).getD raw)

/-- The unit, if it is one of the category. -/
def filterUnit (xml : Text) (category : TranslationCategory) (unit : ElementRange) : Text :=
  match extractAttribute lib (unit.outer xml) "RefId".toList with
  | some refId => if matchesCategory refId category then unit.outer xml else []
  | none => []

def filterUnitsInLanguage (xml : Text) (category : TranslationCategory) (language : ElementRange) :
    Except Failure Text :=
  (findChildElementRanges lib.reader xml language "TranslationUnit".toList).map
    (List.flatMap (filterUnit lib xml category))

/-- The language with its units of the category, if it has any. -/
def filterLanguage (xml : Text) (category : TranslationCategory) (language : ElementRange) :
    Except Failure Text :=
  (filterUnitsInLanguage lib xml category language).map fun units =>
    if units = [] then []
    else slice xml language.outerStart language.childrenStart ++ units ++
      slice xml language.innerEnd language.outerEnd

def filterTranslations (xml : Text) (languages : ElementRange) (category : TranslationCategory) :
    Except Failure Text := do
  let ranges ← findChildElementRanges lib.reader xml languages "Language".toList
  let result := (← ranges.mapM (filterLanguage lib xml category)).flatten
  return if result = [] then [] else "<Languages>".toList ++ result ++ "</Languages>".toList

/-! ## Documents -/

def buildDocument (start end_ : Text) (children : List Text) (translations : Option Text) : Text :=
  let line (s : Text) := "      ".toList ++ s ++ ['\n']
  start ++ ['\n'] ++ children.flatMap line ++
    (match translations with
    | some t => if t = [] then [] else line t
    | none => []) ++
    "    ".toList ++ end_

structure KnxMetadata where
  nsVersion : Nat
  manufacturerId : Text
  applicationId : Text

def catalogFile : Text := "Catalog.xml".toList
def hardwareFile : Text := "Hardware.xml".toList
def baggagesFile : Text := "Baggages.xml".toList
def applicationFile (metadata : KnxMetadata) : Text := metadata.applicationId ++ ".xml".toList

def required (range : Option ElementRange) (name : String) : Except Failure ElementRange :=
  match range with
  | some r => .ok r
  | none => .error (.error (.missingElement name.toList))

/-- The document of one child. -/
def childDocument (xml : Text) (manu child : ElementRange) (translations : Option Text) : Text :=
  buildDocument (xml.take manu.childrenStart) (xml.drop manu.innerEnd) [child.outer xml]
    translations

/-- The translations of a category, where there are languages. -/
def translationsOf (xml : Text) (languages : Option ElementRange) (category : TranslationCategory) :
    Except Failure (Option Text) :=
  match languages with
  | some languages => (filterTranslations lib xml languages category).map some
  | none => .ok none

/-- The files, in the order in which they are written into the directory of the manufacturer. -/
def splitXml (xml : Text) (metadata : KnxMetadata) : Except Failure (List (Text × Text)) := do
  let manu ← required (findElementRange xml "Manufacturer".toList) "Manufacturer"
  let child (name : String) := findChildElementRange lib.reader xml manu name.toList
  let catalog ← required (← child "Catalog") "Catalog"
  let hardware ← required (← child "Hardware") "Hardware"
  let app ← required (← child "ApplicationPrograms") "ApplicationPrograms"
  let languages ← child "Languages"
  let baggages ← child "Baggages"
  let document := childDocument xml manu
  let catalogText := document catalog (← translationsOf lib xml languages .catalog)
  let hardwareText := document hardware (← translationsOf lib xml languages .hardware)
  let appText := document app (← translationsOf lib xml languages .application)
  return [(catalogFile, catalogText), (hardwareFile, hardwareText),
    (applicationFile metadata, appText)] ++
    baggages.toList.map fun r => (baggagesFile, document r none)

end KnxRs.Split
