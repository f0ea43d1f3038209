import KnxRs.Texts
import Mathlib.Data.List.Nodup

set_option autoImplicit false

/-!
# XML documents

Documents as the tokens an XML reader sees, with all their spacing, and the text they are
written as. Names are ASCII and a document type declaration has no internal subset.
-/
namespace KnxRs.XmlDocuments
open Texts

def isSpace (c : Char) : Bool := c = ' ' || c = '\t' || c = '\n' || c = '\r'

def isNameChar (c : Char) : Bool :=
  c.isAlphanum || c = '_' || c = '-' || c = '.' || c = ':'

def IsSpaces (s : Text) : Prop := ∀ c ∈ s, isSpace c = true

def IsName (s : Text) : Prop := s ≠ [] ∧ ∀ c ∈ s, isNameChar c = true

instance (s : Text) : Decidable (IsSpaces s) := List.decidableBAll _ s
instance (s : Text) : Decidable (IsName s) :=
  @instDecidableAnd _ _ (inferInstanceAs (Decidable (s ≠ []))) (List.decidableBAll _ s)

/-! ## Tags -/

/-- `name="value"` with its spacing. -/
structure Attribute where
  before : Text
  name : Text
  beforeEq : Text
  afterEq : Text
  quote : Char
  value : Text
  deriving DecidableEq

namespace Attribute

structure WellFormed (a : Attribute) : Prop where
  apart : a.before ≠ []
  before : IsSpaces a.before
  name : IsName a.name
  beforeEq : IsSpaces a.beforeEq
  afterEq : IsSpaces a.afterEq
  quote : a.quote = '"' ∨ a.quote = '\''
  quoted : a.quote ∉ a.value
  value : '<' ∉ a.value

instance (a : Attribute) : Decidable a.WellFormed :=
  decidable_of_iff (a.before ≠ [] ∧ IsSpaces a.before ∧ IsName a.name ∧ IsSpaces a.beforeEq ∧
    IsSpaces a.afterEq ∧ (a.quote = '"' ∨ a.quote = '\'') ∧ a.quote ∉ a.value ∧ '<' ∉ a.value)
    ⟨fun ⟨h₁, h₂, h₃, h₄, h₅, h₆, h₇, h₈⟩ => ⟨h₁, h₂, h₃, h₄, h₅, h₆, h₇, h₈⟩,
      fun ⟨h₁, h₂, h₃, h₄, h₅, h₆, h₇, h₈⟩ => ⟨h₁, h₂, h₃, h₄, h₅, h₆, h₇, h₈⟩⟩

def render (a : Attribute) : Text :=
  a.before ++ a.name ++ a.beforeEq ++ ('=' :: a.afterEq) ++ (a.quote :: a.value) ++ [a.quote]

def pair (a : Attribute) : Text × Text := (a.name, a.value)

def mapValue (f : Text → Text) (a : Attribute) : Attribute := { a with value := f a.value }

end Attribute

/-- A start tag, or an element written as one tag. -/
structure Tag where
  name : Text
  attributes : List Attribute
  trailing : Text
  selfClosing : Bool
  deriving DecidableEq

/-- What a reader reports of a tag. -/
structure Element where
  name : Text
  attributes : List (Text × Text)
  deriving DecidableEq

namespace Element

def attr (e : Element) (name : Text) : Option Text := e.attributes.lookup name

def mapValues (f : Text → Text) (e : Element) : Element :=
  { e with attributes := e.attributes.map fun a => (a.1, f a.2) }

theorem attr_mapValues (f : Text → Text) (e : Element) (name : Text) :
    (e.mapValues f).attr name = (e.attr name).map f := by
  unfold attr mapValues
  dsimp only
  induction e.attributes with
  | nil => rfl
  | cons a as ih =>
    rw [List.map_cons, List.lookup_cons, List.lookup_cons]
    cases name == a.1
    · exact ih
    · rfl

end Element

namespace Tag

structure WellFormed (t : Tag) : Prop where
  name : IsName t.name
  attributes : ∀ a ∈ t.attributes, a.WellFormed
  distinct : (t.attributes.map Attribute.name).Nodup
  trailing : IsSpaces t.trailing

instance (t : Tag) : Decidable t.WellFormed :=
  decidable_of_iff (IsName t.name ∧ (∀ a ∈ t.attributes, a.WellFormed) ∧
    (t.attributes.map Attribute.name).Nodup ∧ IsSpaces t.trailing)
    ⟨fun ⟨h₁, h₂, h₃, h₄⟩ => ⟨h₁, h₂, h₃, h₄⟩, fun ⟨h₁, h₂, h₃, h₄⟩ => ⟨h₁, h₂, h₃, h₄⟩⟩

/-- What stands between `<` and `>`. -/
def body (t : Tag) : Text :=
  t.name ++ t.attributes.flatMap Attribute.render ++ t.trailing ++
    (if t.selfClosing then ['/'] else [])

def render (t : Tag) : Text := '<' :: t.body ++ ['>']

def element (t : Tag) : Element := ⟨t.name, t.attributes.map Attribute.pair⟩

def mapValues (f : Text → Text) (t : Tag) : Tag :=
  { t with attributes := t.attributes.map (Attribute.mapValue f) }

theorem element_mapValues (f : Text → Text) (t : Tag) :
    (t.mapValues f).element = t.element.mapValues f := by
  unfold element mapValues Element.mapValues
  dsimp only
  rw [List.map_map, List.map_map]
  rfl

end Tag

/-! ## Tokens -/

inductive Token where
  | text (s : Text)
  | comment (s : Text)
  | cdata (s : Text)
  | instruction (s : Text)
  | declaration (s : Text)
  | endTag (name spaces : Text)
  | tag (t : Tag)
  deriving DecidableEq

namespace Token

/-- The character data has no `<`, and every delimiter is the first of its kind. -/
def WellFormed : Token → Prop
  | text s => '<' ∉ s
  | comment s => splitOnce "--".toList (s ++ "--".toList) = some (s, [])
  | cdata s => splitOnce "]]>".toList (s ++ "]]>".toList) = some (s, [])
  | instruction s => s ≠ [] ∧ splitOnce "?>".toList (s ++ "?>".toList) = some (s, [])
  | declaration s => "DOCTYPE".toList <+: s ∧ '<' ∉ s ∧ '>' ∉ s
  | endTag name spaces => IsName name ∧ IsSpaces spaces
  | tag t => t.WellFormed

instance : (t : Token) → Decidable t.WellFormed
  | text _ => inferInstanceAs (Decidable (¬_))
  | comment _ | cdata _ => inferInstanceAs (Decidable (_ = _))
  | instruction _ | declaration _ | endTag _ _ => inferInstanceAs (Decidable (_ ∧ _))
  | tag t => inferInstanceAs (Decidable t.WellFormed)

def render : Token → Text
  | text s => s
  | comment s => "<!--".toList ++ s ++ "-->".toList
  | cdata s => "<![CDATA[".toList ++ s ++ "]]>".toList
  | instruction s => "<?".toList ++ s ++ "?>".toList
  | declaration s => "<!".toList ++ s ++ ">".toList
  | endTag name spaces => "</".toList ++ name ++ spaces ++ ">".toList
  | tag t => t.render

def tag? : Token → Option Tag
  | tag t => some t
  | _ => none

def mapValues (f : Text → Text) : Token → Token
  | tag t => tag (t.mapValues f)
  | token => token

end Token

/-! ## Plain tokens -/

/-- ` name="value"`. -/
def Attribute.plain (name value : Text) : Attribute := ⟨[' '], name, [], [], '"', value⟩

def Token.startTag (name : Text) (attributes : List (Text × Text)) : Token :=
  .tag ⟨name, attributes.map fun (name, value) => .plain name value, [], false⟩

def Token.emptyTag (name : Text) (attributes : List (Text × Text)) : Token :=
  .tag ⟨name, attributes.map fun (name, value) => .plain name value, [], true⟩

def Token.closing (name : Text) : Token := .endTag name []

/-! ## Documents -/

/-- The names of the elements still open after the tokens, the innermost first. -/
def openElements : List Text → List Token → Option (List Text)
  | names, [] => some names
  | names, .tag t :: tokens =>
    openElements (if t.selfClosing then names else t.name :: names) tokens
  | name :: names, .endTag name' _ :: tokens =>
    if name = name' then openElements names tokens else none
  | [], .endTag _ _ :: _ => none
  | names, _ :: tokens => openElements names tokens

structure Document where
  tokens : List Token
  wellFormed : ∀ token ∈ tokens, token.WellFormed
  balanced : openElements [] tokens = some []

namespace Document

def render (doc : Document) : Text := doc.tokens.flatMap Token.render

def tags (doc : Document) : List Tag := doc.tokens.filterMap Token.tag?

def elements (doc : Document) : List Element := doc.tags.map Tag.element

def values (doc : Document) : List Text :=
  doc.elements.flatMap fun e => e.attributes.map Prod.snd

theorem tag_wellFormed (doc : Document) {t : Tag} (h : t ∈ doc.tags) : t.WellFormed := by
  obtain ⟨token, htoken, ht⟩ := List.mem_filterMap.mp h
  have hw := doc.wellFormed token htoken
  cases token with
  | tag t' =>
    obtain rfl := Option.some.inj ht
    exact hw
  | _ => cases ht

end Document

/-! ## Other attribute values -/

/-- The new values can stand where the old ones do. -/
def Replaces (f : Text → Text) : Prop :=
  ∀ value, ∀ c ∈ f value, c ∈ value ∨ (c ≠ '"' ∧ c ≠ '\'' ∧ c ≠ '<')

theorem Attribute.mapValue_wellFormed {f : Text → Text} (hf : Replaces f) {a : Attribute}
    (h : a.WellFormed) : (a.mapValue f).WellFormed := by
  refine { h with quoted := fun hq => ?_, value := fun hv => ?_ }
  · rcases hf a.value _ hq with hq | ⟨hq, hq', _⟩
    · exact h.quoted hq
    · exact h.quote.elim hq hq'
  · rcases hf a.value _ hv with hv | ⟨_, _, hv⟩
    · exact h.value hv
    · exact hv rfl

theorem Tag.mapValues_wellFormed {f : Text → Text} (hf : Replaces f) {t : Tag}
    (h : t.WellFormed) : (t.mapValues f).WellFormed := by
  refine ⟨h.name, fun a ha => ?_, ?_, h.trailing⟩
  · obtain ⟨old, hold, rfl⟩ := List.mem_map.mp ha
    exact Attribute.mapValue_wellFormed hf (h.attributes old hold)
  · show ((t.attributes.map (Attribute.mapValue f)).map Attribute.name).Nodup
    rw [List.map_map]
    exact h.distinct

theorem Token.mapValues_wellFormed {f : Text → Text} (hf : Replaces f) {token : Token}
    (h : token.WellFormed) : (token.mapValues f).WellFormed := by
  cases token with
  | tag t => exact Tag.mapValues_wellFormed hf h
  | _ => exact h

theorem openElements_mapValues (f : Text → Text) (names : List Text) (tokens : List Token) :
    openElements names (tokens.map (Token.mapValues f)) = openElements names tokens := by
  induction tokens generalizing names with
  | nil => cases names <;> rfl
  | cons token tokens ih =>
    cases token with
    | endTag name spaces =>
      cases names with
      | nil => rfl
      | cons first names =>
        show (if first = name then openElements names (tokens.map _) else none) =
          if first = name then openElements names tokens else none
        rw [ih]
    | tag t =>
      cases names <;> exact ih _
    | _ => cases names <;> exact ih _

/-- The document with other attribute values. -/
def Document.mapValues (doc : Document) (f : Text → Text) (hf : Replaces f) : Document where
  tokens := doc.tokens.map (Token.mapValues f)
  wellFormed := by
    intro token htoken
    obtain ⟨old, hold, rfl⟩ := List.mem_map.mp htoken
    exact Token.mapValues_wellFormed hf (doc.wellFormed old hold)
  balanced := (openElements_mapValues f [] doc.tokens).trans doc.balanced

theorem Document.elements_mapValues (doc : Document) {f : Text → Text} (hf : Replaces f) :
    (doc.mapValues f hf).elements = doc.elements.map (Element.mapValues f) := by
  show ((doc.tokens.map (Token.mapValues f)).filterMap Token.tag?).map Tag.element =
    ((doc.tokens.filterMap Token.tag?).map Tag.element).map _
  rw [List.filterMap_map, List.map_filterMap, List.map_filterMap, List.map_filterMap]
  refine List.filterMap_congr fun token _ => ?_
  cases token with
  | tag t => exact congrArg some (Tag.element_mapValues f t)
  | _ => rfl

theorem Document.mapValues_same (doc : Document) {f : Text → Text} (hf : Replaces f)
    (h : ∀ value, f value = value) : (doc.mapValues f hf).tokens = doc.tokens := by
  obtain rfl : f = id := funext h
  have hattribute : Attribute.mapValue id = id := rfl
  refine List.map_id'' (fun token => ?_) doc.tokens
  cases token with
  | tag t =>
    show Token.tag { t with attributes := t.attributes.map (Attribute.mapValue id) } = Token.tag t
    rw [hattribute, List.map_id]
  | _ => rfl

end KnxRs.XmlDocuments
