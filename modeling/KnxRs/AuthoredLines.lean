import KnxRs.XmlReader
import KnxRs.XmlValues

set_option autoImplicit false

/-!
# The lines of an authored document

The authoring API writes one tag on a line, with attributes that are ids and numbers, written
as they are, or texts, which are escaped.
-/
namespace KnxRs.Author
open Texts XmlDocuments XmlReader XmlValues

/-! ## Escaping -/

def escapeChar (c : Char) : Text :=
  if c = '&' then "&amp;".toList else
  if c = '<' then "&lt;".toList else
  if c = '>' then "&gt;".toList else
  if c = '"' then "&quot;".toList else [c]

/-- A text without these characters is borrowed. -/
def escapeAttr (s : Text) : Text :=
  if !s.any (fun c => c = '&' || c = '<' || c = '>' || c = '"') then s else s.flatMap escapeChar

theorem escapeChar_cases (c : Char) :
    (∃ name, ';' ∉ name ∧ (∀ d ∈ name, isNameChar d = true) ∧ referenced name = some c ∧
      isSpace c = false ∧ escapeChar c = '&' :: (name ++ [';'])) ∨
    (c ≠ '&' ∧ c ≠ '<' ∧ c ≠ '"' ∧ escapeChar c = [c]) := by
  unfold escapeChar
  split_ifs with hamp hlt hgt hquot
  · subst hamp
    exact .inl ⟨['a', 'm', 'p'], by decide, List.all_eq_true.mp rfl, rfl, rfl, rfl⟩
  · subst hlt
    exact .inl ⟨['l', 't'], by decide, List.all_eq_true.mp rfl, rfl, rfl, rfl⟩
  · subst hgt
    exact .inl ⟨['g', 't'], by decide, List.all_eq_true.mp rfl, rfl, rfl, rfl⟩
  · subst hquot
    exact .inl ⟨['q', 'u', 'o', 't'], by decide, List.all_eq_true.mp rfl, rfl, rfl, rfl⟩
  · exact .inr ⟨hamp, hlt, hquot, rfl⟩

theorem escapeAttr_eq (s : Text) : escapeAttr s = s.flatMap escapeChar := by
  unfold escapeAttr
  split_ifs with h
  · rw [Bool.not_eq_true', List.any_eq_false] at h
    have hself : ∀ c ∈ s, escapeChar c = [c] := by
      intro c hc
      have := h c hc
      simp only [Bool.or_eq_true, decide_eq_true_eq, not_or] at this
      unfold escapeChar
      rw [if_neg this.1.1.1, if_neg this.1.1.2, if_neg this.1.2, if_neg this.2]
    clear h
    induction s with
    | nil => rfl
    | cons c cs ih =>
      rw [List.flatMap_cons, hself c List.mem_cons_self, ← ih fun d hd =>
        hself d (List.mem_cons_of_mem c hd)]
      rfl
  · rfl

/-- What is escaped is read back, but for its tabs and line ends. -/
theorem attributeValue_escapeAttr (s : Text) :
    attributeValue (escapeAttr s) = some (flattened s) := by
  have hfrom (afterReturn : Bool) :
      decodeFrom none (lineEndsFrom afterReturn (s.flatMap escapeChar)) =
        some ((lineEndsFrom afterReturn s).map whiteSpace) := by
    induction s generalizing afterReturn with
    | nil => rfl
    | cons c cs ih =>
      rw [List.flatMap_cons]
      rcases escapeChar_cases c with ⟨name, hend, hname, hreferenced, hspace, he⟩ | ⟨hamp, hlt, _, he⟩
      · have hbreak (d : Char) (hd : isSpace d = false) : d ≠ '\r' ∧ d ≠ '\n' := by
          unfold isSpace at hd
          simp only [Bool.or_eq_false_iff, decide_eq_false_iff_not] at hd
          exact ⟨hd.2, hd.1.2⟩
        have hnames : ∀ d ∈ name ++ [';'], d ≠ '\r' ∧ d ≠ '\n' := by
          intro d hd
          rcases List.mem_append.mp hd with hd | hd
          · have := hname d hd
            constructor <;> rintro rfl <;> cases this
          · rw [List.mem_singleton.mp hd]
            exact ⟨by decide, by decide⟩
        have hself : whiteSpace c = c := by
          unfold whiteSpace
          rw [hspace]
          rfl
        rw [he, List.cons_append, lineEndsFrom_other (by decide) (by decide),
          lineEndsFrom_append hnames, List.append_assoc, decodeFrom, if_pos rfl,
          List.singleton_append, decodeFrom_reference hend, List.nil_append, hreferenced, ih,
          lineEndsFrom_other (hbreak c hspace).1 (hbreak c hspace).2, List.map_cons, hself]
        rfl
      · rw [he, List.singleton_append]
        unfold lineEndsFrom
        split_ifs
        · rw [decodeFrom_plain (by decide) (by decide), ih]
          rfl
        · exact ih false
        · rw [decodeFrom_plain hamp hlt, ih]
          rfl
  rw [escapeAttr_eq]
  exact hfrom false

/-- Escaping and reading is the identity on the texts without tabs and line ends, and only on
    them. -/
theorem attributeValue_escapeAttr_iff (s : Text) :
    attributeValue (escapeAttr s) = some s ↔ unbroken s = true := by
  rw [attributeValue_escapeAttr, Option.some_inj, flattened_eq_self]

theorem escapeAttr_safe (s : Text) : '"' ∉ escapeAttr s ∧ '<' ∉ escapeAttr s := by
  have hchar {d : Char} (hd : d ∈ escapeAttr s) : d ≠ '"' ∧ d ≠ '<' := by
    rw [escapeAttr_eq] at hd
    obtain ⟨c, _, hc⟩ := List.mem_flatMap.mp hd
    rcases escapeChar_cases c with ⟨name, _, hname, _, _, he⟩ | ⟨_, hlt, hquot, he⟩
    · rw [he] at hc
      rcases List.mem_cons.mp hc with rfl | hc
      · exact ⟨by decide, by decide⟩
      rcases List.mem_append.mp hc with hc | hc
      · have := hname d hc
        constructor <;> rintro rfl <;> cases this
      · rw [List.mem_singleton.mp hc]
        exact ⟨by decide, by decide⟩
    · rw [he] at hc
      rw [List.mem_singleton.mp hc]
      exact ⟨hquot, hlt⟩
  exact ⟨fun h => (hchar h).1 rfl, fun h => (hchar h).2 rfl⟩

theorem isNameChar_legal {c : Char} (h : isNameChar c = true) : isXmlChar c = true :=
  XmlScan.nameChar_induction (P := fun c => isXmlChar c = true) (by decide +kernel) h

def legal (s : Text) : Bool := s.all isXmlChar

theorem escapeAttr_legal {s : Text} (h : legal s = true) : legal (escapeAttr s) = true := by
  unfold legal at h ⊢
  rw [List.all_eq_true] at h ⊢
  intro d hd
  rw [escapeAttr_eq] at hd
  obtain ⟨c, hmem, hc⟩ := List.mem_flatMap.mp hd
  rcases escapeChar_cases c with ⟨name, _, hname, _, _, he⟩ | ⟨_, _, _, he⟩
  · rw [he] at hc
    rcases List.mem_cons.mp hc with rfl | hc
    · decide
    rcases List.mem_append.mp hc with hc | hc
    · exact isNameChar_legal (hname d hc)
    · rw [List.mem_singleton.mp hc]
      decide
  · rw [he] at hc
    rw [List.mem_singleton.mp hc]
    exact h c hmem

/-! ## Lines -/

/-- An attribute value: an id or a number, or a text that is escaped. -/
inductive Value where
  | plain (s : Text)
  | given (s : Text)

namespace Value

def written : Value → Text
  | plain s => s
  | given s => escapeAttr s

def read (f : Text → Text) : Value → Text
  | plain s => s
  | given s => f s

def gives (p : Text → Bool) : Value → Bool
  | plain _ => true
  | given s => p s

end Value

abbrev Attributes := List (String × Value)

inductive Line where
  | opening (indent : Nat) (name : String) (attributes : Attributes)
  | single (indent : Nat) (name : String) (attributes : Attributes)
  | closing (indent : Nat) (name : String)

def attributeOf (a : String × Value) : Attribute := .plain a.1.toList a.2.written

namespace Line

def attributes : Line → Attributes
  | opening _ _ attributes => attributes
  | single _ _ attributes => attributes
  | closing _ _ => []

def name : Line → String
  | opening _ name _ => name
  | single _ name _ => name
  | closing _ name => name

def indent : Line → Nat
  | opening indent _ _ => indent
  | single indent _ _ => indent
  | closing indent _ => indent

def token : Line → Token
  | opening _ name attributes => .tag ⟨name.toList, attributes.map attributeOf, [], false⟩
  | single _ name attributes => .tag ⟨name.toList, attributes.map attributeOf, [' '], true⟩
  | closing _ name => .endTag name.toList []

def tokens (line : Line) : List Token :=
  [.text (List.replicate line.indent ' '), line.token, .text ['\n']]

def element (f : Text → Text) (line : Line) : Element :=
  ⟨line.name.toList, line.attributes.map fun a => (a.1.toList, a.2.read f)⟩

def elements (f : Text → Text) : Line → List Element
  | closing _ _ => []
  | line => [line.element f]

def gives (p : Text → Bool) (line : Line) : Bool := line.attributes.all fun a => a.2.gives p

end Line

def tokensOf (lines : List Line) : List Token := lines.flatMap Line.tokens

def textOf (lines : List Line) : Text := (tokensOf lines).flatMap Token.render

def elementsOf (f : Text → Text) (lines : List Line) : List Element :=
  lines.flatMap (Line.elements f)

def givesAll (p : Text → Bool) (lines : List Line) : Bool := lines.all (Line.gives p)

def node (indent : Nat) (name : String) (attributes : Attributes) (inner : List Line) :
    List Line :=
  .opening indent name attributes :: (inner ++ [.closing indent name])

/-! ## Sound lines -/

def isPlainChar (c : Char) : Bool := isXmlChar c && c ≠ '&' && c ≠ '<' && c ≠ '"' && !isBreak c

def plainText (s : Text) : Bool := s.all isPlainChar

def Value.isSound : Value → Bool
  | .plain s => plainText s
  | .given _ => true

def isNameText (name : String) : Bool := decide (IsName name.toList)

def namesSound (name : String) (names : List String) : Bool :=
  isNameText name && names.all isNameText && decide names.Nodup

def Line.isSound (line : Line) : Bool :=
  namesSound line.name (line.attributes.map Prod.fst) && line.attributes.all fun a => a.2.isSound

section
variable {line : Line} {lines more : List Line}

theorem sound_names (h : line.isSound = true) :
    namesSound line.name (line.attributes.map Prod.fst) = true := (Bool.and_eq_true_iff.mp h).1

theorem sound_values (h : line.isSound = true) : ∀ a ∈ line.attributes, a.2.isSound = true :=
  List.all_eq_true.mp (Bool.and_eq_true_iff.mp h).2

theorem attributeOf_wellFormed {a : String × Value} (hname : isNameText a.1 = true)
    (hvalue : a.2.isSound = true) : (attributeOf a).WellFormed := by
  have hsafe : '"' ∉ a.2.written ∧ '<' ∉ a.2.written := by
    obtain ⟨name, value⟩ := a
    cases value with
    | given s => exact escapeAttr_safe s
    | plain s =>
      have hplain := List.all_eq_true.mp hvalue
      constructor
      · exact fun h => absurd (hplain _ h) (by decide)
      · exact fun h => absurd (hplain _ h) (by decide)
  have hspace : IsSpaces [' '] := by decide
  exact ⟨List.cons_ne_nil _ _, hspace, of_decide_eq_true hname, fun _ h => absurd h
    List.not_mem_nil, fun _ h => absurd h List.not_mem_nil, .inl rfl, hsafe.1, hsafe.2⟩

theorem tag_wellFormed {name : String} {attributes : Attributes} {trailing : Text}
    {selfClosing : Bool} (hnames : namesSound name (attributes.map Prod.fst) = true)
    (hvalues : ∀ a ∈ attributes, a.2.isSound = true) (hspaces : IsSpaces trailing) :
    Tag.WellFormed ⟨name.toList, attributes.map attributeOf, trailing, selfClosing⟩ := by
  unfold namesSound at hnames
  rw [Bool.and_eq_true, Bool.and_eq_true, List.all_eq_true] at hnames
  obtain ⟨⟨hname, hall⟩, hdistinct⟩ := hnames
  refine ⟨of_decide_eq_true hname, fun a ha => ?_, ?_, hspaces⟩
  · obtain ⟨b, hb, rfl⟩ := List.mem_map.mp ha
    exact attributeOf_wellFormed (hall b.1 (List.mem_map_of_mem hb)) (hvalues b hb)
  · show ((attributes.map attributeOf).map Attribute.name).Nodup
    have hmap : (attributes.map attributeOf).map Attribute.name =
        (attributes.map Prod.fst).map String.toList := by
      rw [List.map_map, List.map_map]
      rfl
    rw [hmap]
    refine (of_decide_eq_true hdistinct).map fun s t h => ?_
    exact String.toList_inj.mp h

theorem sound_wellFormed (h : line.isSound = true) :
    ∀ token ∈ line.tokens, token.WellFormed := by
  have hnames := sound_names h
  have hvalues := sound_values h
  have htoken : line.token.WellFormed := by
    cases line with
    | opening indent name attributes =>
      exact tag_wellFormed hnames hvalues fun _ h => absurd h List.not_mem_nil
    | single indent name attributes =>
      have hspace : IsSpaces [' '] := by decide
      exact tag_wellFormed hnames hvalues hspace
    | closing indent name =>
      unfold namesSound at hnames
      rw [Bool.and_eq_true, Bool.and_eq_true] at hnames
      exact ⟨of_decide_eq_true hnames.1.1, fun _ h => absurd h List.not_mem_nil⟩
  intro token hmem
  rcases List.mem_cons.mp hmem with rfl | hmem
  · intro hlt
    exact absurd (List.eq_of_mem_replicate hlt) (by decide)
  rcases List.mem_cons.mp hmem with rfl | hmem
  · exact htoken
  · rw [List.mem_singleton.mp hmem]
    intro hlt
    exact absurd (List.mem_singleton.mp hlt) (by decide)

/-! ## Nesting -/

/-- The lines close every element they open. -/
def Balanced (lines : List Line) : Prop :=
  ∀ names rest, openElements names (tokensOf lines ++ rest) = openElements names rest

theorem openElements_text (names : List Text) (s : Text) (tokens : List Token) :
    openElements names (.text s :: tokens) = openElements names tokens := by
  cases names <;> rfl

theorem tokensOf_cons (line : Line) (lines : List Line) :
    tokensOf (line :: lines) = line.tokens ++ tokensOf lines := List.flatMap_cons

theorem tokensOf_append (lines more : List Line) :
    tokensOf (lines ++ more) = tokensOf lines ++ tokensOf more := List.flatMap_append

theorem Balanced.nil : Balanced [] := fun _ _ => rfl

theorem Balanced.append (h : Balanced lines) (h' : Balanced more) : Balanced (lines ++ more) := by
  intro names rest
  rw [tokensOf_append, List.append_assoc, h, h']

theorem openElements_tokens (line : Line) (names : List Text) (rest : List Token) :
    openElements names (line.tokens ++ rest) = openElements names (line.token :: .text ['\n'] :: rest) :=
  openElements_text names _ _

theorem Balanced.single (indent : Nat) (name : String) (attributes : Attributes) :
    Balanced [.single indent name attributes] := by
  intro names rest
  rw [tokensOf_cons, List.append_assoc, openElements_tokens]
  cases names <;> exact openElements_text _ ['\n'] _

theorem Balanced.node {indent : Nat} {name : String} {attributes : Attributes}
    (h : Balanced lines) : Balanced (node indent name attributes lines) := by
  intro names rest
  have hopen (tokens : List Token) : openElements names
      ((Line.opening indent name attributes).token :: .text ['\n'] :: tokens) =
        openElements (name.toList :: names) tokens := by
    cases names <;> exact openElements_text _ ['\n'] _
  have hclose (tokens : List Token) : openElements (name.toList :: names)
      ((Line.closing indent name).token :: .text ['\n'] :: tokens) = openElements names tokens := by
    show (if name.toList = name.toList then openElements names (.text ['\n'] :: tokens) else none) = _
    rw [if_pos rfl, openElements_text]
  unfold Author.node
  rw [tokensOf_cons, List.append_assoc, openElements_tokens, hopen, tokensOf_append,
    List.append_assoc, h, tokensOf_cons, List.append_assoc, openElements_tokens, hclose]
  rfl

/-! ## Reading -/

def decodeElement (e : Element) : Option Element :=
  (e.attributes.mapM fun a => (attributeValue a.2).map fun value => (a.1, value)).map
    fun attributes => ⟨e.name, attributes⟩

/-- What an XML reader reports of a document. -/
def readXml (xml : Text) : Option (List Element) :=
  let reading := xmlReader xml
  if reading.failed then none else reading.elements.mapM decodeElement

theorem attributeValue_written {value : Value} (h : value.isSound = true) :
    attributeValue value.written = some (value.read flattened) := by
  cases value with
  | given s => exact attributeValue_escapeAttr s
  | plain s =>
    have hplain := List.all_eq_true.mp h
    refine attributeValue_plain (fun hmem => absurd (hplain _ hmem) (by decide))
      (fun hmem => absurd (hplain _ hmem) (by decide)) (unbroken_iff.mpr fun c hc => ?_)
    have hc := hplain c hc
    unfold isPlainChar at hc
    rw [Bool.and_eq_true, Bool.not_eq_true'] at hc
    exact hc.2

theorem mapM_some {α β : Type} {f : α → Option β} {g : α → β} {xs : List α}
    (h : ∀ x ∈ xs, f x = some (g x)) : xs.mapM f = some (xs.map g) := by
  induction xs with
  | nil => rfl
  | cons x xs ih =>
    rw [List.mapM_cons, h x List.mem_cons_self,
      ih fun y hy => h y (List.mem_cons_of_mem x hy)]
    rfl

theorem decodeElement_written {name : Text} {attributes : Attributes} {trailing : Text}
    {selfClosing : Bool} (h : ∀ a ∈ attributes, a.2.isSound = true) :
    [Tag.element ⟨name, attributes.map attributeOf, trailing, selfClosing⟩].mapM decodeElement =
      some [⟨name, attributes.map fun a => (a.1.toList, a.2.read flattened)⟩] := by
  have hpairs : (attributes.map attributeOf).map Attribute.pair =
      attributes.map fun a => (a.1.toList, a.2.written) := by
    rw [List.map_map]
    rfl
  have hvalues : ((attributes.map fun a => (a.1.toList, a.2.written)).mapM fun a =>
      (attributeValue a.2).map fun value => (a.1, value)) =
        some (attributes.map fun a => (a.1.toList, a.2.read flattened)) := by
    rw [List.mapM_map]
    refine mapM_some fun a ha => ?_
    show (attributeValue a.2.written).map _ = _
    rw [attributeValue_written (h a ha)]
    rfl
  rw [List.mapM_cons, List.mapM_nil]
  unfold decodeElement Tag.element
  dsimp only
  rw [hpairs, hvalues]
  rfl

theorem sound_decode (h : line.isSound = true) :
    ((line.tokens.filterMap Token.tag?).map Tag.element).mapM decodeElement =
      some (line.elements flattened) := by
  cases line with
  | opening indent name attributes => exact decodeElement_written (sound_values h)
  | single indent name attributes => exact decodeElement_written (sound_values h)
  | closing indent name => rfl

theorem decode_lines (h : ∀ line ∈ lines, line.isSound = true) :
    (((tokensOf lines).filterMap Token.tag?).map Tag.element).mapM decodeElement =
      some (elementsOf flattened lines) := by
  induction lines with
  | nil => rfl
  | cons line lines ih =>
    rw [tokensOf_cons, List.filterMap_append, List.map_append, List.mapM_append,
      sound_decode (h line List.mem_cons_self), ih fun l hl => h l (List.mem_cons_of_mem line hl)]
    rfl

/-! ## Reading back what was given -/

theorem read_iff (value : Value) : value.read flattened = value.read id ↔
    value.gives unbroken = true := by
  cases value with
  | plain s => exact ⟨fun _ => rfl, fun _ => rfl⟩
  | given s => exact flattened_eq_self

theorem line_elements_iff (line : Line) :
    line.elements flattened = line.elements id ↔ line.gives unbroken = true := by
  have hattributes (name : Text) (attributes : Attributes) :
      [Element.mk name (attributes.map fun a => (a.1.toList, a.2.read flattened))] =
        [Element.mk name (attributes.map fun a => (a.1.toList, a.2.read id))] ↔
      attributes.all (fun a => a.2.gives unbroken) = true := by
    rw [List.cons.injEq, Element.mk.injEq, eq_self_iff_true, eq_self_iff_true, true_and,
      and_true, List.map_inj_left, List.all_eq_true]
    refine forall₂_congr fun a _ => ?_
    rw [Prod.mk.injEq, eq_self_iff_true, true_and, read_iff]
  cases line with
  | opening indent name attributes => exact hattributes name.toList attributes
  | single indent name attributes => exact hattributes name.toList attributes
  | closing indent name => exact ⟨fun _ => rfl, fun _ => rfl⟩

theorem elementsOf_iff (lines : List Line) :
    elementsOf flattened lines = elementsOf id lines ↔ givesAll unbroken lines = true := by
  induction lines with
  | nil => exact ⟨fun _ => rfl, fun _ => rfl⟩
  | cons line lines ih =>
    unfold elementsOf givesAll at ih ⊢
    rw [List.flatMap_cons, List.flatMap_cons, List.all_cons, Bool.and_eq_true,
      ← line_elements_iff, ← ih]
    constructor
    · intro h
      have hlen : (line.elements flattened).length = (line.elements id).length := by
        cases line <;> rfl
      exact List.append_inj h hlen
    · rintro ⟨h, h'⟩
      rw [h]
      exact congrArg _ h'

/-! ## Documents of lines -/

def soundTag (name : String) (attributes : Attributes) : Bool :=
  namesSound name (attributes.map Prod.fst) && attributes.all fun a => a.2.isSound

/-- Lines that are written tag by tag, each element with what it contains. -/
inductive Nested : List Line → Prop where
  | nil : Nested []
  | append {lines more : List Line} (h : Nested lines) (h' : Nested more) : Nested (lines ++ more)
  | single {indent : Nat} {name : String} {attributes : Attributes}
      (sound : soundTag name attributes = true) : Nested [.single indent name attributes]
  | node {indent : Nat} {name : String} {attributes : Attributes} {lines : List Line}
      (sound : soundTag name attributes = true) (h : Nested lines) :
      Nested (node indent name attributes lines)

theorem Nested.flatMap {α : Type} {xs : List α} {f : α → List Line}
    (h : ∀ x ∈ xs, Nested (f x)) : Nested (xs.flatMap f) :=
  flatMap_keeps .nil Nested.append h

theorem Nested.cons (h : Nested [line]) (h' : Nested more) : Nested (line :: more) := h.append h'

theorem Nested.map {α : Type} {xs : List α} {f : α → Line} (h : ∀ x ∈ xs, Nested [f x]) :
    Nested (xs.map f) := by
  induction xs with
  | nil => exact .nil
  | cons x xs ih =>
    exact (h x List.mem_cons_self).cons (ih fun y hy => h y (List.mem_cons_of_mem x hy))

theorem Nested.unlessEmpty {α : Type} (xs : List α) (h : Nested lines) :
    Nested (if xs.isEmpty then [] else lines) := by
  split_ifs
  · exact .nil
  · exact h

theorem Nested.balanced (h : Nested lines) : Balanced lines := by
  induction h with
  | nil => exact .nil
  | append _ _ ih ih' => exact ih.append ih'
  | single _ => exact .single _ _ _
  | node _ _ ih => exact ih.node

theorem Nested.sound (h : Nested lines) : ∀ line ∈ lines, line.isSound = true := by
  induction h with
  | nil => exact fun _ hl => absurd hl List.not_mem_nil
  | append _ _ ih ih' =>
    intro line hline
    exact (List.mem_append.mp hline).elim (ih line) (ih' line)
  | single sound =>
    intro line hline
    rw [List.mem_singleton.mp hline]
    exact sound
  | @node indent name attributes lines sound _ ih =>
    intro line hline
    rcases List.mem_cons.mp hline with rfl | hline
    · exact sound
    rcases List.mem_append.mp hline with hline | hline
    · exact ih line hline
    · rw [List.mem_singleton.mp hline]
      unfold soundTag namesSound at sound
      rw [Bool.and_eq_true, Bool.and_eq_true, Bool.and_eq_true] at sound
      unfold Line.isSound namesSound
      rw [Bool.and_eq_true, Bool.and_eq_true, Bool.and_eq_true]
      have hempty : decide ([] : List String).Nodup = true := by decide
      exact ⟨⟨⟨sound.1.1.1, rfl⟩, hempty⟩, rfl⟩

/-- White space or markup that may stand outside the root element. -/
def isMisc : Token → Bool
  | .text s => s.all isSpace
  | .instruction _ => true
  | .comment _ => true
  | _ => false

/-- An XML document: its characters are allowed, one element holds all others, character data
    is white space, and every attribute value can be decoded. -/
structure WellFormedXml (xml : Text) : Prop where
  chars : legal xml = true
  document : ∃ (doc : Document) (before inner after : List Token) (root : Tag),
    doc.render = xml ∧
    doc.tokens = before ++ .tag root :: (inner ++ .endTag root.name [] :: after) ∧
    root.selfClosing = false ∧ openElements [] inner = some [] ∧
    (before.all isMisc = true ∧ after.all isMisc = true) ∧
    (∀ s, Token.text s ∈ doc.tokens → IsSpaces s) ∧
    ∀ value ∈ doc.values, (attributeValue value).isSome = true

/-! ### Characters -/

theorem legal_append (s t : Text) : legal (s ++ t) = (legal s && legal t) := List.all_append

theorem legal_flatMap {α : Type} {xs : List α} {f : α → Text}
    (h : ∀ x ∈ xs, legal (f x) = true) : legal (xs.flatMap f) = true := by
  unfold legal
  rw [List.all_flatMap, List.all_eq_true]
  exact h

theorem legal_name {name : String} (h : isNameText name = true) : legal name.toList = true :=
  List.all_eq_true.mpr fun c hc => isNameChar_legal ((of_decide_eq_true h).2 c hc)

theorem legal_written {value : Value} (hsound : value.isSound = true)
    (hgiven : value.gives legal = true) : legal value.written = true := by
  cases value with
  | given s => exact escapeAttr_legal hgiven
  | plain s =>
    refine List.all_eq_true.mpr fun c hc => ?_
    have hplain := List.all_eq_true.mp hsound c hc
    unfold isPlainChar at hplain
    simp only [Bool.and_eq_true] at hplain
    exact hplain.1.1.1.1

theorem legal_tag {name : String} {attributes : Attributes} {trailing : Text}
    {selfClosing : Bool} (hsound : soundTag name attributes = true)
    (hgiven : attributes.all (fun a => a.2.gives legal) = true) (htrailing : legal trailing = true) :
    legal (Tag.render ⟨name.toList, attributes.map attributeOf, trailing, selfClosing⟩) = true := by
  unfold soundTag namesSound at hsound
  rw [Bool.and_eq_true, Bool.and_eq_true, Bool.and_eq_true, List.all_eq_true,
    List.all_eq_true] at hsound
  obtain ⟨⟨⟨hname, hnames⟩, _⟩, hvalues⟩ := hsound
  rw [List.all_eq_true] at hgiven
  have hattributes : legal ((attributes.map attributeOf).flatMap Attribute.render) = true := by
    refine legal_flatMap fun b hb => ?_
    obtain ⟨a, ha, rfl⟩ := List.mem_map.mp hb
    have hrender : (attributeOf a).render =
        [' '] ++ a.1.toList ++ ['=', '"'] ++ a.2.written ++ ['"'] := by
      unfold attributeOf Attribute.plain Attribute.render
      simp
    rw [hrender, legal_append, legal_append, legal_append, legal_append,
      legal_name (hnames a.1 (List.mem_map_of_mem ha)),
      legal_written (hvalues a ha) (hgiven a ha)]
    decide
  unfold Tag.render Tag.body
  dsimp only
  rw [show ∀ s t : Text, '<' :: s ++ t = ['<'] ++ s ++ t from fun _ _ => rfl, legal_append,
    legal_append, legal_append, legal_append, legal_append, legal_name hname, hattributes,
    htrailing]
  cases selfClosing <;> rfl

theorem legal_line {line : Line} (hsound : line.isSound = true)
    (hgiven : line.gives legal = true) : legal (line.tokens.flatMap Token.render) = true := by
  have htoken : legal line.token.render = true := by
    cases line with
    | opening indent name attributes => exact legal_tag hsound hgiven rfl
    | single indent name attributes => exact legal_tag hsound hgiven (by decide)
    | closing indent name =>
      have hname := legal_name (Bool.and_eq_true_iff.mp (Bool.and_eq_true_iff.mp
        (sound_names hsound)).1).1
      show legal ("</".toList ++ name.toList ++ [] ++ ">".toList) = true
      rw [legal_append, legal_append, legal_append, show legal name.toList = true from hname]
      decide
  have hspaces : legal (List.replicate line.indent ' ') = true :=
    List.all_eq_true.mpr fun c hc => by
      rw [List.eq_of_mem_replicate hc]
      decide
  show legal (List.replicate line.indent ' ' ++ (line.token.render ++ (['\n'] ++ []))) = true
  rw [legal_append, legal_append, hspaces, htoken]
  decide

theorem legal_textOf (hsound : ∀ line ∈ lines, line.isSound = true)
    (hgiven : givesAll legal lines = true) : legal (textOf lines) = true := by
  unfold textOf tokensOf
  rw [List.flatMap_assoc]
  exact legal_flatMap fun line hline =>
    legal_line (hsound line hline) (List.all_eq_true.mp hgiven line hline)

/-! ### The document -/

def xmlDeclaration : Text := "xml version=\"1.0\" encoding=\"utf-8\"".toList

def documentText (lines : List Line) : Text :=
  "<?".toList ++ xmlDeclaration ++ "?>\n".toList ++ textOf lines

def documentTokens (lines : List Line) : List Token :=
  .instruction xmlDeclaration :: .text ['\n'] :: tokensOf lines

theorem documentTokens_render (lines : List Line) :
    (documentTokens lines).flatMap Token.render = documentText lines := by
  unfold documentTokens documentText textOf
  rw [List.flatMap_cons, List.flatMap_cons]
  rfl

theorem documentTokens_wellFormed (h : ∀ line ∈ lines, line.isSound = true) :
    ∀ token ∈ documentTokens lines, token.WellFormed := by
  intro token htoken
  rcases List.mem_cons.mp htoken with rfl | htoken
  · show xmlDeclaration ≠ [] ∧ _
    decide
  rcases List.mem_cons.mp htoken with rfl | htoken
  · show '<' ∉ ['\n']
    decide
  · obtain ⟨line, hline, hmem⟩ := List.mem_flatMap.mp htoken
    exact sound_wellFormed (h line hline) token hmem

def documentOf (lines : List Line) (h : Nested lines) : Document where
  tokens := documentTokens lines
  wellFormed := documentTokens_wellFormed h.sound
  balanced := by
    have hlines := h.balanced [] []
    rw [List.append_nil] at hlines
    exact (openElements_text [] ['\n'] (tokensOf lines)).trans hlines

/-- The lines are read back, but for the tabs and line ends of the texts given in them. -/
theorem readXml_document (h : Nested lines) :
    readXml (documentText lines) = some (elementsOf flattened lines) := by
  have hreading := xmlReader_documented (documentOf lines h)
  unfold Document.render at hreading
  rw [show (documentOf lines h).tokens = documentTokens lines from rfl,
    documentTokens_render] at hreading
  unfold readXml
  rw [hreading]
  exact decode_lines h.sound

theorem document_values (h : Nested lines) :
    ∀ value ∈ (documentOf lines h).values, (attributeValue value).isSome = true := by
  intro value hvalue
  obtain ⟨e, he, hmem⟩ := List.mem_flatMap.mp hvalue
  obtain ⟨t, ht, rfl⟩ := List.mem_map.mp he
  obtain ⟨token, htoken, htag⟩ := List.mem_filterMap.mp ht
  rcases List.mem_cons.mp htoken with rfl | htoken
  · cases htag
  rcases List.mem_cons.mp htoken with rfl | htoken
  · cases htag
  obtain ⟨line, hline, hmem'⟩ := List.mem_flatMap.mp htoken
  have hvalues := sound_values (h.sound line hline)
  have hattributes (attributes : Attributes) (hall : ∀ a ∈ attributes, a.2.isSound = true)
      (hin : value ∈ ((attributes.map attributeOf).map Attribute.pair).map Prod.snd) :
      (attributeValue value).isSome = true := by
    rw [List.map_map, List.map_map] at hin
    obtain ⟨a, ha, rfl⟩ := List.mem_map.mp hin
    show (attributeValue a.2.written).isSome = true
    rw [attributeValue_written (hall a ha)]
    rfl
  rcases List.mem_cons.mp hmem' with rfl | hmem'
  · cases htag
  rcases List.mem_cons.mp hmem' with rfl | hmem'
  · cases line with
    | opening indent name attributes =>
      cases htag
      exact hattributes attributes hvalues hmem
    | single indent name attributes =>
      cases htag
      exact hattributes attributes hvalues hmem
    | closing indent name => cases htag
  · rw [List.mem_singleton.mp hmem'] at htag
    cases htag

theorem document_spaces (h : Nested lines) (s : Text)
    (hs : Token.text s ∈ (documentOf lines h).tokens) : IsSpaces s := by
  rcases List.mem_cons.mp hs with hs | hs
  · cases hs
  rcases List.mem_cons.mp hs with hs | hs
  · cases hs
    decide
  obtain ⟨line, _, hmem⟩ := List.mem_flatMap.mp hs
  rcases List.mem_cons.mp hmem with hmem | hmem
  · cases hmem
    intro c hc
    rw [List.eq_of_mem_replicate hc]
    rfl
  rcases List.mem_cons.mp hmem with hmem | hmem
  · cases line <;> cases hmem
  · cases List.mem_singleton.mp hmem
    decide

/-- An element that holds all other lines is a document. -/
theorem document_wellFormed {name : String} {attributes : Attributes} {inner : List Line}
    (sound : soundTag name attributes = true) (h : Nested inner)
    (hgiven : givesAll legal (node 0 name attributes inner) = true) :
    WellFormedXml (documentText (node 0 name attributes inner)) := by
  have hnode : Nested (node 0 name attributes inner) := .node sound h
  refine ⟨?_, documentOf _ hnode, [.instruction xmlDeclaration, .text ['\n'], .text []],
    .text ['\n'] :: (tokensOf inner ++ [.text []]), [.text ['\n']],
    ⟨name.toList, attributes.map attributeOf, [], false⟩, documentTokens_render _, ?_, rfl, ?_,
    ⟨by decide, by decide⟩, document_spaces hnode, document_values hnode⟩
  · unfold documentText
    rw [legal_append, legal_textOf hnode.sound hgiven]
    decide
  · show documentTokens (node 0 name attributes inner) = _
    unfold documentTokens node
    rw [tokensOf_cons, tokensOf_append]
    simp [Line.tokens, Line.token, Line.indent, tokensOf]
  · rw [openElements_text, h.balanced [] [.text []]]
    rfl

end

end KnxRs.Author
