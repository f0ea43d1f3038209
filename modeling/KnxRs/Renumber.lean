import KnxRs.XmlScan

set_option autoImplicit false

/-!
# Renumbering of ids

`renumber.rs`: the map from the ids of an application program to integer ids, built in two
passes over the elements, and the rewriting of the document by it. A hash map is the list
of its entries, the newest first.
-/
namespace KnxRs.Renumber
open Texts XmlDocuments XmlScan

inductive StructureError where
  | noNumber (id : Text)
  | nonIntegerNumber (id number : Text)
  | undeclaredParent (tag id : Text)
  | noIndex (id : Text)
  | unparseable (short value : Text)
  | invalidBase64 (reason : Text)
  deriving DecidableEq

inductive KnxprodError where
  | missingElement (context : Text)
  | xml
  | invalidStructure (reason : StructureError)
  | validation (report : List Text)
  deriving DecidableEq

/-- An error; a panic, of a slice inside a character or of a counter that overflows; or a loop
that has used up the rounds given to it. -/
inductive Failure where
  | error (e : KnxprodError)
  | panic
  | unfinished
  deriving DecidableEq

/-! ## The application id -/

/-- What the XML reader reports: the open elements, and whether it then fails. -/
structure Reading where
  elements : List Element
  failed : Bool

abbrev Reader := Text → Reading

/-- The reader reports the elements of a document, in its order. -/
def Reader.Documented (reader : Reader) : Prop :=
  ∀ doc : Document, reader doc.render = ⟨doc.elements, false⟩

def localName (name : Text) : Text :=
  match splitOnce ":".toList name with
  | some (_, rest) => rest
  | none => name

/-- The attribute of the first element of this name that has one. -/
def findAttribute (elements : List Element) (element attrName : Text) : Option Text :=
  elements.findSome? fun e => if localName e.name = element then e.attr attrName else none

def extractXmlAttribute (reader : Reader) (xml element attrName context : Text) :
    Except KnxprodError Text :=
  match findAttribute (reader xml).elements element attrName with
  | some value => .ok value
  | none => .error (if (reader xml).failed then .xml else .missingElement context)

def extractApplicationId (reader : Reader) (xml : Text) : Except KnxprodError Text :=
  extractXmlAttribute reader xml "ApplicationProgram".toList "Id".toList
    "ApplicationProgram/@Id".toList

/-! ## The map of ids -/

abbrev IdMap := List (Text × Text)

/-- The value that stands for another one, or the value itself. -/
def IdMap.rename (map : IdMap) (value : Text) : Text := (map.lookup value).getD value

/-- The id at the first `_R-` that has a declared id before it, and the suffix after it. The
pattern cannot overlap itself, so the search can go on one character later. -/
def splitRefFrom (map : IdMap) (before : Text) : Text → Option (Text × Text)
  | [] => none
  | c :: cs =>
    if "_R-".toList.isPrefixOf (c :: cs) ∧ (map.lookup before).isSome then
      some (before, (c :: cs).drop 3)
    else splitRefFrom map (before ++ [c]) cs

def splitRef (id : Text) (map : IdMap) : Option (Text × Text) := splitRefFrom map [] id

def paramKind (suffix : Text) : Option Text :=
  if "UP-".toList.isPrefixOf suffix then some "UP".toList
  else if "P-".toList.isPrefixOf suffix then some "P".toList
  else none

/-- The state of the first pass: the map, the integers of parents, and the next ones. -/
structure Declarations where
  map : IdMap
  parentInt : List (Text × Nat)
  nextParam : Nat
  nextBlock : Nat
  nextSeparator : Nat

def Declarations.start : Declarations := ⟨[], [], 1, 1, 1⟩

/-- `format!("{prefix}{kind}-{n}")`. -/
def integerId (scope kind : Text) (n : Nat) : Text := scope ++ kind ++ "-".toList ++ decimal n

def scopedId (scope : Text) (e : Element) : Option Text :=
  (e.attr "Id".toList).filter fun id => scope.isPrefixOf id

/-- Pass 1 for one element. -/
def declare (scope : Text) (s : Declarations) (e : Element) : Except Failure Declarations :=
  match scopedId scope e with
  | none => .ok s
  | some id =>
    let suffix := id.drop scope.length
    if e.name = "Parameter".toList then
      match paramKind suffix with
      | none => .ok s
      | some kind => .ok { s with
          nextParam := s.nextParam + 1
          map := (id, integerId scope kind s.nextParam) :: s.map
          parentInt := (id, s.nextParam) :: s.parentInt }
    else if e.name = "ComObject".toList then
      if "O-".toList.isPrefixOf suffix then
        match e.attr "Number".toList with
        | none => .error (.error (.invalidStructure (.noNumber id)))
        | some number =>
          match parseU64 number with
          | none => .error (.error (.invalidStructure (.nonIntegerNumber id number)))
          | some n => .ok { s with
              map := (id, integerId scope "O".toList n) :: s.map
              parentInt := (id, n) :: s.parentInt }
      else .ok s
    else if e.name = "ParameterBlock".toList then
      if "PB-".toList.isPrefixOf suffix then .ok { s with
        nextBlock := s.nextBlock + 1
        map := (id, integerId scope "PB".toList s.nextBlock) :: s.map }
      else .ok s
    else if e.name = "ParameterSeparator".toList then
      if "PS-".toList.isPrefixOf suffix then .ok { s with
        nextSeparator := s.nextSeparator + 1
        map := (id, integerId scope "PS".toList s.nextSeparator) :: s.map }
      else .ok s
    else .ok s

/-- Pass 2a for one element: the integer suffix that a ComObjectRef already carries. -/
def keptSuffix (scope : Text) (map : IdMap) (e : Element) : Option (Text × Nat) :=
  if e.name = "ComObjectRef".toList then
    (scopedId scope e).bind fun id => (splitRef id map).bind fun (parent, rsuffix) =>
      (parseU64 rsuffix).map fun n => (parent, n)
  else none

structure References where
  map : IdMap
  prefInst : List (Text × Nat)
  corefNext : List (Text × Nat)
  used : List (Text × Nat)

/-- The counter of the parent is advanced past the integers already taken. -/
def nextFree (used : List (Text × Nat)) (parent : Text) : (rounds : Nat) → Nat → Except Failure Nat
  | 0, _ => .error .unfinished
  | rounds + 1, ctr =>
    if 2 ^ 64 ≤ ctr + 1 then .error .panic
    else if (parent, ctr + 1) ∈ used then nextFree used parent rounds (ctr + 1)
    else .ok (ctr + 1)

/-- Pass 2 for one element. -/
def refer (scope : Text) (parentInt : List (Text × Nat)) (s : References) (e : Element) :
    Except Failure References :=
  if e.name = "ParameterRef".toList ∨ e.name = "ComObjectRef".toList then
    match scopedId scope e with
    | none => .ok s
    | some id =>
      match splitRef id s.map with
      | none => .error (.error (.invalidStructure (.undeclaredParent e.name id)))
      | some (parent, rsuffix) =>
        let renamed (suffix : Text) : IdMap :=
          (id, s.map.rename parent ++ "_R-".toList ++ suffix) :: s.map
        if e.name = "ParameterRef".toList then
          match parentInt.lookup parent with
          | none => .error (.error (.invalidStructure (.noIndex id)))
          | some base =>
            let inst := (s.prefInst.lookup parent).getD 0 + 1
            .ok { s with
              map := renamed (decimal base ++ twoDigits inst)
              prefInst := (parent, inst) :: s.prefInst }
        else
          match parseU64 rsuffix with
          | some n => .ok { s with map := renamed (decimal n) }
          | none => do
            let ctr ← nextFree s.used parent (s.used.length + 1)
              ((s.corefNext.lookup parent).getD 0)
            .ok { s with
              map := renamed (decimal ctr)
              corefNext := (parent, ctr) :: s.corefNext
              used := (parent, ctr) :: s.used }
  else .ok s

/-- The passes over what has been parsed. -/
def numberIds (scope : Text) (parsed : List Element) : Except Failure IdMap := do
  let s ← parsed.foldlM (declare scope) .start
  let used := parsed.filterMap (keptSuffix scope s.map)
  let r ← parsed.foldlM (refer scope s.parentInt) ⟨s.map, [], [], used⟩
  .ok r.map

def scopeOf (appId : Text) : Text := appId ++ "_".toList

def buildMap (xml appId : Text) : Except Failure IdMap := do
  let parsed ← (scan xml).mapError fun _ => .panic
  numberIds (scopeOf appId) parsed

/-! ## Rewriting -/

/-- The tag with its values remapped; inside quotes, the quote and what has been read of the
value. -/
def rewriteTagAttrs (map : IdMap) : (quoted : Option (Char × Text)) → Text → Text
  | none, [] => []
  | some (_, value), [] => map.rename value
  | none, c :: cs =>
    c :: rewriteTagAttrs map (if isQuote c then some (c, []) else none) cs
  | some (q, value), c :: cs =>
    if c = q then map.rename value ++ c :: rewriteTagAttrs map none cs
    else rewriteTagAttrs map (some (q, value ++ [c])) cs

/-- The rewriting loop, for at most `rounds` rounds. -/
def rewriteIdsFrom (map : IdMap) : (rounds : Nat) → Text → Text
  | 0, xs => xs
  | _, [] => []
  | rounds + 1, c :: cs =>
    if c ≠ '<' then c :: rewriteIdsFrom map rounds cs
    else match skipMarkup (c :: cs) with
      | some (passed, rest) => passed ++ rewriteIdsFrom map rounds rest
      | none =>
        match findTagEnd none cs with
        | none => c :: cs
        | some (body, rest) =>
          rewriteTagAttrs map none ('<' :: body ++ ['>']) ++ rewriteIdsFrom map rounds rest

def rewriteIds (xml : Text) (map : IdMap) : Text := rewriteIdsFrom map xml.length xml

def renumberIds (reader : Reader) (xml : Text) : Except Failure Text := do
  let appId ← (extractApplicationId reader xml).mapError .error
  let map ← buildMap xml appId
  .ok (rewriteIds xml map)

/-! ## Rewriting a document -/

variable {map : IdMap}

theorem rewriteTagAttrs_plain {s : Text} (h : ∀ c ∈ s, isQuote c = false) (rest : Text) :
    rewriteTagAttrs map none (s ++ rest) = s ++ rewriteTagAttrs map none rest := by
  induction s with
  | nil => rfl
  | cons c cs ih =>
    rw [List.cons_append, rewriteTagAttrs, h c List.mem_cons_self, if_neg Bool.false_ne_true,
      ih fun d hd => h d (List.mem_cons_of_mem c hd)]
    rfl

theorem rewriteTagAttrs_value {q : Char} {value : Text} (h : q ∉ value) (before rest : Text) :
    rewriteTagAttrs map (some (q, before)) (value ++ q :: rest) =
      map.rename (before ++ value) ++ q :: rewriteTagAttrs map none rest := by
  induction value generalizing before with
  | nil => rw [List.nil_append, rewriteTagAttrs, if_pos rfl, List.append_nil]
  | cons c cs ih =>
    obtain ⟨hc, hcs⟩ := not_or.mp (mt List.mem_cons.mpr h)
    rw [List.cons_append, rewriteTagAttrs, if_neg (Ne.symm hc), ih hcs, List.append_assoc]
    rfl

theorem rewriteTagAttrs_attribute {a : Attribute} (h : Delimited a) (rest : Text) :
    rewriteTagAttrs map none (a.render ++ rest) =
      (a.mapValue map.rename).render ++ rewriteTagAttrs map none rest := by
  have plain : ∀ c ∈ a.before ++ a.name ++ a.beforeEq ++ ('=' :: a.afterEq), isQuote c = false := by
    simp only [List.forall_mem_append, List.forall_mem_cons]
    exact ⟨⟨⟨fun c hc => (h.before c hc).quote, h.unquoted⟩,
      fun c hc => (h.beforeEq c hc).quote⟩, by decide, fun c hc => (h.afterEq c hc).quote⟩
  have hrender (b : Attribute) (rest : Text) : b.render ++ rest =
      (b.before ++ b.name ++ b.beforeEq ++ ('=' :: b.afterEq)) ++
        (b.quote :: (b.value ++ b.quote :: rest)) := by
    unfold Attribute.render
    simp only [List.append_assoc, List.cons_append, List.nil_append]
  rw [hrender, hrender, rewriteTagAttrs_plain plain, rewriteTagAttrs, if_pos h.quote,
    rewriteTagAttrs_value h.quoted]
  rfl

theorem rewriteTagAttrs_attributes {attributes : List Attribute}
    (h : ∀ a ∈ attributes, Delimited a) (rest : Text) :
    rewriteTagAttrs map none (attributes.flatMap Attribute.render ++ rest) =
      (attributes.map (Attribute.mapValue map.rename)).flatMap Attribute.render ++
        rewriteTagAttrs map none rest := by
  induction attributes with
  | nil => rfl
  | cons a as ih =>
    rw [List.flatMap_cons, List.append_assoc, rewriteTagAttrs_attribute (h a List.mem_cons_self),
      ih fun x hx => h x (List.mem_cons_of_mem a hx), List.map_cons, List.flatMap_cons,
      List.append_assoc]

theorem rewriteTagAttrs_body {t : Tag} (h : DelimitedTag t) (rest : Text) :
    rewriteTagAttrs map none (t.body ++ rest) =
      (t.mapValues map.rename).body ++ rewriteTagAttrs map none rest := by
  have hbody (u : Tag) : u.body ++ rest = u.name ++ (u.attributes.flatMap Attribute.render ++
      (u.trailing ++ (if u.selfClosing then ['/'] else []) ++ rest)) := by
    unfold Tag.body
    simp only [List.append_assoc]
  have name : ∀ c ∈ t.name, isQuote c = false := fun c hc => (h.name c hc).2.2
  have ending : ∀ c ∈ t.trailing ++ (if t.selfClosing then ['/'] else []), isQuote c = false :=
    fun c hc => (ending_bare h c hc).2
  rw [hbody, rewriteTagAttrs_plain name, rewriteTagAttrs_attributes h.attributes,
    rewriteTagAttrs_plain ending]
  show _ = t.name ++ (t.attributes.map (Attribute.mapValue map.rename)).flatMap Attribute.render ++
    t.trailing ++ (if t.selfClosing then ['/'] else []) ++ _
  simp only [List.append_assoc]

theorem rewriteTagAttrs_tag {t : Tag} (h : t.WellFormed) :
    rewriteTagAttrs map none t.render = (t.mapValues map.rename).render := by
  unfold Tag.render
  rw [List.cons_append, rewriteTagAttrs, if_neg (by decide), rewriteTagAttrs_body (tag_delimited h)]
  rfl

theorem rewriteIdsFrom_text {s : Text} (h : '<' ∉ s) (rounds : Nat) (rest : Text) :
    rewriteIdsFrom map (s.length + rounds) (s ++ rest) = s ++ rewriteIdsFrom map rounds rest := by
  induction s with
  | nil =>
    rw [List.length_nil, Nat.zero_add]
    rfl
  | cons c cs ih =>
    obtain ⟨hc, hcs⟩ := not_or.mp (mt List.mem_cons.mpr h)
    rw [List.length_cons, Nat.add_right_comm, List.cons_append, rewriteIdsFrom,
      if_pos (Ne.symm hc), ih hcs]
    rfl

theorem rewriteIdsFrom_markup {token : Token} (h : IsMarkup token) (ends : EndsInPlace token)
    (rounds : Nat) (rest : Text) :
    rewriteIdsFrom map (rounds + 1) (token.render ++ rest) =
      token.render ++ rewriteIdsFrom map rounds rest := by
  have hskip := markupEnd_append (h.ends ends) rest
  obtain ⟨cs, hcs⟩ := h.head
  rw [hcs] at hskip ⊢
  rw [List.cons_append] at hskip ⊢
  rw [rewriteIdsFrom, if_neg (by decide)]
  unfold skipMarkup
  rw [hskip]
  rfl

theorem rewriteIdsFrom_tag {t : Tag} (h : t.WellFormed) (rounds : Nat) (rest : Text) :
    rewriteIdsFrom map (rounds + 1) (t.render ++ rest) =
      (t.mapValues map.rename).render ++ rewriteIdsFrom map rounds rest := by
  have hrender : t.render ++ rest = '<' :: (t.body ++ '>' :: rest) := by
    unfold Tag.render
    rw [List.append_assoc]
    rfl
  rw [hrender, rewriteIdsFrom, if_neg (by decide)]
  unfold skipMarkup
  rw [markupEnd_tag h, findTagEnd_closed (body_closed h), ← rewriteTagAttrs_tag h]
  rfl

theorem rewriteIdsFrom_tokens {tokens : List Token}
    (wellFormed : ∀ token ∈ tokens, token.WellFormed)
    (scannable : ∀ token ∈ tokens, EndsInPlace token) {rounds : Nat}
    (h : (tokens.flatMap Token.render).length ≤ rounds) :
    rewriteIdsFrom map rounds (tokens.flatMap Token.render) =
      (tokens.map (Token.mapValues map.rename)).flatMap Token.render := by
  have hloop := loop_tokens (rewriteIdsFrom map)
    (fun token rest => (token.mapValues map.rename).render ++ rest) [] tokens
    (fun rounds => by cases rounds <;> rfl) (fun token htoken rounds rest => ?_) h
  · rw [hloop]
    clear wellFormed scannable h hloop
    induction tokens with
    | nil => rfl
    | cons token tokens ih => rw [List.foldr_cons, ih, List.map_cons, List.flatMap_cons]
  · rcases token_cases token with ⟨s, rfl⟩ | ⟨t, rfl⟩ | hmarkup
    · exact ⟨rounds, Nat.le_refl _, rewriteIdsFrom_text (wellFormed _ htoken) rounds rest⟩
    · refine ⟨t.body.length + 1 + rounds, Nat.le_add_left _ _, ?_⟩
      rw [show Token.render (.tag t) = t.render from rfl, render_length]
      exact rewriteIdsFrom_tag (wellFormed _ htoken) _ _
    · obtain ⟨cs, hcs⟩ := hmarkup.head
      have hlen : token.render.length + rounds = cs.length + rounds + 1 := by
        rw [hcs, List.length_cons, Nat.add_right_comm]
      refine ⟨cs.length + rounds, Nat.le_add_left _ _, ?_⟩
      rw [hlen, rewriteIdsFrom_markup hmarkup (scannable _ htoken), hmarkup.mapValues]

theorem rewriteIds_render (doc : Document) (scannable : Scannable doc)
    (hmap : Replaces map.rename) :
    rewriteIds doc.render map = (doc.mapValues map.rename hmap).render :=
  rewriteIdsFrom_tokens doc.wellFormed scannable (Nat.le_refl _)

theorem scannable_mapValues {doc : Document} (scannable : Scannable doc) {f : Text → Text}
    (hf : Replaces f) : Scannable (doc.mapValues f hf) := by
  intro token htoken
  obtain ⟨old, hold, rfl⟩ := List.mem_map.mp htoken
  have hs := scannable old hold
  cases old with
  | tag t => trivial
  | _ => exact hs

theorem renumberIds_render {reader : Reader} (documented : reader.Documented) (doc : Document)
    (scannable : Scannable doc) : renumberIds reader doc.render =
      (findAttribute doc.elements "ApplicationProgram".toList "Id".toList).elim
        (.error (.error (.missingElement "ApplicationProgram/@Id".toList)))
        fun appId => (numberIds (scopeOf appId) doc.elements).map fun map =>
          rewriteIds doc.render map := by
  unfold renumberIds extractApplicationId extractXmlAttribute buildMap
  rw [documented doc, scan_render doc scannable]
  dsimp only
  cases findAttribute doc.elements "ApplicationProgram".toList "Id".toList with
  | none => rfl
  | some appId =>
    dsimp only [Option.elim_some]
    show numberIds (scopeOf appId) doc.elements >>= _ =
      (numberIds (scopeOf appId) doc.elements).map _
    cases numberIds (scopeOf appId) doc.elements <;> rfl

end KnxRs.Renumber
