import KnxRs.HashEvents

set_option autoImplicit false

/-!
# Documents as trees

The hash by the structure of the document. Where every inner text is written plainly, the
traversal of the events does the same.
-/
namespace KnxRs.Hash
open Texts XmlDocuments XmlScan Renumber

inductive Node where
  | element (e : Element) (children : List Node)
  | emptyElement (e : Element)
  | text (raw : Text)
  | cdata (raw : Text)
  | reference (name : Text)
  | comment (s : Text)
  | instruction (s : Text)

mutual

def Node.events : Node → List Event
  | .element e children => .start e :: (eventsOf children ++ [.finish])
  | .emptyElement e => [.empty e]
  | .text raw => [.text raw]
  | .cdata raw => [.cdata raw]
  | .reference name => [.generalRef name]
  | .comment _ | .instruction _ => [.other]

def eventsOf : List Node → List Event
  | [] => []
  | node :: nodes => node.events ++ eventsOf nodes

end

mutual

def Node.All (p : Node → Prop) : Node → Prop
  | .element e children => p (.element e children) ∧ AllIn p children
  | node => p node

def AllIn (p : Node → Prop) : List Node → Prop
  | [] => True
  | node :: nodes => node.All p ∧ AllIn p nodes

end

mutual

def Node.decideAll {p : Node → Prop} [DecidablePred p] : (node : Node) → Decidable (node.All p)
  | .element e children =>
    @instDecidableAnd _ _ (inferInstanceAs (Decidable (p (.element e children))))
      (decideAllIn children)
  | .emptyElement e => inferInstanceAs (Decidable (p (.emptyElement e)))
  | .text raw => inferInstanceAs (Decidable (p (.text raw)))
  | .cdata raw => inferInstanceAs (Decidable (p (.cdata raw)))
  | .reference name => inferInstanceAs (Decidable (p (.reference name)))
  | .comment s => inferInstanceAs (Decidable (p (.comment s)))
  | .instruction s => inferInstanceAs (Decidable (p (.instruction s)))

def decideAllIn {p : Node → Prop} [DecidablePred p] : (nodes : List Node) → Decidable (AllIn p nodes)
  | [] => .isTrue trivial
  | node :: nodes => @instDecidableAnd _ _ node.decideAll (decideAllIn nodes)

end

instance {p : Node → Prop} [DecidablePred p] (nodes : List Node) : Decidable (AllIn p nodes) :=
  decideAllIn nodes

def Separated : Node → Prop
  | .text raw => '&' ∉ raw
  | _ => True

instance : DecidablePred Separated
  | .text raw => inferInstanceAs (Decidable ('&' ∉ raw))
  | .element _ _ | .emptyElement _ | .cdata _ | .reference _ | .comment _ | .instruction _ =>
    .isTrue trivial

/-- The reader reports the nodes of a document. -/
structure Reads (reader : Text → List Event) (xml : Text) (nodes : List Node) : Prop where
  events : reader xml = eventsOf nodes
  separated : AllIn Separated nodes

/-- Text without a reference is its own. -/
def Library.Documented (lib : Library) : Prop := ∀ raw, '&' ∉ raw → lib.unescape raw = some raw

/-! ## Inner text -/

def digitValue (c : Char) : Nat :=
  if '0' ≤ c ∧ c ≤ '9' then c.toNat - 48
  else if 'a' ≤ c ∧ c ≤ 'f' then c.toNat - 87
  else c.toNat - 55

def numeral (base : Nat) (digits : Text) : Nat :=
  digits.foldl (fun n c => base * n + digitValue c) 0

def characterReference (name : Text) : Text :=
  match name with
  | '#' :: 'x' :: digits => [Char.ofNat (numeral 16 digits)]
  | '#' :: digits => [Char.ofNat (numeral 10 digits)]
  | _ => []

def referenceText (name : Text) : Text :=
  if decodeEntity name = [] then characterReference name else decodeEntity name

def charsOf : Node → Text
  | .text raw | .cdata raw => normalizeNewlines raw
  | .reference name => referenceText name
  | _ => []

def characters (nodes : List Node) : Text := nodes.flatMap charsOf

/-- Character data that is not written as a numeric reference. -/
def fragment : Node → Option Text
  | .text raw | .cdata raw => some (normalizeNewlines raw)
  | .reference name => if decodeEntity name = [] then none else some (decodeEntity name)
  | _ => none

def ElementKind.isBase64 : ElementKind → Bool
  | .innerTextBase64 _ => true
  | _ => false

/-- Inner text as the traversal expects it: comments and instructions only before it, no
numeric references, and, unless space does not matter, no separate leading space. -/
def PlainText (kind : ElementKind) : List Node → Prop
  | [] => False
  | .comment _ :: nodes | .instruction _ :: nodes => PlainText kind nodes
  | node :: nodes =>
    match fragment node with
    | none => False
    | some s =>
      if isBlank s then (s = [] ∨ kind.isBase64 = true) ∧ PlainText kind nodes
      else ∀ other ∈ nodes, (fragment other).isSome = true

def PlainText.decide (kind : ElementKind) : (nodes : List Node) → Decidable (PlainText kind nodes)
  | [] => .isFalse id
  | .comment _ :: nodes | .instruction _ :: nodes => PlainText.decide kind nodes
  | .element _ _ :: _ | .emptyElement _ :: _ => .isFalse id
  | .text raw :: nodes =>
    have := PlainText.decide kind nodes
    inferInstanceAs (Decidable (if isBlank (normalizeNewlines raw) then
      (normalizeNewlines raw = [] ∨ kind.isBase64 = true) ∧ PlainText kind nodes
      else ∀ other ∈ nodes, (fragment other).isSome = true))
  | .cdata raw :: nodes =>
    have := PlainText.decide kind nodes
    inferInstanceAs (Decidable (if isBlank (normalizeNewlines raw) then
      (normalizeNewlines raw = [] ∨ kind.isBase64 = true) ∧ PlainText kind nodes
      else ∀ other ∈ nodes, (fragment other).isSome = true))
  | .reference name :: nodes =>
    have := PlainText.decide kind nodes
    match h : fragment (.reference name) with
    | none => .isFalse (by unfold PlainText; rw [h]; exact id)
    | some s => decidable_of_iff (if isBlank s then
        (s = [] ∨ kind.isBase64 = true) ∧ PlainText kind nodes
        else ∀ other ∈ nodes, (fragment other).isSome = true) (by conv_rhs => { unfold PlainText; rw [h] })

instance (kind : ElementKind) : DecidablePred (PlainText kind) := PlainText.decide kind

def innerKind (name : Text) : Option ElementKind :=
  (registry name).bind fun info => if info.kind.tag?.isSome then some info.kind else none

def DistinctAttributes (e : Element) : Prop :=
  (registry (localName e.name)).isSome = true →
    (e.attributes.map fun attr => localName attr.1).Nodup

/-- The inner text of an element is plain, and its attributes are distinct. -/
def PlainNode : Node → Prop
  | .element e children => DistinctAttributes e ∧
      ∀ kind, innerKind (localName e.name) = some kind → PlainText kind children
  | .emptyElement e => DistinctAttributes e ∧ innerKind (localName e.name) = none
  | _ => True

instance (e : Element) : Decidable (DistinctAttributes e) := inferInstanceAs (Decidable (_ → _))

instance : DecidablePred PlainNode
  | .element e children => inferInstanceAs (Decidable (DistinctAttributes e ∧
      ∀ kind ∈ innerKind (localName e.name), PlainText kind children))
  | .emptyElement e =>
    inferInstanceAs (Decidable (DistinctAttributes e ∧ innerKind (localName e.name) = none))
  | .text _ | .cdata _ | .reference _ | .comment _ | .instruction _ => .isTrue trivial

def Plain (nodes : List Node) : Prop := AllIn PlainNode nodes

instance (nodes : List Node) : Decidable (Plain nodes) :=
  inferInstanceAs (Decidable (AllIn PlainNode nodes))

/-! ## The hash of a tree -/

def Children.pushNode (children : Children) : Option GenResult → Children
  | none => children
  | some result => children.push result

def resultOf (lib : Library) (parentName : Text) (e : Element) (stream : Octets) :
    Except Failure GenResult :=
  match registry (localName e.name) with
  | some info => do
    let attrs ← serializeRegistryAttrs lib info e
    let octets := attrs.octets ++ stream
    .ok ⟨octets, orderKeyOf lib attrs.sortKey octets,
      orderRelevant attrs.ordered (localName e.name) parentName⟩
  | none => .ok ⟨stream, orderKeyOf lib none stream, false⟩

/-- What stands inside an element: its text, or the octets of its children. -/
def innerOf (lib : Library) (kind : Option ElementKind) (text : Text)
    (children : Except Failure Children) : Except Failure Octets :=
  match kind with
  | some kind => writeCollectedText lib kind text
  | none => children.map Children.concat

mutual

def generate (lib : Library) (parentName : Text) : Node → Except Failure (Option GenResult)
  | .element e children => do
    let _ ← resultOf lib parentName e []
    let stream ← innerOf lib (innerKind (localName e.name)) (characters children)
      (generateAll lib (localName e.name) ⟨[], 0⟩ children)
    (resultOf lib parentName e stream).map some
  | .emptyElement e => (resultOf lib parentName e []).map some
  | _ => .ok none

def generateAll (lib : Library) (parentName : Text) (children : Children) :
    List Node → Except Failure Children
  | [] => .ok children
  | node :: nodes => do
    let result ← generate lib parentName node
    generateAll lib parentName (children.pushNode result) nodes

end

mutual

/-- The children of the first element with the application programs. -/
def Node.programs : Node → Option (List Node)
  | .element e children =>
    if localName e.name = applicationPrograms then some children else programsIn children
  | _ => none

def programsIn : List Node → Option (List Node)
  | [] => none
  | node :: nodes => node.programs.or (programsIn nodes)

end

def serializeNodes (lib : Library) (nodes : List Node) : Except Failure Octets :=
  match programsIn nodes with
  | none => .error (.error (.missingElement applicationPrograms))
  | some children => (generateAll lib applicationPrograms ⟨[], 0⟩ children).map Children.concat

/-! ## Induction over trees -/

def Node.IsLeaf (node : Node) : Prop := ∀ e children, node ≠ .element e children

mutual

theorem node_induction {P : Node → Prop} {Q : List Node → Prop}
    (element : ∀ e children, Q children → P (.element e children))
    (leaf : ∀ node, node.IsLeaf → P node) (nil : Q [])
    (cons : ∀ node nodes, P node → Q nodes → Q (node :: nodes)) : (node : Node) → P node
  | .element e children => element e children (nodes_induction element leaf nil cons children)
  | .emptyElement e => leaf (.emptyElement e) nofun
  | .text raw => leaf (.text raw) nofun
  | .cdata raw => leaf (.cdata raw) nofun
  | .reference name => leaf (.reference name) nofun
  | .comment s => leaf (.comment s) nofun
  | .instruction s => leaf (.instruction s) nofun

theorem nodes_induction {P : Node → Prop} {Q : List Node → Prop}
    (element : ∀ e children, Q children → P (.element e children))
    (leaf : ∀ node, node.IsLeaf → P node) (nil : Q [])
    (cons : ∀ node nodes, P node → Q nodes → Q (node :: nodes)) : (nodes : List Node) → Q nodes
  | [] => nil
  | node :: nodes => cons node nodes (node_induction element leaf nil cons node)
      (nodes_induction element leaf nil cons nodes)

end

/-! ## Parts of a document -/

theorem eventsOf_append (first second : List Node) :
    eventsOf (first ++ second) = eventsOf first ++ eventsOf second := by
  induction first with
  | nil => rfl
  | cons n first ih => rw [List.cons_append, eventsOf, eventsOf, ih, List.append_assoc]

theorem allIn_append {p : Node → Prop} {first second : List Node} :
    AllIn p (first ++ second) ↔ AllIn p first ∧ AllIn p second := by
  induction first with
  | nil => simp [AllIn]
  | cons n first ih => rw [List.cons_append, AllIn, AllIn, ih, and_assoc]

theorem programsIn_append (first second : List Node) :
    programsIn (first ++ second) = (programsIn first).or (programsIn second) := by
  induction first with
  | nil => rfl
  | cons n first ih => rw [List.cons_append, programsIn, programsIn, ih, Option.or_assoc]

theorem generateAll_append (lib : Library) (parentName : Text) (children : Children)
    (first second : List Node) : generateAll lib parentName children (first ++ second) =
      (generateAll lib parentName children first).bind fun all =>
        generateAll lib parentName all second := by
  induction first generalizing children with
  | nil => rfl
  | cons n first ih =>
    rw [List.cons_append, generateAll, generateAll]
    cases generate lib parentName n with
    | error f => rfl
    | ok result => exact ih _

theorem events_length (node : Node) : 1 ≤ node.events.length := by
  cases node <;> simp [Node.events]

/-! ## Inner text -/

variable {lib : Library} {kind : ElementKind}

theorem textOf_separated (documented : lib.Documented) {raw : Text} (h : '&' ∉ raw) :
    textOf lib raw = normalizeNewlines raw := by
  unfold textOf
  rw [documented raw h]
  rfl

theorem fragment_reference {name s : Text} (h : fragment (.reference name) = some s) :
    decodeEntity name ≠ [] ∧ decodeEntity name = s := by
  have hs : (if decodeEntity name = [] then none else some (decodeEntity name)) = some s := h
  split_ifs at hs with hname
  exact ⟨hname, Option.some.inj hs⟩

theorem fragment_chars {node : Node} {s : Text} (h : fragment node = some s) : charsOf node = s := by
  cases node with
  | text raw => exact Option.some.inj h
  | cdata raw => exact Option.some.inj h
  | reference name =>
    obtain ⟨hname, rfl⟩ := fragment_reference h
    exact if_neg hname
  | _ => cases h

theorem collect_fragments (documented : lib.Documented) {nodes : List Node}
    (separated : AllIn Separated nodes) (h : ∀ node ∈ nodes, (fragment node).isSome = true)
    (collected : Text) (rest : List Event) :
    collectRemainingText lib kind collected (eventsOf nodes ++ .finish :: rest) =
      (writeCollectedText lib kind (collected ++ characters nodes)).map fun octets =>
        (octets, rest) := by
  induction nodes generalizing collected with
  | nil =>
    rw [characters, List.flatMap_nil, List.append_nil]
    rfl
  | cons node nodes ih =>
    obtain ⟨hnode, hnodes⟩ := List.forall_mem_cons.mp h
    obtain ⟨s, hs⟩ := Option.isSome_iff_exists.mp hnode
    have hchars : characters (node :: nodes) = s ++ characters nodes := by
      unfold characters
      rw [List.flatMap_cons, fragment_chars hs]
    rw [hchars, ← List.append_assoc, ← ih separated.2 hnodes, eventsOf, List.append_assoc]
    cases node with
    | text raw =>
      obtain rfl := Option.some.inj hs
      show collectRemainingText lib kind (collected ++ textOf lib raw) _ = _
      rw [textOf_separated documented separated.1]
      rfl
    | cdata raw =>
      obtain rfl := Option.some.inj hs
      rfl
    | reference name =>
      obtain ⟨_, rfl⟩ := fragment_reference hs
      rfl
    | _ => cases hs

theorem trim_blank {s : Text} (h : isBlank s = true) (t : Text) : trim (s ++ t) = trim t := by
  unfold trim
  rw [List.dropWhile_append_of_pos fun c hc => List.all_eq_true.mp h c hc]

theorem write_blank {s : Text} (h : isBlank s = true) (hkind : s = [] ∨ kind.isBase64 = true)
    (t : Text) : writeCollectedText lib kind (s ++ t) = writeCollectedText lib kind t := by
  rcases hkind with rfl | hkind
  · rfl
  · cases kind with
    | innerTextBase64 tag =>
      unfold writeCollectedText
      rw [trim_blank h]
    | _ => cases hkind

theorem decodeEntity_blank {name : Text} (h : decodeEntity name ≠ []) :
    isBlank (decodeEntity name) = false := by
  unfold decodeEntity at h ⊢
  split_ifs at h ⊢
  all_goals first | decide | exact absurd rfl h

theorem scan_fragment (documented : lib.Documented) {node : Node} (separated : node.All Separated)
    {s : Text} (hs : fragment node = some s) (depth : Int) (rest : List Event) :
    scanForInnerText lib kind depth (node.events ++ rest) =
      if isBlank s then scanForInnerText lib kind depth rest
      else foundText lib kind depth s rest := by
  cases node with
  | text raw =>
    obtain rfl := Option.some.inj hs
    show (if isBlank (textOf lib raw) then _ else foundText lib kind depth (textOf lib raw) _) = _
    rw [textOf_separated documented separated]
    rfl
  | cdata raw =>
    obtain rfl := Option.some.inj hs
    rfl
  | reference name =>
    obtain ⟨hname, rfl⟩ := fragment_reference hs
    show (if decodeEntity name = [] then _ else foundText lib kind depth (decodeEntity name) _) = _
    rw [if_neg hname, decodeEntity_blank hname]
    rfl
  | _ => cases hs

theorem plainText_fragment {node : Node} {nodes : List Node} {s : Text}
    (hs : fragment node = some s) (h : PlainText kind (node :: nodes)) :
    if isBlank s then (s = [] ∨ kind.isBase64 = true) ∧ PlainText kind nodes
    else ∀ other ∈ nodes, (fragment other).isSome = true := by
  cases node with
  | comment c => cases hs
  | instruction c => cases hs
  | _ =>
    unfold PlainText at h
    rw [hs] at h
    exact h

theorem plainText_cases {node : Node} {nodes : List Node} (h : PlainText kind (node :: nodes)) :
    (node.events = [.other] ∧ charsOf node = [] ∧ PlainText kind nodes) ∨
      ∃ s, fragment node = some s := by
  cases node with
  | comment c => exact .inl ⟨rfl, rfl, h⟩
  | instruction c => exact .inl ⟨rfl, rfl, h⟩
  | _ =>
    unfold PlainText at h
    split at h
    · exact h.elim
    · next s hs => exact .inr ⟨s, hs⟩

theorem scan_plain (documented : lib.Documented) {nodes : List Node}
    (separated : AllIn Separated nodes) (h : PlainText kind nodes) (rest : List Event) :
    scanForInnerText lib kind 0 (eventsOf nodes ++ .finish :: rest) =
      (writeCollectedText lib kind (characters nodes)).map fun octets => (octets, rest) := by
  induction nodes with
  | nil => exact h.elim
  | cons node nodes ih =>
    rw [eventsOf, List.append_assoc]
    rcases plainText_cases h with ⟨hevents, hchars, hrest⟩ | ⟨s, hs⟩
    · have hsame : characters (node :: nodes) = characters nodes := by
        unfold characters
        rw [List.flatMap_cons, hchars, List.nil_append]
      rw [hevents, hsame, ← ih separated.2 hrest]
      rfl
    · have hsame : characters (node :: nodes) = s ++ characters nodes := by
        unfold characters
        rw [List.flatMap_cons, fragment_chars hs]
      have hplain := plainText_fragment hs h
      rw [scan_fragment documented separated.1 hs, hsame]
      by_cases hblank : isBlank s = true
      · rw [if_pos hblank] at hplain ⊢
        rw [write_blank hblank hplain.1, ih separated.2 hplain.2]
      · rw [if_neg hblank] at hplain ⊢
        exact collect_fragments documented separated.2 hplain s rest

/-! ## The traversal -/

theorem innerKind_attrs {name : Text} {info : ElementInfo} (h : registry name = some info) :
    innerKind name = match info.kind with
      | .attrs _ _ => none
      | kind => some kind := by
  unfold innerKind
  rw [h, Option.bind_some]
  cases info.kind <;> rfl

theorem innerKind_none {name : Text} (h : registry name = none) : innerKind name = none := by
  unfold innerKind
  rw [h]
  rfl

def streamOf (lib : Library) (e : Element) (isEmpty : Bool) (rounds : Nat) (events : List Event) :
    Except Failure (Octets × List Event) :=
  match innerKind (localName e.name) with
  | some kind => scanForInnerText lib kind 0 events
  | none =>
    if isEmpty then .ok ([], events)
    else (readChildren lib (localName e.name) ⟨[], 0⟩ rounds events).map fun p => (p.1.concat, p.2)

theorem processElement_eq (parentName : Text) (e : Element) (isEmpty : Bool) (rounds : Nat)
    (events : List Event) : processElement lib parentName e isEmpty (rounds + 1) events =
      (resultOf lib parentName e []).bind fun _ =>
        (streamOf lib e isEmpty rounds events).bind fun p =>
          (resultOf lib parentName e p.1).map fun result => (result, p.2) := by
  rw [processElement]
  unfold resultOf streamOf
  cases hinfo : registry (localName e.name) with
  | none =>
    rw [innerKind_none hinfo]
    cases isEmpty with
    | true => rfl
    | false => cases readChildren lib (localName e.name) ⟨[], 0⟩ rounds events <;> rfl
  | some info =>
    rw [innerKind_attrs hinfo]
    dsimp only [bind]
    cases serializeRegistryAttrs lib info e with
    | error f => rfl
    | ok attrs =>
      dsimp only [Except.bind]
      cases hkind : info.kind with
      | attrs attributes sortAttr =>
        cases isEmpty with
        | true => rfl
        | false => cases readChildren lib (localName e.name) ⟨[], 0⟩ rounds events <;> rfl
      | innerTextBase64 tag => cases scanForInnerText lib (.innerTextBase64 tag) 0 events <;> rfl
      | innerTextUInt32 tag => cases scanForInnerText lib (.innerTextUInt32 tag) 0 events <;> rfl
      | innerTextString tag => cases scanForInnerText lib (.innerTextString tag) 0 events <;> rfl

def innerOctets (lib : Library) (e : Element) (children : List Node) : Except Failure Octets :=
  innerOf lib (innerKind (localName e.name)) (characters children)
    (generateAll lib (localName e.name) ⟨[], 0⟩ children)

theorem generate_element (parentName : Text) (e : Element) (children : List Node) :
    generate lib parentName (.element e children) =
      (resultOf lib parentName e []).bind fun _ =>
        (innerOctets lib e children).bind fun stream =>
          (resultOf lib parentName e stream).map some := by
  rw [generate]
  rfl

/-- The children as the traversal reads them, for any number of rounds that is enough. -/
def ReadAs (lib : Library) (nodes : List Node) : Prop :=
  AllIn Separated nodes → Plain nodes → ∀ parentName children rest rounds,
    2 * (eventsOf nodes).length + 1 ≤ rounds →
      readChildren lib parentName children rounds (eventsOf nodes ++ .finish :: rest) =
        (generateAll lib parentName children nodes).map fun all => (all, rest)

def ReadsNode (lib : Library) (node : Node) : Prop :=
  node.All Separated → node.All PlainNode → ∀ parentName children rest rounds,
    2 * node.events.length ≤ rounds + 1 →
      readChildren lib parentName children (rounds + 1) (node.events ++ rest) =
        (generate lib parentName node).bind fun result =>
          readChildren lib parentName (children.pushNode result) rounds rest

theorem stream_element (documented : lib.Documented) {e : Element} {nodes : List Node}
    (ih : ReadAs lib nodes) (separated : AllIn Separated nodes)
    (plain : (Node.element e nodes).All PlainNode) {rounds : Nat}
    (enough : 2 * (eventsOf nodes).length + 1 ≤ rounds) (rest : List Event) :
    streamOf lib e false rounds (eventsOf nodes ++ .finish :: rest) =
      (innerOctets lib e nodes).map fun octets => (octets, rest) := by
  unfold streamOf innerOctets innerOf
  cases hkind : innerKind (localName e.name) with
  | some kind => exact scan_plain documented separated (plain.1.2 kind hkind) rest
  | none =>
    dsimp only
    rw [if_neg (by decide), ih separated plain.2 _ _ _ _ enough]
    cases generateAll lib (localName e.name) ⟨[], 0⟩ nodes <;> rfl

theorem reads_element (documented : lib.Documented) (e : Element) (nodes : List Node)
    (ih : ReadAs lib nodes) : ReadsNode lib (.element e nodes) := by
  intro separated plain parentName children rest rounds enough
  rw [Node.events, List.length_cons, List.length_append, List.length_singleton] at enough
  obtain ⟨more, rfl⟩ : ∃ more, rounds = more + 1 := ⟨rounds - 1, by omega⟩
  have hevents : (Node.element e nodes).events ++ rest =
      .start e :: (eventsOf nodes ++ .finish :: rest) := by
    rw [Node.events, List.cons_append, List.append_assoc, List.singleton_append]
  rw [hevents, readChildren, processElement_eq,
    stream_element documented ih separated.2 plain (by omega), generate_element]
  cases resultOf lib parentName e [] with
  | error f => rfl
  | ok result =>
    dsimp only [Except.bind]
    cases innerOctets lib e nodes with
    | error f => rfl
    | ok stream =>
      dsimp only [Except.map]
      cases resultOf lib parentName e stream <;> rfl

theorem reads_leaf (node : Node) (leaf : node.IsLeaf) : ReadsNode lib node := by
  intro separated plain parentName children rest rounds enough
  cases node with
  | element e nodes => exact absurd rfl (leaf e nodes)
  | emptyElement e =>
    obtain ⟨more, rfl⟩ : ∃ more, rounds = more + 1 :=
      ⟨rounds - 1, by rw [Node.events, List.length_singleton] at enough; omega⟩
    rw [Node.events, List.singleton_append, readChildren, processElement_eq]
    have hstream : streamOf lib e true more rest = .ok ([], rest) := by
      unfold streamOf
      rw [plain.2]
      rfl
    rw [hstream, generate]
    cases hresult : resultOf lib parentName e [] with
    | error f => rfl
    | ok result =>
      dsimp only [Except.bind]
      rw [hresult]
      rfl
  | _ => rfl

theorem reads_cons (node : Node) (nodes : List Node) (hnode : ReadsNode lib node)
    (hnodes : ReadAs lib nodes) : ReadAs lib (node :: nodes) := by
  intro separated plain parentName children rest rounds enough
  have hlength := events_length node
  rw [eventsOf, List.length_append] at enough
  obtain ⟨more, rfl⟩ : ∃ more, rounds = more + 1 := ⟨rounds - 1, by omega⟩
  rw [eventsOf, List.append_assoc, hnode separated.1 plain.1 _ _ _ _ (by omega), generateAll]
  cases generate lib parentName node with
  | error f => rfl
  | ok result => exact hnodes separated.2 plain.2 _ _ _ _ (by omega)

theorem reads_nil : ReadAs lib [] := by
  intro _ _ parentName children rest rounds enough
  obtain ⟨more, rfl⟩ : ∃ more, rounds = more + 1 := ⟨rounds - 1, by omega⟩
  rfl

/-- The traversal of the events does what the trees say. -/
theorem readChildren_trees (documented : lib.Documented) (nodes : List Node) : ReadAs lib nodes :=
  nodes_induction (P := ReadsNode lib) (reads_element documented) reads_leaf reads_nil reads_cons
    nodes

/-! ## The document -/

/-- The search in a part of the document goes on after it, unless it finds the programs. -/
def Searched (lib : Library) (rounds : Nat) (events : List Event) (found : Option (List Node)) :
    Prop :=
  ∀ rest, serializeFrom lib rounds (events ++ rest) =
    match found with
    | none => serializeFrom lib rounds rest
    | some children => (generateAll lib applicationPrograms ⟨[], 0⟩ children).map Children.concat

theorem searched_node (documented : lib.Documented) (rounds : Nat) (e : Element)
    (nodes : List Node)
    (ih : AllIn Separated nodes → Plain nodes → 2 * (eventsOf nodes).length + 1 ≤ rounds →
      Searched lib rounds (eventsOf nodes) (programsIn nodes))
    (separated : (Node.element e nodes).All Separated)
    (plain : (Node.element e nodes).All PlainNode)
    (enough : 2 * (Node.element e nodes).events.length + 1 ≤ rounds) :
    Searched lib rounds (Node.element e nodes).events (Node.element e nodes).programs := by
  intro rest
  rw [Node.events, List.length_cons, List.length_append] at enough
  have hevents : (Node.element e nodes).events ++ rest =
      .start e :: (eventsOf nodes ++ .finish :: rest) := by
    rw [Node.events, List.cons_append, List.append_assoc, List.singleton_append]
  rw [hevents, serializeFrom, Node.programs]
  by_cases hname : localName e.name = applicationPrograms
  · rw [if_pos hname, if_pos hname,
      readChildren_trees documented nodes separated.2 plain.2 _ _ _ _ (by omega)]
    dsimp only
    cases generateAll lib applicationPrograms ⟨[], 0⟩ nodes <;> rfl
  · rw [if_neg hname, if_neg hname, ih separated.2 plain.2 (by omega)]
    cases programsIn nodes <;> rfl

theorem searched_cons {rounds : Nat} {first second : List Event} {a b : Option (List Node)}
    (h : Searched lib rounds first a) (h' : Searched lib rounds second b) :
    Searched lib rounds (first ++ second) (a.or b) := by
  intro rest
  rw [List.append_assoc, h]
  cases a with
  | none => exact h' rest
  | some children => rfl

theorem searched (documented : lib.Documented) (rounds : Nat) (nodes : List Node) :
    AllIn Separated nodes → Plain nodes → 2 * (eventsOf nodes).length + 1 ≤ rounds →
      Searched lib rounds (eventsOf nodes) (programsIn nodes) := by
  refine nodes_induction
    (P := fun node => node.All Separated → node.All PlainNode →
      2 * node.events.length + 1 ≤ rounds → Searched lib rounds node.events node.programs)
    (searched_node documented rounds) ?leaf ?nil ?cons nodes
  case leaf =>
    intro node leaf _ _ _ rest
    cases node with
    | element e children => exact absurd rfl (leaf e children)
    | _ => rfl
  case nil => exact fun _ _ _ rest => rfl
  case cons =>
    intro node nodes hnode hnodes separated plain enough
    rw [eventsOf, List.length_append] at enough
    exact searched_cons (hnode separated.1 plain.1 (by omega))
      (hnodes separated.2 plain.2 (by omega))

/-- A plain document is serialized by its tree. -/
theorem serialize_nodes {reader : Text → List Event} {xml : Text} {nodes : List Node}
    (documented : lib.Documented) (reads : Reads reader xml nodes) (plain : Plain nodes) :
    serializeAppProgram lib reader xml = serializeNodes lib nodes := by
  unfold serializeAppProgram serializeNodes
  have h := searched documented (2 * (reader xml).length + 1) nodes reads.separated plain
    (by rw [reads.events]) []
  rw [List.append_nil, ← reads.events] at h
  rw [h]
  cases programsIn nodes <;> rfl

/-! ## Given documents -/

/-- Digests and their Base64 by the octets, and texts without references as they are. -/
def libraryOf (digests : List (Octets × Octets × Text)) : Library where
  unescape raw := if '&' ∈ raw then none else some raw
  normalizedValue value := if '&' ∈ value then none else some value
  md5 octets := ((digests.lookup octets).map Prod.fst).getD []
  encode digest := ((digests.map Prod.snd).lookup digest).getD []
  decode _ := .error []
  parseF64 _ := none

theorem libraryOf_documented (digests : List (Octets × Octets × Text)) :
    (libraryOf digests).Documented := fun _ h => if_neg h

def readerOf (documents : List (Text × List Node)) (xml : Text) : List Event :=
  (documents.lookup xml).elim [.failed] eventsOf

theorem readerOf_first (first second : Text × List Node) :
    readerOf [first, second] first.1 = eventsOf first.2 := by
  unfold readerOf
  rw [List.lookup_cons_self]
  rfl

theorem readerOf_second {first second : Text × List Node} (h : second.1 ≠ first.1) :
    readerOf [first, second] second.1 = eventsOf second.2 := by
  unfold readerOf
  rw [List.lookup_cons, beq_eq_false_iff_ne.mpr h]
  dsimp only
  rw [List.lookup_cons_self]
  rfl

def applicationProgramsOf (children : List Node) : List Node :=
  [.element ⟨applicationPrograms, []⟩ children]

theorem registry_applicationPrograms : registry applicationPrograms = none := by decide +kernel

theorem plain_applicationPrograms {children : List Node} (plain : Plain children) :
    Plain (applicationProgramsOf children) := by
  have hname : localName applicationPrograms = applicationPrograms := by decide
  refine ⟨⟨⟨fun registered => ?_, fun kind hkind => ?_⟩, plain⟩, trivial⟩
  · rw [hname, registry_applicationPrograms] at registered
    cases registered
  · rw [hname, innerKind_none registry_applicationPrograms] at hkind
    cases hkind

end KnxRs.Hash
