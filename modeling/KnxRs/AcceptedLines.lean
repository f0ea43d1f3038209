import KnxRs.NumericAttributes
import KnxRs.AuthoredTags

set_option autoImplicit false

/-!
# The lines of an authored document as they are hashed

The lines are the nodes of a tree, with the space before each tag. They are hashed when the
registry accepts the numbers in them.
-/
namespace KnxRs.Author
open Texts XmlDocuments XmlValues Hash Renumber Fallible

/-! ## What the reader reports -/

def rawElement (name : String) (attributes : Attributes) : Element :=
  ⟨name.toList, attributes.map fun a => (a.1.toList, a.2.written)⟩

def Line.events (line : Line) : List Event :=
  let event : Event := match line with
    | .opening _ name attributes => .start (rawElement name attributes)
    | .single _ name attributes => .empty (rawElement name attributes)
    | .closing _ _ => .finish
  [.text ('\n' :: List.replicate line.indent ' '), event]

/-- What the reader reports of a document: its XML declaration, and its tags with the space
    between them. -/
def documentEvents (lines : List Line) : List Event :=
  .other :: (lines.flatMap Line.events ++ [.text ['\n']])

/-! ## Trees of lines -/

section
variable {first second nodes : List Node}

/-- The nodes of some lines, with the space before each tag. -/
structure Tree (lines : List Line) (nodes : List Node) : Prop where
  events : eventsOf nodes = lines.flatMap Line.events
  separated : AllIn Separated nodes
  plain : Plain nodes

theorem Tree.append {lines more : List Line} (h : Tree lines first) (h' : Tree more second) :
    Tree (lines ++ more) (first ++ second) where
  events := by rw [eventsOf_append, List.flatMap_append, h.events, h'.events]
  separated := allIn_append.mpr ⟨h.separated, h'.separated⟩
  plain := allIn_append.mpr ⟨h.plain, h'.plain⟩

def spaceNode (indent : Nat) : Node := .text ('\n' :: List.replicate indent ' ')

theorem spaceNode_separated (indent : Nat) : Separated (spaceNode indent) := by
  intro h
  rcases List.mem_cons.mp h with h | h
  · cases h
  · cases List.eq_of_mem_replicate h

theorem Tree.node {lines : List Line} (h : Tree lines nodes) {name : String}
    {attributes : Attributes} (distinct : DistinctAttributes (rawElement name attributes))
    (inner : innerKind (localName name.toList) = none) (indent : Nat) :
    Tree (node indent name attributes lines)
      [spaceNode indent, .element (rawElement name attributes) (nodes ++ [spaceNode indent])] where
  events := by
    rw [eventsOf, eventsOf, eventsOf, Node.events, eventsOf_append, h.events]
    simp [Author.node, Line.events, eventsOf, Node.events, spaceNode, Line.indent]
  separated := ⟨spaceNode_separated indent, ⟨trivial, allIn_append.mpr
    ⟨h.separated, spaceNode_separated indent, trivial⟩⟩, trivial⟩
  plain := by
    refine ⟨trivial, ⟨⟨distinct, fun kind hkind => ?_⟩, allIn_append.mpr ⟨h.plain, trivial, trivial⟩⟩,
      trivial⟩
    exact absurd (inner.symm.trans hkind) (by simp)

theorem Tree.single {name : String} {attributes : Attributes}
    (distinct : DistinctAttributes (rawElement name attributes))
    (inner : innerKind (localName name.toList) = none) (indent : Nat) :
    Tree [.single indent name attributes]
      [spaceNode indent, .emptyElement (rawElement name attributes)] where
  events := rfl
  separated := ⟨spaceNode_separated indent, trivial, trivial⟩
  plain := ⟨trivial, ⟨distinct, inner⟩, trivial⟩

end

/-! ## Accepted lines -/

def readableNames (name : String) (names : List String) : Bool :=
  decide (localName name.toList = name.toList) && decide names.Nodup &&
    names.all (fun n => decide (localName n.toList = n.toList)) &&
    (innerKind name.toList).isNone && (registeredAttrs name.toList).all AttrInfo.isSound

def numbered (name : String) (types : List (String × AttrType)) : Bool :=
  decide (numericAttrs name.toList = types.map fun a => (a.1.toList, a.2))

def readableTag (name : String) (names : List String) (types : List (String × AttrType)) : Bool :=
  readableNames name names && numbered name types

def Accepts (lib : Library) (types : List (String × AttrType)) (attributes : Attributes) : Prop :=
  ∀ a ∈ attributes, ∀ t, (a.1, t) ∈ types → t.accepts (lib.read a.2.written)

section
variable {lib : Library} {name : String} {attributes : Attributes} {names : List String}
  {types : List (String × AttrType)}

theorem readable_localName (h : readableNames name names = true) :
    localName name.toList = name.toList := by
  unfold readableNames at h
  simp only [Bool.and_eq_true, decide_eq_true_eq] at h
  exact h.1.1.1.1

theorem readable_names (h : readableNames name names = true)
    (hnames : (attributes.map Prod.fst).Sublist names) :
    ∀ a ∈ attributes, localName a.1.toList = a.1.toList := by
  unfold readableNames at h
  simp only [Bool.and_eq_true, decide_eq_true_eq, List.all_eq_true] at h
  exact fun a ha => h.1.1.2 a.1 (hnames.subset (List.mem_map_of_mem ha))

theorem readable_distinct (h : readableNames name names = true)
    (hnames : (attributes.map Prod.fst).Sublist names) :
    ((rawElement name attributes).attributes.map fun attr => localName attr.1).Nodup := by
  have hlocal : ((rawElement name attributes).attributes.map fun attr => localName attr.1) =
      (attributes.map Prod.fst).map String.toList := by
    unfold rawElement
    rw [List.map_map, List.map_map]
    exact List.map_congr_left (readable_names h hnames)
  unfold readableNames at h
  simp only [Bool.and_eq_true, decide_eq_true_eq] at h
  rw [hlocal]
  exact (h.1.1.1.2.sublist hnames).map fun s t hst => String.toList_inj.mp hst

theorem readable_inner (h : readableNames name names = true) :
    innerKind (localName name.toList) = none := by
  rw [readable_localName h]
  unfold readableNames at h
  simp only [Bool.and_eq_true] at h
  exact Option.isNone_iff_eq_none.mp h.1.2

theorem resultOf_accepts (h : readableTag name names types = true)
    (hnames : (attributes.map Prod.fst).Sublist names) (parentName : Text) (stream : Octets) :
    Succeeds (resultOf lib parentName (rawElement name attributes) stream) ↔
      Accepts lib types attributes := by
  obtain ⟨hreadable, htypes⟩ := Bool.and_eq_true_iff.mp h
  have hname : localName (rawElement name attributes).name = name.toList :=
    readable_localName hreadable
  have hsound : ∀ a ∈ registeredAttrs name.toList, a.isSound = true := by
    unfold readableNames at hreadable
    exact List.all_eq_true.mp (Bool.and_eq_true_iff.mp hreadable).2
  have htype {attr : String} {t : AttrType} :
      (attr.toList, t) ∈ numericAttrs name.toList ↔ (attr, t) ∈ types := by
    rw [of_decide_eq_true htypes, List.mem_map]
    constructor
    · rintro ⟨a, ha, heq⟩
      obtain ⟨hattr, rfl⟩ := Prod.mk.inj heq
      rw [← String.toList_inj.mp hattr]
      exact ha
    · exact fun ha => ⟨_, ha, rfl⟩
  rw [resultOf_succeeds (readable_distinct hreadable hnames) (by rw [hname]; exact hsound), hname]
  unfold rawElement Accepts
  rw [List.forall_mem_map]
  refine forall₂_congr fun a ha => forall_congr' fun t => ?_
  rw [readable_names hreadable hnames a ha, htype]

/-- The nodes of the lines, none of which holds application programs, are hashed where the
    condition holds. -/
def Accepted (lib : Library) (lines : List Line) (condition : Prop) : Prop :=
  ∃ nodes, Tree lines nodes ∧ programsIn nodes = none ∧ ∀ parentName children,
    Succeeds (generateAll lib parentName children nodes) ↔ condition

variable {lines more : List Line} {p q : Prop}

theorem Accepted.congr (h : Accepted lib lines p) (hpq : p ↔ q) : Accepted lib lines q := by
  rw [← propext hpq]
  exact h

theorem Accepted.nil : Accepted lib [] True :=
  ⟨[], ⟨rfl, trivial, trivial⟩, rfl, fun _ children => ⟨fun _ => trivial, fun _ => ⟨children, rfl⟩⟩⟩

theorem Accepted.append (h : Accepted lib lines p) (h' : Accepted lib more q) :
    Accepted lib (lines ++ more) (p ∧ q) := by
  obtain ⟨first, htree, hprograms, hfirst⟩ := h
  obtain ⟨second, htree', hprograms', hsecond⟩ := h'
  refine ⟨first ++ second, htree.append htree', ?_, fun parentName children => ?_⟩
  · rw [programsIn_append, hprograms, hprograms']
    rfl
  · rw [generateAll_append, succeeds_bind, ← hfirst parentName children]
    constructor
    · rintro ⟨all, hall, hrest⟩
      exact ⟨⟨all, hall⟩, (hsecond parentName all).mp hrest⟩
    · rintro ⟨⟨all, hall⟩, hq⟩
      exact ⟨all, hall, (hsecond parentName all).mpr hq⟩

theorem Accepted.cons {line : Line} (h : Accepted lib [line] p) (h' : Accepted lib more q) :
    Accepted lib (line :: more) (p ∧ q) := h.append h'

theorem Accepted.flatMap {α : Type} {xs : List α} {f : α → List Line} {condition : α → Prop}
    (h : ∀ x ∈ xs, Accepted lib (f x) (condition x)) :
    Accepted lib (xs.flatMap f) (∀ x ∈ xs, condition x) := by
  induction xs with
  | nil => exact Accepted.nil.congr (by simp)
  | cons x xs ih =>
    refine ((h x List.mem_cons_self).append (ih fun y hy => h y (List.mem_cons_of_mem x hy))).congr ?_
    rw [List.forall_mem_cons]

theorem Accepted.map {α : Type} {xs : List α} {f : α → Line} {condition : α → Prop}
    (h : ∀ x ∈ xs, Accepted lib [f x] (condition x)) :
    Accepted lib (xs.map f) (∀ x ∈ xs, condition x) := by
  rw [← List.flatMap_singleton' (xs.map f), List.flatMap_map]
  exact .flatMap h

theorem Accepted.unlessEmpty {α : Type} {xs : List α} (h : Accepted lib lines p)
    (hempty : xs = [] → p) : Accepted lib (unlessEmpty xs lines) p := by
  unfold Author.unlessEmpty
  split_ifs with hxs
  · exact Accepted.nil.congr (iff_of_true trivial (hempty (List.isEmpty_iff.mp hxs)))
  · exact h

theorem succeeds_element (h : readableTag name names types = true)
    (hnames : (attributes.map Prod.fst).Sublist names) {nodes : List Node} {condition : Prop}
    (hinner : ∀ parentName children,
      Succeeds (generateAll lib parentName children nodes) ↔ condition) (parentName : Text) :
    Succeeds (generate lib parentName (.element (rawElement name attributes) nodes)) ↔
      Accepts lib types attributes ∧ condition := by
  have hresult (stream : Octets) : Succeeds (resultOf lib parentName (rawElement name attributes)
      stream) ↔ Accepts lib types attributes := resultOf_accepts h hnames parentName stream
  have hoctets : Succeeds (innerOctets lib (rawElement name attributes) nodes) ↔ condition := by
    unfold innerOctets
    rw [show innerKind (localName (rawElement name attributes).name) = none from
      readable_inner (Bool.and_eq_true_iff.mp h).1]
    exact (succeeds_map _ _).trans (hinner _ _)
  rw [generate_element, succeeds_bind, ← hoctets]
  constructor
  · rintro ⟨result, hok, hrest⟩
    obtain ⟨octets, hoct, _⟩ := (succeeds_bind _ _).mp hrest
    exact ⟨(hresult []).mp ⟨result, hok⟩, octets, hoct⟩
  · rintro ⟨haccepts, octets, hoct⟩
    obtain ⟨result, hok⟩ := (hresult []).mpr haccepts
    refine ⟨result, hok, (succeeds_bind _ _).mpr ⟨octets, hoct, ?_⟩⟩
    exact (succeeds_map _ _).mpr ((hresult octets).mpr haccepts)

theorem generateAll_space (parentName : Text) (children : Children) (indent : Nat)
    (nodes : List Node) : generateAll lib parentName children (spaceNode indent :: nodes) =
      generateAll lib parentName children nodes := rfl

theorem succeeds_last (parentName : Text) (children : Children) (n : Node) :
    Succeeds (generateAll lib parentName children [n]) ↔ Succeeds (generate lib parentName n) := by
  rw [generateAll]
  exact succeeds_bind_ok _ _

theorem Accepted.node (names : List String) (types : List (String × AttrType))
    (h : readableTag name names types = true) (hnames : (attributes.map Prod.fst).Sublist names)
    (hother : name ≠ "ApplicationPrograms") (hinner : Accepted lib lines p) (indent : Nat) :
    Accepted lib (node indent name attributes lines) (Accepts lib types attributes ∧ p) := by
  obtain ⟨nodes, htree, hprograms, hnodes⟩ := hinner
  have hreadable := (Bool.and_eq_true_iff.mp h).1
  refine ⟨_, htree.node (fun _ => readable_distinct hreadable hnames) (readable_inner hreadable)
    indent, ?_, fun parentName children => ?_⟩
  · rw [programsIn, programsIn, Node.programs, if_neg, programsIn_append, hprograms]
    · rfl
    · exact fun heq => hother (String.toList_inj.mp ((readable_localName hreadable).symm.trans heq))
  · rw [generateAll_space, succeeds_last]
    refine succeeds_element h hnames (fun parentName children => ?_) parentName
    rw [generateAll_append, ← hnodes parentName children]
    exact succeeds_bind_ok _ _

theorem Accepted.single (names : List String) (types : List (String × AttrType))
    (h : readableTag name names types = true) (hnames : (attributes.map Prod.fst).Sublist names)
    (indent : Nat) : Accepted lib [.single indent name attributes] (Accepts lib types attributes) := by
  have hreadable := (Bool.and_eq_true_iff.mp h).1
  refine ⟨_, .single (fun _ => readable_distinct hreadable hnames) (readable_inner hreadable)
    indent, rfl, fun parentName children => ?_⟩
  rw [generateAll_space, succeeds_last, generate]
  exact (succeeds_map _ _).trans (resultOf_accepts h hnames parentName [])

/-! ### Attributes -/

theorem accepts_append {attributes more : Attributes} :
    Accepts lib types (attributes ++ more) ↔
      Accepts lib types attributes ∧ Accepts lib types more := List.forall_mem_append

theorem accepts_optional {α : Type} (value : Option α) (f : α → Value) (h : ∀ t, (name, t) ∉ types) :
    Accepts lib types (optional value fun x => (name, f x)) := by
  cases value with
  | none => exact fun _ ha => absurd ha List.not_mem_nil
  | some x =>
    intro a ha t ht
    rw [List.mem_singleton.mp ha] at ht
    exact absurd ht (h t)

theorem accepts_flag (set : Bool) (h : ∀ t, (name, t) ∉ types) : Accepts lib types (flag set name) := by
  cases set with
  | false => exact fun _ ha => absurd ha List.not_mem_nil
  | true =>
    intro a ha t ht
    rw [List.mem_singleton.mp ha] at ht
    exact absurd ht (h t)

/-! ### Tags without numbers -/

theorem accepts_none (attributes : Attributes) : Accepts lib [] attributes :=
  fun _ _ _ h => absurd h List.not_mem_nil

theorem Accepted.plainNode (names : List String) (h : readableTag name names [] = true)
    (hnames : (attributes.map Prod.fst).Sublist names) (hother : name ≠ "ApplicationPrograms")
    (hinner : Accepted lib lines p) (indent : Nat) :
    Accepted lib (Author.node indent name attributes lines) p :=
  (Accepted.node names [] h hnames hother hinner indent).congr
    (and_iff_right (accepts_none attributes))

theorem Accepted.plainSingle (names : List String) (h : readableTag name names [] = true)
    (hnames : (attributes.map Prod.fst).Sublist names) (indent : Nat) :
    Accepted lib [.single indent name attributes] True :=
  (Accepted.single names [] h hnames indent).congr (iff_true_intro (accepts_none attributes))

theorem Accepted.collection {α : Type} {xs : List α} {f : α → List Line} {condition : α → Prop}
    (hname : readableTag name [] [] = true) (hother : name ≠ "ApplicationPrograms")
    (h : ∀ x ∈ xs, Accepted lib (f x) (condition x)) (indent : Nat) :
    Accepted lib (Author.unlessEmpty xs (Author.node indent name [] (xs.flatMap f)))
      (∀ x ∈ xs, condition x) := by
  refine .unlessEmpty (.plainNode [] hname (.refl _) hother (.flatMap h) indent) ?_
  rintro rfl x hx
  cases hx

/-! ## The application programs -/

/-- The lines hold the application programs, which are hashed where the condition holds. -/
def Holding (lib : Library) (lines : List Line) (condition : Prop) : Prop :=
  ∃ nodes inner, Tree lines nodes ∧ programsIn nodes = some inner ∧ ∀ children,
    Succeeds (generateAll lib applicationPrograms children inner) ↔ condition

theorem Holding.programs (h : Accepted lib lines p) (indent : Nat) :
    Holding lib (Author.node indent "ApplicationPrograms" [] lines) p := by
  obtain ⟨nodes, htree, _, hnodes⟩ := h
  have hname : readableNames "ApplicationPrograms" [] = true := by decide +kernel
  refine ⟨_, nodes ++ [spaceNode indent], htree.node (fun _ => readable_distinct hname (.refl _))
    (readable_inner hname) indent, ?_, fun children => ?_⟩
  · rw [programsIn, programsIn, Node.programs, if_pos]
    · rfl
    · exact readable_localName hname
  · rw [generateAll_append, ← hnodes applicationPrograms children]
    exact succeeds_bind_ok _ _

theorem Holding.node (names : List String) (hname : readableNames name names = true)
    (hnames : (attributes.map Prod.fst).Sublist names) (hother : name ≠ "ApplicationPrograms")
    (h : Holding lib lines p) (indent : Nat) :
    Holding lib (Author.node indent name attributes lines) p := by
  obtain ⟨nodes, inner, htree, hprograms, hinner⟩ := h
  refine ⟨_, inner, htree.node (fun _ => readable_distinct hname hnames) (readable_inner hname)
    indent, ?_, hinner⟩
  rw [programsIn, programsIn, Node.programs, if_neg, programsIn_append, hprograms]
  · rfl
  · exact fun heq => hother (String.toList_inj.mp ((readable_localName hname).symm.trans heq))

theorem Accepted.holding (h : Accepted lib lines q) (h' : Holding lib more p) :
    Holding lib (lines ++ more) p := by
  obtain ⟨first, htree, hprograms, _⟩ := h
  obtain ⟨second, inner, htree', hprograms', hinner⟩ := h'
  refine ⟨first ++ second, inner, htree.append htree', ?_, hinner⟩
  rw [programsIn_append, hprograms, hprograms']
  rfl

theorem Holding.append (h : Holding lib lines p) (h' : Accepted lib more q) :
    Holding lib (lines ++ more) p := by
  obtain ⟨first, inner, htree, hprograms, hinner⟩ := h
  obtain ⟨second, htree', _⟩ := h'
  refine ⟨first ++ second, inner, htree.append htree', ?_, hinner⟩
  rw [programsIn_append, hprograms]
  rfl

theorem hash_holding {reader : Text → List Event} {xml : Text} (documented : lib.Documented)
    (reads : reader xml = documentEvents lines) (h : Holding lib lines p) :
    Succeeds (hashApplicationProgram lib reader xml) ↔ p := by
  obtain ⟨nodes, inner, htree, hprograms, hinner⟩ := h
  have hreads : Reads reader xml (.instruction [] :: (nodes ++ [.text ['\n']])) := by
    refine ⟨?_, trivial, allIn_append.mpr ⟨htree.separated, ?_, trivial⟩⟩
    · rw [reads, eventsOf, eventsOf_append, htree.events]
      rfl
    · exact show '&' ∉ ['\n'] by decide
  have hplain : Plain (.instruction [] :: (nodes ++ [.text ['\n']])) :=
    ⟨trivial, allIn_append.mpr ⟨htree.plain, trivial, trivial⟩⟩
  have hfound : programsIn (.instruction [] :: (nodes ++ [.text ['\n']])) = some inner := by
    rw [programsIn, programsIn_append, hprograms]
    rfl
  unfold hashApplicationProgram
  rw [succeeds_map, serialize_nodes documented hreads hplain]
  unfold serializeNodes
  rw [hfound, ← hinner ⟨[], 0⟩]
  exact succeeds_map _ _

end

end KnxRs.Author
