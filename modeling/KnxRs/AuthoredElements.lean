import KnxRs.AuthoredIds
import KnxRs.RenumberSound

set_option autoImplicit false

/-!
# The elements of an authored program

What renumbering and the sanity check read of an authored document: the elements with an id or
a reference under the prefix of the program. They are those of the program's parameters, group
objects, nodes and translations, in the order in which these are written.
-/
namespace KnxRs.Author
open Texts XmlDocuments XmlScan Renumber Sanity

/-! ## What is read of an element -/

/-- Ids and references, and the numbers of group objects. -/
def watched (name attrName : Text) : Bool :=
  isId attrName || isReferenceAttr attrName ||
    (name = "ComObject".toList && attrName = "Number".toList)

def identifies (scope name : Text) (attr : Text × Text) : Bool :=
  watched name attr.1 && (attr.1 = "Number".toList || scope.isPrefixOf attr.2)

def identity (scope : Text) (e : Element) : Option Element :=
  match e.attributes.filter (identifies scope e.name) with
  | [] => none
  | attr :: attrs => some ⟨e.name, attr :: attrs⟩

/-- The elements in the scope, with the attributes that identify them. -/
def identified (scope : Text) (els : List Element) : List Element := els.filterMap (identity scope)

/-! ## What has an id -/

/-- What has an id with a suffix that the caller gives. -/
inductive Suffixed where
  | parameter | comObject | message | channel | block | separator
  deriving DecidableEq

def Suffixed.kind : Suffixed → Text
  | .parameter => "UP".toList
  | .comObject => "O".toList
  | .message => "M".toList
  | .channel => "CH".toList
  | .block => "PB".toList
  | .separator => "PS".toList

def Suffixed.tag : Suffixed → String
  | .parameter => "Parameter"
  | .comObject => "ComObject"
  | .message => "Message"
  | .channel => "Channel"
  | .block => "ParameterBlock"
  | .separator => "ParameterSeparator"

/-- What has an id under the prefix of a program, by what tells it apart. -/
inductive ElementId where
  | absoluteSegment (index : Nat)
  | relativeSegment (loadStateMachine index : Nat)
  | parameterType (name : Text)
  | enumeration (typeName : Text) (index : Nat)
  | suffixed (kind : Suffixed) (suffix : Text)
  | parameterRef (suffix : Text)
  | comObjectRef (suffix : Text) (number : Nat)
  deriving DecidableEq

namespace ElementId

def tag : ElementId → String
  | absoluteSegment _ => "AbsoluteSegment"
  | relativeSegment _ _ => "RelativeSegment"
  | parameterType _ => "ParameterType"
  | enumeration _ _ => "Enumeration"
  | suffixed kind _ => kind.tag
  | parameterRef _ => "ParameterRef"
  | comObjectRef _ _ => "ComObjectRef"

def kind : ElementId → Text
  | absoluteSegment _ => "AS".toList
  | relativeSegment _ _ => "RS".toList
  | parameterType _ | enumeration _ _ => "PT".toList
  | suffixed kind _ => kind.kind
  | parameterRef _ => "UP".toList
  | comObjectRef _ _ => "O".toList

def body : ElementId → Text
  | absoluteSegment index => decimal index
  | relativeSegment loadStateMachine index =>
    padded 2 loadStateMachine ++ '-' :: padded 5 index
  | parameterType name | enumeration name _ => encodeIdComponent name
  | suffixed _ suffix | parameterRef suffix | comObjectRef suffix _ => suffix

/-- What follows the id of another one. -/
def ending (appPrefix : Text) : ElementId → Text
  | enumeration _ index => "_EN-".toList ++ decimal index
  | parameterRef suffix => "_R-".toList ++ (appPrefix ++ "_UP-".toList ++ suffix)
  | comObjectRef _ number => "_R-".toList ++ decimal number
  | _ => []

def id (appPrefix : Text) (d : ElementId) : Text :=
  scopeOf appPrefix ++ (d.kind ++ '-' :: d.body ++ d.ending appPrefix)

/-- The attribute by which an element with an id refers to another one. -/
def link : ElementId → String
  | suffixed .block _ => "TextParameterRefId"
  | _ => "RefId"

end ElementId

/-- What refers to an element without having an id itself. -/
inductive Reference where
  | parameterRefRef | comObjectRefRef | choose | translationElement
  deriving DecidableEq

namespace Reference

def tag : Reference → String
  | parameterRefRef => "ParameterRefRef"
  | comObjectRefRef => "ComObjectRefRef"
  | choose => "choose"
  | translationElement => "TranslationElement"

def attr : Reference → String
  | choose => "ParamRefId"
  | _ => "RefId"

end Reference

/-- An element in the scope of a program, and what it refers to. -/
inductive Entity where
  | declared (d : ElementId) (number : Option Nat) (target : Option ElementId)
  | reference (kind : Reference) (target : ElementId)

namespace Entity

/-- The element, with the ids that are given to what has one. -/
def element (idOf : ElementId → Text) : Entity → Element
  | declared d number target => ⟨d.tag.toList, ("Id".toList, idOf d) ::
      (number.toList.map (fun n => ("Number".toList, decimal n)) ++
        target.toList.map fun t => (d.link.toList, idOf t))⟩
  | reference kind target => ⟨kind.tag.toList, [(kind.attr.toList, idOf target)]⟩

def declared? : Entity → Option ElementId
  | declared d _ _ => some d
  | reference _ _ => none

def targets : Entity → List ElementId
  | declared _ _ target => target.toList
  | reference _ target => [target]

end Entity

namespace AppProgram
variable (app : AppProgram)

def segmentEntity (seg : Segment × Nat) : Entity :=
  match seg.1 with
  | .absolute _ _ _ _ _ => .declared (.absoluteSegment seg.2) none none
  | .relative _ _ loadStateMachine _ =>
    .declared (.relativeSegment loadStateMachine seg.2) none none

def enumerationIds (type : ParameterType) : ParamTypeKind → List ElementId
  | .enumeration _ values => values.zipIdx.map fun v => .enumeration type.name v.2
  | _ => []

def typeEntities (type : ParameterType) : List Entity :=
  .declared (.parameterType type.name) none none ::
    (enumerationIds type type.kind).map fun d => .declared d none none

def parameterEntity (p : Parameter) : Entity := .declared (.suffixed .parameter p.suffix) none none

def parameterRefEntity (p : Parameter) : Entity :=
  .declared (.parameterRef p.suffix) none (some (.suffixed .parameter p.suffix))

def comObjectEntity (co : ComObject) : Entity :=
  .declared (.suffixed .comObject co.suffix) (some co.number) none

def comObjectRefEntity (co : ComObject) : Entity :=
  .declared (.comObjectRef co.suffix co.number) none (some (.suffixed .comObject co.suffix))

def messageEntity (m : Message) : Entity := .declared (.suffixed .message m.suffix) none none

/-- The reference of the parameter that a handle stands for. -/
def parameterRefOf (r : Nat) : Option ElementId :=
  app.parameters[r]?.map fun p => .parameterRef p.suffix

def comObjectRefOf (r : Nat) : Option ElementId :=
  app.comObjects[r]?.map fun co => .comObjectRef co.suffix co.number

mutual

/-- The nodes refer to the parameters and group objects of their handles. -/
def entitiesOf : Dyn → List Entity
  | .channelIndependentBlock children => entitiesOfNodes children
  | .channel suffix _ _ _ children =>
    .declared (.suffixed .channel suffix) none none :: entitiesOfNodes children
  | .parameterBlock suffix _ _ textParamRef _ children =>
    .declared (.suffixed .block suffix) none (textParamRef.bind app.parameterRefOf) ::
      entitiesOfNodes children
  | .paramRefRef r => (app.parameterRefOf r).toList.map (.reference .parameterRefRef)
  | .comObjRefRef r => (app.comObjectRefOf r).toList.map (.reference .comObjectRefRef)
  | .separator suffix _ _ => [.declared (.suffixed .separator suffix) none none]
  | .choose paramRef whens =>
    (app.parameterRefOf paramRef).toList.map (.reference .choose) ++ entitiesOfWhens whens

def entitiesOfNodes : List Dyn → List Entity
  | [] => []
  | child :: children => entitiesOf child ++ entitiesOfNodes children

def entitiesOfWhen : When → List Entity
  | .mk _ children => entitiesOfNodes children

def entitiesOfWhens : List When → List Entity
  | [] => []
  | branch :: whens => entitiesOfWhen branch ++ entitiesOfWhens whens

end

/-- The sections in which ids are declared. -/
def declaringSections : List (List Entity) :=
  [[true, false].flatMap fun wantAbs =>
      (app.segments.zipIdx.filter fun (seg, _) => isAbsolute seg = wantAbs).map segmentEntity,
    app.parameterTypes.flatMap typeEntities,
    app.parameters.map parameterEntity,
    app.parameters.map parameterRefEntity,
    app.comObjects.map comObjectEntity,
    app.comObjects.map comObjectRefEntity,
    app.messages.map messageEntity,
    app.entitiesOfNodes app.dynamic]

def elementIds : List ElementId := app.declaringSections.flatten.filterMap Entity.declared?

/-- What an id under the prefix stands for. -/
def identifiedBy (id : Text) : Option ElementId :=
  app.elementIds.find? fun d => d.id app.appPrefix = id

/-- What is translated, language by language. -/
def translationEntities : List Entity :=
  app.languageOrder.flatMap fun lang =>
    (app.translatedIds lang).filterMap fun id =>
      (app.identifiedBy id).map (.reference .translationElement)

/-- The elements of a program, in the order of the document. -/
def entities : List Entity := app.declaringSections.flatten ++ app.translationEntities

end AppProgram

/-! ## The prefix of a program -/

/-- A group of an application prefix. -/
def IsGroup (length : Nat) (s : Text) : Prop := s.length = length ∧ s.all isAsciiAlphanumeric = true

instance (length : Nat) (s : Text) : Decidable (IsGroup length s) := instDecidableAnd

/-- `M-XXXX_A-NNNN-VV-FFFF`. -/
def IsAppPrefix (s : Text) : Prop :=
  ∃ manufacturer number version fingerprint, IsGroup 4 manufacturer ∧ IsGroup 4 number ∧
    IsGroup 2 version ∧ IsGroup 4 fingerprint ∧
    s = "M-".toList ++ manufacturer ++ "_A-".toList ++
      (number ++ '-' :: version ++ '-' :: fingerprint)

theorem group_underscore {length : Nat} {s : Text} (h : IsGroup length s) : '_' ∉ s :=
  fun hmem => absurd (List.all_eq_true.mp h.2 _ hmem) (by decide)

section
variable {app : AppProgram} (happ : IsAppPrefix app.appPrefix)
include happ

theorem prefix_parts : '_' ∉ app.manufacturer ∧ '_' ∉ app.appTail ∧
    app.appPrefix = app.manufacturer ++ '_' :: 'A' :: '-' :: app.appTail := by
  obtain ⟨m, a, v, f, hm, ha, hv, hf, heq⟩ := happ
  have hstart : '_' ∉ "M-".toList ++ m := by
    rw [List.mem_append]
    exact fun h => h.elim (by decide) (group_underscore hm)
  have htail : '_' ∉ a ++ '-' :: v ++ '-' :: f := by
    simp [group_underscore ha, group_underscore hv, group_underscore hf]
  have hsplit : splitOnce "_A-".toList app.appPrefix =
      some ("M-".toList ++ m, a ++ '-' :: v ++ '-' :: f) := by
    have hskip : splitOnce ('_' :: "A-".toList) _ = _ :=
      splitOnce_skip hstart ("_A-".toList ++ (a ++ '-' :: v ++ '-' :: f))
    rw [heq, List.append_assoc]
    refine hskip.trans ?_
    rw [show ('_' :: "A-".toList) = "_A-".toList from rfl, splitOnce_prefix]
    simp
  have hmanufacturer : app.manufacturer = "M-".toList ++ m := by
    unfold AppProgram.manufacturer
    rw [hsplit]
  have happTail : app.appTail = a ++ '-' :: v ++ '-' :: f := by
    unfold AppProgram.appTail
    rw [hsplit]
  rw [hmanufacturer, happTail]
  refine ⟨hstart, htail, heq.trans ?_⟩
  simp

theorem outside_manufacturer {c : Char} (hc : c ≠ 'A') (rest : Text) :
    (scopeOf app.appPrefix).isPrefixOf (app.manufacturer ++ '_' :: c :: rest) = false := by
  obtain ⟨_, _, heq⟩ := prefix_parts happ
  have hscope : scopeOf app.appPrefix =
      app.manufacturer ++ '_' :: 'A' :: '-' :: (app.appTail ++ ['_']) := by
    unfold scopeOf
    rw [heq]
    simp
  rw [Bool.eq_false_iff, ne_eq, List.isPrefixOf_iff_prefix, hscope, List.prefix_append_right_inj]
  rintro ⟨more, hmore⟩
  exact hc (List.cons.inj (List.cons.inj hmore).2).1.symm

end

theorem outside_short {app : AppProgram} {s : Text} (h : s <+: app.appPrefix) :
    (scopeOf app.appPrefix).isPrefixOf s = false := by
  rw [Bool.eq_false_iff, ne_eq, List.isPrefixOf_iff_prefix]
  exact fun hscope => scopeOf_outside _ (hscope.trans h)

theorem inside_scope (appPrefix rest : Text) :
    (scopeOf appPrefix).isPrefixOf (scopeOf appPrefix ++ rest) = true :=
  List.isPrefixOf_iff_prefix.mpr (List.prefix_append _ _)

theorem inside_id (appPrefix : Text) (d : ElementId) :
    (scopeOf appPrefix).isPrefixOf (d.id appPrefix) = true := inside_scope _ _

/-! ## What is read of lines -/

def identifying (scope : Text) (name : String) (attributes : Attributes) : List (Text × Text) :=
  (attributes.map fun a => (a.1.toList, a.2.written)).filter (identifies scope name.toList)

def identityOf (name : String) : List (Text × Text) → List Element
  | [] => []
  | attr :: attrs => [⟨name.toList, attr :: attrs⟩]

def readIdentities (scope : Text) (lines : List Line) : List Element :=
  identified scope (elementsOf escapeAttr lines)

section
variable {scope : Text} {name : String} {attributes more : Attributes} {lines rest : List Line}

theorem value_read (value : Value) : value.read escapeAttr = value.written := by
  cases value <;> rfl

theorem readIdentities_append : readIdentities scope (lines ++ rest) =
    readIdentities scope lines ++ readIdentities scope rest := by
  unfold readIdentities identified elementsOf
  rw [List.flatMap_append, List.filterMap_append]

theorem identity_element (line : Line) : (identity scope (line.element escapeAttr)).toList =
    identityOf line.name (identifying scope line.name line.attributes) := by
  have hattributes : (line.element escapeAttr).attributes.filter
      (identifies scope (line.element escapeAttr).name) =
        identifying scope line.name line.attributes := by
    unfold identifying Line.element
    simp only [value_read]
  unfold identity
  rw [hattributes]
  cases identifying scope line.name line.attributes <;> rfl

theorem readIdentities_line (line : Line)
    (h : line.elements escapeAttr = [line.element escapeAttr]) : readIdentities scope [line] =
      identityOf line.name (identifying scope line.name line.attributes) := by
  rw [← identity_element]
  unfold readIdentities identified elementsOf
  rw [List.flatMap_singleton, h, List.filterMap_cons, List.filterMap_nil]
  cases identity scope (line.element escapeAttr) <;> rfl

theorem readIdentities_single (indent : Nat) :
    readIdentities scope [.single indent name attributes] =
      identityOf name (identifying scope name attributes) := readIdentities_line _ rfl

theorem readIdentities_node (indent : Nat) :
    readIdentities scope (node indent name attributes lines) =
      identityOf name (identifying scope name attributes) ++ readIdentities scope lines := by
  have hopening : readIdentities scope [.opening indent name attributes] =
      identityOf name (identifying scope name attributes) := readIdentities_line _ rfl
  unfold node
  rw [← List.singleton_append, readIdentities_append, readIdentities_append, hopening]
  exact congrArg _ (List.append_nil _)

theorem readIdentities_flatMap {α : Type} {xs : List α} {f : α → List Line} {g : α → List Element}
    (h : ∀ x ∈ xs, readIdentities scope (f x) = g x) :
    readIdentities scope (xs.flatMap f) = xs.flatMap g := by
  induction xs with
  | nil => rfl
  | cons x xs ih =>
    rw [List.flatMap_cons, List.flatMap_cons, readIdentities_append, h x List.mem_cons_self,
      ih fun y hy => h y (List.mem_cons_of_mem x hy)]

theorem readIdentities_map {α : Type} {xs : List α} {f : α → Line} {g : α → Element}
    (h : ∀ x ∈ xs, readIdentities scope [f x] = [g x]) :
    readIdentities scope (xs.map f) = xs.map g := by
  rw [List.map_eq_flatMap, List.map_eq_flatMap]
  exact readIdentities_flatMap h

theorem identifying_append : identifying scope name (attributes ++ more) =
    identifying scope name attributes ++ identifying scope name more := by
  unfold identifying
  rw [List.map_append, List.filter_append]

theorem identifying_skip {attr : String} {value : Value}
    (h : watched name.toList attr.toList = false) :
    identifying scope name ((attr, value) :: attributes) = identifying scope name attributes := by
  unfold identifying
  rw [List.map_cons, List.filter_cons_of_neg]
  unfold identifies
  rw [h]
  exact Bool.false_ne_true

theorem identifying_outside {attr : String} {value : Value} (hattr : attr ≠ "Number")
    (h : scope.isPrefixOf value.written = false) :
    identifying scope name ((attr, value) :: attributes) = identifying scope name attributes := by
  unfold identifying
  rw [List.map_cons, List.filter_cons_of_neg]
  unfold identifies
  rw [h, Bool.or_false, decide_eq_false (fun hn => hattr (String.toList_inj.mp hn)), Bool.and_false]
  exact Bool.false_ne_true

theorem identifying_inside {attr : String} {value : Value}
    (hattr : watched name.toList attr.toList = true) (h : scope.isPrefixOf value.written = true) :
    identifying scope name ((attr, value) :: attributes) =
      (attr.toList, value.written) :: identifying scope name attributes := by
  unfold identifying
  rw [List.map_cons, List.filter_cons_of_pos]
  unfold identifies
  rw [hattr, h, Bool.or_true]
  rfl

def unwatched (name : String) (names : List String) : Bool :=
  names.all fun n => !watched name.toList n.toList

theorem identifying_unwatched (names : List String)
    (hnames : (attributes.map Prod.fst).Sublist names) (h : unwatched name names = true) :
    identifying scope name attributes = [] := by
  induction attributes with
  | nil => rfl
  | cons a attributes ih =>
    have ha := List.all_eq_true.mp h a.1 (hnames.subset List.mem_cons_self)
    rw [Bool.not_eq_true'] at ha
    rw [identifying_skip ha, ih ((List.sublist_cons_self _ _).trans hnames)]

end

end KnxRs.Author
