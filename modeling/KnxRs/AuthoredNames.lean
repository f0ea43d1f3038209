import KnxRs.AuthoredIdentities

set_option autoImplicit false

/-!
# The ids of an authored program

Where the suffixes that the caller gives are distinct, so are all ids under the prefix, and
what is referred to is declared.
-/
namespace KnxRs.Author
open Texts XmlDocuments XmlScan Renumber Sanity

/-! ## Ids that differ -/

theorem padded_value (width n : Nat) : Nat.ofDigitChars 10 (padded width n) 0 = n := by
  have hzeros (k : Nat) : Nat.ofDigitChars 10 (List.replicate k '0') 0 = 0 := by
    induction k with
    | zero => rfl
    | succ k ih => exact ih
  unfold padded
  rw [Nat.ofDigitChars_append, hzeros]
  exact decimal_value n

theorem padded_inj {width n m : Nat} (h : padded width n = padded width m) : n = m := by
  rw [← padded_value width n, h, padded_value]

theorem padded_isDigit {width n : Nat} {c : Char} (h : c ∈ padded width n) : c.isDigit = true := by
  rcases List.mem_append.mp h with h | h
  · rw [List.eq_of_mem_replicate h]
    rfl
  · exact decimal_isDigit h

theorem Suffixed.kind_inj {kind kind' : Suffixed} (h : kind.kind = kind'.kind) : kind = kind' := by
  cases kind <;> cases kind' <;> first | rfl | exact absurd h (by decide)

namespace ElementId

/-- Nothing that parts an id stands in the suffix. -/
def Plain (d : ElementId) : Prop := '_' ∉ d.body

theorem kind_dash (d : ElementId) : '-' ∉ d.kind := by
  cases d with
  | suffixed kind suffix => cases kind <;> simp [kind, Suffixed.kind]
  | _ => simp [kind]

theorem ending_start (appPrefix : Text) (d : ElementId) :
    d.ending appPrefix = [] ∨ ∃ rest, d.ending appPrefix = '_' :: rest := by
  cases d with
  | enumeration | parameterRef | comObjectRef => exact .inr ⟨_, rfl⟩
  | _ => exact .inl rfl

variable {appPrefix : Text} {d d' : ElementId}

theorem id_parts (hd : d.Plain) (hd' : d'.Plain) (h : d.id appPrefix = d'.id appPrefix) :
    d.kind = d'.kind ∧ d.body = d'.body ∧ d.ending appPrefix = d'.ending appPrefix := by
  have htail := List.append_cancel_left h
  rw [List.append_assoc, List.cons_append, List.append_assoc, List.cons_append] at htail
  obtain ⟨hkind, hrest⟩ := split_unique d.kind_dash d'.kind_dash htail
  exact ⟨hkind, part_unique hd hd' (d.ending_start appPrefix) (d'.ending_start appPrefix) hrest⟩

theorem relative_inj {n i m j : Nat}
    (h : padded 2 n ++ '-' :: padded 5 i = padded 2 m ++ '-' :: padded 5 j) : n = m ∧ i = j := by
  have hdash (k : Nat) : '-' ∉ padded 2 k := fun hmem => absurd (padded_isDigit hmem) (by decide)
  obtain ⟨hn, hi⟩ := split_unique (hdash n) (hdash m) h
  exact ⟨padded_inj hn, padded_inj hi⟩

theorem id_injective (hd : d.Plain) (hd' : d'.Plain) (h : d.id appPrefix = d'.id appPrefix) :
    d = d' := by
  obtain ⟨hkind, hbody, hending⟩ := id_parts hd hd' h
  cases d with
  | absoluteSegment i =>
    cases d' with
    | absoluteSegment j => rw [decimal_inj hbody]
    | suffixed kind s => cases kind <;> simp [kind, Suffixed.kind] at hkind
    | _ => simp [kind] at hkind
  | relativeSegment n i =>
    cases d' with
    | relativeSegment m j =>
      obtain ⟨rfl, rfl⟩ := relative_inj hbody
      rfl
    | suffixed kind s => cases kind <;> simp [kind, Suffixed.kind] at hkind
    | _ => simp [kind] at hkind
  | parameterType name =>
    cases d' with
    | parameterType name' => rw [encodeIdComponent_injective hbody]
    | enumeration name' i => cases hending
    | suffixed kind s => cases kind <;> simp [kind, Suffixed.kind] at hkind
    | _ => simp [kind] at hkind
  | enumeration name i =>
    cases d' with
    | enumeration name' j =>
      rw [encodeIdComponent_injective hbody, decimal_inj (List.append_cancel_left hending)]
    | parameterType name' => cases hending
    | suffixed kind s => cases kind <;> simp [kind, Suffixed.kind] at hkind
    | _ => simp [kind] at hkind
  | suffixed kind s =>
    cases d' with
    | suffixed kind' s' =>
      obtain rfl : s = s' := hbody
      rw [Suffixed.kind_inj hkind]
    | parameterRef s' | comObjectRef s' n => cases hending
    | _ => cases kind <;> simp [kind, Suffixed.kind] at hkind
  | parameterRef s =>
    cases d' with
    | parameterRef s' => exact congrArg parameterRef hbody
    | suffixed kind s' => cases hending
    | _ => simp [kind] at hkind
  | comObjectRef s n =>
    cases d' with
    | comObjectRef s' m =>
      rw [show s = s' from hbody, decimal_inj (List.append_cancel_left hending)]
    | suffixed kind s' => cases hending
    | _ => simp [kind] at hkind

end ElementId

/-! ## Suffixes -/

/-- ASCII letters, digits, dashes and dots. -/
def isSuffix (s : Text) : Bool := s.all fun c => isAsciiAlphanumeric c || c = '-' || c = '.'

theorem suffix_underscore {s : Text} (h : isSuffix s = true) : '_' ∉ s :=
  fun hmem => absurd (List.all_eq_true.mp h _ hmem) (by decide)

theorem alphanumeric_plain {c : Char} (h : isAsciiAlphanumeric c = true) :
    isPlainChar c = true := by
  have hname : isNameChar c = true := by
    unfold isNameChar
    rw [show c.isAlphanum = true from h]
    rfl
  exact XmlScan.nameChar_induction (P := fun c => isPlainChar c = true) (by decide +kernel) hname

theorem suffix_plain {s : Text} (h : isSuffix s = true) : plainText s = true := by
  refine List.all_eq_true.mpr fun c hc => ?_
  have hc := List.all_eq_true.mp h c hc
  rw [Bool.or_eq_true, Bool.or_eq_true] at hc
  rcases hc with (hc | hc) | hc
  · exact alphanumeric_plain hc
  · rw [of_decide_eq_true hc]
    decide
  · rw [of_decide_eq_true hc]
    decide

theorem appPrefix_plain {s : Text} (h : IsAppPrefix s) : plainText s = true := by
  have hgroup {n : Nat} {s : Text} (h : IsGroup n s) : plainText s = true :=
    List.all_eq_true.mpr fun c hc => alphanumeric_plain (List.all_eq_true.mp h.2 c hc)
  obtain ⟨m, a, v, f, hm, ha, hv, hf, rfl⟩ := h
  have hdash (s : Text) : plainText ('-' :: s) = plainText s := rfl
  simp only [plainText_append, hdash, hgroup hm, hgroup ha, hgroup hv, hgroup hf]
  decide

def Entity.suffix? : Entity → Option Text
  | .declared (.suffixed _ s) _ _ => some s
  | _ => none

/-- The suffix of an id of the kind. -/
def Entity.suffixOf (kind : Suffixed) : Entity → Option Text
  | .declared (.suffixed k s) _ _ => if k = kind then some s else none
  | _ => none

/-- The suffixes that the caller gives to the ids of a kind. -/
def AppProgram.suffixes (app : AppProgram) : Suffixed → List Text
  | .parameter => app.parameters.map Parameter.suffix
  | .comObject => app.comObjects.map ComObject.suffix
  | .message => app.messages.map Message.suffix
  | kind => (app.entitiesOfNodes app.dynamic).filterMap (Entity.suffixOf kind)

/-! ## Validation -/

inductive AuthorError where
  | duplicateComObjectNumber (number : Nat)
  deriving DecidableEq

/-- The numbers seen before, and that of one more group object. -/
def seeNumber (seen : List Nat) (co : ComObject) : Except AuthorError (List Nat) :=
  if co.number ∈ seen then .error (.duplicateComObjectNumber co.number)
  else .ok (co.number :: seen)

def AppProgram.validate (app : AppProgram) : Except AuthorError Unit := do
  let _ ← app.comObjects.foldlM seeNumber []
  .ok ()

theorem validate_iff (app : AppProgram) :
    app.validate = .ok () ↔ (app.comObjects.map ComObject.number).Nodup := by
  have hrun (cos : List ComObject) (seen : List Nat) :
      (∃ all, cos.foldlM seeNumber seen = .ok all) ↔
        (cos.map ComObject.number).Nodup ∧ ∀ co ∈ cos, co.number ∉ seen := by
    induction cos generalizing seen with
    | nil => exact ⟨fun _ => ⟨List.nodup_nil, fun _ h => absurd h List.not_mem_nil⟩,
        fun _ => ⟨seen, rfl⟩⟩
    | cons co cos ih =>
      rw [List.foldlM_cons, List.map_cons, List.nodup_cons, List.forall_mem_cons]
      unfold seeNumber
      split_ifs with hseen
      · exact ⟨fun ⟨_, h⟩ => (by cases h), fun h => absurd hseen h.2.1⟩
      · refine (ih (co.number :: seen)).trans ?_
        simp only [List.mem_map, List.mem_cons, not_or, not_exists, not_and]
        constructor
        · rintro ⟨hnodup, hfresh⟩
          exact ⟨⟨fun other hother => (hfresh other hother).1, hnodup⟩, hseen,
            fun other hother => (hfresh other hother).2⟩
        · rintro ⟨⟨hfresh, hnodup⟩, _, hrest⟩
          exact ⟨hnodup, fun other hother => ⟨hfresh other hother, hrest other hother⟩⟩
  have hok : app.validate = .ok () ↔ ∃ all, app.comObjects.foldlM seeNumber [] = .ok all := by
    unfold AppProgram.validate
    cases app.comObjects.foldlM seeNumber [] with
    | error e => exact ⟨fun h => (by cases h), fun ⟨_, h⟩ => (by cases h)⟩
    | ok all => exact ⟨fun _ => ⟨all, rfl⟩, fun _ => rfl⟩
  rw [hok, hrun]
  exact ⟨fun h => h.1, fun h => ⟨h, fun _ _ => List.not_mem_nil⟩⟩

/-! ## Authored programs -/

/-- The names of a program are distinct, and its handles its own. -/
structure AppProgram.Named (app : AppProgram) : Prop where
  appPrefix : IsAppPrefix app.appPrefix
  registered : app.registered = true
  suffixes : ∀ kind, ∀ s ∈ app.suffixes kind, isSuffix s = true
  distinct : ∀ kind, (app.suffixes kind).Nodup
  types : (app.parameterTypes.map ParameterType.name).Nodup
  validated : app.validate = .ok ()
  numbers : ∀ co ∈ app.comObjects, co.number < 2 ^ 32

/-- What a translation may stand for: a handle, or an id that is given as it is. -/
inductive Translates (app : AppProgram) : Text → Prop where
  | parameter (p : Parameter) (h : p ∈ app.parameters) : Translates app (app.paramId p)
  | comObject (co : ComObject) (h : co ∈ app.comObjects) : Translates app (app.comObjectId co)
  | raw (id : Text) (plain : plainText id = true)
    (declared : scopeOf app.appPrefix <+: id →
      id ∈ app.elementIds.map (ElementId.id app.appPrefix)) : Translates app id

structure AppProgram.Authored (app : AppProgram) : Prop extends app.Named where
  translated : ∀ t ∈ app.translations, Translates app t.2.refId

/-! ## What stands in a section -/

/-- An element of the dynamic tree. -/
inductive NodeEntity (app : AppProgram) : Entity → Prop where
  | channel (s : Text) : NodeEntity app (.declared (.suffixed .channel s) none none)
  | block (s : Text) (target : Option ElementId)
    (h : ∀ d ∈ target, ∃ p ∈ app.parameters, d = .parameterRef p.suffix) :
    NodeEntity app (.declared (.suffixed .block s) none target)
  | separator (s : Text) : NodeEntity app (.declared (.suffixed .separator s) none none)
  | parameter (kind : Reference) (p : Parameter) (h : p ∈ app.parameters) :
    NodeEntity app (.reference kind (.parameterRef p.suffix))
  | comObject (kind : Reference) (co : ComObject) (h : co ∈ app.comObjects) :
    NodeEntity app (.reference kind (.comObjectRef co.suffix co.number))

section
variable {app : AppProgram}

theorem parameterRefOf_some {r : Nat} {d : ElementId} (h : app.parameterRefOf r = some d) :
    ∃ p ∈ app.parameters, d = .parameterRef p.suffix := by
  obtain ⟨p, hp, rfl⟩ := Option.map_eq_some_iff.mp h
  exact ⟨p, List.mem_of_getElem? hp, rfl⟩

theorem parameterRef_nodes (kind : Reference) (r : Nat) :
    ∀ e ∈ (app.parameterRefOf r).toList.map (.reference kind), NodeEntity app e := by
  intro e he
  obtain ⟨d, hd, rfl⟩ := List.mem_map.mp he
  obtain ⟨p, hp, rfl⟩ := parameterRefOf_some (Option.mem_toList.mp hd)
  exact .parameter kind p hp

theorem comObjectRef_nodes (kind : Reference) (r : Nat) :
    ∀ e ∈ (app.comObjectRefOf r).toList.map (.reference kind), NodeEntity app e := by
  intro e he
  obtain ⟨d, hd, rfl⟩ := List.mem_map.mp he
  obtain ⟨co, hco, rfl⟩ := Option.map_eq_some_iff.mp (Option.mem_toList.mp hd)
  exact .comObject kind co (List.mem_of_getElem? hco)

mutual

theorem entitiesOf_nodes : (d : Dyn) → ∀ e ∈ app.entitiesOf d, NodeEntity app e
  | .channelIndependentBlock children => by
    unfold AppProgram.entitiesOf
    exact entitiesOfNodes_nodes children
  | .channel suffix _ _ _ children => by
    unfold AppProgram.entitiesOf
    exact List.forall_mem_cons.mpr ⟨.channel suffix, entitiesOfNodes_nodes children⟩
  | .parameterBlock suffix _ _ textParamRef _ children => by
    unfold AppProgram.entitiesOf
    refine List.forall_mem_cons.mpr ⟨.block suffix _ fun d hd => ?_, entitiesOfNodes_nodes children⟩
    obtain ⟨r, _, hr⟩ := Option.bind_eq_some_iff.mp hd
    exact parameterRefOf_some hr
  | .paramRefRef r => by
    unfold AppProgram.entitiesOf
    exact parameterRef_nodes _ r
  | .comObjRefRef r => by
    unfold AppProgram.entitiesOf
    exact comObjectRef_nodes _ r
  | .separator suffix _ _ => by
    unfold AppProgram.entitiesOf
    exact List.forall_mem_singleton.mpr (.separator suffix)
  | .choose paramRef whens => by
    unfold AppProgram.entitiesOf
    exact List.forall_mem_append.mpr ⟨parameterRef_nodes _ paramRef, entitiesOfWhens_nodes whens⟩

theorem entitiesOfNodes_nodes : (children : List Dyn) →
    ∀ e ∈ app.entitiesOfNodes children, NodeEntity app e
  | [] => by
    unfold AppProgram.entitiesOfNodes
    exact List.forall_mem_nil _
  | child :: children => by
    unfold AppProgram.entitiesOfNodes
    exact List.forall_mem_append.mpr ⟨entitiesOf_nodes child, entitiesOfNodes_nodes children⟩

theorem entitiesOfWhen_nodes : (branch : When) → ∀ e ∈ app.entitiesOfWhen branch, NodeEntity app e
  | .mk _ children => by
    unfold AppProgram.entitiesOfWhen
    exact entitiesOfNodes_nodes children

theorem entitiesOfWhens_nodes : (whens : List When) →
    ∀ e ∈ app.entitiesOfWhens whens, NodeEntity app e
  | [] => by
    unfold AppProgram.entitiesOfWhens
    exact List.forall_mem_nil _
  | branch :: whens => by
    unfold AppProgram.entitiesOfWhens
    exact List.forall_mem_append.mpr ⟨entitiesOfWhen_nodes branch, entitiesOfWhens_nodes whens⟩

end

mutual

theorem entitiesOf_suffixes : (d : Dyn) → (app.entitiesOf d).filterMap Entity.suffix? = d.ids
  | .channelIndependentBlock children => by
    unfold AppProgram.entitiesOf Dyn.ids
    exact entitiesOfNodes_suffixes children
  | .channel suffix _ _ _ children => by
    unfold AppProgram.entitiesOf Dyn.ids
    exact congrArg (List.cons suffix) (entitiesOfNodes_suffixes children)
  | .parameterBlock suffix _ _ _ _ children => by
    unfold AppProgram.entitiesOf Dyn.ids
    exact congrArg (List.cons suffix) (entitiesOfNodes_suffixes children)
  | .paramRefRef r => by
    unfold AppProgram.entitiesOf Dyn.ids
    cases app.parameterRefOf r <;> rfl
  | .comObjRefRef r => by
    unfold AppProgram.entitiesOf Dyn.ids
    cases app.comObjectRefOf r <;> rfl
  | .separator _ _ _ => by
    unfold AppProgram.entitiesOf Dyn.ids
    rfl
  | .choose paramRef whens => by
    unfold AppProgram.entitiesOf Dyn.ids
    rw [List.filterMap_append, entitiesOfWhens_suffixes whens]
    cases app.parameterRefOf paramRef <;> rfl

theorem entitiesOfNodes_suffixes : (children : List Dyn) →
    (app.entitiesOfNodes children).filterMap Entity.suffix? = idsOfNodes children
  | [] => by
    unfold AppProgram.entitiesOfNodes idsOfNodes
    rfl
  | child :: children => by
    unfold AppProgram.entitiesOfNodes idsOfNodes
    rw [List.filterMap_append, entitiesOf_suffixes child, entitiesOfNodes_suffixes children]

theorem entitiesOfWhen_suffixes : (branch : When) →
    (app.entitiesOfWhen branch).filterMap Entity.suffix? = branch.ids
  | .mk _ children => by
    unfold AppProgram.entitiesOfWhen When.ids
    exact entitiesOfNodes_suffixes children

theorem entitiesOfWhens_suffixes : (whens : List When) →
    (app.entitiesOfWhens whens).filterMap Entity.suffix? = idsOfWhens whens
  | [] => by
    unfold AppProgram.entitiesOfWhens idsOfWhens
    rfl
  | branch :: whens => by
    unfold AppProgram.entitiesOfWhens idsOfWhens
    rw [List.filterMap_append, entitiesOfWhen_suffixes branch, entitiesOfWhens_suffixes whens]

end

end

/-! ## Distinct ids -/

theorem nodup_sections {α : Type} (place : α → Nat) {ks : List Nat} {xss : List (List α)}
    (hks : ks.Nodup) (h : List.Forall₂ (fun k xs => xs.Nodup ∧ ∀ x ∈ xs, place x = k) ks xss) :
    xss.flatten.Nodup ∧ ∀ x ∈ xss.flatten, place x ∈ ks := by
  induction h with
  | nil => exact ⟨List.nodup_nil, List.forall_mem_nil _⟩
  | @cons k xs ks xss hxs _ ih =>
    obtain ⟨hk, hks⟩ := List.nodup_cons.mp hks
    obtain ⟨hrest, hplace⟩ := ih hks
    rw [List.flatten_cons]
    constructor
    · refine hxs.1.append hrest fun x hx hx' => hk ?_
      exact hxs.2 x hx ▸ hplace x hx'
    · refine List.forall_mem_append.mpr ⟨fun x hx => ?_, fun x hx => ?_⟩
      · rw [hxs.2 x hx]
        exact List.mem_cons_self
      · exact List.mem_cons_of_mem k (hplace x hx)

theorem declared_map {α : Type} {f : α → Entity} {g : α → ElementId}
    (h : ∀ x, (f x).declared? = some (g x)) (xs : List α) :
    (xs.map f).filterMap Entity.declared? = xs.map g := by
  rw [List.filterMap_map, ← List.filterMap_eq_map]
  exact List.filterMap_congr fun x _ => h x

namespace ElementId

/-- The section in which an id is declared. -/
def place : ElementId → Nat
  | absoluteSegment _ | relativeSegment _ _ => 0
  | parameterType _ | enumeration _ _ => 1
  | suffixed .parameter _ => 2
  | parameterRef _ => 3
  | suffixed .comObject _ => 4
  | comObjectRef _ _ => 5
  | suffixed .message _ => 6
  | suffixed .channel _ | suffixed .block _ | suffixed .separator _ => 7

def index : ElementId → Nat
  | absoluteSegment i | relativeSegment _ i | enumeration _ i => i
  | _ => 0

end ElementId

def segmentElementId (seg : Segment × Nat) : ElementId :=
  match seg.1 with
  | .absolute _ _ _ _ _ => .absoluteSegment seg.2
  | .relative _ _ loadStateMachine _ => .relativeSegment loadStateMachine seg.2

theorem segment_declared (seg : Segment × Nat) :
    (AppProgram.segmentEntity seg).declared? = some (segmentElementId seg) := by
  obtain ⟨seg, i⟩ := seg
  cases seg <;> rfl

/-- The ids of the segments, absolute segments first. -/
def AppProgram.segmentElementIds (app : AppProgram) : List ElementId :=
  [true, false].flatMap fun wantAbs =>
    (app.segments.zipIdx.filter fun (seg, _) => AppProgram.isAbsolute seg = wantAbs).map
      segmentElementId

/-- The id of a type and those of its enumeration. -/
def typeElementIds (type : ParameterType) : List ElementId :=
  .parameterType type.name :: AppProgram.enumerationIds type type.kind

theorem type_declared (type : ParameterType) :
    (AppProgram.typeEntities type).filterMap Entity.declared? = typeElementIds type := by
  unfold AppProgram.typeEntities typeElementIds
  rw [List.filterMap_cons]
  refine congrArg (List.cons _) ?_
  exact (declared_map (g := fun d => d) (fun _ => rfl) _).trans (List.map_id' _)

section
variable {app : AppProgram}

theorem segments_nodup : app.segmentElementIds.Nodup := by
  unfold AppProgram.segmentElementIds
  refine List.Nodup.of_map ElementId.index ?_
  have hindex : ElementId.index ∘ segmentElementId = Prod.snd := by
    funext ⟨seg, i⟩
    cases seg <;> rfl
  have hperm := List.filter_append_perm (fun seg : Segment × Nat => AppProgram.isAbsolute seg.1)
    app.segments.zipIdx
  have hsnd : (app.segments.zipIdx.map Prod.snd).Nodup := by
    rw [List.zipIdx_map_snd]
    exact List.nodup_range'
  rw [List.flatMap_cons, List.flatMap_singleton, ← List.map_append, List.map_map, hindex]
  refine (List.Perm.nodup_iff (List.Perm.map Prod.snd ?_)).mpr hsnd
  have hfalse : (app.segments.zipIdx.filter fun (seg, _) => AppProgram.isAbsolute seg = false) =
      app.segments.zipIdx.filter fun seg => !AppProgram.isAbsolute seg.1 :=
    List.filter_congr fun seg _ => by simp
  have htrue : (app.segments.zipIdx.filter fun (seg, _) => AppProgram.isAbsolute seg = true) =
      app.segments.zipIdx.filter fun seg => AppProgram.isAbsolute seg.1 :=
    List.filter_congr fun seg _ => by simp
  rw [hfalse, htrue]
  exact hperm

theorem enumerationIds_index (type : ParameterType) :
    (AppProgram.enumerationIds type type.kind).Nodup ∧
      ∀ d ∈ AppProgram.enumerationIds type type.kind, ∃ i, d = .enumeration type.name i := by
  cases type.kind with
  | text _ | number _ _ _ _ => exact ⟨List.nodup_nil, fun _ h => absurd h List.not_mem_nil⟩
  | enumeration _ values =>
    unfold AppProgram.enumerationIds
    constructor
    · refine List.Nodup.of_map ElementId.index ?_
      rw [List.map_map]
      show (values.zipIdx.map Prod.snd).Nodup
      rw [List.zipIdx_map_snd]
      exact List.nodup_range'
    · intro d hd
      obtain ⟨v, _, rfl⟩ := List.mem_map.mp hd
      exact ⟨v.2, rfl⟩

theorem types_nodup (h : (app.parameterTypes.map ParameterType.name).Nodup) :
    (app.parameterTypes.flatMap typeElementIds).Nodup := by
  have hname (type : ParameterType) (d : ElementId) (hd : d ∈ typeElementIds type) :
      d = .parameterType type.name ∨ ∃ i, d = .enumeration type.name i :=
    (List.mem_cons.mp hd).imp_right ((enumerationIds_index type).2 d)
  refine List.nodup_flatMap.mpr ⟨fun type _ => ?_, ?_⟩
  · refine List.nodup_cons.mpr ⟨fun hmem => ?_, (enumerationIds_index type).1⟩
    obtain ⟨i, hi⟩ := (enumerationIds_index type).2 _ hmem
    cases hi
  · refine (List.pairwise_map.mp h).imp fun {type other} hne d hd hd' => hne ?_
    rcases hname type d hd with rfl | ⟨i, rfl⟩
    · rcases hname other _ hd' with hd' | ⟨j, hd'⟩
      · exact ElementId.parameterType.inj hd'
      · cases hd'
    · rcases hname other _ hd' with hd' | ⟨j, hd'⟩
      · cases hd'
      · exact (ElementId.enumeration.inj hd').1

theorem nodes_nodup {entities : List Entity} (hnodes : ∀ e ∈ entities, NodeEntity app e)
    (h : ∀ kind, (entities.filterMap (Entity.suffixOf kind)).Nodup) :
    (entities.filterMap Entity.declared?).Nodup := by
  induction entities with
  | nil => exact List.nodup_nil
  | cons e entities ih =>
    obtain ⟨hnode, hnodes⟩ := List.forall_mem_cons.mp hnodes
    have hrest : (entities.filterMap Entity.declared?).Nodup :=
      ih hnodes fun kind => (h kind).sublist ((List.sublist_cons_self _ _).filterMap _)
    have hnew (kind : Suffixed) (s : Text)
        (hnodup : (s :: entities.filterMap (Entity.suffixOf kind)).Nodup) :
        (ElementId.suffixed kind s :: entities.filterMap Entity.declared?).Nodup := by
      refine List.nodup_cons.mpr ⟨fun hmem => (List.nodup_cons.mp hnodup).1 ?_, hrest⟩
      obtain ⟨e', he', hd⟩ := List.mem_filterMap.mp hmem
      refine List.mem_filterMap.mpr ⟨e', he', ?_⟩
      cases e' with
      | reference kind target => cases hd
      | declared d number target =>
        cases hd
        exact if_pos rfl
    cases hnode with
    | channel s => exact hnew .channel s (h .channel)
    | block s target htarget => exact hnew .block s (h .block)
    | separator s => exact hnew .separator s (h .separator)
    | parameter kind p hp => exact hrest
    | comObject kind co hco => exact hrest

theorem nodes_place {entities : List Entity} (hnodes : ∀ e ∈ entities, NodeEntity app e) :
    ∀ d ∈ entities.filterMap Entity.declared?, d.place = 7 := by
  intro d hd
  obtain ⟨e, he, hd⟩ := List.mem_filterMap.mp hd
  cases hnodes e he <;> cases hd <;> rfl

theorem suffixed_nodup {α : Type} {xs : List α} {suffix : α → Text} {g : α → ElementId}
    (h : (xs.map suffix).Nodup) (hg : ∀ x, (g x).body = suffix x) : (xs.map g).Nodup := by
  refine List.Nodup.of_map ElementId.body ?_
  rwa [List.map_map, show ElementId.body ∘ g = suffix from funext hg]

theorem nodes_distinct (h : app.Named) (kind : Suffixed) :
    ((app.entitiesOfNodes app.dynamic).filterMap (Entity.suffixOf kind)).Nodup := by
  have hnone (hkind : ∀ e, NodeEntity app e → e.suffixOf kind = none) :
      ((app.entitiesOfNodes app.dynamic).filterMap (Entity.suffixOf kind)).Nodup := by
    rw [List.filterMap_eq_nil_iff.mpr fun e he => hkind e (entitiesOfNodes_nodes _ e he)]
    exact List.nodup_nil
  cases kind with
  | parameter | comObject | message => exact hnone fun e he => by cases he <;> rfl
  | channel => exact h.distinct .channel
  | block => exact h.distinct .block
  | separator => exact h.distinct .separator

/-- The ids that are declared, section by section. -/
theorem elementIds_sections : app.elementIds = List.flatten
    [app.segmentElementIds, app.parameterTypes.flatMap typeElementIds,
      app.parameters.map fun p => .suffixed .parameter p.suffix,
      app.parameters.map fun p => .parameterRef p.suffix,
      app.comObjects.map fun co => .suffixed .comObject co.suffix,
      app.comObjects.map fun co => .comObjectRef co.suffix co.number,
      app.messages.map fun m => .suffixed .message m.suffix,
      (app.entitiesOfNodes app.dynamic).filterMap Entity.declared?] := by
  unfold AppProgram.elementIds AppProgram.declaringSections AppProgram.segmentElementIds
  rw [List.filterMap_flatten]
  simp only [List.map_cons, List.map_nil]
  rw [List.filterMap_flatMap, List.filterMap_flatMap,
    List.flatMap_congr fun wantAbs _ => declared_map segment_declared _,
    List.flatMap_congr fun type _ => type_declared type,
    declared_map (f := AppProgram.parameterEntity) fun _ => rfl,
    declared_map (f := AppProgram.parameterRefEntity) fun _ => rfl,
    declared_map (f := AppProgram.comObjectEntity) fun _ => rfl,
    declared_map (f := AppProgram.comObjectRefEntity) fun _ => rfl,
    declared_map (f := AppProgram.messageEntity) fun _ => rfl]

theorem segments_place (d : ElementId) (hd : d ∈ app.segmentElementIds) : d.place = 0 := by
  obtain ⟨_, _, hd⟩ := List.mem_flatMap.mp hd
  obtain ⟨⟨seg, i⟩, _, rfl⟩ := List.mem_map.mp hd
  cases seg <;> rfl

theorem types_place (d : ElementId) (hd : d ∈ app.parameterTypes.flatMap typeElementIds) :
    d.place = 1 := by
  obtain ⟨type, _, hd⟩ := List.mem_flatMap.mp hd
  rcases List.mem_cons.mp hd with rfl | hd
  · rfl
  · obtain ⟨i, rfl⟩ := (enumerationIds_index type).2 d hd
    rfl

/-- No id is declared twice. -/
theorem elementIds_nodup (h : app.Named) : app.elementIds.Nodup := by
  have hmap {α : Type} {xs : List α} {g : α → ElementId} {k : Nat} (hg : ∀ x, (g x).place = k) :
      ∀ d ∈ xs.map g, d.place = k := by
    intro d hd
    obtain ⟨x, _, rfl⟩ := List.mem_map.mp hd
    exact hg x
  rw [elementIds_sections]
  refine (nodup_sections ElementId.place (show (List.range 8).Nodup by decide) ?_).1
  refine .cons ⟨segments_nodup, segments_place⟩ (.cons ⟨types_nodup h.types, types_place⟩
    (.cons ⟨suffixed_nodup (h.distinct .parameter) fun _ => rfl, hmap fun _ => rfl⟩
    (.cons ⟨suffixed_nodup (h.distinct .parameter) fun _ => rfl, hmap fun _ => rfl⟩
    (.cons ⟨suffixed_nodup (h.distinct .comObject) fun _ => rfl, hmap fun _ => rfl⟩
    (.cons ⟨suffixed_nodup (h.distinct .comObject) fun _ => rfl, hmap fun _ => rfl⟩
    (.cons ⟨suffixed_nodup (h.distinct .message) fun _ => rfl, hmap fun _ => rfl⟩
    (.cons ⟨nodes_nodup (entitiesOfNodes_nodes _) (nodes_distinct h),
      nodes_place (entitiesOfNodes_nodes _)⟩ .nil)))))))

end

/-! ## The elements of a program -/

/-- An element of a program, by what it was built from. -/
inductive ProgramEntity (app : AppProgram) : Entity → Prop where
  | segment (seg : Segment × Nat) :
    ProgramEntity app (.declared (segmentElementId seg) none none)
  | parameterType (name : Text) : ProgramEntity app (.declared (.parameterType name) none none)
  | enumeration (name : Text) (i : Nat) :
    ProgramEntity app (.declared (.enumeration name i) none none)
  | parameter (p : Parameter) (h : p ∈ app.parameters) :
    ProgramEntity app (AppProgram.parameterEntity p)
  | parameterRef (p : Parameter) (h : p ∈ app.parameters) :
    ProgramEntity app (AppProgram.parameterRefEntity p)
  | comObject (co : ComObject) (h : co ∈ app.comObjects) :
    ProgramEntity app (AppProgram.comObjectEntity co)
  | comObjectRef (co : ComObject) (h : co ∈ app.comObjects) :
    ProgramEntity app (AppProgram.comObjectRefEntity co)
  | message (m : Message) (h : m ∈ app.messages) : ProgramEntity app (AppProgram.messageEntity m)
  | node (e : Entity) (he : e ∈ app.entitiesOfNodes app.dynamic) (h : NodeEntity app e) :
    ProgramEntity app e
  | translation (d : ElementId) (h : d ∈ app.elementIds) :
    ProgramEntity app (.reference .translationElement d)

section
variable {app : AppProgram}

theorem segmentEntity_declared (seg : Segment × Nat) :
    AppProgram.segmentEntity seg = .declared (segmentElementId seg) none none := by
  obtain ⟨seg, i⟩ := seg
  cases seg <;> rfl

theorem sections_entities {e : Entity} (h : e ∈ app.declaringSections.flatten) :
    ProgramEntity app e := by
  unfold AppProgram.declaringSections at h
  simp only [List.flatten_cons, List.flatten_nil, List.append_nil, List.mem_append] at h
  rcases h with h | h | h | h | h | h | h | h
  · obtain ⟨_, _, h⟩ := List.mem_flatMap.mp h
    obtain ⟨seg, _, rfl⟩ := List.mem_map.mp h
    rw [segmentEntity_declared]
    exact .segment seg
  · obtain ⟨type, _, h⟩ := List.mem_flatMap.mp h
    rcases List.mem_cons.mp h with rfl | h
    · exact .parameterType type.name
    · obtain ⟨d, hd, rfl⟩ := List.mem_map.mp h
      obtain ⟨i, rfl⟩ := (enumerationIds_index type).2 d hd
      exact .enumeration type.name i
  · obtain ⟨p, hp, rfl⟩ := List.mem_map.mp h
    exact .parameter p hp
  · obtain ⟨p, hp, rfl⟩ := List.mem_map.mp h
    exact .parameterRef p hp
  · obtain ⟨co, hco, rfl⟩ := List.mem_map.mp h
    exact .comObject co hco
  · obtain ⟨co, hco, rfl⟩ := List.mem_map.mp h
    exact .comObjectRef co hco
  · obtain ⟨m, hm, rfl⟩ := List.mem_map.mp h
    exact .message m hm
  · exact .node e h (entitiesOfNodes_nodes _ e h)

theorem entities_cases {e : Entity} (h : e ∈ app.entities) : ProgramEntity app e := by
  rcases List.mem_append.mp h with h | h
  · exact sections_entities h
  · obtain ⟨_, _, h⟩ := List.mem_flatMap.mp h
    obtain ⟨id, _, h⟩ := List.mem_filterMap.mp h
    obtain ⟨d, hd, rfl⟩ := Option.map_eq_some_iff.mp h
    exact .translation d (identifiedBy_some hd).1

theorem translations_undeclared : app.translationEntities.filterMap Entity.declared? = [] := by
  refine List.filterMap_eq_nil_iff.mpr fun e he => ?_
  obtain ⟨_, _, he⟩ := List.mem_flatMap.mp he
  obtain ⟨id, _, he⟩ := List.mem_filterMap.mp he
  obtain ⟨d, _, rfl⟩ := Option.map_eq_some_iff.mp he
  rfl

theorem entities_declared : app.entities.filterMap Entity.declared? = app.elementIds := by
  unfold AppProgram.entities
  rw [List.filterMap_append, translations_undeclared, List.append_nil]
  rfl

theorem mem_elementIds {d : ElementId} :
    d ∈ app.elementIds ↔ ∃ number target, .declared d number target ∈ app.entities := by
  rw [← entities_declared, List.mem_filterMap]
  constructor
  · rintro ⟨e, he, hd⟩
    cases e with
    | declared d' number target =>
      cases hd
      exact ⟨number, target, he⟩
    | reference kind target => cases hd
  · rintro ⟨number, target, he⟩
    exact ⟨_, he, rfl⟩

theorem parameter_declared {p : Parameter} (h : p ∈ app.parameters) :
    .suffixed .parameter p.suffix ∈ app.elementIds ∧ .parameterRef p.suffix ∈ app.elementIds := by
  rw [elementIds_sections]
  simp only [List.flatten_cons, List.mem_append, List.mem_map]
  exact ⟨.inr (.inr (.inl ⟨p, h, rfl⟩)), .inr (.inr (.inr (.inl ⟨p, h, rfl⟩)))⟩

theorem comObject_declared {co : ComObject} (h : co ∈ app.comObjects) :
    .suffixed .comObject co.suffix ∈ app.elementIds ∧
      .comObjectRef co.suffix co.number ∈ app.elementIds := by
  rw [elementIds_sections]
  simp only [List.flatten_cons, List.mem_append, List.mem_map]
  exact ⟨.inr (.inr (.inr (.inr (.inl ⟨co, h, rfl⟩)))),
    .inr (.inr (.inr (.inr (.inr (.inl ⟨co, h, rfl⟩)))))⟩

/-- What is referred to is declared. -/
theorem targets_declared {e : Entity} (h : ProgramEntity app e) :
    ∀ d ∈ e.targets, d ∈ app.elementIds := by
  intro d hd
  cases h with
  | segment seg | parameterType name | enumeration name i | parameter p hp | comObject co hco
  | message m hm => cases hd
  | parameterRef p hp =>
    rw [List.mem_singleton.mp hd]
    exact (parameter_declared hp).1
  | comObjectRef co hco =>
    rw [List.mem_singleton.mp hd]
    exact (comObject_declared hco).1
  | translation d' hd' => rwa [List.mem_singleton.mp hd]
  | node e he hnode =>
    cases hnode with
    | channel s | separator s => cases hd
    | block s target htarget =>
      obtain ⟨p, hp, rfl⟩ := htarget d (Option.mem_toList.mp hd)
      exact (parameter_declared hp).2
    | parameter kind p hp =>
      rw [List.mem_singleton.mp hd]
      exact (parameter_declared hp).2
    | comObject kind co hco =>
      rw [List.mem_singleton.mp hd]
      exact (comObject_declared hco).2

/-- What an id was built from. -/
def BuiltFrom (app : AppProgram) (number : Option Nat) : ElementId → Prop
  | .suffixed .comObject s => ∃ co ∈ app.comObjects, s = co.suffix ∧ number = some co.number
  | .parameterRef s => ∃ p ∈ app.parameters, s = p.suffix
  | .comObjectRef s n => ∃ co ∈ app.comObjects, s = co.suffix ∧ n = co.number
  | _ => True

theorem declared_built {d : ElementId} {number : Option Nat} {target : Option ElementId}
    (h : .declared d number target ∈ app.entities) : BuiltFrom app number d := by
  generalize he : Entity.declared d number target = e at h
  cases entities_cases h with
  | segment seg =>
    cases he
    obtain ⟨seg, i⟩ := seg
    cases seg <;> trivial
  | parameterRef p hp =>
    cases he
    exact ⟨p, hp, rfl⟩
  | comObject co hco | comObjectRef co hco =>
    cases he
    exact ⟨co, hco, rfl, rfl⟩
  | node e _ hnode =>
    cases hnode with
    | parameter | comObject => cases he
    | channel | block | separator =>
      cases he
      trivial
  | translation d' hd' => cases he
  | parameterType | enumeration | parameter | message =>
    cases he
    trivial

/-! ## Plain suffixes -/

theorem digits_underscore {s : Text} (h : ∀ c ∈ s, c.isDigit = true) : '_' ∉ s :=
  fun hmem => absurd (h _ hmem) (by decide)

/-- Every id that is declared has a suffix of its own. -/
theorem declared_plain (h : app.Named) {d : ElementId} {number : Option Nat}
    {target : Option ElementId} (hd : .declared d number target ∈ app.entities) : d.Plain := by
  have hsuffix (kind : Suffixed) {s : Text} (hs : s ∈ app.suffixes kind) : '_' ∉ s :=
    suffix_underscore (h.suffixes kind s hs)
  have hnode {kind : Suffixed} {s : Text} {number : Option Nat} {target : Option ElementId}
      (he : .declared (.suffixed kind s) number target ∈ app.entitiesOfNodes app.dynamic) :
      s ∈ (app.entitiesOfNodes app.dynamic).filterMap (Entity.suffixOf kind) :=
    List.mem_filterMap.mpr ⟨.declared (.suffixed kind s) number target, he, if_pos rfl⟩
  generalize he : Entity.declared d number target = e at hd
  cases entities_cases hd with
  | segment seg =>
    cases he
    obtain ⟨seg, i⟩ := seg
    cases seg with
    | absolute => exact digits_underscore fun _ => decimal_isDigit
    | relative _ _ n _ =>
      show '_' ∉ padded 2 n ++ '-' :: padded 5 i
      rw [List.mem_append, List.mem_cons]
      rintro (hc | hc | hc)
      · exact digits_underscore (fun _ => padded_isDigit) hc
      · exact absurd hc (by decide)
      · exact digits_underscore (fun _ => padded_isDigit) hc
  | parameterType name | enumeration name i =>
    cases he
    exact (encodeIdComponent_separators name).2
  | parameter p hp | parameterRef p hp =>
    cases he
    exact hsuffix .parameter (List.mem_map_of_mem hp)
  | comObject co hco | comObjectRef co hco =>
    cases he
    exact hsuffix .comObject (List.mem_map_of_mem hco)
  | message m hm =>
    cases he
    exact hsuffix .message (List.mem_map_of_mem hm)
  | translation d hd => cases he
  | node e hmem hkind =>
    cases hkind with
    | channel s =>
      cases he
      exact hsuffix .channel (hnode hmem)
    | block s target htarget =>
      cases he
      exact hsuffix .block (hnode hmem)
    | separator s =>
      cases he
      exact hsuffix .separator (hnode hmem)
    | parameter kind p hp | comObject kind co hco => cases he

theorem elementIds_plain (h : app.Named) : ∀ d ∈ app.elementIds, d.Plain := by
  intro d hd
  obtain ⟨number, target, he⟩ := mem_elementIds.mp hd
  exact declared_plain h he

theorem id_inj (h : app.Named) {d d' : ElementId} (hd : d ∈ app.elementIds)
    (hd' : d' ∈ app.elementIds) (hid : d.id app.appPrefix = d'.id app.appPrefix) : d = d' :=
  ElementId.id_injective (elementIds_plain h d hd) (elementIds_plain h d' hd') hid

theorem ids_nodup (h : app.Named) : (app.elementIds.map (ElementId.id app.appPrefix)).Nodup :=
  (elementIds_nodup h).map_on fun _ hd _ hd' => id_inj h hd hd'

end

end KnxRs.Author
