import KnxRs.NumericAttributes

set_option autoImplicit false

/-!
# Events that are serialized alike

Attributes count by the values that the registry reads of them: ids without their fingerprint,
all others as they are.
-/
namespace KnxRs.Hash
open Texts XmlDocuments XmlScan Renumber

/-! ## Attributes -/

/-- The attribute is written with a value of its own type. -/
def ElementInfo.Exact (info : ElementInfo) (name : Text) : Prop :=
  match info.kind with
  | .attrs attributes _ => ∃ a ∈ attributes, a.xmlName = name ∧ a.attrType ≠ .applProgId
  | _ => False

/-- The attribute is written, or the element is sorted by it. -/
def ElementInfo.Reads (info : ElementInfo) (name : Text) : Prop :=
  match info.kind with
  | .attrs attributes sortAttr => (∃ a ∈ attributes, a.xmlName = name) ∨ sortAttr = some name
  | _ => False

instance (info : ElementInfo) (name : Text) : Decidable (info.Exact name) := by
  unfold ElementInfo.Exact
  cases info.kind <;> infer_instance

instance (info : ElementInfo) (name : Text) : Decidable (info.Reads name) := by
  unfold ElementInfo.Reads
  cases info.kind <;> infer_instance

/-- The values of an attribute that the registry does not tell apart. -/
structure ElementInfo.SameValue (info : ElementInfo) (name v v' : Text) : Prop where
  exact : info.Exact name → v' = v
  normalized : info.Reads name → normalizeApplProgId v' = normalizeApplProgId v
  empty : info.Reads name → (v' = [] ↔ v = [])

theorem ElementInfo.SameValue.refl (info : ElementInfo) (name v : Text) :
    info.SameValue name v v := ⟨fun _ => rfl, fun _ => rfl, fun _ => Iff.rfl⟩

theorem ElementInfo.SameValue.unread {info : ElementInfo} {name : Text} (h : ¬ info.Reads name)
    (v v' : Text) : info.SameValue name v v' := by
  refine ⟨fun hexact => absurd ?_ h, fun hreads => absurd hreads h, fun hreads => absurd hreads h⟩
  unfold Exact at hexact
  unfold Reads
  cases hkind : info.kind with
  | attrs attributes sortAttr =>
    rw [hkind] at hexact
    obtain ⟨a, ha, hname, -⟩ := hexact
    exact .inl ⟨a, ha, hname⟩
  | _ =>
    rw [hkind] at hexact
    exact hexact

/-- The attributes are the same, with values that are not told apart. -/
def SameAttributes (lib : Library) (info : ElementInfo) (e e' : Element) : Prop :=
  List.Forall₂ (fun a a' => a'.1 = a.1 ∧
    info.SameValue (localName a.1) (lib.read a.2) (lib.read a'.2)) e.attributes e'.attributes

theorem lookup_same {R : Text → Text → Text → Prop} {map map' : List (Text × Text)}
    (h : List.Forall₂ (fun x x' => x'.1 = x.1 ∧ R x.1 x.2 x'.2) map map') (name : Text) :
    map.lookup name = none ∧ map'.lookup name = none ∨
      ∃ v v', map.lookup name = some v ∧ map'.lookup name = some v' ∧ R name v v' := by
  induction h with
  | nil => exact .inl ⟨rfl, rfl⟩
  | @cons x x' map map' hx _ ih =>
    obtain ⟨hname, hvalue⟩ := hx
    rw [List.lookup_cons, List.lookup_cons, hname]
    cases heq : name == x.1 with
    | false => exact ih
    | true => exact .inr ⟨x.2, x'.2, rfl, rfl, (beq_iff_eq.mp heq) ▸ hvalue⟩

variable {lib : Library}

theorem attrMap_same {info : ElementInfo} {e e' : Element} (h : SameAttributes lib info e e')
    (name : Text) : (attrMap lib e).lookup name = none ∧ (attrMap lib e').lookup name = none ∨
      ∃ v v', (attrMap lib e).lookup name = some v ∧ (attrMap lib e').lookup name = some v' ∧
        info.SameValue name v v' := by
  refine lookup_same (R := info.SameValue) ?_ name
  unfold attrMap
  refine List.rel_reverse (List.forall₂_map_left_iff.mpr (List.forall₂_map_right_iff.mpr ?_))
  exact h.imp fun a a' ha => ⟨congrArg localName ha.1, ha.2⟩

theorem writeAttr_same {info : AttrInfo} {v v' : Text} (typed : info.attrType ≠ .applProgId → v' = v)
    (normalized : normalizeApplProgId v' = normalizeApplProgId v) (empty : v' = [] ↔ v = []) :
    writeAttr lib info (some v') = writeAttr lib info (some v) := by
  by_cases htype : info.attrType = .applProgId
  · unfold writeAttr
    by_cases hv : v = []
    · rw [empty.mpr hv, hv]
    · have hv' : v' ≠ [] := fun h => hv (empty.mp h)
      rw [Option.filter_some, Option.filter_some, if_pos (decide_eq_true hv),
        if_pos (decide_eq_true hv')]
      unfold typedValue
      rw [htype]
      dsimp only [Option.some_or]
      rw [normalized]
  · rw [typed htype]

theorem mapM_same {α β ε : Type} {f g : α → Except ε β} {xs : List α}
    (h : ∀ x ∈ xs, f x = g x) : xs.mapM f = xs.mapM g := by
  induction xs with
  | nil => rfl
  | cons x xs ih =>
    obtain ⟨hx, hxs⟩ := List.forall_mem_cons.mp h
    rw [List.mapM_cons, List.mapM_cons, hx, ih hxs]

theorem serialize_attributes {info : ElementInfo} {e e' : Element}
    (h : SameAttributes lib info e e') :
    serializeRegistryAttrs lib info e' = serializeRegistryAttrs lib info e := by
  have hmap := attrMap_same h
  unfold serializeRegistryAttrs
  cases hkind : info.kind with
  | attrs attributes sortAttr =>
    have hread {name : Text} (hname : (∃ a ∈ attributes, a.xmlName = name) ∨ sortAttr = some name) :
        info.Reads name := by
      unfold ElementInfo.Reads
      rw [hkind]
      exact hname
    have hwritten : ∀ a ∈ attributes, writeAttr lib a ((attrMap lib e').lookup a.xmlName) =
        writeAttr lib a ((attrMap lib e).lookup a.xmlName) := by
      intro a ha
      have hreads : info.Reads a.xmlName := hread (.inl ⟨a, ha, rfl⟩)
      rcases hmap a.xmlName with ⟨hv, hv'⟩ | ⟨v, v', hv, hv', hsame⟩
      · rw [hv, hv']
      · rw [hv, hv']
        refine writeAttr_same (fun htype => hsame.exact ?_) (hsame.normalized hreads)
          (hsame.empty hreads)
        unfold ElementInfo.Exact
        rw [hkind]
        exact ⟨a, ha, rfl, htype⟩
    have hsorted : (sortAttr.bind fun name => (attrMap lib e').lookup name).map
        normalizeApplProgId =
          (sortAttr.bind fun name => (attrMap lib e).lookup name).map normalizeApplProgId := by
      cases sortAttr with
      | none => rfl
      | some name =>
        dsimp only [Option.bind_some]
        rcases hmap name with ⟨hv, hv'⟩ | ⟨v, v', hv, hv', hsame⟩
        · rw [hv, hv']
        · rw [hv, hv', Option.map_some, Option.map_some, hsame.normalized (hread (.inr rfl))]
    dsimp only
    rw [mapM_same hwritten, hsorted]
  | _ => rfl

/-! ## Events -/

/-- The elements have one name and are serialized alike. -/
structure SameElement (lib : Library) (e e' : Element) : Prop where
  name : e'.name = e.name
  serialized : ∀ info, registry (localName e.name) = some info →
    serializeRegistryAttrs lib info e' = serializeRegistryAttrs lib info e

inductive Event.Same (lib : Library) : Event → Event → Prop where
  | start {e e' : Element} (h : SameElement lib e e') : Event.Same lib (.start e) (.start e')
  | empty {e e' : Element} (h : SameElement lib e e') : Event.Same lib (.empty e) (.empty e')
  | same (event : Event) : Event.Same lib event event

/-- The same result, with the same events left. -/
inductive SameRest (lib : Library) {α : Type} :
    Except Failure (α × List Event) → Except Failure (α × List Event) → Prop where
  | ok {a : α} {rest rest' : List Event} (h : List.Forall₂ (Event.Same lib) rest rest') :
    SameRest lib (.ok (a, rest)) (.ok (a, rest'))
  | error (f : Failure) : SameRest lib (.error f) (.error f)

section
variable {α β : Type} {events events' : List Event}

theorem SameRest.of_value {x : Except Failure α} (h : List.Forall₂ (Event.Same lib) events events') :
    SameRest lib (x.map fun a => (a, events)) (x.map fun a => (a, events')) := by
  cases x with
  | error f => exact .error f
  | ok a => exact .ok h

theorem SameRest.map {x x' : Except Failure (α × List Event)} (h : SameRest lib x x')
    (f : α → β) : SameRest lib (x.map fun p => (f p.1, p.2)) (x'.map fun p => (f p.1, p.2)) := by
  cases h with
  | ok h => exact .ok h
  | error f => exact .error f

theorem SameRest.bind {x x' : Except Failure (α × List Event)} (h : SameRest lib x x')
    {f g : α × List Event → Except Failure (β × List Event)}
    (hf : ∀ a rest rest', List.Forall₂ (Event.Same lib) rest rest' →
      SameRest lib (f (a, rest)) (g (a, rest'))) : SameRest lib (x.bind f) (x'.bind g) := by
  cases h with
  | ok h => exact hf _ _ _ h
  | error f => exact .error f

/-! ## Inner text -/

theorem collect_same (kind : ElementKind) (collected : Text)
    (h : List.Forall₂ (Event.Same lib) events events') :
    SameRest lib (collectRemainingText lib kind collected events)
      (collectRemainingText lib kind collected events') := by
  induction h generalizing collected with
  | nil => exact SameRest.of_value .nil
  | @cons event event' rest rest' hevent hrest ih =>
    cases hevent with
    | start h => exact SameRest.of_value hrest
    | empty h => exact SameRest.of_value hrest
    | same =>
      cases event with
      | text raw => exact ih _
      | cdata raw => exact ih _
      | generalRef name => exact ih _
      | failed => exact .error _
      | _ => exact SameRest.of_value hrest

theorem found_same (kind : ElementKind) (depth : Int) (text : Text)
    (h : List.Forall₂ (Event.Same lib) events events') :
    SameRest lib (foundText lib kind depth text events)
      (foundText lib kind depth text events') := by
  unfold foundText
  split_ifs
  · exact SameRest.of_value h
  · exact collect_same kind text h

theorem scan_same (kind : ElementKind) (depth : Int)
    (h : List.Forall₂ (Event.Same lib) events events') :
    SameRest lib (scanForInnerText lib kind depth events)
      (scanForInnerText lib kind depth events') := by
  induction h generalizing depth with
  | nil => exact .ok .nil
  | @cons event event' rest rest' hevent hrest ih =>
    cases hevent with
    | start h => exact ih _
    | empty h => exact ih _
    | same =>
      cases event with
      | failed => exact .error _
      | text raw =>
        rw [scanForInnerText, scanForInnerText]
        split_ifs
        · exact ih _
        · exact found_same kind depth _ hrest
      | cdata raw =>
        rw [scanForInnerText, scanForInnerText]
        split_ifs
        · exact ih _
        · exact found_same kind depth _ hrest
      | generalRef name =>
        rw [scanForInnerText, scanForInnerText]
        split_ifs
        · exact ih _
        · exact found_same kind depth _ hrest
      | _ => exact ih _

/-! ## Elements -/

theorem resultOf_same (parentName : Text) {e e' : Element} (h : SameElement lib e e')
    (stream : Octets) : resultOf lib parentName e' stream = resultOf lib parentName e stream := by
  unfold resultOf
  rw [h.name]
  cases hinfo : registry (localName e.name) with
  | none => rfl
  | some info =>
    dsimp only
    rw [h.serialized info hinfo]

/-- The children are read alike in so many rounds. -/
def ChildrenAlike (lib : Library) (rounds : Nat) : Prop :=
  ∀ parentName children events events', List.Forall₂ (Event.Same lib) events events' →
    SameRest lib (readChildren lib parentName children rounds events)
      (readChildren lib parentName children rounds events')

theorem element_same {rounds : Nat} (ih : ChildrenAlike lib rounds) (parentName : Text)
    {e e' : Element} (he : SameElement lib e e') (isEmpty : Bool)
    (h : List.Forall₂ (Event.Same lib) events events') :
    SameRest lib (processElement lib parentName e isEmpty (rounds + 1) events)
      (processElement lib parentName e' isEmpty (rounds + 1) events') := by
  have hstream : SameRest lib (streamOf lib e isEmpty rounds events)
      (streamOf lib e' isEmpty rounds events') := by
    unfold streamOf
    rw [he.name]
    cases innerKind (localName e.name) with
    | some kind => exact scan_same kind 0 h
    | none =>
      dsimp only
      split_ifs
      · exact .ok h
      · exact (ih _ _ _ _ h).map Children.concat
  rw [processElement_eq, processElement_eq, resultOf_same parentName he]
  cases resultOf lib parentName e [] with
  | error f => exact .error f
  | ok result =>
    refine hstream.bind fun stream rest rest' hrest => ?_
    rw [resultOf_same parentName he]
    exact SameRest.of_value hrest

theorem children_same (rounds : Nat) : ChildrenAlike lib rounds := by
  induction rounds using Nat.strongRecOn with
  | ind rounds ih =>
    intro parentName children events events' h
    cases rounds with
    | zero => exact .error _
    | succ rounds =>
      have later := ih rounds (Nat.lt_succ_self rounds)
      have hprocess {e e' : Element} (he : SameElement lib e e') (isEmpty : Bool)
          {rest rest' : List Event} (hrest : List.Forall₂ (Event.Same lib) rest rest') :
          SameRest lib (processElement lib parentName e isEmpty rounds rest)
            (processElement lib parentName e' isEmpty rounds rest') := by
        cases rounds with
        | zero => exact .error _
        | succ rounds =>
          exact element_same (ih rounds (by omega)) parentName he isEmpty hrest
      cases h with
      | nil => exact .ok .nil
      | @cons event event' rest rest' hevent hrest =>
        cases hevent with
        | start he =>
          exact (hprocess he false hrest).bind fun _ _ _ hrest => later _ _ _ _ hrest
        | empty he =>
          exact (hprocess he true hrest).bind fun _ _ _ hrest => later _ _ _ _ hrest
        | same =>
          cases event with
          | start e =>
            exact (hprocess ⟨rfl, fun _ _ => rfl⟩ false hrest).bind fun _ _ _ hrest =>
              later _ _ _ _ hrest
          | empty e =>
            exact (hprocess ⟨rfl, fun _ _ => rfl⟩ true hrest).bind fun _ _ _ hrest =>
              later _ _ _ _ hrest
          | finish => exact .ok hrest
          | failed => exact .error _
          | _ => exact later _ _ _ _ hrest

/-! ## Documents -/

theorem serialize_same (rounds : Nat) (h : List.Forall₂ (Event.Same lib) events events') :
    serializeFrom lib rounds events' = serializeFrom lib rounds events := by
  have hprograms {rest rest' : List Event} (hrest : List.Forall₂ (Event.Same lib) rest rest') :
      (readChildren lib applicationPrograms ⟨[], 0⟩ rounds rest').map (fun p => p.1.concat) =
        (readChildren lib applicationPrograms ⟨[], 0⟩ rounds rest).map fun p => p.1.concat := by
    have hread := children_same rounds applicationPrograms ⟨[], 0⟩ rest rest' hrest
    generalize readChildren lib applicationPrograms ⟨[], 0⟩ rounds rest = x at hread ⊢
    generalize readChildren lib applicationPrograms ⟨[], 0⟩ rounds rest' = x' at hread ⊢
    cases hread <;> rfl
  induction h with
  | nil => rfl
  | @cons event event' rest rest' hevent hrest ih =>
    cases hevent with
    | start he =>
      rw [serializeFrom, serializeFrom, he.name, ih]
      split_ifs
      · exact hprograms hrest
      · rfl
    | empty he => exact ih
    | same =>
      cases event with
      | start e =>
        rw [serializeFrom, serializeFrom, ih]
        split_ifs
        · exact hprograms hrest
        · rfl
      | failed => rfl
      | _ => exact ih

/-- Texts that are read as the same events are serialized alike. -/
theorem texts_serialized {reader : Text → List Event} {xml xml' : Text}
    (h : List.Forall₂ (Event.Same lib) (reader xml) (reader xml')) :
    serializeAppProgram lib reader xml' = serializeAppProgram lib reader xml := by
  unfold serializeAppProgram
  rw [← h.length_eq, serialize_same _ h]

end

end KnxRs.Hash
