import KnxRs.RenumberTwice

set_option autoImplicit false

/-!
# The parents of references

To which parent a reference goes: the boundary in its id is the first one with a declared
id before it, which need not be the id that its RefId names.
-/
namespace KnxRs.Renumber
open Texts XmlDocuments XmlScan

/-! ## Boundaries in ids -/

/-- A boundary before the end of an id is inside of it, as the pattern does not overlap itself. -/
theorem boundary_inside {p q r s : Text} (h : q ++ "_R-".toList ++ r = p ++ "_R-".toList ++ s)
    (hlt : q.length < p.length) : ∃ t, p = q ++ "_R-".toList ++ t := by
  rw [List.append_assoc, List.append_assoc] at h
  have hbegins : q <+: p := List.prefix_of_prefix_length_le (List.prefix_append q _)
    (h ▸ List.prefix_append p _) (Nat.le_of_lt hlt)
  obtain ⟨d, rfl⟩ := hbegins
  rw [List.append_assoc] at h
  have hrest : '_' :: 'R' :: '-' :: r = d ++ '_' :: 'R' :: '-' :: s := List.append_cancel_left h
  match d with
  | [] =>
    rw [List.append_nil] at hlt
    exact absurd hlt (Nat.lt_irrefl _)
  | [_] | [_, _] => simp at hrest
  | c₁ :: c₂ :: c₃ :: t =>
    simp only [List.cons_append, List.cons.injEq] at hrest
    obtain ⟨rfl, rfl, rfl, _⟩ := hrest
    exact ⟨t, by rw [List.append_assoc]; rfl⟩

variable {scope : Text} {els : List Element}

/-- An id that a Parameter, ComObject, ParameterBlock or ParameterSeparator in scope has. -/
def Declared (scope : Text) (els : List Element) (id : Text) : Prop :=
  ∃ e ∈ els, ∃ k, declares scope e = some (id, k)

theorem declared_parentMap {id : Text} :
    (parentsOf scope els).map.declared id ↔ Declared scope els id := by
  refine parentMap_declared.trans ?_
  unfold Declared
  simp only [List.mem_reverse]

/-- The shortest declared id that ends before an `_R-` in the id. -/
structure Inner (scope : Text) (els : List Element) (id inner : Text) : Prop where
  inside : ∃ rest, id = inner ++ "_R-".toList ++ rest
  declared : Declared scope els inner
  shortest : ∀ other rest, id = other ++ "_R-".toList ++ rest → Declared scope els other →
    inner.length ≤ other.length

/-- The parent found in an id is the declared one that it begins with, or an id inside of it. -/
theorem boundary_cases {id parent found suffix rsuffix : Text}
    (hid : id = parent ++ "_R-".toList ++ suffix) (hdeclared : Declared scope els parent)
    (h : Boundary (parentsOf scope els).map id found rsuffix) :
    (found = parent ∧ ∀ inner, ¬Inner scope els parent inner) ∨
      (found ≠ parent ∧ ∀ inner, Inner scope els parent inner ↔ inner = found) := by
  have extend {q rest : Text} (hq : parent = q ++ "_R-".toList ++ rest) :
      id = q ++ "_R-".toList ++ (rest ++ "_R-".toList ++ suffix) := by
    rw [hid, hq]
    simp only [List.append_assoc]
  have least {q rest : Text} (hq : parent = q ++ "_R-".toList ++ rest)
      (hd : Declared scope els q) : found.length ≤ q.length :=
    h.first q _ (extend hq) (declared_parentMap.mpr hd)
  have hle := h.first parent suffix hid (declared_parentMap.mpr hdeclared)
  have hsame : found ++ "_R-".toList ++ rsuffix = parent ++ "_R-".toList ++ suffix :=
    h.parts.symm.trans hid
  rcases Nat.lt_or_eq_of_le hle with hlt | heq
  · have hne : found ≠ parent := fun he => absurd hlt (he ▸ Nat.lt_irrefl _)
    obtain ⟨t, ht⟩ := boundary_inside hsame hlt
    have hinner : Inner scope els parent found :=
      ⟨⟨t, ht⟩, declared_parentMap.mp h.declared, fun q rest hq hd => least hq hd⟩
    refine .inr ⟨hne, fun inner => ⟨fun hother => ?_, fun he => he ▸ hinner⟩⟩
    obtain ⟨rest, hrest⟩ := hother.inside
    have hlength : inner.length = found.length :=
      Nat.le_antisymm (hother.shortest found t ht hinner.declared)
        (hinner.shortest inner rest hrest hother.declared)
    have hparts := hrest.symm.trans ht
    rw [List.append_assoc, List.append_assoc] at hparts
    exact (List.append_inj hparts hlength).1
  · rw [List.append_assoc, List.append_assoc] at hsame
    refine .inl ⟨(List.append_inj hsame heq).1, fun inner hinner => ?_⟩
    obtain ⟨rest, hrest⟩ := hinner.inside
    have hbefore := least hrest hinner.declared
    have hlength := congrArg List.length hrest
    simp only [List.length_append, String.length_toList] at hlength
    have hpattern : "_R-".length = 3 := rfl
    omega

/-! ## Numbers of com objects -/

def isObject (scope id : Text) (e : Element) : Bool := declares scope e = some (id, .comObject)

theorem isObject_iff {id : Text} {e : Element} :
    isObject scope id e = true ↔ declares scope e = some (id, .comObject) :=
  decide_eq_true_iff

/-- The number of the last com object of this id, with the newest element first. -/
def objectNumberIn (scope : Text) (past : List Element) (id : Text) : Option Nat :=
  (past.find? (isObject scope id)).bind comObjectNumber

def objectNumber (scope : Text) (els : List Element) (id : Text) : Option Nat :=
  objectNumberIn scope els.reverse id

def SameNumber (scope : Text) (els : List Element) (id id' : Text) : Prop :=
  ∃ n, objectNumber scope els id = some n ∧ objectNumber scope els id' = some n

theorem declares_comObject {e e' : Element} {id : Text} {k : Kind}
    (h : declares scope e = some (id, k)) (h' : declares scope e' = some (id, .comObject)) :
    k = .comObject := by
  have hkind := (declares_scoped h).2
  obtain ⟨_, hstart⟩ := kindOf_elim (declares_scoped h').2
  obtain ⟨rest, hrest⟩ := List.isPrefixOf_iff_prefix.mp hstart
  rw [← hrest] at hkind
  have helim := kindOf_elim hkind
  cases k with
  | comObject => rfl
  | parameter | userParameter => simp [paramKind] at helim
  | block | separator => simp at helim

theorem rename_object {past : List Element} {id : Text} {n : Nat}
    (h : objectNumberIn scope past id = some n) :
    (parentMap scope past).rename id = integerId scope Kind.comObject.text n := by
  induction past with
  | nil => cases h
  | cons e past ih =>
    unfold objectNumberIn at h
    by_cases hd : declares scope e = some (id, .comObject)
    · rw [List.find?_cons_of_pos (isObject_iff.mpr hd)] at h
      have hnumber : parentNumber scope past .comObject e = n := by
        unfold parentNumber
        rw [if_pos rfl, show comObjectNumber e = some n from h]
        rfl
      unfold parentMap IdMap.rename
      rw [parents_some past hd, List.map_cons, List.lookup_cons_self, hnumber]
      rfl
    · rw [List.find?_cons_of_neg (mt isObject_iff.mp hd)] at h
      have hrest := ih h
      cases hother : declares scope e with
      | none =>
        unfold parentMap at hrest ⊢
        rw [parents_none past hother]
        exact hrest
      | some d =>
        obtain ⟨other, k⟩ := d
        have hne : id ≠ other := by
          rintro rfl
          obtain ⟨e', he', _⟩ := Option.bind_eq_some_iff.mp h
          obtain rfl := declares_comObject hother (isObject_iff.mp (List.find?_some he'))
          exact hd hother
        unfold parentMap IdMap.rename at hrest ⊢
        rw [parents_some past hother, List.map_cons, List.lookup_cons,
          beq_eq_false_iff_ne.mpr hne]
        exact hrest

theorem objectNumber_some (hvalid : ∀ e ∈ els, ValidParent scope e) {id : Text} {n : Nat}
    (h : (id, Kind.comObject, n) ∈ parents scope els.reverse) :
    ∃ m, objectNumber scope els id = some m := by
  obtain ⟨newer, e, older, hels, hd, _⟩ := mem_parents h
  have hmem : e ∈ els.reverse := hels ▸ List.mem_append_right _ List.mem_cons_self
  have hfound : (els.reverse.find? (isObject scope id)).isSome := by
    rw [List.find?_isSome]
    exact ⟨e, hmem, isObject_iff.mpr hd⟩
  obtain ⟨e', he'⟩ := Option.isSome_iff_exists.mp hfound
  obtain ⟨m, hm⟩ := Option.isSome_iff_exists.mp
    (hvalid e' (List.mem_reverse.mp (List.mem_of_find?_eq_some he')) id
      (isObject_iff.mp (List.find?_some he')))
  refine ⟨m, ?_⟩
  unfold objectNumber objectNumberIn
  rw [he']
  exact hm

theorem counted_unique {p q : Text × Kind × Nat} {past : List Element}
    (hp : p ∈ parents scope past) (hq : q ∈ parents scope past) (hcounted : p.2.1 ≠ .comObject)
    (hkind : p.2.1 = q.2.1) (hnumber : p.2.2 = q.2.2) : p = q := by
  have hsymm : Std.Symm fun p q : Text × Kind × Nat =>
      p.2.1 ≠ .comObject → p.2.1.family = q.2.1.family → p.2.2 ≠ q.2.2 := by
    refine ⟨fun p q h hq hfamily hsame => h ?_ hfamily.symm hsame.symm⟩
    intro hp
    rw [hp] at hfamily
    exact hq (Kind.family_comObject hfamily)
  by_contra hne
  exact (parents_counted past).forall hp hq hne hcounted (congrArg Kind.family hkind) hnumber

theorem rename_same_iff (hvalid : ∀ e ∈ els, ValidParent scope e) {id id' : Text}
    (hne : id ≠ id') (h : Declared scope els id) (h' : Declared scope els id') :
    (parentsOf scope els).map.rename id = (parentsOf scope els).map.rename id' ↔
      SameNumber scope els id id' := by
  constructor
  · intro hsame
    obtain ⟨k, n, hp, hnew⟩ := parentMap_rename (declared_parentMap.mpr h)
    obtain ⟨k', n', hp', hnew'⟩ := parentMap_rename (declared_parentMap.mpr h')
    obtain ⟨rfl, rfl⟩ := integerId_inj (hnew.symm.trans (hsame.trans hnew'))
    by_cases hk : k = .comObject
    · subst hk
      obtain ⟨m, hm⟩ := objectNumber_some hvalid hp
      obtain ⟨m', hm'⟩ := objectNumber_some hvalid hp'
      have hnumber := (integerId_inj (hnew.symm.trans (rename_object hm))).2
      have hnumber' := (integerId_inj (hnew'.symm.trans (rename_object hm'))).2
      exact ⟨n, hnumber ▸ hm, hnumber' ▸ hm'⟩
    · exact absurd (congrArg Prod.fst (counted_unique hp hp' hk rfl rfl)) hne
  · rintro ⟨n, hn, hn'⟩
    exact (rename_object hn).trans (rename_object hn').symm

/-! ## New ids of references -/

def IsReference (e : Element) : Prop :=
  e.name = "ParameterRef".toList ∨ e.name = "ComObjectRef".toList

instance (e : Element) : Decidable (IsReference e) := inferInstanceAs (Decidable (_ ∨ _))

def ReferenceId (els : List Element) (id : Text) : Prop :=
  ∃ e ∈ els, IsReference e ∧ e.attr "Id".toList = some id

theorem newSuffix_ne_nil {c : Parents} {past : List Element} {e : Element}
    {parent rsuffix : Text} : newSuffix scope c past e parent rsuffix ≠ [] := by
  unfold newSuffix
  split_ifs
  · exact fun h => decimal_ne_nil _ (List.append_eq_nil_iff.mp h).1
  · split
    · exact decimal_ne_nil _
    · exact decimal_ne_nil _

theorem rename_front {map extra : IdMap} {value : Text} (h : extra.declared value) :
    (extra ++ map).rename value = extra.rename value := by
  unfold IdMap.declared at h
  unfold IdMap.rename
  obtain ⟨new, hnew⟩ := Option.isSome_iff_exists.mp h
  rw [List.lookup_append, hnew]
  rfl

section
variable {e : Element} {id found rsuffix : Text}

theorem newId_found (he : e ∈ els)
    (hr : reference scope (parentsOf scope els).map e = some (id, found, rsuffix)) :
    ∃ digits, newId scope els id =
        (parentsOf scope els).map.rename found ++ "_R-".toList ++ digits ∧
      digits ≠ [] ∧ ∀ c ∈ digits, c.isDigit = true := by
  obtain ⟨newer, older, hels⟩ := List.append_of_mem (List.mem_reverse.mpr he)
  have hentry : (id, found, _) ∈ references scope (parentsOf scope els) els.reverse :=
    hels ▸ references_mem hr
  have hdeclared : (referenceMap scope (parentsOf scope els) els.reverse).declared id :=
    declared_iff.mpr (List.mem_map_of_mem (List.mem_map_of_mem hentry))
  obtain ⟨⟨id', found', digits⟩, hr', hvalue⟩ := List.mem_map.mp (rename_declared hdeclared)
  obtain ⟨rfl, hvalue⟩ := Prod.mk.inj hvalue
  obtain ⟨newer', e', older', rsuffix', _, href', hdigits⟩ := mem_references_iff hr'
  have hboundary := splitRef_iff.mpr (reference_boundary hr).2
  have hboundary' := splitRef_iff.mpr (reference_boundary href').2
  obtain ⟨rfl, _⟩ := Prod.mk.inj (Option.some.inj (hboundary.symm.trans hboundary'))
  refine ⟨digits, (rename_front hdeclared).trans hvalue.symm, ?_, references_isDigit hr'⟩
  rw [show digits = _ from hdigits]
  exact newSuffix_ne_nil

theorem reference_found (hnumbered : Numberable scope els) (he : e ∈ els) (href : IsReference e)
    (hid : e.attr "Id".toList = some id) (hscope : scope <+: id) :
    ∃ found rsuffix, reference scope (parentsOf scope els).map e = some (id, found, rsuffix) := by
  have hscoped : scopedId scope e = some id := by
    unfold scopedId
    rw [hid]
    exact Option.filter_some_pos (List.isPrefixOf_iff_prefix.mpr hscope)
  obtain ⟨newer, older, hels⟩ := List.append_of_mem (List.mem_reverse.mpr he)
  obtain ⟨id', found, rsuffix, hr, _⟩ :=
    valid_at hnumbered hels href (hscoped ▸ rfl)
  have hsame := Option.some.inj (hscoped.symm.trans (reference_boundary hr).1)
  subst hsame
  exact ⟨found, rsuffix, hr⟩

theorem newId_unreferenced (h : ¬ReferenceId els id) :
    newId scope els id = (parentsOf scope els).map.rename id := by
  refine rename_extra fun hkey => h ?_
  obtain ⟨entry, hentry, rfl⟩ := List.mem_map.mp hkey
  obtain ⟨r, hr, rfl⟩ := List.mem_map.mp hentry
  obtain ⟨newer, e, older, rsuffix, hels, href, _⟩ := mem_references_iff hr
  have hmem : e ∈ els := List.mem_reverse.mp (hels ▸ List.mem_append_right _ List.mem_cons_self)
  exact ⟨e, hmem, reference_name href, (Option.filter_eq_some_iff.mp (reference_boundary href).1).1⟩

end

/-! ## References and their parents -/

/-- The id of a reference is its RefId, `_R-` and a suffix, and its RefId is that of a Parameter or
    a ComObject in scope. -/
structure Names (scope : Text) (els : List Element) (e : Element) (parent : Text) : Prop where
  refId : e.attr "RefId".toList = some parent
  id : ∃ suffix, e.attr "Id".toList = some (parent ++ "_R-".toList ++ suffix)
  declared : ∃ d ∈ els, ∃ k, declares scope d = some (parent, k) ∧ k.indexed = true

def namesParent (scope : Text) (els : List Element) (e : Element) : Bool :=
  match e.attr "RefId".toList, e.attr "Id".toList with
  | some parent, some id => (parent ++ "_R-".toList).isPrefixOf id &&
      els.any fun d => (declares scope d).any fun r => r.1 = parent ∧ r.2.indexed = true
  | _, _ => false

theorem namesParent_iff {e : Element} :
    namesParent scope els e = true ↔ ∃ parent, Names scope els e parent := by
  unfold namesParent
  constructor
  · intro h
    split at h
    · next parent id hrefId hid =>
      obtain ⟨hbegins, hany⟩ := Bool.and_eq_true_iff.mp h
      obtain ⟨suffix, hsuffix⟩ := List.isPrefixOf_iff_prefix.mp hbegins
      obtain ⟨d, hd, hdeclares⟩ := List.any_eq_true.mp hany
      obtain ⟨⟨id', k⟩, hk, hentry⟩ := (Option.any_eq_true _ _).mp hdeclares
      obtain ⟨hsame, hindexed⟩ := of_decide_eq_true hentry
      have hsame : id' = parent := hsame
      subst hsame
      exact ⟨id', hrefId, ⟨suffix, hid.trans (congrArg some hsuffix.symm)⟩, d, hd, k, hk, hindexed⟩
    · cases h
  · rintro ⟨parent, names⟩
    obtain ⟨suffix, hid⟩ := names.id
    obtain ⟨d, hd, k, hk, hindexed⟩ := names.declared
    rw [names.refId, hid]
    refine Bool.and_eq_true_iff.mpr ⟨List.isPrefixOf_iff_prefix.mpr ⟨suffix, rfl⟩, ?_⟩
    refine List.any_eq_true.mpr ⟨d, hd, ?_⟩
    rw [hk]
    exact decide_eq_true ⟨rfl, hindexed⟩

instance (e : Element) : Decidable (∃ parent, Names scope els e parent) :=
  decidable_of_iff _ namesParent_iff

/-- The id of a reference is its RefId, `_R-` and decimal digits. -/
def Attached (e : Element) : Prop :=
  ∃ parent digits, e.attr "RefId".toList = some parent ∧
    e.attr "Id".toList = some (parent ++ "_R-".toList ++ digits) ∧
    digits ≠ [] ∧ ∀ c ∈ digits, c.isDigit = true

/-- No declared id is inside the parent's, but for a com object of its number; then no reference
    has the parent's id. -/
def Unhidden (scope : Text) (els : List Element) (parent : Text) : Prop :=
  ∀ inner, Inner scope els parent inner →
    SameNumber scope els inner parent ∧ ¬ReferenceId els parent

/-- A reference is attached to the new id of its parent exactly when the parent found in its id is
    renamed to it. -/
theorem attached_iff_same {e : Element} {id parent found rsuffix : Text}
    (hnumbered : Numberable scope els) (he : e ∈ els)
    (hrefId : e.attr "RefId".toList = some parent) (hdeclared : Declared scope els parent)
    (hid : e.attr "Id".toList = some id)
    (hr : reference scope (parentsOf scope els).map e = some (id, found, rsuffix)) :
    Attached (e.mapValues (newId scope els)) ↔ ¬ReferenceId els parent ∧
      (parentsOf scope els).map.rename found = (parentsOf scope els).map.rename parent := by
  obtain ⟨digits, hnew, hne, hdigits⟩ := newId_found he hr
  obtain ⟨k, n, _, hfound⟩ := parentMap_rename (reference_boundary hr).2.declared
  have hfound : (parentsOf scope els).map.rename found = integerId scope k.text n := hfound
  obtain ⟨k', n', _, hparent⟩ := parentMap_rename (declared_parentMap.mpr hdeclared)
  have hparent : (parentsOf scope els).map.rename parent = integerId scope k'.text n' := hparent
  have hattached : Attached (e.mapValues (newId scope els)) ↔ ∃ digits',
      newId scope els id = newId scope els parent ++ "_R-".toList ++ digits' ∧
        digits' ≠ [] ∧ ∀ c ∈ digits', c.isDigit = true := by
    unfold Attached
    rw [Element.attr_mapValues, Element.attr_mapValues, hrefId, hid]
    constructor
    · rintro ⟨p, digits', hp, heq, hrest⟩
      cases hp
      exact ⟨digits', Option.some.inj heq, hrest⟩
    · rintro ⟨digits', heq, hrest⟩
      exact ⟨_, digits', rfl, congrArg some heq, hrest⟩
  rw [hattached]
  by_cases href : ReferenceId els parent
  · refine ⟨fun ⟨digits', heq, _, hdigits'⟩ => ?_, fun h => absurd href h.1⟩
    obtain ⟨e', he', href', hid'⟩ := href
    have hscope : scope <+: parent := by
      obtain ⟨d, _, k, hd⟩ := hdeclared
      exact List.isPrefixOf_iff_prefix.mp
        (Option.filter_eq_some_iff.mp (declares_scoped hd).1).2
    obtain ⟨found', rsuffix', hr'⟩ := reference_found hnumbered he' href' hid' hscope
    obtain ⟨inner, hinner, _, _⟩ := newId_found he' hr'
    obtain ⟨k'', n'', _, hfound'⟩ := parentMap_rename (reference_boundary hr').2.declared
    have hfound' : (parentsOf scope els).map.rename found' = integerId scope k''.text n'' := hfound'
    rw [hnew, hinner, hfound, hfound', List.append_assoc _ _ digits', List.append_assoc _ inner]
      at heq
    have hsuffix := (integerId_boundary heq).2
    have hmem : '_' ∈ digits := by
      rw [hsuffix]
      exact List.mem_append_right _ (List.mem_append_left _ (by decide))
    exact absurd (hdigits _ hmem) (by decide)
  · rw [newId_unreferenced href]
    constructor
    · rintro ⟨digits', heq, _⟩
      refine ⟨href, ?_⟩
      rw [hnew, hfound, hparent] at heq
      rw [hfound, hparent]
      exact (integerId_boundary heq).1
    · rintro ⟨_, hsame⟩
      exact ⟨digits, hsame ▸ hnew, hne, hdigits⟩

theorem inner_of_boundary {id found rsuffix : Text}
    (h : Boundary (parentsOf scope els).map id found rsuffix) : Inner scope els id found :=
  ⟨⟨rsuffix, h.parts⟩, declared_parentMap.mp h.declared,
    fun other rest hother hd => h.first other rest hother (declared_parentMap.mpr hd)⟩

/-- A reference that names its parent is attached to it exactly when the parent's id is not
    hidden. -/
theorem attached_iff {e : Element} {parent : Text} (hnumbered : Numberable scope els)
    (he : e ∈ els) (href : IsReference e) (names : Names scope els e parent) :
    Attached (e.mapValues (newId scope els)) ↔ Unhidden scope els parent := by
  obtain ⟨suffix, hid⟩ := names.id
  obtain ⟨d, hd, k, hdeclares, _⟩ := names.declared
  have hdeclared : Declared scope els parent := ⟨d, hd, k, hdeclares⟩
  have hscope : scope <+: parent := List.isPrefixOf_iff_prefix.mp
    (Option.filter_eq_some_iff.mp (declares_scoped hdeclares).1).2
  have hscopeId : scope <+: parent ++ "_R-".toList ++ suffix := by
    rw [List.append_assoc]
    exact hscope.trans (List.prefix_append parent _)
  obtain ⟨found, rsuffix, hr⟩ := reference_found hnumbered he href hid hscopeId
  rw [attached_iff_same hnumbered he names.refId hdeclared hid hr]
  rcases boundary_cases rfl hdeclared (reference_boundary hr).2 with
    ⟨rfl, hnone⟩ | ⟨hne, hinner⟩
  · refine ⟨fun _ inner h => absurd h (hnone inner), fun _ => ⟨?_, rfl⟩⟩
    rintro ⟨e', he', href', hid'⟩
    obtain ⟨found', _, hr'⟩ := reference_found hnumbered he' href' hid' hscope
    exact hnone found' (inner_of_boundary (reference_boundary hr').2)
  · rw [rename_same_iff hnumbered.parents hne
      (declared_parentMap.mp (reference_boundary hr).2.declared) hdeclared]
    unfold Unhidden
    constructor
    · rintro ⟨hno, hsame⟩ inner h
      rw [(hinner inner).mp h]
      exact ⟨hsame, hno⟩
    · intro h
      obtain ⟨hsame, hno⟩ := h found ((hinner found).mpr rfl)
      exact ⟨hno, hsame⟩

/-- In a renumbered document whose references name their parents, each is attached to the new id
    of its parent exactly when no parent's id is hidden. -/
theorem references_attached_iff {reader : Reader} (documented : reader.Documented) {doc : Document}
    (scannable : Scannable doc) {appId : Text}
    (happ : findAttribute doc.elements "ApplicationProgram".toList "Id".toList = some appId)
    (named : ∀ e ∈ doc.elements, IsReference e →
      ∃ parent, Names (scopeOf appId) doc.elements e parent)
    {out : Text} (h : renumberIds reader doc.render = .ok out) :
    (∀ e ∈ (reader out).elements, IsReference e → Attached e) ↔
      ∀ e ∈ doc.elements, IsReference e → ∀ parent, e.attr "RefId".toList = some parent →
        Unhidden (scopeOf appId) doc.elements parent := by
  obtain ⟨hnumbered, rfl⟩ := (renumberIds_ok documented scannable happ).mp h
  have helements : (reader (doc.mapValues (newId (scopeOf appId) doc.elements)
      newId_replaces).render).elements =
        doc.elements.map (Element.mapValues (newId (scopeOf appId) doc.elements)) := by
    rw [documented]
    exact Document.elements_mapValues doc newId_replaces
  rw [helements]
  constructor
  · intro hall e he href parent hparent
    obtain ⟨parent', names⟩ := named e he href
    obtain rfl := Option.some.inj (hparent.symm.trans names.refId)
    exact (attached_iff hnumbered he href names).mp (hall _ (List.mem_map_of_mem he) href)
  · intro hall e' he' href
    obtain ⟨e, he, rfl⟩ := List.mem_map.mp he'
    obtain ⟨parent, names⟩ := named e he href
    exact (attached_iff hnumbered he href names).mpr (hall e he href parent names.refId)

def boundaryInParent : Document where
  tokens := [
    .startTag "ApplicationProgram".toList [("Id".toList, "M-00FA_A-0001-01-0000".toList)],
    parameter "M-00FA_A-0001-01-0000_UP-Level_R-Hi",
    parameterRef "M-00FA_A-0001-01-0000_UP-Level_R-Hi" "1",
    .closing "ApplicationProgram".toList]
  wellFormed := by decide +kernel
  balanced := by decide +kernel

/-- The same, with another parent that is a part of its id. -/
def hiddenParent : Document where
  tokens := [
    .startTag "ApplicationProgram".toList [("Id".toList, "M-00FA_A-0001-01-0000".toList)],
    parameter "M-00FA_A-0001-01-0000_UP-Level",
    parameter "M-00FA_A-0001-01-0000_UP-Level_R-Hi",
    parameterRef "M-00FA_A-0001-01-0000_UP-Level_R-Hi" "1",
    .closing "ApplicationProgram".toList]
  wellFormed := by decide +kernel
  balanced := by decide +kernel

theorem boundaryInParent_attached : ∃ out,
    renumberIds XmlReader.xmlReader boundaryInParent.render = .ok out ∧
    ((∀ e ∈ (XmlReader.xmlReader out).elements, IsReference e → Attached e) ↔
      ∀ e ∈ boundaryInParent.elements, IsReference e → ∀ parent,
        e.attr "RefId".toList = some parent →
        Unhidden (scopeOf "M-00FA_A-0001-01-0000".toList) boundaryInParent.elements parent) := by
  have hok : (renumberIds XmlReader.xmlReader boundaryInParent.render).isOk = true := by
    decide +kernel
  cases h : renumberIds XmlReader.xmlReader boundaryInParent.render with
  | error f =>
    rw [h] at hok
    cases hok
  | ok out =>
    have happ : findAttribute boundaryInParent.elements "ApplicationProgram".toList "Id".toList =
        some "M-00FA_A-0001-01-0000".toList := by decide +kernel
    refine ⟨out, rfl, references_attached_iff XmlReader.xmlReader_documented ?_ happ ?_ h⟩ <;>
      decide +kernel

theorem attached_prefix {e : Element} (h : Attached e) : (e.attr "RefId".toList).any fun parent =>
    (e.attr "Id".toList).any fun id => (parent ++ "_R-".toList).isPrefixOf id := by
  obtain ⟨parent, digits, hrefId, hid, _⟩ := h
  rw [hrefId, hid]
  exact List.isPrefixOf_iff_prefix.mpr ⟨digits, rfl⟩

/-- The reference is given the new id of the other parent. -/
theorem hiddenParent_lost : XmlReader.xmlReader.Documented ∧
    findAttribute hiddenParent.elements "ApplicationProgram".toList "Id".toList =
      some "M-00FA_A-0001-01-0000".toList ∧
    (∀ e ∈ hiddenParent.elements, IsReference e →
      ∃ parent, Names (scopeOf "M-00FA_A-0001-01-0000".toList) hiddenParent.elements e parent) ∧
    ∃ out, renumberIds XmlReader.xmlReader hiddenParent.render = .ok out ∧
      ¬∀ e ∈ (XmlReader.xmlReader out).elements, IsReference e → Attached e := by
  have hok : (renumberIds XmlReader.xmlReader hiddenParent.render).isOk = true := by
    decide +kernel
  have hlost : ((renumberIds XmlReader.xmlReader hiddenParent.render).map fun out =>
      decide (∀ e ∈ (XmlReader.xmlReader out).elements, IsReference e →
        (e.attr "RefId".toList).any fun parent => (e.attr "Id".toList).any fun id =>
          (parent ++ "_R-".toList).isPrefixOf id)) = .ok false := by
    decide +kernel
  refine ⟨XmlReader.xmlReader_documented, by decide +kernel, by decide +kernel, ?_⟩
  cases h : renumberIds XmlReader.xmlReader hiddenParent.render with
  | error f =>
    rw [h] at hok
    cases hok
  | ok out =>
    rw [h] at hlost
    refine ⟨out, rfl, fun hall => ?_⟩
    have hfalse := of_decide_eq_false (Except.ok.inj hlost)
    exact hfalse fun e he href => attached_prefix (hall e he href)

end KnxRs.Renumber
