import KnxRs.AuthoredNames
import KnxRs.ReferenceParents

set_option autoImplicit false

/-!
# The numbers of an authored program

What renumbering takes the elements of an authored document for: each id has the parent it was
built from, and no two numbers meet.
-/
namespace KnxRs.Author
open Texts XmlDocuments XmlScan Renumber Sanity

/-! ## What identities tell -/

theorem lookup_filter {p : Text × Text → Bool} {attributes : List (Text × Text)}
    (h : (attributes.map Prod.fst).Nodup) (name : Text) :
    (attributes.filter p).lookup name = (attributes.lookup name).filter fun v => p (name, v) := by
  induction attributes with
  | nil => rfl
  | cons attr attrs ih =>
    obtain ⟨hfresh, hrest⟩ := List.nodup_cons.mp h
    have ih := ih hrest
    rw [List.lookup_cons]
    cases hname : name == attr.1 with
    | true =>
      obtain rfl := beq_iff_eq.mp hname
      have hnone : attrs.lookup attr.1 = none := by
        refine List.lookup_eq_none_iff.mpr fun other hother => ?_
        refine bne_iff_ne.mpr fun hsame => hfresh ?_
        exact hsame ▸ List.mem_map_of_mem hother
      cases hp : p attr with
      | true =>
        rw [List.filter_cons_of_pos hp, List.lookup_cons_self]
        exact (Option.filter_some_pos (p := fun v => p (attr.1, v)) hp).symm
      | false =>
        rw [List.filter_cons_of_neg (by rw [hp]; exact Bool.false_ne_true), ih, hnone]
        exact (Option.filter_some_neg (p := fun v => p (attr.1, v)) hp).symm
    | false =>
      cases hp : p attr with
      | true =>
        rw [List.filter_cons_of_pos hp, List.lookup_cons, hname]
        exact ih
      | false =>
        rw [List.filter_cons_of_neg (by rw [hp]; exact Bool.false_ne_true)]
        exact ih

/-- The element with the attributes that identify it. -/
def seen (scope : Text) (e : Element) : Element :=
  ⟨e.name, e.attributes.filter (identifies scope e.name)⟩

section
variable {scope : Text} {e : Element}

theorem identity_cases (scope : Text) (e : Element) :
    identity scope e = some (seen scope e) ∨
      identity scope e = none ∧ (seen scope e).attributes = [] := by
  unfold identity seen
  cases e.attributes.filter (identifies scope e.name) with
  | nil => exact .inr ⟨rfl, rfl⟩
  | cons attr attrs => exact .inl rfl

theorem scopedId_seen (h : (e.attributes.map Prod.fst).Nodup) :
    scopedId scope (seen scope e) = scopedId scope e := by
  have hid (v : Text) : identifies scope e.name ("Id".toList, v) = scope.isPrefixOf v := by
    simp [identifies, watched, isId]
  unfold scopedId seen Element.attr
  dsimp only
  rw [lookup_filter h]
  simp only [hid, Option.filter_filter, Bool.and_self]

theorem number_seen (h : (e.attributes.map Prod.fst).Nodup) (hname : e.name = "ComObject".toList) :
    (seen scope e).attr "Number".toList = e.attr "Number".toList := by
  have hnumber (v : Text) : identifies scope e.name ("Number".toList, v) = true := by
    rw [hname]
    simp [identifies, watched]
  unfold seen Element.attr
  dsimp only
  rw [lookup_filter h]
  simp only [hnumber]
  cases e.attributes.lookup "Number".toList <;> rfl

theorem scopedId_identity (h : (e.attributes.map Prod.fst).Nodup) :
    (identity scope e).bind (scopedId scope) = scopedId scope e := by
  rw [← scopedId_seen h]
  rcases identity_cases scope e with hsome | ⟨hnone, hattributes⟩
  · rw [hsome]
    rfl
  · rw [hnone]
    unfold scopedId Element.attr
    rw [hattributes]
    rfl

theorem scopedIds_identified {els : List Element}
    (h : ∀ e ∈ els, (e.attributes.map Prod.fst).Nodup) :
    scopedIds scope (identified scope els) = scopedIds scope els := by
  unfold scopedIds identified
  rw [List.filterMap_filterMap]
  exact List.filterMap_congr fun e he => scopedId_identity (h e he)

theorem scopedReferences_identified (els : List Element) :
    scopedReferences scope (identified scope els) = scopedReferences scope els := by
  have hseen (e : Element) : scopedValues scope (fun name => !isId name && isReferenceAttr name)
      (seen scope e).attributes =
        scopedValues scope (fun name => !isId name && isReferenceAttr name) e.attributes := by
    unfold scopedValues seen
    rw [List.filter_filter]
    refine congrArg _ (List.filter_congr fun attr _ => ?_)
    cases hscope : scope.isPrefixOf attr.2 with
    | false => rfl
    | true =>
      cases href : isReferenceAttr attr.1 with
      | false => simp only [href, Bool.and_false, Bool.false_and]
      | true =>
        unfold identifies watched
        rw [href, hscope]
        simp only [Bool.or_true, Bool.true_or, Bool.and_true]
  unfold scopedReferences identified
  induction els with
  | nil => rfl
  | cons e els ih =>
    rw [List.flatMap_cons, scopedValues_append, ← ih, ← hseen e]
    rcases identity_cases scope e with hsome | ⟨hnone, hattributes⟩
    · rw [List.filterMap_cons_some hsome, List.flatMap_cons, scopedValues_append]
    · rw [List.filterMap_cons_none hnone, hattributes]
      rfl

end

/-! ## What is read of an element -/

section
variable {appPrefix : Text}

theorem element_scopedId (e : Entity) :
    scopedId (scopeOf appPrefix) (e.element (ElementId.id appPrefix)) =
      e.declared?.map (ElementId.id appPrefix) := by
  cases e with
  | declared d number target =>
    unfold scopedId Element.attr Entity.element
    rw [List.lookup_cons_self]
    exact Option.filter_some_pos (inside_id appPrefix d)
  | reference kind target => cases kind <;> rfl

theorem element_number {d : ElementId} {n : Nat} {target : Option ElementId} :
    ((Entity.declared d (some n) target).element (ElementId.id appPrefix)).attr "Number".toList =
      some (decimal n) := rfl

theorem element_references {e : Entity} {attr : Text × Text}
    (hattr : attr ∈ (e.element (ElementId.id appPrefix)).attributes)
    (h : isId attr.1 = false) (href : isReferenceAttr attr.1 = true) :
    ∃ d ∈ e.targets, attr.2 = d.id appPrefix := by
  cases e with
  | declared d number target =>
    rcases List.mem_cons.mp hattr with rfl | hattr
    · cases h
    · rcases List.mem_append.mp hattr with hattr | hattr
      · obtain ⟨n, _, rfl⟩ := List.mem_map.mp hattr
        have hnumber : isReferenceAttr "Number".toList = false := by decide
        exact absurd href (Bool.eq_false_iff.mp hnumber)
      · obtain ⟨d', hd', rfl⟩ := List.mem_map.mp hattr
        exact ⟨d', hd', rfl⟩
  | reference kind target =>
    obtain rfl := List.mem_singleton.mp hattr
    exact ⟨target, List.mem_singleton_self _, rfl⟩

end

/-! ## The elements of a document -/

/-- The elements of a document in which just those of a program are identified. -/
structure Emitted (app : AppProgram) (els : List Element) : Prop where
  named : app.Named
  attributes : ∀ e ∈ els, (e.attributes.map Prod.fst).Nodup
  entities : identified (scopeOf app.appPrefix) els =
    app.entities.map (Entity.element (ElementId.id app.appPrefix))

namespace Emitted
variable {app : AppProgram} {els : List Element} (emitted : Emitted app els)
include emitted

theorem ids : scopedIds (scopeOf app.appPrefix) els =
    app.elementIds.map (ElementId.id app.appPrefix) := by
  rw [← scopedIds_identified emitted.attributes, emitted.entities, ← entities_declared,
    List.map_filterMap]
  unfold scopedIds
  rw [List.filterMap_map]
  exact List.filterMap_congr fun e _ => element_scopedId e

theorem nodup : (scopedIds (scopeOf app.appPrefix) els).Nodup := by
  rw [emitted.ids]
  exact ids_nodup emitted.named

theorem resolved : ∀ id ∈ scopedReferences (scopeOf app.appPrefix) els,
    id ∈ scopedIds (scopeOf app.appPrefix) els := by
  rw [← scopedReferences_identified, emitted.entities, emitted.ids]
  intro id hid
  obtain ⟨attr, hattr, rfl⟩ := List.mem_map.mp hid
  obtain ⟨hmem, hnamed⟩ := List.mem_filter.mp hattr
  obtain ⟨_, hnamed⟩ := Bool.and_eq_true_iff.mp hnamed
  obtain ⟨hno, href⟩ := Bool.and_eq_true_iff.mp hnamed
  obtain ⟨element, helement, hattr⟩ := List.mem_flatMap.mp hmem
  obtain ⟨e, he, rfl⟩ := List.mem_map.mp helement
  obtain ⟨d, hd, hid⟩ := element_references hattr (Bool.not_eq_true' _ ▸ hno) href
  rw [hid]
  exact List.mem_map_of_mem (targets_declared (entities_cases he) d hd)

/-- An element with an id in the scope is one that the program declares. -/
theorem declared {e : Element} (he : e ∈ els) {id : Text}
    (hid : scopedId (scopeOf app.appPrefix) e = some id) :
    ∃ d number target, .declared d number target ∈ app.entities ∧ id = d.id app.appPrefix ∧
      e.name = d.tag.toList ∧ ∀ n, number = some n → e.name = "ComObject".toList →
        e.attr "Number".toList = some (decimal n) := by
  have hnodup := emitted.attributes e he
  rcases identity_cases (scopeOf app.appPrefix) e with hsome | ⟨hnone, _⟩
  · have hmem : seen (scopeOf app.appPrefix) e ∈ identified (scopeOf app.appPrefix) els :=
      List.mem_filterMap.mpr ⟨e, he, hsome⟩
    rw [emitted.entities] at hmem
    obtain ⟨entity, hentity, hseen⟩ := List.mem_map.mp hmem
    rw [← scopedId_seen hnodup, ← hseen, element_scopedId] at hid
    obtain ⟨d, hd, rfl⟩ := Option.map_eq_some_iff.mp hid
    cases entity with
    | reference kind target => cases hd
    | declared d' number target =>
      cases hd
      refine ⟨d, number, target, hentity, rfl, (congrArg Element.name hseen).symm, ?_⟩
      rintro n rfl hname
      rw [← number_seen hnodup hname, ← hseen]
      exact element_number
  · rw [← scopedId_identity hnodup, hnone] at hid
    cases hid

theorem element {d : ElementId} (hd : d ∈ app.elementIds) :
    ∃ e ∈ els, scopedId (scopeOf app.appPrefix) e = some (d.id app.appPrefix) ∧
      e.name = d.tag.toList := by
  have hmem : d.id app.appPrefix ∈ scopedIds (scopeOf app.appPrefix) els := by
    rw [emitted.ids]
    exact List.mem_map_of_mem hd
  obtain ⟨e, he, hid⟩ := mem_scopedIds.mp hmem
  obtain ⟨d', number, target, hentity, hsame, hname, _⟩ := emitted.declared he hid
  obtain rfl := id_inj emitted.named hd (mem_elementIds.mpr ⟨number, target, hentity⟩) hsame
  exact ⟨e, he, hid, hname⟩

end Emitted

/-! ## What renumbering takes an element for -/

/-- The kind of the numbers that stand for suffixes. -/
def ElementId.parent? : ElementId → Option Kind
  | suffixed .parameter _ => some .userParameter
  | suffixed .comObject _ => some .comObject
  | suffixed .block _ => some .block
  | suffixed .separator _ => some .separator
  | _ => none

section
variable {appPrefix : Text} {e : Element} {d : ElementId}

theorem declares_id (hid : scopedId (scopeOf appPrefix) e = some (d.id appPrefix))
    (hname : e.name = d.tag.toList) :
    declares (scopeOf appPrefix) e = d.parent?.map fun k => (d.id appPrefix, k) := by
  have hkind : kindOf d.tag.toList (d.kind ++ '-' :: d.body ++ d.ending appPrefix) = d.parent? := by
    cases d with
    | suffixed kind s =>
      cases kind <;>
        simp [ElementId.tag, Suffixed.tag, ElementId.kind, Suffixed.kind, ElementId.parent?, kindOf]
    | _ => simp [ElementId.tag, ElementId.parent?, kindOf]
  unfold declares
  rw [hid, hname, Option.bind_some]
  unfold ElementId.id
  rw [List.drop_left, hkind]

theorem kind_underscore (d : ElementId) : '_' ∉ d.kind := by
  cases d with
  | suffixed kind s => cases kind <;> simp [ElementId.kind, Suffixed.kind]
  | _ => simp [ElementId.kind]

/-- An id that renumbering leaves has none of its kinds. -/
theorem untouched_kind (hid : scopedId (scopeOf appPrefix) e = some (d.id appPrefix))
    (hname : e.name = d.tag.toList) (hu : Untouched (scopeOf appPrefix) e) :
    '_' :: d.kind ++ "-".toList ∉ intMarkers := by
  obtain ⟨hparent, href⟩ := hu
  rw [declares_id hid hname, Option.map_eq_none_iff] at hparent
  rw [hname] at href
  cases d with
  | suffixed kind s =>
    cases kind with
    | message | channel => simp [ElementId.kind, Suffixed.kind, intMarkers]
    | _ => cases hparent
  | parameterRef s => exact absurd (.inl rfl) href
  | comObjectRef s n => exact absurd (.inr rfl) href
  | _ => simp [ElementId.kind, intMarkers]

/-- No new id is in the way of an id of another kind. -/
theorem new_kind {els : List Element} {entry : Text × Text}
    (h : entry ∈ fullMap (scopeOf appPrefix) els) :
    ∃ (k : Kind) (rest : Text), entry.2 = scopeOf appPrefix ++ (k.text ++ '-' :: rest) := by
  rcases List.mem_append.mp h with h | h
  · obtain ⟨⟨id, parent, suffix⟩, hr, rfl⟩ := List.mem_map.mp h
    obtain ⟨newer, e, older, rsuffix, _, hreference, _⟩ := mem_references_iff hr
    obtain ⟨k, n, _, hrename⟩ := parentMap_rename (reference_boundary hreference).2.declared
    refine ⟨k, decimal n ++ "_R-".toList ++ suffix, ?_⟩
    show (parentsOf (scopeOf appPrefix) els).map.rename parent ++ "_R-".toList ++ suffix = _
    rw [show (parentsOf (scopeOf appPrefix) els).map.rename parent = _ from hrename, integerId_eq]
    simp only [List.append_assoc, List.cons_append]
  · obtain ⟨⟨id, k, n⟩, _, rfl⟩ := List.mem_map.mp h
    exact ⟨k, decimal n, integerId_eq _ k n⟩

theorem badIntegerSuffix_id (h : '_' :: d.kind ++ "-".toList ∉ intMarkers) :
    badIntegerSuffix (d.id appPrefix) (scopeOf appPrefix) = none := by
  unfold badIntegerSuffix ElementId.id
  rw [List.append_assoc, List.cons_append, splitOnce_prefix]
  show (splitOnce "-".toList _).bind _ = none
  rw [splitOnce_dash d.kind_dash]
  exact if_neg h

end

/-! ## The application id -/

theorem plainScope_appPrefix {s : Text} (h : IsAppPrefix s) : PlainScope s := by
  obtain ⟨m, a, v, f, hm, ha, hv, hf, rfl⟩ := h
  have hstart : '_' ∉ "M-".toList ++ m := by
    rw [List.mem_append]
    exact fun h => h.elim (by decide) (group_underscore hm)
  have htail : '_' ∉ "A-".toList ++ (a ++ '-' :: v ++ '-' :: f) := by
    simp [group_underscore ha, group_underscore hv, group_underscore hf]
  intro marker hmarker
  have hplain := intMarkers_isMarker marker hmarker
  rw [show "M-".toList ++ m ++ "_A-".toList ++ (a ++ '-' :: v ++ '-' :: f) =
    "M-".toList ++ m ++ '_' :: ("A-".toList ++ (a ++ '-' :: v ++ '-' :: f)) by simp,
    badMarker_append hplain, badMarker_plain hplain hstart, Option.none_or, badMarker,
    badMarker_plain hplain htail, if_neg]
  rintro ⟨hstart, _⟩
  have hnone : ∀ marker ∈ intMarkers, marker.take 2 ≠ ['_', 'A'] ∧ 2 ≤ marker.length := by decide
  obtain ⟨rest, hrest⟩ := List.isPrefixOf_iff_prefix.mp hstart
  obtain ⟨hne, hlength⟩ := hnone marker hmarker
  refine hne ?_
  have htwo := congrArg (List.take 2) hrest
  rwa [List.take_append_of_le_length hlength] at htwo

theorem indexed_int {scope : Text} {els : List Element} {id : Text} {k : Kind} {n : Nat}
    (h : (id, k, n) ∈ parents scope els.reverse) (hindexed : k.indexed = true) :
    ((parentsOf scope els).ints.lookup id).isSome = true := by
  refine List.lookup_isSome_iff.mpr ⟨(id, n), ?_, beq_self_eq_true id⟩
  exact List.mem_map.mpr ⟨(id, k, n), List.mem_filter.mpr ⟨h, hindexed⟩, rfl⟩

namespace Emitted
variable {app : AppProgram} {els : List Element} (emitted : Emitted app els)
include emitted

/-- An id with a suffix that takes references. -/
theorem parent {kind : Suffixed} {suffix : Text} {k : Kind}
    (h : .suffixed kind suffix ∈ app.elementIds)
    (hk : (ElementId.suffixed kind suffix).parent? = some k) :
    ∃ e ∈ els, declares (scopeOf app.appPrefix) e =
      some ((ElementId.suffixed kind suffix).id app.appPrefix, k) := by
  obtain ⟨e, he, hid, hname⟩ := emitted.element h
  refine ⟨e, he, ?_⟩
  rw [declares_id hid hname, hk]
  rfl

theorem boundary {kind : Suffixed} {suffix : Text} {k : Kind}
    (h : .suffixed kind suffix ∈ app.elementIds)
    (hk : (ElementId.suffixed kind suffix).parent? = some k) (rsuffix : Text) :
    Boundary (parentsOf (scopeOf app.appPrefix) els).map
      ((ElementId.suffixed kind suffix).id app.appPrefix ++ "_R-".toList ++ rsuffix)
      ((ElementId.suffixed kind suffix).id app.appPrefix) rsuffix := by
  have hplain := elementIds_plain emitted.named _ h
  obtain ⟨e, he, hd⟩ := emitted.parent h hk
  refine ⟨rfl, parentMap_declared.mpr ⟨e, List.mem_reverse.mpr he, k, hd⟩, fun p s hid hp => ?_⟩
  by_contra hlt
  -- A shorter declared id would put an underscore into the suffix.
  obtain ⟨t, ht⟩ := boundary_inside hid.symm (Nat.lt_of_not_le hlt)
  obtain ⟨e', he', k', hd'⟩ := parentMap_declared.mp hp
  obtain ⟨d, _, _, _, rfl, _⟩ := emitted.declared (List.mem_reverse.mp he') (declares_scoped hd').1
  have hinside : (ElementId.suffixed kind suffix).kind ++
      '-' :: (ElementId.suffixed kind suffix).body ++ [] =
        d.kind ++ '-' :: d.body ++ d.ending app.appPrefix ++ ("_R-".toList ++ t) := by
    unfold ElementId.id at ht
    rw [List.append_assoc (scopeOf app.appPrefix ++ _), List.append_assoc (scopeOf _)] at ht
    exact List.append_cancel_left ht
  have hmem : '_' ∈ (ElementId.suffixed kind suffix).kind ++
      '-' :: (ElementId.suffixed kind suffix).body ++ [] := by
    rw [hinside]
    exact List.mem_append_right _ (List.mem_append_left _ (by decide))
  rw [List.append_nil, List.mem_append, List.mem_cons] at hmem
  rcases hmem with hmem | hmem | hmem
  · exact kind_underscore _ hmem
  · exact absurd hmem (by decide)
  · exact hplain hmem

theorem reference_of {kind : Suffixed} {suffix : Text} {k : Kind} {e : Element} {rsuffix : Text}
    (h : .suffixed kind suffix ∈ app.elementIds)
    (hk : (ElementId.suffixed kind suffix).parent? = some k)
    (hname : e.name = "ParameterRef".toList ∨ e.name = "ComObjectRef".toList)
    (hid : scopedId (scopeOf app.appPrefix) e =
      some ((ElementId.suffixed kind suffix).id app.appPrefix ++ "_R-".toList ++ rsuffix)) :
    reference (scopeOf app.appPrefix) (parentsOf (scopeOf app.appPrefix) els).map e =
      some ((ElementId.suffixed kind suffix).id app.appPrefix ++ "_R-".toList ++ rsuffix,
        (ElementId.suffixed kind suffix).id app.appPrefix, rsuffix) := by
  unfold reference
  rw [if_pos hname, hid, Option.bind_some, splitRef_iff.mpr (emitted.boundary h hk rsuffix)]
  rfl

theorem parameterRef {e : Element} (he : e ∈ els) (hname : e.name = "ParameterRef".toList)
    {id : Text} (hid : scopedId (scopeOf app.appPrefix) e = some id) :
    ∃ p ∈ app.parameters, id = (ElementId.parameterRef p.suffix).id app.appPrefix ∧
      reference (scopeOf app.appPrefix) (parentsOf (scopeOf app.appPrefix) els).map e = some
        (id, (ElementId.suffixed .parameter p.suffix).id app.appPrefix, app.paramId p) := by
  obtain ⟨d, number, target, hentity, rfl, htag, _⟩ := emitted.declared he hid
  have hbuilt := declared_built hentity
  rw [hname] at htag
  cases d with
  | parameterRef s =>
    obtain ⟨p, hp, rfl⟩ := hbuilt
    refine ⟨p, hp, rfl, ?_⟩
    rw [← parameterRef_eq, paramId_eq] at hid ⊢
    exact emitted.reference_of (parameter_declared hp).1 rfl (.inl hname) hid
  | suffixed kind s => cases kind <;> simp [ElementId.tag, Suffixed.tag] at htag
  | _ => simp [ElementId.tag] at htag

theorem comObjectRef {e : Element} (he : e ∈ els) (hname : e.name = "ComObjectRef".toList)
    {id : Text} (hid : scopedId (scopeOf app.appPrefix) e = some id) :
    ∃ co ∈ app.comObjects, id = (ElementId.comObjectRef co.suffix co.number).id app.appPrefix ∧
      reference (scopeOf app.appPrefix) (parentsOf (scopeOf app.appPrefix) els).map e = some
        (id, (ElementId.suffixed .comObject co.suffix).id app.appPrefix, decimal co.number) := by
  obtain ⟨d, number, target, hentity, rfl, htag, _⟩ := emitted.declared he hid
  have hbuilt := declared_built hentity
  rw [hname] at htag
  cases d with
  | comObjectRef s n =>
    obtain ⟨co, hco, rfl, rfl⟩ := hbuilt
    refine ⟨co, hco, rfl, ?_⟩
    rw [← comObjectRef_eq, comObjectId_eq] at hid ⊢
    exact emitted.reference_of (comObject_declared hco).1 rfl (.inr hname) hid
  | suffixed kind s => cases kind <;> simp [ElementId.tag, Suffixed.tag] at htag
  | _ => simp [ElementId.tag] at htag

theorem comObject {e : Element} (he : e ∈ els) {id : Text}
    (h : declares (scopeOf app.appPrefix) e = some (id, .comObject)) :
    ∃ co ∈ app.comObjects, id = (ElementId.suffixed .comObject co.suffix).id app.appPrefix ∧
      comObjectNumber e = some co.number := by
  have hid := (declares_scoped h).1
  obtain ⟨d, number, target, hentity, rfl, htag, hnumber⟩ := emitted.declared he hid
  have hbuilt := declared_built hentity
  rw [declares_id hid htag] at h
  obtain ⟨k, hk, hsame⟩ := Option.map_eq_some_iff.mp h
  obtain rfl := (Prod.mk.inj hsame).2
  cases d with
  | suffixed kind s =>
    cases kind with
    | comObject =>
      obtain ⟨co, hco, rfl, hn⟩ := hbuilt
      refine ⟨co, hco, rfl, ?_⟩
      have hbound : co.number < 2 ^ 64 :=
        Nat.lt_trans (emitted.named.numbers co hco) (by decide)
      unfold comObjectNumber
      rw [hnumber co.number hn htag, Option.bind_some, parseU64_decimal hbound]
    | _ => cases hk
  | _ => cases hk

/-- Everything that is declared can be numbered. -/
theorem numberable : Numberable (scopeOf app.appPrefix) els := by
  constructor
  · intro e he id hd
    obtain ⟨co, _, _, hnumber⟩ := emitted.comObject he hd
    rw [hnumber]
    rfl
  · refine validReferences_iff.mpr fun before e after hels href hsome => ?_
    have he : e ∈ els := hels ▸ List.mem_append_right _ List.mem_cons_self
    obtain ⟨id, hid⟩ := Option.isSome_iff_exists.mp hsome
    rcases href with hname | hname
    · obtain ⟨p, hp, _, hr⟩ := emitted.parameterRef he hname hid
      refine ⟨_, _, _, hr, fun _ => ?_, fun hno => absurd hname hno⟩
      obtain ⟨e', he', hd⟩ := emitted.parent (parameter_declared hp).1 rfl
      obtain ⟨n, hparent⟩ := declares_mem he' hd
      exact indexed_int hparent rfl
    · obtain ⟨co, hco, _, hr⟩ := emitted.comObjectRef he hname hid
      refine ⟨_, _, _, hr, fun hp => absurd hp (comObjectRef_name hname), fun _ hnone => ?_⟩
      have hbound : co.number < 2 ^ 64 :=
        Nat.lt_trans (emitted.named.numbers co hco) (by decide)
      rw [parseU64_decimal hbound] at hnone
      cases hnone

theorem comObject_suffix {co co' : ComObject} (hco : co ∈ app.comObjects)
    (hco' : co' ∈ app.comObjects) (h : (ElementId.suffixed .comObject co.suffix).id app.appPrefix =
      (ElementId.suffixed .comObject co'.suffix).id app.appPrefix) : co = co' := by
  have hsame := id_inj emitted.named (comObject_declared hco).1 (comObject_declared hco').1 h
  exact List.inj_on_of_nodup_map (emitted.named.distinct .comObject) hco hco'
    (ElementId.suffixed.inj hsame).2

/-- No two numbers of a program meet. -/
theorem unambiguous : Unambiguous app.appPrefix els := by
  constructor
  case numbers =>
    have hnumber {e : Element} {n : Nat} (he : e ∈ els)
        (h : scopedNumber (scopeOf app.appPrefix) e = some n) : ∃ co ∈ app.comObjects,
          scopedId (scopeOf app.appPrefix) e =
            some ((ElementId.suffixed .comObject co.suffix).id app.appPrefix) ∧ co.number = n := by
      obtain ⟨⟨id, k⟩, hd, hk⟩ := Option.bind_eq_some_iff.mp h
      split_ifs at hk with hobject
      obtain rfl : k = .comObject := hobject
      obtain ⟨co, hco, rfl, hn⟩ := emitted.comObject he hd
      exact ⟨co, hco, (declares_scoped hd).1, Option.some.inj (hn.symm.trans hk)⟩
    refine filterMap_nodup_of emitted.nodup fun x hx y hy n hn hn' => ?_
    obtain ⟨co, hco, hid, hnum⟩ := hnumber hx hn
    obtain ⟨co', hco', hid', hnum'⟩ := hnumber hy hn'
    obtain rfl := List.inj_on_of_nodup_map ((validate_iff app).mp emitted.named.validated) hco hco'
      (hnum.trans hnum'.symm)
    exact ⟨_, hid, hid'⟩
  case kept =>
    refine filterMap_nodup_of emitted.nodup fun x hx y hy entry hentry hentry' => ?_
    obtain ⟨parent, n⟩ := entry
    obtain ⟨hname, id, rsuffix, hr, _⟩ := keptSuffix_iff.mp hentry
    obtain ⟨hname', id', rsuffix', hr', _⟩ := keptSuffix_iff.mp hentry'
    have hid := (reference_boundary (c := parentsOf (scopeOf app.appPrefix) els) hr).1
    have hid' := (reference_boundary (c := parentsOf (scopeOf app.appPrefix) els) hr').1
    obtain ⟨co, hco, rfl, hco_r⟩ := emitted.comObjectRef hx hname hid
    obtain ⟨co', hco', rfl, hco_r'⟩ := emitted.comObjectRef hy hname' hid'
    have hparent := (Prod.mk.inj (Prod.mk.inj (Option.some.inj (hco_r.symm.trans hr))).2).1
    have hparent' := (Prod.mk.inj (Prod.mk.inj (Option.some.inj (hco_r'.symm.trans hr'))).2).1
    obtain rfl := emitted.comObject_suffix hco hco' (hparent.trans hparent'.symm)
    exact ⟨_, hid, hid'⟩
  case apart =>
    intro e past e' past' id id' parent rsuffix rsuffix' h h' hname hname' hr hr'
    obtain ⟨p, hp, _, hpr⟩ := emitted.parameterRef h.mem hname (reference_boundary hr).1
    obtain ⟨co, hco, _, hcor⟩ := emitted.comObjectRef h'.mem hname' (reference_boundary hr').1
    have hparent := (Prod.mk.inj (Prod.mk.inj (Option.some.inj (hpr.symm.trans hr))).2).1
    have hparent' := (Prod.mk.inj (Prod.mk.inj (Option.some.inj (hcor.symm.trans hr'))).2).1
    have hsame := id_inj emitted.named (parameter_declared hp).1 (comObject_declared hco).1
      (hparent.trans hparent'.symm)
    cases hsame
  case others =>
    intro e he hu id hid
    obtain ⟨d, number, target, _, rfl, htag, _⟩ := emitted.declared he hid
    have hkind := untouched_kind hid htag hu
    refine ⟨badIntegerSuffix_id hkind, fun entry hentry hsame => hkind ?_⟩
    obtain ⟨k, rest, hnew⟩ := new_kind hentry
    rw [hnew] at hsame
    unfold ElementId.id at hsame
    rw [List.append_assoc, List.cons_append] at hsame
    have htail := List.append_cancel_left hsame
    rw [← (split_unique (fun h => (k.text_chars _ h).1 rfl) d.kind_dash htail).1]
    exact k.text_marker
  case plain => exact fun _ => plainScope_appPrefix emitted.named.appPrefix

end Emitted

end KnxRs.Author
