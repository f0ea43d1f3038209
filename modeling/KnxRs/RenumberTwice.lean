import KnxRs.IdRenaming
import KnxRs.XmlReader

set_option autoImplicit false

/-!
# Renumbering twice

The renamed elements declare the renamed parents under the numbers they already have, and
their references carry the suffixes they are given again: the second map leaves every id.
-/
namespace KnxRs.Renumber
open Texts XmlDocuments XmlScan

/-! ## Positions -/

theorem validReferences_iff {scope : Text} {c : Parents} {past els : List Element} :
    ValidReferences scope c past els ↔
      ∀ before e after, els = before ++ e :: after →
        ValidReference scope c (before.reverse ++ past) e := by
  induction els generalizing past with
  | nil => exact ⟨fun _ before e after h => by simp at h, fun _ => trivial⟩
  | cons x els ih =>
    constructor
    · rintro ⟨hx, hels⟩ before e after h
      cases before with
      | nil =>
        obtain ⟨rfl, _⟩ := List.cons.inj h
        exact hx
      | cons y before =>
        obtain ⟨rfl, hrest⟩ := List.cons.inj h
        rw [List.reverse_cons, List.append_assoc]
        exact ih.mp hels before e after hrest
    · intro h
      refine ⟨h [] x els rfl, ih.mpr fun before e after hels => ?_⟩
      have := h (x :: before) e after (congrArg (List.cons x) hels)
      rwa [List.reverse_cons, List.append_assoc] at this

/-! ## The renamed elements -/

variable {scope : Text} {els : List Element} {e : Element} {id parent suffix : Text}

noncomputable def renamed (scope : Text) (els past : List Element) : List Element :=
  past.map (Element.mapValues (newId scope els))

theorem scopedId_renamed (scope : Text) (els : List Element) (e : Element) :
    scopedId scope (e.mapValues (newId scope els)) = (scopedId scope e).map (newId scope els) := by
  unfold scopedId
  rw [Element.attr_mapValues, Option.filter_map]
  refine congrArg (Option.map _) (congrArg (fun p => Option.filter p _) (funext fun id => ?_))
  exact newId_scope id

theorem declared_element (h : (fullMap scope els).declared id) : ∃ e ∈ els,
    scopedId scope e = some id ∧ ((∃ k, declares scope e = some (id, k)) ∨
      ∃ parent rsuffix, reference scope (parentsOf scope els).map e = some (id, parent, rsuffix)) := by
  obtain ⟨entry, hentry, rfl⟩ := List.mem_map.mp (declared_iff.mp h)
  have member {newer older : List Element} {e : Element} (h : els.reverse = newer ++ e :: older) :
      e ∈ els := by
    rw [← List.mem_reverse, h]
    exact List.mem_append_right _ List.mem_cons_self
  rcases List.mem_append.mp hentry with hentry | hentry
  · obtain ⟨r, hr, rfl⟩ := List.mem_map.mp hentry
    obtain ⟨newer, e, older, rsuffix, hels, hreference, _⟩ := mem_references_iff hr
    exact ⟨e, member hels, (reference_boundary hreference).1, .inr ⟨_, _, hreference⟩⟩
  · obtain ⟨p, hp, rfl⟩ := List.mem_map.mp hentry
    obtain ⟨newer, e, older, hels, hd, _⟩ := mem_parents hp
    exact ⟨e, member hels, (declares_scoped hd).1, .inl ⟨_, hd⟩⟩

theorem kindOf_reference {name : Text} (h : name = "ParameterRef".toList ∨ name = "ComObjectRef".toList)
    (suffix : Text) : kindOf name suffix = none := by
  unfold kindOf
  rcases h with rfl | rfl <;> rfl

theorem declares_mem {k : Kind} (he : e ∈ els) (h : declares scope e = some (id, k)) :
    ∃ n, (id, k, n) ∈ parents scope els.reverse := by
  obtain ⟨newer, older, hels⟩ := List.append_of_mem (List.mem_reverse.mpr he)
  rw [hels]
  exact ⟨_, parents_mem h⟩

theorem declares_renamed (hids : (scopedIds scope els).Nodup) (he : e ∈ els) :
    declares scope (e.mapValues (newId scope els)) =
      (declares scope e).map fun d => (newId scope els d.1, d.2) := by
  have hscoped := scopedId_renamed scope els e
  cases hid : scopedId scope e with
  | none =>
    unfold declares
    rw [hscoped, hid]
    rfl
  | some id =>
    cases hd : declares scope e with
    | some d =>
      obtain ⟨id', k⟩ := d
      obtain ⟨hid', hk⟩ := declares_scoped hd
      obtain rfl := Option.some.inj (hid.symm.trans hid')
      obtain ⟨n, hp⟩ := declares_mem he hd
      have hkind := integerId_kindOf hk scope n
      rw [← newId_parent hids hp] at hkind
      unfold declares
      rw [hscoped, hid]
      show (kindOf e.name _).map _ = _
      rw [hkind]
      rfl
    | none =>
      have hk : kindOf e.name (id.drop scope.length) = none := by
        unfold declares at hd
        rw [hid] at hd
        exact Option.map_eq_none_iff.mp hd
      have hkind : kindOf e.name ((newId scope els id).drop scope.length) = none := by
        by_cases hdeclared : (fullMap scope els).declared id
        · obtain ⟨e', he', hid', hrole⟩ := declared_element hdeclared
          have hsame := filterMap_nodup_eq hids he he' hid hid'
          subst hsame
          rcases hrole with ⟨k, hk'⟩ | ⟨_, _, hr⟩
          · rw [hd] at hk'
            cases hk'
          · exact kindOf_reference (reference_name hr) _
        · rw [newId, rename_undeclared hdeclared]
          exact hk
      unfold declares
      rw [hscoped, hid]
      show (kindOf e.name _).map _ = none
      rw [hkind]
      rfl

theorem parseU64_plain {s : Text} {n : Nat} (h : parseU64 s = some n) : '_' ∉ s := by
  unfold parseU64 parseUnsigned at h
  dsimp only at h
  split_ifs at h with hnumeral
  have hdigits {t : Text} (ht : isNumeral t = true) : '_' ∉ t := by
    intro hc
    unfold isNumeral at ht
    have := List.all_eq_true.mp (Bool.and_eq_true_iff.mp ht).2 _ hc
    exact absurd this (by decide)
  split at hnumeral
  · rw [List.mem_cons]
    rintro (h | h)
    · exact absurd h (by decide)
    · exact hdigits hnumeral h
  · exact hdigits hnumeral

theorem comObjectNumber_renamed (hscope : '_' ∈ scope) (h : (comObjectNumber e).isSome = true) :
    comObjectNumber (e.mapValues (newId scope els)) = comObjectNumber e := by
  obtain ⟨n, hn⟩ := Option.isSome_iff_exists.mp h
  obtain ⟨number, hnumber, hparse⟩ := Option.bind_eq_some_iff.mp hn
  unfold comObjectNumber
  rw [Element.attr_mapValues, hnumber]
  show parseU64 (newId scope els number) = parseU64 number
  rw [newId_outside fun hstart => parseU64_plain hparse (hstart.subset hscope)]

theorem declaresFamily_renamed (hids : (scopedIds scope els).Nodup) (k : Kind) (he : e ∈ els) :
    declaresFamily scope k (e.mapValues (newId scope els)) = declaresFamily scope k e := by
  unfold declaresFamily
  rw [declares_renamed hids he]
  cases declares scope e <;> rfl

theorem parentNumber_renamed (hids : (scopedIds scope els).Nodup) (hscope : '_' ∈ scope)
    {past : List Element} (hpast : past ⊆ els) (hvalid : ValidParent scope e) {k : Kind}
    (hd : declares scope e = some (id, k)) :
    parentNumber scope (renamed scope els past) k (e.mapValues (newId scope els)) =
      parentNumber scope past k e := by
  unfold parentNumber renamed
  by_cases hk : k = .comObject
  · subst hk
    rw [if_pos rfl, if_pos rfl, comObjectNumber_renamed hscope (hvalid id hd)]
  · rw [if_neg hk, if_neg hk, List.countP_map]
    refine congrArg (· + 1) (List.countP_congr fun x hx => ?_)
    show declaresFamily scope k (x.mapValues _) = true ↔ _
    rw [declaresFamily_renamed hids k (hpast hx)]

theorem parents_renamed (hids : (scopedIds scope els).Nodup) (hscope : '_' ∈ scope)
    (hvalid : ∀ e ∈ els, ValidParent scope e) {past : List Element} (hpast : past ⊆ els) :
    parents scope (renamed scope els past) =
      (parents scope past).map fun p => (newId scope els p.1, p.2) := by
  induction past with
  | nil => rfl
  | cons e past ih =>
    obtain ⟨he, hpast⟩ := List.cons_subset.mp hpast
    have hdeclares := declares_renamed hids he
    show parents scope (e.mapValues _ :: renamed scope els past) = _
    cases hd : declares scope e with
    | none =>
      rw [hd] at hdeclares
      rw [parents_none _ hdeclares, parents_none _ hd, ih hpast]
    | some d =>
      obtain ⟨id, k⟩ := d
      rw [hd] at hdeclares
      rw [parents_some _ hdeclares, parents_some _ hd, ih hpast,
        parentNumber_renamed hids hscope hpast (hvalid e he) hd]
      rfl

/-! ## The renamed parents -/

theorem newId_parent_inj (hids : (scopedIds scope els).Nodup)
    (hvalid : ∀ e ∈ els, ValidParent scope e) (hnumbers : (els.filterMap (scopedNumber scope)).Nodup)
    {p q : Text} {k k' : Kind} {n n' : Nat} (hp : (p, k, n) ∈ parents scope els.reverse)
    (hq : (q, k', n') ∈ parents scope els.reverse) (h : newId scope els p = newId scope els q) :
    p = q := by
  rw [newId_parent hids hp, newId_parent hids hq] at h
  obtain ⟨hk, hn⟩ := integerId_inj h
  have hreverse : (els.reverse.filterMap (scopedNumber scope)).Nodup := by
    rw [List.filterMap_reverse]
    exact List.nodup_reverse.mpr hnumbers
  have hsame := parents_unique (fun e he => hvalid e (List.mem_reverse.mp he)) hreverse hp hq hk hn
  exact congrArg Prod.fst hsame

theorem renamed_parentMap (hids : (scopedIds scope els).Nodup) (hscope : '_' ∈ scope)
    (hvalid : ∀ e ∈ els, ValidParent scope e) :
    (parentsOf scope (renamed scope els els)).map =
      (parents scope els.reverse).map fun p => (newId scope els p.1, newId scope els p.1) := by
  show parentMap scope (renamed scope els els).reverse = _
  have hreverse : (renamed scope els els).reverse = renamed scope els els.reverse :=
    List.map_reverse.symm
  unfold parentMap
  rw [hreverse, parents_renamed hids hscope hvalid (List.reverse_subset.mpr (List.Subset.refl els)),
    List.map_map]
  refine List.map_congr_left fun p hp => ?_
  obtain ⟨id, k, n⟩ := p
  show (newId scope els id, integerId scope k.text n) = _
  rw [newId_parent hids hp]

theorem renamed_declared (hids : (scopedIds scope els).Nodup) (hscope : '_' ∈ scope)
    (hvalid : ∀ e ∈ els, ValidParent scope e) {value : Text} :
    (parentsOf scope (renamed scope els els)).map.declared value ↔
      ∃ p k n, (p, k, n) ∈ parents scope els.reverse ∧ value = newId scope els p := by
  rw [declared_iff, renamed_parentMap hids hscope hvalid, List.map_map, List.mem_map]
  constructor
  · rintro ⟨⟨p, k, n⟩, hp, rfl⟩
    exact ⟨p, k, n, hp, rfl⟩
  · rintro ⟨p, k, n, hp, rfl⟩
    exact ⟨(p, k, n), hp, rfl⟩

theorem lookup_map_inj {f : Text → Text} {entries : List (Text × Nat)} {key : Text}
    (h : ∀ entry ∈ entries, f entry.1 = f key → entry.1 = key) :
    (entries.map fun entry => (f entry.1, entry.2)).lookup (f key) = entries.lookup key := by
  induction entries with
  | nil => rfl
  | cons entry entries ih =>
    obtain ⟨hentry, hentries⟩ := List.forall_mem_cons.mp h
    have hsame : (f key == f entry.1) = (key == entry.1) := by
      rw [Bool.eq_iff_iff, beq_iff_eq, beq_iff_eq]
      exact ⟨fun he => (hentry he.symm).symm, congrArg f⟩
    rw [List.map_cons, List.lookup_cons, List.lookup_cons, hsame, ih hentries]

theorem renamed_ints (hids : (scopedIds scope els).Nodup) (hscope : '_' ∈ scope)
    (hvalid : ∀ e ∈ els, ValidParent scope e) (hnumbers : (els.filterMap (scopedNumber scope)).Nodup)
    {k : Kind} {n : Nat} (hp : (parent, k, n) ∈ parents scope els.reverse) :
    (parentsOf scope (renamed scope els els)).ints.lookup (newId scope els parent) =
      (parentsOf scope els).ints.lookup parent := by
  have hints : (parentsOf scope (renamed scope els els)).ints =
      (parentsOf scope els).ints.map fun entry => (newId scope els entry.1, entry.2) := by
    show parentInts scope (renamed scope els els).reverse = (parentInts scope els.reverse).map _
    have hreverse : (renamed scope els els).reverse = renamed scope els els.reverse :=
      List.map_reverse.symm
    unfold parentInts
    rw [hreverse, parents_renamed hids hscope hvalid (List.reverse_subset.mpr (List.Subset.refl els)),
      List.filter_map, List.map_map, List.map_map]
    rfl
  rw [hints]
  refine lookup_map_inj fun entry hentry he => ?_
  obtain ⟨⟨q, k', n'⟩, hq, rfl⟩ := List.mem_map.mp hentry
  exact newId_parent_inj hids hvalid hnumbers (List.mem_filter.mp hq).1 hp he

/-! ## The renamed references -/

variable {newer past : List Element} {rsuffix : Text}

/-- The boundary in a new id is the one at which the reference was put together. -/
theorem reference_renamed (hids : (scopedIds scope els).Nodup) (hscope : '_' ∈ scope)
    (hvalid : ∀ e ∈ els, ValidParent scope e) (hels : els.reverse = newer ++ e :: past)
    (hr : reference scope (parentsOf scope els).map e = some (id, parent, rsuffix)) :
    reference scope (parentsOf scope (renamed scope els els)).map (e.mapValues (newId scope els)) =
      some (newId scope els id, newId scope els parent,
        newSuffix scope (parentsOf scope els) past e parent rsuffix) := by
  have hentry : (id, parent, newSuffix scope (parentsOf scope els) past e parent rsuffix) ∈
      references scope (parentsOf scope els) els.reverse := hels ▸ references_mem hr
  obtain ⟨k, n, hp⟩ := references_parent rfl hentry
  have hnew := newId_reference hids hentry
  have hboundary : Boundary (parentsOf scope (renamed scope els els)).map (newId scope els id)
      (newId scope els parent) (newSuffix scope (parentsOf scope els) past e parent rsuffix) := by
    refine ⟨hnew, (renamed_declared hids hscope hvalid).mpr ⟨parent, k, n, hp, rfl⟩, ?_⟩
    intro p s hparts hdeclared
    obtain ⟨q, k', n', hq, rfl⟩ := (renamed_declared hids hscope hvalid).mp hdeclared
    rw [hnew, newId_parent hids hp, newId_parent hids hq] at hparts
    rw [newId_parent hids hp, newId_parent hids hq, (integerId_boundary hparts).1]
  have hscoped := scopedId_renamed scope els e
  rw [(reference_boundary hr).1] at hscoped
  have hname := reference_name hr
  have hname' : (e.mapValues (newId scope els)).name = "ParameterRef".toList ∨
      (e.mapValues (newId scope els)).name = "ComObjectRef".toList := hname
  unfold reference
  rw [if_pos hname', hscoped]
  show (splitRef _ _).map _ = _
  rw [splitRef_iff.mpr hboundary]
  rfl

theorem valid_at (hnumbered : Numberable scope els) (hels : els.reverse = newer ++ e :: past) :
    ValidReference scope (parentsOf scope els) past e := by
  have hsplit : els = past.reverse ++ e :: newer.reverse := by
    rw [← els.reverse_reverse, hels]
    simp
  have := validReferences_iff.mp hnumbered.references _ _ _ hsplit
  rwa [List.reverse_reverse, List.append_nil] at this

theorem reference_renamed_none (hnumbered : Numberable scope els)
    (hels : els.reverse = newer ++ e :: past)
    (hr : reference scope (parentsOf scope els).map e = none) (map : IdMap) :
    reference scope map (e.mapValues (newId scope els)) = none := by
  have hvalid := valid_at hnumbered hels
  have hscoped := scopedId_renamed scope els e
  unfold reference
  split_ifs with hname
  · cases hid : scopedId scope e with
    | none =>
      rw [hscoped, hid]
      rfl
    | some id =>
      obtain ⟨id', parent, rsuffix, hr', _⟩ := hvalid hname (hid ▸ rfl)
      rw [hr] at hr'
      cases hr'
  · rfl

theorem paramRefOf_renamed (hids : (scopedIds scope els).Nodup) (hscope : '_' ∈ scope)
    (hnumbered : Numberable scope els) (hnumbers : (els.filterMap (scopedNumber scope)).Nodup)
    {k : Kind} {n : Nat} (hp : (parent, k, n) ∈ parents scope els.reverse) (he : e ∈ els) :
    paramRefOf scope (parentsOf scope (renamed scope els els)).map (newId scope els parent)
        (e.mapValues (newId scope els)) =
      paramRefOf scope (parentsOf scope els).map parent e := by
  obtain ⟨newer, past, hels⟩ := List.append_of_mem (List.mem_reverse.mpr he)
  unfold paramRefOf
  cases hr : reference scope (parentsOf scope els).map e with
  | none =>
    rw [reference_renamed_none hnumbered hels hr]
    rfl
  | some r =>
    obtain ⟨id, parent', rsuffix⟩ := r
    rw [reference_renamed hids hscope hnumbered.parents hels hr]
    have hentry : (id, parent', _) ∈ references scope (parentsOf scope els) els.reverse :=
      hels ▸ references_mem hr
    obtain ⟨k', n', hq⟩ := references_parent rfl hentry
    have hsame : newId scope els parent' = newId scope els parent ↔ parent' = parent :=
      ⟨newId_parent_inj hids hnumbered.parents hnumbers hq hp, congrArg _⟩
    simp only [Option.any_some, hsame]
    rfl

theorem newSuffix_kept (hnumbered : Numberable scope els) (hels : els.reverse = newer ++ e :: past)
    (hr : reference scope (parentsOf scope els).map e = some (id, parent, rsuffix))
    (hname : e.name ≠ "ParameterRef".toList) :
    ∃ n < 2 ^ 64, newSuffix scope (parentsOf scope els) past e parent rsuffix = decimal n := by
  have hscoped : (scopedId scope e).isSome = true := (reference_boundary hr).1 ▸ rfl
  obtain ⟨id', parent', rsuffix', hr', _, hfree⟩ :=
    valid_at hnumbered hels (reference_name hr) hscoped
  cases hr.symm.trans hr'
  unfold newSuffix
  rw [if_neg hname]
  cases hn : parseU64 rsuffix with
  | some n => exact ⟨n, parseU64_lt hn, rfl⟩
  | none => exact ⟨_, hfree hname hn, rfl⟩

theorem newSuffix_renamed (hids : (scopedIds scope els).Nodup) (hscope : '_' ∈ scope)
    (hnumbered : Numberable scope els) (hnumbers : (els.filterMap (scopedNumber scope)).Nodup)
    (hels : els.reverse = newer ++ e :: past)
    (hr : reference scope (parentsOf scope els).map e = some (id, parent, rsuffix)) :
    newSuffix scope (parentsOf scope (renamed scope els els)) (renamed scope els past)
        (e.mapValues (newId scope els)) (newId scope els parent)
        (newSuffix scope (parentsOf scope els) past e parent rsuffix) =
      newSuffix scope (parentsOf scope els) past e parent rsuffix := by
  have hentry : (id, parent, _) ∈ references scope (parentsOf scope els) els.reverse :=
    hels ▸ references_mem hr
  obtain ⟨k, n, hp⟩ := references_parent rfl hentry
  by_cases hname : e.name = "ParameterRef".toList
  · have hname' : (e.mapValues (newId scope els)).name = "ParameterRef".toList := hname
    have hcount : (renamed scope els past).countP (paramRefOf scope
        (parentsOf scope (renamed scope els els)).map (newId scope els parent)) =
          past.countP (paramRefOf scope (parentsOf scope els).map parent) := by
      unfold renamed
      rw [List.countP_map]
      refine List.countP_congr fun x hx => ?_
      have hmem : x ∈ els := by
        rw [← List.mem_reverse, hels]
        exact List.mem_append_right _ (List.mem_cons_of_mem _ hx)
      have := paramRefOf_renamed hids hscope hnumbered hnumbers hp hmem
      unfold renamed at this
      rw [← this]
      rfl
    unfold newSuffix
    rw [if_pos hname, if_pos hname', hcount,
      renamed_ints hids hscope hnumbered.parents hnumbers hp]
  · obtain ⟨m, hm, hsuffix⟩ := newSuffix_kept hnumbered hels hr hname
    have hname' : (e.mapValues (newId scope els)).name ≠ "ParameterRef".toList := hname
    rw [hsuffix]
    unfold newSuffix
    rw [if_neg hname', parseU64_decimal hm]

theorem fullMap_renamed (hids : (scopedIds scope els).Nodup) (hscope : '_' ∈ scope)
    (hnumbered : Numberable scope els) (hnumbers : (els.filterMap (scopedNumber scope)).Nodup) :
    ∀ entry ∈ fullMap scope (renamed scope els els), entry.2 = entry.1 := by
  have hmap := renamed_parentMap hids hscope hnumbered.parents
  have hreverse : (renamed scope els els).reverse = renamed scope els els.reverse :=
    List.map_reverse.symm
  have hparents : ∀ entry ∈ (parentsOf scope (renamed scope els els)).map, entry.2 = entry.1 := by
    rw [hmap]
    intro entry hentry
    obtain ⟨p, _, rfl⟩ := List.mem_map.mp hentry
    rfl
  intro entry hentry
  rcases List.mem_append.mp hentry with hentry | hentry
  swap
  · exact hparents entry hentry
  obtain ⟨r, hr, rfl⟩ := List.mem_map.mp hentry
  obtain ⟨newer', e', older', rsuffix', hels', hreference, hsuffix⟩ := mem_references_iff hr
  rw [hreverse] at hels'
  obtain ⟨newer, rest, hels, _, hrest⟩ := List.map_eq_append_iff.mp hels'
  obtain ⟨e, past, rfl, rfl, rfl⟩ := List.map_eq_cons_iff.mp hrest
  cases hr' : reference scope (parentsOf scope els).map e with
  | none =>
    rw [reference_renamed_none hnumbered hels hr'] at hreference
    cases hreference
  | some found =>
    obtain ⟨id, parent, rsuffix⟩ := found
    have hrenamed := reference_renamed hids hscope hnumbered.parents hels hr'
    obtain ⟨hid, hrest⟩ := Prod.mk.inj (Option.some.inj (hreference.symm.trans hrenamed))
    obtain ⟨hparent, hrsuffix⟩ := Prod.mk.inj hrest
    have hentry' : (id, parent, _) ∈ references scope (parentsOf scope els) els.reverse :=
      hels ▸ references_mem hr'
    obtain ⟨k, n, hp⟩ := references_parent rfl hentry'
    have hdeclared := (renamed_declared hids hscope hnumbered.parents).mpr ⟨parent, k, n, hp, rfl⟩
    have hfixed : (parentsOf scope (renamed scope els els)).map.rename (newId scope els parent) =
        newId scope els parent := hparents _ (rename_declared hdeclared)
    have hsame := newSuffix_renamed hids hscope hnumbered hnumbers hels hr'
    rw [hparent, hrsuffix] at hsuffix
    show (parentsOf scope (renamed scope els els)).map.rename r.2.1 ++ "_R-".toList ++ r.2.2 = r.1
    rw [hid, hparent, hsuffix, hfixed, newId_reference hids hentry']
    exact congrArg _ hsame

/-! ## The second run -/

theorem numberable_renamed (hids : (scopedIds scope els).Nodup) (hscope : '_' ∈ scope)
    (hnumbered : Numberable scope els) (hnumbers : (els.filterMap (scopedNumber scope)).Nodup) :
    Numberable scope (renamed scope els els) := by
  refine ⟨fun e' he' => ?_, validReferences_iff.mpr fun before' e' after' hsplit => ?_⟩
  · obtain ⟨e, he, rfl⟩ := List.mem_map.mp he'
    intro id hd
    rw [declares_renamed hids he] at hd
    obtain ⟨⟨id', k⟩, hd', hsame⟩ := Option.map_eq_some_iff.mp hd
    obtain ⟨rfl, rfl⟩ := Prod.mk.inj hsame
    have hnumber := hnumbered.parents e he id' hd'
    rwa [comObjectNumber_renamed hscope hnumber]
  · obtain ⟨before, rest, hels, rfl, hrest⟩ := List.map_eq_append_iff.mp hsplit
    obtain ⟨e, after, rfl, rfl, rfl⟩ := List.map_eq_cons_iff.mp hrest
    have hreverse : els.reverse = after.reverse ++ e :: before.reverse := by
      rw [hels]
      simp
    intro hname hscoped
    cases hr : reference scope (parentsOf scope els).map e with
    | none =>
      have hvalid := valid_at hnumbered hreverse
      rw [scopedId_renamed, Option.isSome_map] at hscoped
      obtain ⟨id', parent, rsuffix, hr', _⟩ := hvalid hname hscoped
      rw [hr] at hr'
      cases hr'
    | some found =>
      obtain ⟨id, parent, rsuffix⟩ := found
      have hentry : (id, parent, _) ∈ references scope (parentsOf scope els) els.reverse :=
        hreverse ▸ references_mem hr
      obtain ⟨k, n, hp⟩ := references_parent rfl hentry
      refine ⟨_, _, _, reference_renamed hids hscope hnumbered.parents hreverse hr,
        fun hparam => ?_, fun hparam hnone => ?_⟩
      · rw [renamed_ints hids hscope hnumbered.parents hnumbers hp]
        have hscoped' : (scopedId scope e).isSome = true := (reference_boundary hr).1 ▸ rfl
        obtain ⟨_, _, _, hr', hints, _⟩ := valid_at hnumbered hreverse hname hscoped'
        cases hr.symm.trans hr'
        exact hints hparam
      · obtain ⟨m, hm, hsuffix⟩ := newSuffix_kept hnumbered hreverse hr hparam
        rw [hsuffix, parseU64_decimal hm] at hnone
        cases hnone

theorem numberIds_renamed (hids : (scopedIds scope els).Nodup) (hscope : '_' ∈ scope)
    (hnumbered : Numberable scope els) (hnumbers : (els.filterMap (scopedNumber scope)).Nodup) :
    ∃ map, numberIds scope (renamed scope els els) = .ok map ∧ ∀ value, map.rename value = value := by
  refine ⟨fullMap scope (renamed scope els els), ?_, fun value => ?_⟩
  · exact numberIds_iff.mpr ⟨numberable_renamed hids hscope hnumbered hnumbers, rfl⟩
  · by_cases h : (fullMap scope (renamed scope els els)).declared value
    · exact fullMap_renamed hids hscope hnumbered hnumbers _ (rename_declared h)
    · exact rename_undeclared h

def comObjectNumbers (els : List Element) : List Nat :=
  (els.filter fun e => e.name = "ComObject".toList).filterMap comObjectNumber

theorem scopedNumbers_nodup (scope : Text) (h : (comObjectNumbers els).Nodup) :
    (els.filterMap (scopedNumber scope)).Nodup := by
  have hfilter : comObjectNumbers els = els.filterMap fun e =>
      if e.name = "ComObject".toList then comObjectNumber e else none := by
    unfold comObjectNumbers
    rw [List.filterMap_filter]
    refine List.filterMap_congr fun e _ => ?_
    by_cases hname : e.name = "ComObject".toList
    · rw [if_pos hname, if_pos (decide_eq_true hname)]
    · rw [if_neg hname, if_neg (by rw [decide_eq_false hname]; exact Bool.false_ne_true)]
  rw [hfilter] at h
  refine (filterMap_sublist (fun e n hn => ?_) els).nodup h
  obtain ⟨⟨id, k⟩, hd, hk⟩ := Option.bind_eq_some_iff.mp hn
  split_ifs at hk with hobject
  dsimp only at hobject
  subst hobject
  rw [if_pos (kindOf_elim (declares_scoped hd).2).1]
  exact hk

theorem findAttribute_mapValues (f : Text → Text) (els : List Element) (element attrName : Text) :
    findAttribute (els.map (Element.mapValues f)) element attrName =
      (findAttribute els element attrName).map f := by
  unfold findAttribute
  induction els with
  | nil => rfl
  | cons e els ih =>
    rw [List.map_cons, List.findSome?_cons, List.findSome?_cons]
    by_cases hname : localName e.name = element
    · have hname' : localName (e.mapValues f).name = element := hname
      rw [if_pos hname, if_pos hname', Element.attr_mapValues]
      cases e.attr attrName with
      | none => exact ih
      | some value => rfl
    · have hname' : ¬localName (e.mapValues f).name = element := hname
      rw [if_neg hname, if_neg hname']
      exact ih

theorem scopeOf_outside (appId : Text) : ¬scopeOf appId <+: appId := by
  intro h
  have := h.length_le
  unfold scopeOf at this
  simp at this

theorem renumberIds_ok {reader : Reader} (documented : reader.Documented) {doc : Document}
    (scannable : Scannable doc) {appId : Text}
    (happ : findAttribute doc.elements "ApplicationProgram".toList "Id".toList = some appId)
    {out : Text} : renumberIds reader doc.render = .ok out ↔
      Numberable (scopeOf appId) doc.elements ∧
        out = (doc.mapValues (newId (scopeOf appId) doc.elements) newId_replaces).render := by
  rw [renumberIds_render documented doc scannable, happ, Option.elim_some]
  constructor
  · intro h
    cases hmap : numberIds (scopeOf appId) doc.elements with
    | error f =>
      rw [hmap] at h
      cases h
    | ok map =>
      obtain ⟨hnumbered, rfl⟩ := numberIds_iff.mp hmap
      rw [hmap] at h
      refine ⟨hnumbered, (Except.ok.inj h).symm.trans ?_⟩
      exact rewriteIds_render doc scannable newId_replaces
  · rintro ⟨hnumbered, rfl⟩
    rw [numberIds_iff.mpr ⟨hnumbered, rfl⟩]
    exact congrArg Except.ok (rewriteIds_render doc scannable newId_replaces)

/-- Renumbering a renumbered document leaves it as it is. -/
theorem renumbered_again {reader : Reader} (documented : reader.Documented) {doc : Document}
    (scannable : Scannable doc) {appId : Text}
    (happ : findAttribute doc.elements "ApplicationProgram".toList "Id".toList = some appId)
    (hids : (scopedIds (scopeOf appId) doc.elements).Nodup)
    (hnumbers : (comObjectNumbers doc.elements).Nodup) {out : Text}
    (h : renumberIds reader doc.render = .ok out) : renumberIds reader out = .ok out := by
  obtain ⟨hnumbered, rfl⟩ := (renumberIds_ok documented scannable happ).mp h
  have hscope : '_' ∈ scopeOf appId := List.mem_append_right _ (by decide)
  obtain ⟨map, hmap, hfixed⟩ := numberIds_renamed hids hscope hnumbered
    (scopedNumbers_nodup _ hnumbers)
  have happ' : newId (scopeOf appId) doc.elements appId = appId :=
    newId_outside (scopeOf_outside appId)
  have hsame : map.rename = id := funext hfixed
  have hid : Replaces map.rename := hsame ▸ fun _ _ hc => .inl hc
  rw [renumberIds_render documented _ (scannable_mapValues scannable newId_replaces),
    Document.elements_mapValues, findAttribute_mapValues, happ, Option.map_some, happ',
    Option.elim_some]
  show (numberIds _ (renamed _ _ _)).map _ = _
  rw [hmap]
  show Except.ok (rewriteIds _ map) = _
  rw [rewriteIds_render _ (scannable_mapValues scannable newId_replaces) hid]
  exact congrArg (fun tokens => Except.ok (List.flatMap Token.render tokens))
    (Document.mapValues_same _ hid hfixed)

def parameter (id : String) : Token := .emptyTag "Parameter".toList [("Id".toList, id.toList)]

def comObject (id number : String) : Token :=
  .emptyTag "ComObject".toList [("Id".toList, id.toList), ("Number".toList, number.toList)]

def referenceTo (name parent suffix : String) : Token :=
  .emptyTag name.toList [("Id".toList, (parent ++ "_R-" ++ suffix).toList),
    ("RefId".toList, parent.toList)]

def parameterRef (parent suffix : String) : Token := referenceTo "ParameterRef" parent suffix

def comObjectRef (parent suffix : String) : Token := referenceTo "ComObjectRef" parent suffix

/-- Parameters whose ids are exchanged, and references with and without an integer. -/
def exchanged : Document where
  tokens := [
    .startTag "ApplicationProgram".toList [("Id".toList, "M-00FA_A-0001-01-0000".toList)],
    parameter "M-00FA_A-0001-01-0000_P-2",
    parameter "M-00FA_A-0001-01-0000_P-1",
    comObject "M-00FA_A-0001-01-0000_O-x" "5",
    parameterRef "M-00FA_A-0001-01-0000_P-1" "1",
    comObjectRef "M-00FA_A-0001-01-0000_O-x" "on",
    comObjectRef "M-00FA_A-0001-01-0000_O-x" "1",
    .closing "ApplicationProgram".toList]
  wellFormed := by decide +kernel
  balanced := by decide +kernel

theorem exchanged_again : ∃ out, renumberIds XmlReader.xmlReader exchanged.render = .ok out ∧
    renumberIds XmlReader.xmlReader out = .ok out := by
  have hok : (renumberIds XmlReader.xmlReader exchanged.render).isOk = true := by decide +kernel
  cases h : renumberIds XmlReader.xmlReader exchanged.render with
  | error f =>
    rw [h] at hok
    cases hok
  | ok out =>
    have happ : findAttribute exchanged.elements "ApplicationProgram".toList "Id".toList =
        some "M-00FA_A-0001-01-0000".toList := by decide +kernel
    refine ⟨out, rfl, renumbered_again XmlReader.xmlReader_documented ?_ happ ?_ ?_ h⟩ <;>
      decide +kernel

/-- A program that refers to a com object in a comment that begins with `>`. -/
def commented : Document where
  tokens := [
    .startTag "ApplicationProgram".toList [("Id".toList, "M-00FA_A-0001-01-0000".toList)],
    .comment (">".toList ++ (comObject "M-00FA_A-0001-01-0000_O-x" "5").render),
    comObject "M-00FA_A-0001-01-0000_O-y" "5",
    parameterRef "M-00FA_A-0001-01-0000_O-x" "1",
    parameterRef "M-00FA_A-0001-01-0000_O-y" "1",
    .closing "ApplicationProgram".toList]
  wellFormed := by decide +kernel
  balanced := by decide +kernel

/-- A com object in such a comment is renumbered, here to the id of another one: the references
to both become one, which is numbered again in the next run. -/
theorem commented_again : XmlReader.xmlReader.Documented ∧
    findAttribute commented.elements "ApplicationProgram".toList "Id".toList =
      some "M-00FA_A-0001-01-0000".toList ∧
    (scopedIds (scopeOf "M-00FA_A-0001-01-0000".toList) commented.elements).Nodup ∧
    (comObjectNumbers commented.elements).Nodup ∧
    ∃ out, renumberIds XmlReader.xmlReader commented.render = .ok out ∧
      renumberIds XmlReader.xmlReader out ≠ .ok out := by
  have hok : (renumberIds XmlReader.xmlReader commented.render).isOk = true := by decide +kernel
  have hagain : (renumberIds XmlReader.xmlReader commented.render).bind
      (renumberIds XmlReader.xmlReader) ≠ renumberIds XmlReader.xmlReader commented.render := by
    decide +kernel
  refine ⟨XmlReader.xmlReader_documented, by decide +kernel, by decide +kernel,
    by decide +kernel, ?_⟩
  cases h : renumberIds XmlReader.xmlReader commented.render with
  | error f =>
    rw [h] at hok
    cases hok
  | ok out =>
    rw [h] at hagain
    exact ⟨out, rfl, hagain⟩

end KnxRs.Renumber
