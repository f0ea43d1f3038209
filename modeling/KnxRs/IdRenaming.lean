import KnxRs.IdNumbering

set_option autoImplicit false

/-!
# The renaming

The map of all ids as a renaming: its entries, the form of the new ids, and where it is
injective. New ids of parents differ by kind and number; the boundary in the new id of a
reference is found again.
-/
namespace KnxRs.Renumber
open Texts XmlDocuments XmlScan

/-! ## The form of new ids -/

theorem Kind.text_inj {k k' : Kind} (h : k.text = k'.text) : k = k' := by
  cases k <;> cases k' <;> first | rfl | exact absurd h (by decide)

theorem Kind.text_chars (k : Kind) : ∀ c ∈ k.text, c ≠ '-' ∧ c ≠ '_' ∧ c ≠ '"' ∧ c ≠ '\'' ∧ c ≠ '<' := by
  cases k <;> exact forall_chars (by decide)

theorem integerId_eq (scope : Text) (k : Kind) (n : Nat) :
    integerId scope k.text n = scope ++ (k.text ++ '-' :: decimal n) := by
  unfold integerId
  rw [List.append_assoc, List.append_assoc]
  rfl

theorem integerId_inj {scope : Text} {k k' : Kind} {n n' : Nat}
    (h : integerId scope k.text n = integerId scope k'.text n') : k = k' ∧ n = n' := by
  rw [integerId_eq, integerId_eq] at h
  obtain ⟨htext, hn⟩ := split_unique (fun hc => (k.text_chars _ hc).1 rfl)
    (fun hc => (k'.text_chars _ hc).1 rfl) (List.append_cancel_left h)
  exact ⟨Kind.text_inj htext, decimal_inj hn⟩

theorem integerId_kindOf {name suffix : Text} {k : Kind} (h : kindOf name suffix = some k)
    (scope : Text) (n : Nat) :
    kindOf name ((integerId scope k.text n).drop scope.length) = some k := by
  have helim := kindOf_elim h
  rw [integerId_eq, List.drop_left]
  cases k <;> rw [helim.1] <;> rfl

theorem parentSuffix_plain (k : Kind) (n : Nat) : '_' ∉ k.text ++ '-' :: decimal n := by
  rw [List.mem_append, List.mem_cons]
  rintro (h | h | h)
  · exact (k.text_chars _ h).2.1 rfl
  · exact absurd h (by decide)
  · exact absurd (decimal_isDigit h) (by decide)

/-- No new id of a parent is the beginning of another one at a boundary. -/
theorem integerId_boundary {scope s s' : Text} {k k' : Kind} {n n' : Nat}
    (h : integerId scope k.text n ++ "_R-".toList ++ s =
      integerId scope k'.text n' ++ "_R-".toList ++ s') :
    integerId scope k.text n = integerId scope k'.text n' ∧ s = s' := by
  simp only [integerId_eq, List.append_assoc] at h
  obtain ⟨hsame, hrest⟩ := split_unique (c := '_') (parentSuffix_plain k n) (parentSuffix_plain k' n')
    (by simpa using h)
  rw [integerId_eq, integerId_eq, hsame]
  exact ⟨rfl, by simpa using hrest⟩

theorem integerId_ne {scope s : Text} {k k' : Kind} {n n' : Nat} :
    integerId scope k.text n ≠ integerId scope k'.text n' ++ "_R-".toList ++ s := by
  intro h
  simp only [integerId_eq, List.append_assoc] at h
  refine parentSuffix_plain k n ?_
  rw [List.append_cancel_left h]
  simp

/-! ## The entries of the map -/

variable {scope : Text} {els : List Element}

theorem filterMap_sublist {β γ : Type} {g g' : β → Option γ}
    (h : ∀ x y, g x = some y → g' x = some y) (xs : List β) :
    (xs.filterMap g).Sublist (xs.filterMap g') := by
  induction xs with
  | nil => exact List.Sublist.refl _
  | cons x xs ih =>
    cases hx : g x with
    | none =>
      rw [List.filterMap_cons_none hx]
      cases hx' : g' x with
      | none => rwa [List.filterMap_cons_none hx']
      | some y =>
        rw [List.filterMap_cons_some hx']
        exact ih.cons y
    | some y =>
      rw [List.filterMap_cons_some hx, List.filterMap_cons_some (h x y hx)]
      exact ih.cons_cons y

theorem parents_keys (past : List Element) : (parents scope past).map Prod.fst =
    past.filterMap fun e => (declares scope e).map Prod.fst := by
  induction past with
  | nil => rfl
  | cons e past ih =>
    cases h : declares scope e with
    | none => rw [parents_none past h, ih, List.filterMap_cons_none (by rw [h]; rfl)]
    | some d =>
      obtain ⟨id, k⟩ := d
      rw [parents_some past h, List.map_cons, ih, List.filterMap_cons_some (by rw [h]; rfl)]

theorem references_keys {c : Parents} (past : List Element) :
    (references scope c past).map Prod.fst =
      past.filterMap fun e => (reference scope c.map e).map Prod.fst := by
  induction past with
  | nil => rfl
  | cons e past ih =>
    cases h : reference scope c.map e with
    | none => rw [references_none h, ih, List.filterMap_cons_none (by rw [h]; rfl)]
    | some r =>
      obtain ⟨id, parent, rsuffix⟩ := r
      rw [references_cons h, List.map_cons, ih, List.filterMap_cons_some (by rw [h]; rfl)]

theorem parentMap_keys (past : List Element) :
    (parentMap scope past).map Prod.fst = (parents scope past).map Prod.fst := by
  unfold parentMap
  rw [List.map_map]
  rfl

theorem referenceMap_keys {c : Parents} (past : List Element) :
    (referenceMap scope c past).map Prod.fst = (references scope c past).map Prod.fst := by
  unfold referenceMap
  rw [List.map_map]
  rfl

theorem fullMap_nodup (hids : (scopedIds scope els).Nodup) :
    ((fullMap scope els).map Prod.fst).Nodup := by
  have hreverse : (els.reverse.filterMap (scopedId scope)).Nodup := by
    rw [List.filterMap_reverse]
    exact List.nodup_reverse.mpr hids
  unfold fullMap
  rw [List.map_append, referenceMap_keys]
  refine List.Nodup.append ?_ ?_ ?_
  · rw [references_keys]
    refine (filterMap_sublist (fun e id h => ?_) _).nodup hreverse
    obtain ⟨⟨id', parent, rsuffix⟩, hr, rfl⟩ := Option.map_eq_some_iff.mp h
    exact (reference_boundary (c := parentsOf scope els) hr).1
  · show ((parentMap scope els.reverse).map Prod.fst).Nodup
    rw [parentMap_keys, parents_keys]
    refine (filterMap_sublist (fun e id h => ?_) _).nodup hreverse
    obtain ⟨⟨id', k⟩, hd, rfl⟩ := Option.map_eq_some_iff.mp h
    exact (declares_scoped hd).1
  · intro id hreference hparent
    obtain ⟨entry, hentry, rfl⟩ := List.mem_map.mp hreference
    refine apart_of_nodup hids (List.reverse_subset.mpr (List.Subset.refl els)) entry hentry ?_
    exact declared_iff.mpr hparent

theorem rename_mem {map : IdMap} (hkeys : (map.map Prod.fst).Nodup) {id value : Text}
    (h : (id, value) ∈ map) : map.rename id = value := by
  unfold IdMap.rename
  induction map with
  | nil => cases h
  | cons entry map ih =>
    rw [List.map_cons, List.nodup_cons] at hkeys
    rcases List.mem_cons.mp h with rfl | h
    · rw [List.lookup_cons_self]
      rfl
    · have hne : (id == entry.1) = false :=
        beq_eq_false_iff_ne.mpr fun he => hkeys.1 (he ▸ List.mem_map_of_mem h)
      rw [List.lookup_cons, hne]
      exact ih hkeys.2 h

theorem rename_declared {map : IdMap} {id : Text} (h : map.declared id) :
    (id, map.rename id) ∈ map := by
  unfold IdMap.rename
  unfold IdMap.declared at h
  induction map with
  | nil => cases h
  | cons entry map ih =>
    rw [List.lookup_cons] at h ⊢
    cases he : id == entry.1 with
    | true =>
      rw [beq_iff_eq.mp he]
      exact List.mem_cons_self
    | false =>
      rw [he] at h
      exact List.mem_cons_of_mem _ (ih h)

theorem rename_undeclared {map : IdMap} {id : Text} (h : ¬map.declared id) :
    map.rename id = id := by
  unfold IdMap.declared at h
  unfold IdMap.rename
  rw [Option.not_isSome_iff_eq_none.mp h]
  rfl

/-! ## Distinct numbers -/

def scopedNumber (scope : Text) (e : Element) : Option Nat :=
  (declares scope e).bind fun d => if d.2 = .comObject then comObjectNumber e else none

theorem Kind.family_comObject {k : Kind} (h : k.family = Kind.comObject) : k = .comObject := by
  cases k <;> first | rfl | cases h

theorem parents_counted (past : List Element) : (parents scope past).Pairwise fun p q =>
    p.2.1 ≠ .comObject → p.2.1.family = q.2.1.family → p.2.2 ≠ q.2.2 := by
  induction past with
  | nil => exact List.Pairwise.nil
  | cons e past ih =>
    cases hd : declares scope e with
    | none =>
      rw [parents_none past hd]
      exact ih
    | some d =>
      obtain ⟨id, k⟩ := d
      rw [parents_some past hd]
      refine List.pairwise_cons.mpr ⟨fun q hq hk hfamily hsame => ?_, ih⟩
      obtain ⟨newer, e', older, rfl, hd', hnumber⟩ := mem_parents hq
      rw [hnumber] at hsame
      dsimp only at hsame hfamily hk
      have hk' : q.2.1 ≠ .comObject := by
        intro hk'
        rw [hk'] at hfamily
        exact hk (Kind.family_comObject hfamily)
      have hcount : declaresFamily scope k e' = true := by
        rw [declaresFamily_iff hd']
        exact decide_eq_true hfamily.symm
      have hfun : declaresFamily scope q.2.1 = declaresFamily scope k := by
        funext x
        unfold declaresFamily
        rw [hfamily]
      unfold parentNumber at hsame
      rw [if_neg hk, if_neg hk', hfun, List.countP_append, List.countP_cons_of_pos hcount]
        at hsame
      omega

theorem parents_objects {past : List Element} (hvalid : ∀ e ∈ past, ValidParent scope e)
    (hnumbers : (past.filterMap (scopedNumber scope)).Nodup) :
    (parents scope past).Pairwise fun p q =>
      p.2.1 = .comObject → p.2.1.family = q.2.1.family → p.2.2 ≠ q.2.2 := by
  induction past with
  | nil => exact List.Pairwise.nil
  | cons e past ih =>
    obtain ⟨he, hpast⟩ := List.forall_mem_cons.mp hvalid
    have hrest : (past.filterMap (scopedNumber scope)).Nodup := by
      refine List.Sublist.nodup ?_ hnumbers
      exact (List.sublist_cons_self e past).filterMap _
    cases hd : declares scope e with
    | none =>
      rw [parents_none past hd]
      exact ih hpast hrest
    | some d =>
      obtain ⟨id, k⟩ := d
      rw [parents_some past hd]
      refine List.pairwise_cons.mpr ⟨fun q hq hk hfamily hsame => ?_, ih hpast hrest⟩
      obtain ⟨newer, e', older, rfl, hd', hnumber⟩ := mem_parents hq
      rw [hnumber] at hsame
      dsimp only at hsame hfamily hk
      subst hk
      have hk' : q.2.1 = .comObject := Kind.family_comObject hfamily.symm
      rw [hk'] at hd' hsame
      obtain ⟨n, hn⟩ := Option.isSome_iff_exists.mp (he id hd)
      obtain ⟨n', hn'⟩ := Option.isSome_iff_exists.mp
        (hpast e' (List.mem_append_right _ List.mem_cons_self) q.1 hd')
      have hscoped : scopedNumber scope e = some n := by
        unfold scopedNumber
        rw [hd]
        exact hn
      have hscoped' : scopedNumber scope e' = some n' := by
        unfold scopedNumber
        rw [hd']
        exact hn'
      obtain rfl : n = n' := by
        unfold parentNumber at hsame
        rwa [if_pos rfl, if_pos rfl, hn, hn'] at hsame
      rw [List.filterMap_cons_some hscoped, List.nodup_cons] at hnumbers
      exact hnumbers.1 (List.mem_filterMap.mpr
        ⟨e', List.mem_append_right _ List.mem_cons_self, hscoped'⟩)

theorem parents_apart {past : List Element} (hvalid : ∀ e ∈ past, ValidParent scope e)
    (hnumbers : (past.filterMap (scopedNumber scope)).Nodup) :
    (parents scope past).Pairwise fun p q => p.2.1.family = q.2.1.family → p.2.2 ≠ q.2.2 := by
  refine ((parents_counted past).and (parents_objects hvalid hnumbers)).imp ?_
  intro p q h hfamily
  by_cases hk : p.2.1 = .comObject
  · exact h.2 hk hfamily
  · exact h.1 hk hfamily

theorem parents_unique {past : List Element} (hvalid : ∀ e ∈ past, ValidParent scope e)
    (hnumbers : (past.filterMap (scopedNumber scope)).Nodup) {p q : Text × Kind × Nat}
    (hp : p ∈ parents scope past) (hq : q ∈ parents scope past)
    (hkind : p.2.1 = q.2.1) (hnumber : p.2.2 = q.2.2) : p = q := by
  have hpair := parents_apart hvalid hnumbers
  have hsymm : Std.Symm fun p q : Text × Kind × Nat =>
      p.2.1.family = q.2.1.family → p.2.2 ≠ q.2.2 :=
    ⟨fun _ _ h hfamily hsame => h hfamily.symm hsame.symm⟩
  by_contra hne
  exact hpair.forall hp hq hne (congrArg Kind.family hkind) hnumber

/-! ## New ids -/

noncomputable abbrev newId (scope : Text) (els : List Element) : Text → Text :=
  (fullMap scope els).rename

variable {k : Kind} {n : Nat} {id parent suffix : Text}

theorem newId_parent (hids : (scopedIds scope els).Nodup)
    (h : (id, k, n) ∈ parents scope els.reverse) : newId scope els id = integerId scope k.text n :=
  rename_mem (fullMap_nodup hids) (List.mem_append_right _ (List.mem_map_of_mem h))

theorem references_parent {c : Parents} {past : List Element} (hc : c.map = parentMap scope els.reverse)
    (h : (id, parent, suffix) ∈ references scope c past) :
    ∃ k n, (parent, k, n) ∈ parents scope els.reverse := by
  obtain ⟨rsuffix, hboundary⟩ := mem_references h
  have hdeclared := declared_iff.mp hboundary.declared
  rw [hc, parentMap_keys] at hdeclared
  obtain ⟨⟨parent', k, n⟩, hp, rfl⟩ := List.mem_map.mp hdeclared
  exact ⟨k, n, hp⟩

theorem newId_reference (hids : (scopedIds scope els).Nodup)
    (h : (id, parent, suffix) ∈ references scope (parentsOf scope els) els.reverse) :
    newId scope els id = newId scope els parent ++ "_R-".toList ++ suffix := by
  obtain ⟨k, n, hp⟩ := references_parent rfl h
  have hparent : (parentsOf scope els).map.rename parent = newId scope els parent := by
    rw [newId_parent hids hp]
    have hkeys : ((parentMap scope els.reverse).map Prod.fst).Nodup :=
      (List.nodup_append.mp (List.map_append ▸ fullMap_nodup hids)).2.1
    exact rename_mem hkeys (List.mem_map_of_mem hp)
  have hentry := rename_mem (fullMap_nodup hids) (List.mem_append_left _ (List.mem_map_of_mem h))
  rw [← hparent]
  exact hentry

theorem newSuffix_isDigit {c : Parents} {past : List Element} {e : Element} {rsuffix : Text} :
    ∀ d ∈ newSuffix scope c past e parent rsuffix, d.isDigit = true := by
  unfold newSuffix
  split_ifs
  · intro d hd
    rcases List.mem_append.mp hd with hd | hd
    · exact decimal_isDigit hd
    · exact twoDigits_isDigit hd
  · split
    · exact fun d hd => decimal_isDigit hd
    · exact fun d hd => decimal_isDigit hd

theorem references_isDigit {c : Parents} {past : List Element}
    (h : (id, parent, suffix) ∈ references scope c past) : ∀ d ∈ suffix, d.isDigit = true := by
  obtain ⟨newer, e, older, rsuffix, _, _, hsuffix⟩ := mem_references_iff h
  dsimp only at hsuffix
  rw [hsuffix]
  exact newSuffix_isDigit

theorem isDigit_plain {c : Char} (h : c.isDigit = true) :
    c ≠ '_' ∧ c ≠ '-' ∧ c ≠ '"' ∧ c ≠ '\'' ∧ c ≠ '<' := by
  refine ⟨?_, ?_, ?_, ?_, ?_⟩ <;> rintro rfl <;> cases h

theorem parentMap_rename {past : List Element} (h : (parentMap scope past).declared parent) :
    ∃ k n, (parent, k, n) ∈ parents scope past ∧
      (parentMap scope past).rename parent = integerId scope k.text n := by
  obtain ⟨⟨parent', k, n⟩, hp, he⟩ := List.mem_map.mp (rename_declared h)
  obtain ⟨rfl, hnew⟩ := Prod.mk.inj he
  exact ⟨k, n, hp, hnew.symm⟩

theorem newId_form (h : (fullMap scope els).declared id) :
    scope <+: id ∧ ∃ plain, newId scope els id = scope ++ plain ∧
      ∀ c ∈ plain, c ≠ '"' ∧ c ≠ '\'' ∧ c ≠ '<' := by
  have hkind (k : Kind) (n : Nat) : ∃ plain, integerId scope k.text n = scope ++ plain ∧
      ∀ c ∈ plain, c ≠ '"' ∧ c ≠ '\'' ∧ c ≠ '<' := by
    refine ⟨k.text ++ '-' :: decimal n, integerId_eq scope k n, ?_⟩
    intro c hc
    rw [List.mem_append, List.mem_cons] at hc
    rcases hc with hc | rfl | hc
    · exact (k.text_chars c hc).2.2
    · decide
    · exact (isDigit_plain (decimal_isDigit hc)).2.2
  have hscoped {e : Element} {id : Text} (he : scopedId scope e = some id) : scope <+: id :=
    List.isPrefixOf_iff_prefix.mp (Option.filter_eq_some_iff.mp he).2
  rcases List.mem_append.mp (rename_declared h) with hentry | hentry
  · obtain ⟨⟨id', parent, suffix⟩, hr, he⟩ := List.mem_map.mp hentry
    obtain ⟨rfl, hnew⟩ := Prod.mk.inj he
    obtain ⟨newer, e, older, rsuffix, _, hreference, _⟩ := mem_references_iff hr
    have hboundary := (reference_boundary hreference).2
    obtain ⟨k, n, _, hrename⟩ := parentMap_rename hboundary.declared
    have hparent : (parentsOf scope els).map.rename parent = integerId scope k.text n := hrename
    obtain ⟨plain, hform, hplain⟩ := hkind k n
    refine ⟨hscoped (reference_boundary hreference).1, plain ++ "_R-".toList ++ suffix, ?_, ?_⟩
    · refine hnew.symm.trans ?_
      rw [hparent, hform]
      simp only [List.append_assoc]
    · simp only [List.forall_mem_append]
      refine ⟨⟨hplain, forall_chars (by decide)⟩, fun c hc => ?_⟩
      exact (isDigit_plain (references_isDigit hr c hc)).2.2
  · obtain ⟨⟨id', k, n⟩, hp, he⟩ := List.mem_map.mp hentry
    obtain ⟨rfl, hnew⟩ := Prod.mk.inj he
    obtain ⟨newer, e, older, _, hd, _⟩ := mem_parents hp
    obtain ⟨plain, hform, hplain⟩ := hkind k n
    exact ⟨hscoped (declares_scoped hd).1, plain, hnew.symm.trans hform, hplain⟩

/-- The new ids can stand where the old ones do. -/
theorem newId_replaces : Replaces (newId scope els) := by
  intro value c hc
  by_cases h : (fullMap scope els).declared value
  · obtain ⟨hscope, plain, hnew, hplain⟩ := newId_form h
    rw [hnew, List.mem_append] at hc
    exact hc.imp (fun hc => hscope.subset hc) (hplain c)
  · rw [newId, rename_undeclared h] at hc
    exact .inl hc

theorem newId_scope (value : Text) :
    scope.isPrefixOf (newId scope els value) = scope.isPrefixOf value := by
  by_cases h : (fullMap scope els).declared value
  · obtain ⟨hscope, plain, hnew, _⟩ := newId_form h
    rw [hnew, List.isPrefixOf_iff_prefix.mpr hscope,
      List.isPrefixOf_iff_prefix.mpr (List.prefix_append scope plain)]
  · rw [newId, rename_undeclared h]

theorem newId_outside {value : Text} (h : ¬scope <+: value) : newId scope els value = value :=
  rename_undeclared fun hd => h (newId_form hd).1

end KnxRs.Renumber
