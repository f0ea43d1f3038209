import KnxRs.RenumberTwice
import KnxRs.Sanity

set_option autoImplicit false

/-!
# Sound renumbering

When the renumbered document is accepted by the sanity check: the sources of numbers must not
meet. Numbers of com objects and integers of their references are taken from the document, so
they can.
-/
namespace KnxRs.Renumber
open Texts XmlDocuments XmlScan Sanity

/-! ## Integer suffixes -/

def IsMarker (marker : Text) : Prop :=
  ∃ kind, marker = '_' :: (kind ++ ['-']) ∧ '_' ∉ kind ∧ '-' ∉ kind

theorem intMarkers_isMarker : ∀ marker ∈ intMarkers, IsMarker marker := by
  intro marker h
  refine ⟨(marker.drop 1).dropLast, ?_⟩
  revert marker
  decide

theorem badMarker_plain {marker s : Text} (hmarker : IsMarker marker) (h : '_' ∉ s) :
    badMarker marker s = none := by
  obtain ⟨kind, rfl, _⟩ := hmarker
  induction s with
  | nil => rfl
  | cons c cs ih =>
    obtain ⟨hc, hcs⟩ := not_or.mp (mt List.mem_cons.mpr h)
    rw [badMarker, if_neg, ih hcs]
    rintro ⟨hp, _⟩
    obtain ⟨rest, hrest⟩ := List.isPrefixOf_iff_prefix.mp hp
    exact hc (List.cons.inj hrest).1

theorem markerSegment_append (s rest : Text) :
    markerSegment (s ++ '_' :: rest) = markerSegment s := by
  unfold markerSegment
  rw [List.takeWhile_append]
  split_ifs with hall
  · rw [List.takeWhile_cons_of_neg (by decide), List.append_nil]
    exact (List.takeWhile_prefix _).eq_of_length hall |>.symm
  · rfl

theorem badMarker_append {marker : Text} (hmarker : IsMarker marker) (s rest : Text) :
    badMarker marker (s ++ '_' :: rest) =
      (badMarker marker s).or (badMarker marker ('_' :: rest)) := by
  obtain ⟨kind, hmarker, hplain, _⟩ := hmarker
  induction s with
  | nil => rfl
  | cons c cs ih =>
    have hstart : marker.isPrefixOf (c :: cs ++ '_' :: rest) = marker.isPrefixOf (c :: cs) := by
      rw [Bool.eq_iff_iff, List.isPrefixOf_iff_prefix, List.isPrefixOf_iff_prefix]
      refine ⟨fun h => ?_, fun h => h.trans (List.prefix_append _ _)⟩
      rcases List.prefix_or_prefix_of_prefix h (List.prefix_append (c :: cs) _) with h' | ⟨more, h'⟩
      · exact h'
      · cases more with
        | nil =>
          rw [List.append_nil] at h'
          rw [h']
        | cons d more =>
          rw [← h', List.prefix_append_right_inj, List.cons_prefix_cons] at h
          have hkind : kind ++ ['-'] = cs ++ d :: more :=
            (List.cons.inj (hmarker.symm.trans h'.symm)).2
          have hmem : '_' ∈ kind ++ ['-'] := by
            rw [hkind, ← h.1]
            exact List.mem_append_right _ List.mem_cons_self
          exact absurd ((List.mem_append.mp hmem).resolve_right (by decide)) hplain
    have hstep (t : Text) (hp : marker.isPrefixOf (c :: cs) = true) :
        markerSegment ((c :: cs ++ '_' :: t).drop marker.length) =
          markerSegment ((c :: cs).drop marker.length) := by
      rw [List.drop_append_of_le_length (List.isPrefixOf_iff_prefix.mp hp).length_le,
        markerSegment_append]
    show badMarker marker (c :: (cs ++ '_' :: rest)) = _
    rw [badMarker, badMarker, ← List.cons_append, hstart]
    by_cases hp : marker.isPrefixOf (c :: cs) = true
    · rw [hstep rest hp, ih]
      split_ifs <;> rfl
    · rw [if_neg fun h => hp h.1, if_neg fun h => hp h.1, ih]

theorem isNumeral_digits {s : Text} (h : isNumeral s = true) : ∀ c ∈ s, c.isDigit = true := by
  unfold isNumeral at h
  exact List.all_eq_true.mp (Bool.and_eq_true_iff.mp h).2

theorem badMarker_integer {marker kind digits : Text} (hmarker : IsMarker marker)
    (hkind : '_' ∉ kind) (hdash : '-' ∉ kind) (hdigits : isNumeral digits = true) :
    badMarker marker ('_' :: (kind ++ '-' :: digits)) = none := by
  have hplain : '_' ∉ kind ++ '-' :: digits := by
    rw [List.mem_append, List.mem_cons]
    rintro (h | h | h)
    · exact hkind h
    · exact absurd h (by decide)
    · exact (isDigit_plain (isNumeral_digits hdigits _ h)).1 rfl
  rw [badMarker, if_neg, badMarker_plain hmarker hplain]
  rintro ⟨hp, hseg⟩
  obtain ⟨kind', rfl, _, hdash'⟩ := hmarker
  obtain ⟨rest, hrest⟩ := List.isPrefixOf_iff_prefix.mp hp
  rw [List.cons_append, List.append_assoc, List.singleton_append] at hrest
  obtain ⟨rfl, rfl⟩ := split_unique hdash' hdash (List.cons.inj hrest).2
  have hall : ∀ c ∈ rest, (c ≠ '_' && c ≠ '"') = true := by
    intro c hc
    have hc := isDigit_plain (isNumeral_digits hdigits c hc)
    rw [decide_eq_true hc.1, decide_eq_true hc.2.2.1]
    rfl
  have hdrop : ('_' :: (kind' ++ '-' :: rest)).drop ('_' :: (kind' ++ ['-'])).length = rest := by
    rw [show '_' :: (kind' ++ '-' :: rest) = '_' :: (kind' ++ ['-']) ++ rest by simp, List.drop_left]
  rw [hdrop] at hseg
  have hwhole := @List.takeWhile_append_of_pos _ _ _ [] hall
  rw [List.takeWhile_nil, List.append_nil] at hwhole
  unfold markerSegment at hseg
  rw [hwhole] at hseg
  exact hseg hdigits

/-- The application id has no marker without an integer after it. -/
def PlainScope (appId : Text) : Prop := ∀ marker ∈ intMarkers, badMarker marker appId = none

instance (appId : Text) : Decidable (PlainScope appId) :=
  inferInstanceAs (Decidable (∀ marker ∈ intMarkers, _))

variable {appId : Text}

theorem Kind.text_marker (k : Kind) : '_' :: k.text ++ "-".toList ∈ intMarkers := by
  cases k <;> decide

theorem badIntegerSuffix_new (appId : Text) (k : Kind) (n : Nat) {tail : Text}
    (htail : tail = [] ∨ ∃ suffix, tail = "_R-".toList ++ suffix ∧ isNumeral suffix = true) :
    badIntegerSuffix (integerId (scopeOf appId) k.text n ++ tail) (scopeOf appId) = none ↔
      PlainScope appId := by
  have hvalue : integerId (scopeOf appId) k.text n ++ tail =
      scopeOf appId ++ (k.text ++ '-' :: (decimal n ++ tail)) := by
    rw [integerId_eq, List.append_assoc, List.append_assoc, List.cons_append]
  have hdash : '-' ∉ k.text := fun h => (k.text_chars _ h).1 rfl
  have hplain : '_' ∉ k.text := fun h => (k.text_chars _ h).2.1 rfl
  have hmarker : ∀ marker ∈ intMarkers,
      badMarker marker (integerId (scopeOf appId) k.text n ++ tail) = badMarker marker appId := by
    intro marker hm
    have hm := intMarkers_isMarker marker hm
    have hfirst := badMarker_integer hm hplain hdash (decimal_isNumeral n)
    have happ : integerId (scopeOf appId) k.text n ++ tail =
        appId ++ '_' :: (k.text ++ '-' :: decimal n ++ tail) := by
      rw [hvalue]
      unfold scopeOf
      simp
    rw [happ]
    rcases htail with rfl | ⟨suffix, rfl, hsuffix⟩
    · rw [List.append_nil, badMarker_append hm, hfirst, Option.or_none]
    · have hsecond := badMarker_integer hm (show '_' ∉ ['R'] by decide) (by decide) hsuffix
      rw [badMarker_append hm, show '_' :: (k.text ++ '-' :: decimal n ++ ("_R-".toList ++ suffix)) =
        '_' :: (k.text ++ '-' :: decimal n) ++ '_' :: (['R'] ++ '-' :: suffix) by rfl,
        badMarker_append hm, hfirst, hsecond]
      simp
  unfold badIntegerSuffix
  rw [hvalue, splitOnce_prefix]
  show (splitOnce "-".toList _).bind _ = none ↔ _
  rw [splitOnce_dash hdash]
  show (if '_' :: k.text ++ "-".toList ∈ intMarkers then _ else none) = none ↔ _
  rw [if_pos (Kind.text_marker k), List.length_nil, List.drop_zero, ← hvalue,
    List.findSome?_eq_none_iff]
  unfold PlainScope
  exact forall₂_congr fun marker hm => by rw [hmarker marker hm]

/-! ## Numbers that meet -/

def Before (els : List Element) (e : Element) (past : List Element) : Prop :=
  ∃ newer, els.reverse = newer ++ e :: past

/-- The integer of a com object reference: the one it carries, or the next one that no com
object reference of its parent carries. -/
noncomputable def comRefInteger (scope : Text) (c : Parents) (past : List Element)
    (parent rsuffix : Text) : Nat :=
  (parseU64 rsuffix).getD (freeInteger c.kept parent (past.countP (freshRefOf scope c.map parent)))

def Untouched (scope : Text) (e : Element) : Prop :=
  declares scope e = none ∧ ¬(e.name = "ParameterRef".toList ∨ e.name = "ComObjectRef".toList)

/-- No two sources of numbers meet, and ids that stay are those of no other element. -/
structure Unambiguous (appId : Text) (els : List Element) : Prop where
  numbers : (els.filterMap (scopedNumber (scopeOf appId))).Nodup
  kept : (els.filterMap (keptSuffix (scopeOf appId) (parentMap (scopeOf appId) els.reverse))).Nodup
  apart : ∀ e past e' past' id id' parent rsuffix rsuffix', Before els e past → Before els e' past' →
    e.name = "ParameterRef".toList → e'.name = "ComObjectRef".toList →
    reference (scopeOf appId) (parentsOf (scopeOf appId) els).map e = some (id, parent, rsuffix) →
    reference (scopeOf appId) (parentsOf (scopeOf appId) els).map e' = some (id', parent, rsuffix') →
    decimal (((parentsOf (scopeOf appId) els).ints.lookup parent).getD 0) ++ twoDigits (past.countP
      (paramRefOf (scopeOf appId) (parentsOf (scopeOf appId) els).map parent) + 1) ≠
        decimal (comRefInteger (scopeOf appId) (parentsOf (scopeOf appId) els) past' parent rsuffix')
  others : ∀ e ∈ els, Untouched (scopeOf appId) e → ∀ id, scopedId (scopeOf appId) e = some id →
    badIntegerSuffix id (scopeOf appId) = none ∧
      ∀ entry ∈ fullMap (scopeOf appId) els, entry.2 ≠ id
  plain : fullMap (scopeOf appId) els ≠ [] → PlainScope appId

variable {scope : Text} {els past past' : List Element} {e e' : Element}
  {id id' parent rsuffix rsuffix' : Text} {c : Parents}

theorem Before.mem (h : Before els e past) : e ∈ els := by
  obtain ⟨newer, h⟩ := h
  rw [← List.mem_reverse, h]
  exact List.mem_append_right _ List.mem_cons_self

theorem before_of_mem (h : e ∈ els) : ∃ past, Before els e past := by
  obtain ⟨newer, past, hels⟩ := List.append_of_mem (List.mem_reverse.mpr h)
  exact ⟨past, newer, hels⟩

theorem before_unique {P : Element → Bool} (h : Before els e past) (h' : Before els e' past')
    (he : P e = true) (he' : P e' = true) (hcount : past.countP P = past'.countP P) : e = e' := by
  have suffix {e : Element} {past : List Element} (h : Before els e past) : e :: past <:+ els.reverse :=
    h.imp fun _ h => h.symm
  have shorter {e e' : Element} {past past' : List Element} (h : Before els e past)
      (h' : Before els e' past') (he : P e = true) (hlen : past.length < past'.length) :
      past.countP P < past'.countP P := by
    have hsub := List.suffix_of_suffix_length_le (suffix h) ((List.suffix_cons e' past').trans (suffix h'))
      (Nat.succ_le_of_lt hlen)
    have := hsub.sublist.countP_le (p := P)
    rw [List.countP_cons_of_pos he] at this
    omega
  rcases Nat.lt_trichotomy past.length past'.length with hlen | hlen | hlen
  · exact absurd hcount (Nat.ne_of_lt (shorter h h' he hlen))
  · have hsame := List.suffix_of_suffix_length_le (suffix h) (suffix h')
      (Nat.succ_le_succ (Nat.le_of_eq hlen))
    exact (List.cons.inj (hsame.eq_of_length (congrArg Nat.succ hlen))).1
  · exact absurd hcount.symm (Nat.ne_of_lt (shorter h' h he' hlen))

theorem newSuffix_comObjectRef (hname : e.name ≠ "ParameterRef".toList) :
    newSuffix scope c past e parent rsuffix = decimal (comRefInteger scope c past parent rsuffix) := by
  unfold newSuffix comRefInteger
  rw [if_neg hname]
  cases parseU64 rsuffix <;> rfl

theorem keptSuffix_iff {map : IdMap} {n : Nat} : keptSuffix scope map e = some (parent, n) ↔
    e.name = "ComObjectRef".toList ∧ ∃ id rsuffix, reference scope map e = some (id, parent, rsuffix) ∧
      parseU64 rsuffix = some n := by
  unfold keptSuffix reference
  by_cases hname : e.name = "ComObjectRef".toList
  · rw [if_pos hname, if_pos (Or.inr hname)]
    constructor
    · intro h
      obtain ⟨id, hid, h⟩ := Option.bind_eq_some_iff.mp h
      obtain ⟨⟨parent', rsuffix⟩, hsplit, h⟩ := Option.bind_eq_some_iff.mp h
      obtain ⟨n', hn, h⟩ := Option.map_eq_some_iff.mp h
      obtain ⟨rfl, rfl⟩ := Prod.mk.inj h
      refine ⟨hname, id, rsuffix, ?_, hn⟩
      rw [hid, Option.bind_some, hsplit]
      rfl
    · rintro ⟨_, id, rsuffix, h, hn⟩
      obtain ⟨id', hid, h⟩ := Option.bind_eq_some_iff.mp h
      obtain ⟨⟨parent', rsuffix'⟩, hsplit, h⟩ := Option.map_eq_some_iff.mp h
      cases h
      rw [hid, Option.bind_some, hsplit, Option.bind_some]
      show (parseU64 rsuffix).map _ = _
      rw [hn]
      rfl
  · rw [if_neg hname]
    exact ⟨fun h => (by cases h), fun h => absurd h.1 hname⟩

theorem freshRefOf_self (hname : e.name = "ComObjectRef".toList)
    (hr : reference scope c.map e = some (id, parent, rsuffix)) (hn : parseU64 rsuffix = none) :
    freshRefOf scope c.map parent e = true := by
  unfold freshRefOf
  rw [hr, hname, Option.any_some, hn]
  simp

theorem paramRefOf_self (hname : e.name = "ParameterRef".toList)
    (hr : reference scope c.map e = some (id, parent, rsuffix)) :
    paramRefOf scope c.map parent e = true := by
  unfold paramRefOf
  rw [hr, hname]
  simp

theorem comRefInteger_unique (hkept : (parentsOf scope els).kept.Nodup)
    (h : Before els e past) (h' : Before els e' past')
    (hname : e.name = "ComObjectRef".toList) (hname' : e'.name = "ComObjectRef".toList)
    (hr : reference scope (parentsOf scope els).map e = some (id, parent, rsuffix))
    (hr' : reference scope (parentsOf scope els).map e' = some (id', parent, rsuffix'))
    (hsame : comRefInteger scope (parentsOf scope els) past parent rsuffix =
      comRefInteger scope (parentsOf scope els) past' parent rsuffix') : e = e' := by
  have carried {e : Element} {past : List Element} {id rsuffix : Text} {n : Nat}
      (h : Before els e past) (hname : e.name = "ComObjectRef".toList)
      (hr : reference scope (parentsOf scope els).map e = some (id, parent, rsuffix))
      (hn : parseU64 rsuffix = some n) :
      keptSuffix scope (parentMap scope els.reverse) e = some (parent, n) ∧
        (parent, n) ∈ (parentsOf scope els).kept := by
    have hkept := keptSuffix_iff.mpr ⟨hname, id, rsuffix, hr, hn⟩
    exact ⟨hkept, List.mem_filterMap.mpr ⟨e, h.mem, hkept⟩⟩
  have free (j : Nat) :
      (parent, freeInteger (parentsOf scope els).kept parent j) ∉ (parentsOf scope els).kept :=
    (freeInteger_least (parentsOf scope els).kept parent j).1.1.2
  unfold comRefInteger at hsame
  cases hn : parseU64 rsuffix with
  | some n =>
    obtain ⟨hcarried, hmem⟩ := carried h hname hr hn
    cases hn' : parseU64 rsuffix' with
    | some n' =>
      obtain ⟨hcarried', _⟩ := carried h' hname' hr' hn'
      rw [hn, hn', Option.getD_some, Option.getD_some] at hsame
      subst hsame
      exact filterMap_nodup_eq hkept h.mem h'.mem hcarried hcarried'
    | none =>
      rw [hn, hn', Option.getD_some, Option.getD_none] at hsame
      exact absurd (hsame ▸ hmem) (free _)
  | none =>
    cases hn' : parseU64 rsuffix' with
    | some n' =>
      obtain ⟨_, hmem⟩ := carried h' hname' hr' hn'
      rw [hn, hn', Option.getD_some, Option.getD_none] at hsame
      exact absurd (hsame ▸ hmem) (free _)
    | none =>
      rw [hn, hn', Option.getD_none, Option.getD_none] at hsame
      have hcount := (Nat.nth_strictMono (freeInteger_infinite _ parent)).injective hsame
      exact before_unique h h' (freshRefOf_self hname hr hn) (freshRefOf_self hname' hr' hn') hcount

theorem comObjectRef_name (hname : e.name = "ComObjectRef".toList) :
    e.name ≠ "ParameterRef".toList := by
  rw [hname]
  decide

theorem newSuffix_unique (hun : Unambiguous appId els) {scope : Text} (hscope : scope = scopeOf appId)
    (h : Before els e past) (h' : Before els e' past')
    (hr : reference scope (parentsOf scope els).map e = some (id, parent, rsuffix))
    (hr' : reference scope (parentsOf scope els).map e' = some (id', parent, rsuffix'))
    (hsame : newSuffix scope (parentsOf scope els) past e parent rsuffix =
      newSuffix scope (parentsOf scope els) past' e' parent rsuffix') : e = e' := by
  subst hscope
  rcases reference_name hr with hname | hname <;> rcases reference_name hr' with hname' | hname'
  · unfold newSuffix at hsame
    rw [if_pos hname, if_pos hname', List.append_cancel_left_eq] at hsame
    exact before_unique h h' (paramRefOf_self hname hr) (paramRefOf_self hname' hr')
      (Nat.succ_injective (twoDigits_inj hsame))
  · rw [newSuffix_comObjectRef (comObjectRef_name hname')] at hsame
    unfold newSuffix at hsame
    rw [if_pos hname] at hsame
    exact absurd hsame (hun.apart e past e' past' id id' parent rsuffix rsuffix' h h' hname hname' hr hr')
  · rw [newSuffix_comObjectRef (comObjectRef_name hname)] at hsame
    unfold newSuffix at hsame
    rw [if_pos hname'] at hsame
    exact absurd hsame.symm
      (hun.apart e' past' e past id' id parent rsuffix' rsuffix h' h hname' hname hr' hr)
  · rw [newSuffix_comObjectRef (comObjectRef_name hname), newSuffix_comObjectRef (comObjectRef_name hname')] at hsame
    exact comRefInteger_unique hun.kept h h' hname hname' hr hr' (decimal_inj hsame)

theorem parent_declared {k : Kind} {n : Nat} (hp : (id, k, n) ∈ parents scope els.reverse) :
    (fullMap scope els).declared id :=
  declared_iff.mpr (List.mem_map_of_mem (List.mem_append_right _ (List.mem_map_of_mem hp)))

theorem reference_declared (h : Before els e past)
    (hr : reference scope (parentsOf scope els).map e = some (id, parent, rsuffix)) :
    (fullMap scope els).declared id := by
  obtain ⟨newer, hels⟩ := h
  have hentry : (id, parent, _) ∈ references scope (parentsOf scope els) els.reverse :=
    hels ▸ references_mem hr
  exact declared_iff.mpr (List.mem_map_of_mem (List.mem_append_left _ (List.mem_map_of_mem hentry)))

theorem untouched_undeclared (hids : (scopedIds scope els).Nodup) (he : e ∈ els)
    (hid : scopedId scope e = some id) (hu : Untouched scope e) :
    ¬(fullMap scope els).declared id := by
  intro hdeclared
  obtain ⟨e', he', hid', hrole⟩ := declared_element hdeclared
  obtain rfl := filterMap_nodup_eq hids he he' hid hid'
  rcases hrole with ⟨k, hk⟩ | ⟨_, _, hr⟩
  · rw [hu.1] at hk
    cases hk
  · exact hu.2 (reference_name hr)

theorem newId_before (hids : (scopedIds scope els).Nodup) (h : Before els e past)
    (hr : reference scope (parentsOf scope els).map e = some (id, parent, rsuffix)) :
    newId scope els id = newId scope els parent ++ "_R-".toList ++
      newSuffix scope (parentsOf scope els) past e parent rsuffix := by
  obtain ⟨newer, hels⟩ := h
  exact newId_reference hids (hels ▸ references_mem hr)

theorem scopedId_cases (hids : (scopedIds scope els).Nodup) (hnumbered : Numberable scope els)
    (he : e ∈ els) (hid : scopedId scope e = some id) :
    (∃ k n, declares scope e = some (id, k) ∧ (id, k, n) ∈ parents scope els.reverse) ∨
    (∃ past parent rsuffix k n, Before els e past ∧
      reference scope (parentsOf scope els).map e = some (id, parent, rsuffix) ∧
      (parent, k, n) ∈ parents scope els.reverse ∧
      newId scope els id = integerId scope k.text n ++ "_R-".toList ++
        newSuffix scope (parentsOf scope els) past e parent rsuffix) ∨
    (Untouched scope e ∧ ¬(fullMap scope els).declared id) := by
  cases hd : declares scope e with
  | some d =>
    obtain ⟨id', k⟩ := d
    obtain rfl := Option.some.inj (hid.symm.trans (declares_scoped hd).1)
    obtain ⟨n, hp⟩ := declares_mem he hd
    exact .inl ⟨k, n, rfl, hp⟩
  | none =>
    by_cases hname : e.name = "ParameterRef".toList ∨ e.name = "ComObjectRef".toList
    · obtain ⟨past, hbefore⟩ := before_of_mem he
      have ⟨newer, hels⟩ := hbefore
      obtain ⟨id', parent, rsuffix, hr, _⟩ := valid_at hnumbered hels hname (hid ▸ rfl)
      obtain rfl := Option.some.inj (hid.symm.trans (reference_boundary hr).1)
      have hentry : (id, parent, _) ∈ references scope (parentsOf scope els) els.reverse :=
        hels ▸ references_mem hr
      obtain ⟨k, n, hp⟩ := references_parent rfl hentry
      refine .inr (.inl ⟨past, parent, rsuffix, k, n, hbefore, hr, hp, ?_⟩)
      rw [newId_before hids hbefore hr, newId_parent hids hp]
    · have hu : Untouched scope e := ⟨hd, hname⟩
      exact .inr (.inr ⟨hu, untouched_undeclared hids he hid hu⟩)

theorem mem_scopedIds : id ∈ scopedIds scope els ↔ ∃ e ∈ els, scopedId scope e = some id :=
  List.mem_filterMap

def Injective (scope : Text) (els : List Element) : Prop :=
  ∀ a ∈ scopedIds scope els, ∀ b ∈ scopedIds scope els, newId scope els a = newId scope els b → a = b

theorem newId_injective (hids : (scopedIds (scopeOf appId) els).Nodup)
    (hnumbered : Numberable (scopeOf appId) els) (hun : Unambiguous appId els) :
    Injective (scopeOf appId) els := by
  intro a ha b hb hsame
  obtain ⟨e, he, hid⟩ := mem_scopedIds.mp ha
  obtain ⟨e', he', hid'⟩ := mem_scopedIds.mp hb
  have stays {a b : Text} {e : Element} (he : e ∈ els) (hid : scopedId (scopeOf appId) e = some a)
      (hu : Untouched (scopeOf appId) e) (ha : ¬(fullMap (scopeOf appId) els).declared a)
      (hb : (fullMap (scopeOf appId) els).declared b)
      (hsame : newId (scopeOf appId) els a = newId (scopeOf appId) els b) : a = b := by
    rw [newId, rename_undeclared ha] at hsame
    exact absurd hsame.symm ((hun.others e he hu a hid).2 _ (rename_declared hb))
  rcases scopedId_cases hids hnumbered he hid with ⟨k, n, hd, hp⟩ |
    ⟨past, parent, rsuffix, k, n, hbefore, hr, hp, hnew⟩ | ⟨hu, hno⟩
  · rcases scopedId_cases hids hnumbered he' hid' with ⟨k', n', hd', hp'⟩ |
      ⟨past', parent', rsuffix', k', n', hbefore', hr', hp', hnew'⟩ | ⟨hu', hno'⟩
    · exact newId_parent_inj hids hnumbered.parents hun.numbers hp hp' hsame
    · rw [newId_parent hids hp, hnew'] at hsame
      exact absurd hsame integerId_ne
    · exact (stays he' hid' hu' hno' (parent_declared hp) hsame.symm).symm
  · rcases scopedId_cases hids hnumbered he' hid' with ⟨k', n', hd', hp'⟩ |
      ⟨past', parent', rsuffix', k', n', hbefore', hr', hp', hnew'⟩ | ⟨hu', hno'⟩
    · rw [newId_parent hids hp', hnew] at hsame
      exact absurd hsame.symm integerId_ne
    · rw [hnew, hnew'] at hsame
      obtain ⟨hparent, hsuffix⟩ := integerId_boundary hsame
      rw [← newId_parent hids hp, ← newId_parent hids hp'] at hparent
      obtain rfl := newId_parent_inj hids hnumbered.parents hun.numbers hp hp' hparent
      obtain rfl := newSuffix_unique hun rfl hbefore hbefore' hr hr' hsuffix
      exact Option.some.inj (hid.symm.trans hid')
    · exact (stays he' hid' hu' hno' (reference_declared hbefore hr) hsame.symm).symm
  · by_cases hdeclared : (fullMap (scopeOf appId) els).declared b
    · exact stays he hid hu hno hdeclared hsame
    · rwa [newId, rename_undeclared hno, rename_undeclared hdeclared] at hsame

theorem newSuffix_isNumeral : isNumeral (newSuffix scope c past e parent rsuffix) = true := by
  have hne : newSuffix scope c past e parent rsuffix ≠ [] := by
    unfold newSuffix
    split_ifs
    · exact fun h => decimal_ne_nil _ (List.append_eq_nil_iff.mp h).1
    · split <;> exact decimal_ne_nil _
  unfold isNumeral
  rw [decide_eq_true hne]
  exact List.all_eq_true.mpr newSuffix_isDigit

/-- The format of a new id depends on the application id, that of other ids on themselves. -/
theorem newId_format (hids : (scopedIds (scopeOf appId) els).Nodup)
    (hnumbered : Numberable (scopeOf appId) els) (he : e ∈ els)
    (hid : scopedId (scopeOf appId) e = some id) :
    ((fullMap (scopeOf appId) els).declared id ∧
      (badIntegerSuffix (newId (scopeOf appId) els id) (scopeOf appId) = none ↔ PlainScope appId)) ∨
    (Untouched (scopeOf appId) e ∧ ¬(fullMap (scopeOf appId) els).declared id ∧
      newId (scopeOf appId) els id = id) := by
  by_cases hdeclared : (fullMap (scopeOf appId) els).declared id
  · refine .inl ⟨hdeclared, ?_⟩
    rcases scopedId_cases hids hnumbered he hid with ⟨k, n, hd, hp⟩ |
      ⟨past, parent, rsuffix, k, n, hbefore, hr, hp, hnew⟩ | ⟨_, hno⟩
    · rw [newId_parent hids hp, ← List.append_nil (integerId _ _ _)]
      exact badIntegerSuffix_new appId k n (.inl rfl)
    · rw [hnew, List.append_assoc]
      exact badIntegerSuffix_new appId k n (.inr ⟨_, rfl, newSuffix_isNumeral⟩)
    · exact absurd hdeclared hno
  · refine .inr ?_
    rcases scopedId_cases hids hnumbered he hid with ⟨k, n, hd, hp⟩ |
      ⟨past, parent, rsuffix, k, n, hbefore, hr, hp, hnew⟩ | ⟨hu, hno⟩
    · exact absurd (parent_declared hp) hdeclared
    · exact absurd (reference_declared hbefore hr) hdeclared
    · exact ⟨hu, hno, rename_undeclared hno⟩

theorem filterMap_nodup_of {β γ δ : Type} {g : β → Option γ} {g' : β → Option δ} {xs : List β}
    (h : (xs.filterMap g).Nodup) (hg : ∀ x ∈ xs, ∀ y ∈ xs, ∀ v, g' x = some v → g' y = some v →
      ∃ w, g x = some w ∧ g y = some w) : (xs.filterMap g').Nodup := by
  have hpair : xs.Pairwise fun x y => ∀ b ∈ g x, ∀ b' ∈ g y, b ≠ b' := List.pairwise_filterMap.mp h
  refine List.pairwise_filterMap.mpr (hpair.imp_of_mem fun hx hy hxy v hv v' hv' => ?_)
  rintro rfl
  obtain ⟨w, hw, hw'⟩ := hg _ hx _ hy v hv hv'
  exact hxy w hw w hw' rfl

theorem newId_number (hids : (scopedIds scope els).Nodup) (he : e ∈ els) {n : Nat}
    (hn : scopedNumber scope e = some n) : ∃ a, scopedId scope e = some a ∧
      newId scope els a = integerId scope Kind.comObject.text n := by
  obtain ⟨⟨a, k⟩, hd, hk⟩ := Option.bind_eq_some_iff.mp hn
  split_ifs at hk with hobject
  dsimp only at hobject
  subst hobject
  obtain ⟨newer, past, hels⟩ := List.append_of_mem (List.mem_reverse.mpr he)
  have hp : (a, Kind.comObject, parentNumber scope past .comObject e) ∈ parents scope els.reverse :=
    hels ▸ parents_mem hd
  have hnumber : parentNumber scope past .comObject e = n := by
    unfold parentNumber
    rw [if_pos rfl, hk]
    rfl
  rw [hnumber] at hp
  exact ⟨a, (declares_scoped hd).1, newId_parent hids hp⟩

theorem Injective.numbers (hinj : Injective scope els) (hids : (scopedIds scope els).Nodup) :
    (els.filterMap (scopedNumber scope)).Nodup := by
  refine filterMap_nodup_of hids fun x hx y hy n hn hn' => ?_
  obtain ⟨a, ha, hnew⟩ := newId_number hids hx hn
  obtain ⟨b, hb, hnew'⟩ := newId_number hids hy hn'
  have hsame := hinj a (mem_scopedIds.mpr ⟨x, hx, ha⟩) b (mem_scopedIds.mpr ⟨y, hy, hb⟩)
    (hnew.trans hnew'.symm)
  exact ⟨a, ha, hsame ▸ hb⟩

theorem Injective.suffix (hinj : Injective scope els) (hids : (scopedIds scope els).Nodup)
    (h : Before els e past) (h' : Before els e' past')
    (hr : reference scope (parentsOf scope els).map e = some (id, parent, rsuffix))
    (hr' : reference scope (parentsOf scope els).map e' = some (id', parent, rsuffix'))
    (hsame : newSuffix scope (parentsOf scope els) past e parent rsuffix =
      newSuffix scope (parentsOf scope els) past' e' parent rsuffix') : id = id' := by
  refine hinj id (mem_scopedIds.mpr ⟨e, h.mem, (reference_boundary hr).1⟩)
    id' (mem_scopedIds.mpr ⟨e', h'.mem, (reference_boundary hr').1⟩) ?_
  rw [newId_before hids h hr, newId_before hids h' hr', hsame]

theorem Injective.kept (hinj : Injective scope els) (hids : (scopedIds scope els).Nodup) :
    (els.filterMap (keptSuffix scope (parentMap scope els.reverse))).Nodup := by
  refine filterMap_nodup_of hids fun x hx y hy entry hx' hy' => ?_
  obtain ⟨parent, n⟩ := entry
  obtain ⟨hname, a, rsuffix, hr, hn⟩ := keptSuffix_iff.mp hx'
  obtain ⟨hname', b, rsuffix', hr', hn'⟩ := keptSuffix_iff.mp hy'
  obtain ⟨past, hbefore⟩ := before_of_mem hx
  obtain ⟨past', hbefore'⟩ := before_of_mem hy
  have hsame := hinj.suffix hids hbefore hbefore' hr hr' (by
    rw [newSuffix_comObjectRef (comObjectRef_name hname),
      newSuffix_comObjectRef (comObjectRef_name hname')]
    unfold comRefInteger
    rw [hn, hn', Option.getD_some, Option.getD_some])
  exact ⟨a, (reference_boundary (c := parentsOf scope els) hr).1,
    hsame ▸ (reference_boundary (c := parentsOf scope els) hr').1⟩

theorem Injective.apart (hinj : Injective scope els) (hids : (scopedIds scope els).Nodup)
    (h : Before els e past) (h' : Before els e' past') (hname : e.name = "ParameterRef".toList)
    (hname' : e'.name = "ComObjectRef".toList)
    (hr : reference scope (parentsOf scope els).map e = some (id, parent, rsuffix))
    (hr' : reference scope (parentsOf scope els).map e' = some (id', parent, rsuffix')) :
    newSuffix scope (parentsOf scope els) past e parent rsuffix ≠
      newSuffix scope (parentsOf scope els) past' e' parent rsuffix' := by
  intro hmeet
  have hsame := hinj.suffix hids h h' hr hr' hmeet
  have helement := filterMap_nodup_eq hids h.mem h'.mem (reference_boundary hr).1
    (hsame ▸ (reference_boundary hr').1)
  rw [helement] at hname
  exact comObjectRef_name hname' hname

theorem Injective.others (hinj : Injective scope els) (hids : (scopedIds scope els).Nodup)
    (he : e ∈ els) (hu : Untouched scope e) (hid : scopedId scope e = some id) :
    ∀ entry ∈ fullMap scope els, entry.2 ≠ id := by
  intro entry hentry hsame
  have hno := untouched_undeclared hids he hid hu
  have hdeclared : (fullMap scope els).declared entry.1 :=
    declared_iff.mpr (List.mem_map_of_mem hentry)
  obtain ⟨e', he', hid', _⟩ := declared_element hdeclared
  have hrename : newId scope els entry.1 = entry.2 := rename_mem (fullMap_nodup hids) hentry
  have hnew : newId scope els id = id := rename_undeclared hno
  have := hinj entry.1 (mem_scopedIds.mpr ⟨e', he', hid'⟩) id (mem_scopedIds.mpr ⟨e, he, hid⟩)
    (hrename.trans (hsame.trans hnew.symm))
  exact hno (this ▸ hdeclared)

theorem unambiguous_of_injective (hids : (scopedIds (scopeOf appId) els).Nodup)
    (hnumbered : Numberable (scopeOf appId) els) (hinj : Injective (scopeOf appId) els)
    (hformat : ∀ a ∈ scopedIds (scopeOf appId) els,
      badIntegerSuffix (newId (scopeOf appId) els a) (scopeOf appId) = none) :
    Unambiguous appId els := by
  constructor
  case numbers => exact hinj.numbers hids
  case kept => exact hinj.kept hids
  case apart =>
    intro e past e' past' id id' parent rsuffix rsuffix' h h' hname hname' hr hr' hmeet
    refine hinj.apart hids h h' hname hname' hr hr' ?_
    rw [newSuffix_comObjectRef (comObjectRef_name hname'), ← hmeet]
    unfold newSuffix
    rw [if_pos hname]
  case others =>
    intro e he hu id hid
    refine ⟨?_, hinj.others hids he hu hid⟩
    have := hformat id (mem_scopedIds.mpr ⟨e, he, hid⟩)
    rwa [newId, rename_undeclared (untouched_undeclared hids he hid hu)] at this
  case plain =>
    intro hne
    obtain ⟨entry, hentry⟩ := List.exists_mem_of_ne_nil _ hne
    have hdeclared : (fullMap (scopeOf appId) els).declared entry.1 :=
      declared_iff.mpr (List.mem_map_of_mem hentry)
    obtain ⟨e, he, hid, _⟩ := declared_element hdeclared
    rcases newId_format hids hnumbered he hid with ⟨_, hplain⟩ | ⟨_, hno, _⟩
    · exact hplain.mp (hformat _ (mem_scopedIds.mpr ⟨e, he, hid⟩))
    · exact absurd hdeclared hno

/-! ## The renumbered document -/

theorem scopedIds_renamed : scopedIds scope (els.map (Element.mapValues (newId scope els))) =
      (scopedIds scope els).map (newId scope els) := by
  unfold scopedIds
  rw [List.filterMap_map, List.map_filterMap]
  exact List.filterMap_congr fun e _ => scopedId_renamed scope els e

theorem scopedReferences_renamed :
    scopedReferences scope (els.map (Element.mapValues (newId scope els))) =
      (scopedReferences scope els).map (newId scope els) := by
  have hattributes : (els.map (Element.mapValues (newId scope els))).flatMap Element.attributes =
      (els.flatMap Element.attributes).map fun attr => (attr.1, newId scope els attr.2) := by
    rw [List.flatMap_map, List.map_flatMap]
    rfl
  unfold scopedReferences scopedValues
  rw [hattributes, List.filter_map, List.map_map, List.map_map]
  refine congrArg (List.map _) (List.filter_congr fun attr _ => ?_)
  show (scope.isPrefixOf (newId scope els attr.2) && _) = (scope.isPrefixOf attr.2 && _)
  rw [newId_scope]

/-- The renumbered document is sane exactly when no two numbers meet. -/
theorem renamed_sane_iff (hids : (scopedIds (scopeOf appId) els).Nodup)
    (hnumbered : Numberable (scopeOf appId) els)
    (hresolved : ∀ id ∈ scopedReferences (scopeOf appId) els, id ∈ scopedIds (scopeOf appId) els) :
    Sane (scopeOf appId) (els.map (Element.mapValues (newId (scopeOf appId) els))) ↔
      Unambiguous appId els := by
  constructor
  · intro h
    refine unambiguous_of_injective hids hnumbered ?_ fun a ha => ?_
    · have hnodup := h.ids
      rw [scopedIds_renamed] at hnodup
      exact fun a ha b hb hsame => List.inj_on_of_nodup_map hnodup ha hb hsame
    · refine h.format _ ?_
      rw [scopedIds_renamed]
      exact List.mem_map_of_mem ha
  · intro h
    have hformat : ∀ a ∈ scopedIds (scopeOf appId) els,
        badIntegerSuffix (newId (scopeOf appId) els a) (scopeOf appId) = none := by
      intro a ha
      obtain ⟨e, he, hid⟩ := mem_scopedIds.mp ha
      rcases newId_format hids hnumbered he hid with ⟨hdeclared, hplain⟩ | ⟨hu, _, hnew⟩
      · refine hplain.mpr (h.plain fun hnil => ?_)
        have := declared_iff.mp hdeclared
        rw [hnil] at this
        cases this
      · rw [hnew]
        exact (h.others e he hu a hid).1
    constructor
    · rw [scopedIds_renamed]
      exact hids.map_on fun a ha b hb => newId_injective hids hnumbered h a ha b hb
    · rw [scopedIds_renamed]
      intro id hid
      obtain ⟨a, ha, rfl⟩ := List.mem_map.mp hid
      exact hformat a ha
    · rw [scopedReferences_renamed]
      intro id hid
      obtain ⟨a, ha, rfl⟩ := List.mem_map.mp hid
      exact hformat a (hresolved a ha)
    · rw [scopedReferences_renamed, scopedIds_renamed]
      intro id hid
      obtain ⟨a, ha, rfl⟩ := List.mem_map.mp hid
      exact List.mem_map_of_mem (hresolved a ha)

def declaredIds (els : List Element) : List Text := els.filterMap fun e => e.attr "Id".toList

def referredIds (els : List Element) : List Text :=
  ((els.flatMap Element.attributes).filter fun attr => isReferenceAttr attr.1).map Prod.snd

/-- The ids are renamed one to one, and each reference names the image of what it named. -/
structure Renaming (els els' : List Element) (f : Text → Text) : Prop where
  elements : els' = els.map (Element.mapValues f)
  injective : ∀ a ∈ declaredIds els, ∀ b ∈ declaredIds els, f a = f b → a = b
  references : ∀ v ∈ referredIds els, ∀ a ∈ declaredIds els, f v = f a ↔ v = a

/-- The result is accepted, and a renaming of the document. -/
structure Sound (reader : Reader) (els : List Element) (out : Text) : Prop where
  sane : sanityCheck reader out = .ok ()
  renames : ∃ f, Renaming els (reader out).elements f

theorem isId_not_reference {name : Text} (h : isReferenceAttr name = true) : isId name = false := by
  unfold isId
  refine decide_eq_false ?_
  rintro rfl
  revert h
  decide

theorem renaming_of_injective
    (hresolved : ∀ id ∈ scopedReferences scope els, id ∈ scopedIds scope els)
    (hinj : ∀ a ∈ scopedIds scope els, ∀ b ∈ scopedIds scope els,
      newId scope els a = newId scope els b → a = b) :
    Renaming els (els.map (Element.mapValues (newId scope els))) (newId scope els) := by
  have outside {v : Text} (h : ¬scope.isPrefixOf v = true) : newId scope els v = v :=
    newId_outside (mt List.isPrefixOf_iff_prefix.mpr h)
  have inside {a : Text} (ha : a ∈ declaredIds els) (h : scope.isPrefixOf a = true) :
      a ∈ scopedIds scope els := by
    obtain ⟨e, he, hid⟩ := List.mem_filterMap.mp ha
    refine mem_scopedIds.mpr ⟨e, he, ?_⟩
    unfold scopedId
    rw [hid, Option.filter_some_pos h]
  have same {a b : Text} (ha : scope.isPrefixOf a = true → a ∈ scopedIds scope els)
      (hb : scope.isPrefixOf b = true → b ∈ scopedIds scope els)
      (h : newId scope els a = newId scope els b) : a = b := by
    have hscope : scope.isPrefixOf a = scope.isPrefixOf b := by
      rw [← newId_scope, h, newId_scope]
    by_cases hin : scope.isPrefixOf a = true
    · exact hinj a (ha hin) b (hb (hscope ▸ hin)) h
    · rwa [outside hin, outside (hscope ▸ hin)] at h
  refine ⟨rfl, fun a ha b hb h => same (inside ha) (inside hb) h, fun v hv a ha => ?_⟩
  refine ⟨fun h => same (fun hin => ?_) (inside ha) h, fun h => h ▸ rfl⟩
  obtain ⟨attr, hattr, rfl⟩ := List.mem_map.mp hv
  obtain ⟨hmem, hreference⟩ := List.mem_filter.mp hattr
  refine hresolved _ (List.mem_map_of_mem (List.mem_filter.mpr ⟨hmem, ?_⟩))
  show (scope.isPrefixOf attr.2 && (!isId attr.1 && isReferenceAttr attr.1)) = true
  rw [hin, isId_not_reference hreference, hreference]
  rfl

/-- Renumbering is sound exactly when no two numbers meet. -/
theorem renumbered_sound_iff {reader : Reader} (documented : reader.Documented) {doc : Document}
    (scannable : Scannable doc) {appId : Text}
    (happ : findAttribute doc.elements "ApplicationProgram".toList "Id".toList = some appId)
    (hids : (scopedIds (scopeOf appId) doc.elements).Nodup)
    (hresolved : ∀ id ∈ scopedReferences (scopeOf appId) doc.elements,
      id ∈ scopedIds (scopeOf appId) doc.elements)
    {out : Text} (h : renumberIds reader doc.render = .ok out) :
    Sound reader doc.elements out ↔ Unambiguous appId doc.elements := by
  obtain ⟨hnumbered, rfl⟩ := (renumberIds_ok documented scannable happ).mp h
  have helements := Document.elements_mapValues doc
    (@newId_replaces (scopeOf appId) doc.elements)
  have happ' : newId (scopeOf appId) doc.elements appId = appId :=
    newId_outside (scopeOf_outside appId)
  have hsane : sanityCheck reader (doc.mapValues (newId (scopeOf appId) doc.elements)
      newId_replaces).render = .ok () ↔ Unambiguous appId doc.elements := by
    rw [sanityCheck_render documented _ (scannable_mapValues scannable _), helements,
      findAttribute_mapValues, happ, Option.map_some, happ']
    rw [← renamed_sane_iff hids hnumbered hresolved]
    exact ⟨fun ⟨_, hsame, hsane⟩ => Option.some.inj hsame ▸ hsane, fun hsane => ⟨appId, rfl, hsane⟩⟩
  refine ⟨fun hsound => hsane.mp hsound.sane,
    fun hun => ⟨hsane.mpr hun, newId (scopeOf appId) doc.elements, ?_⟩⟩
  rw [documented, helements]
  exact renaming_of_injective hresolved (newId_injective hids hnumbered hun)

theorem exchanged_sound : ∃ out, renumberIds XmlReader.xmlReader exchanged.render = .ok out ∧
    (Sound XmlReader.xmlReader exchanged.elements out ↔
      Unambiguous "M-00FA_A-0001-01-0000".toList exchanged.elements) := by
  have hok : (renumberIds XmlReader.xmlReader exchanged.render).isOk = true := by decide +kernel
  cases h : renumberIds XmlReader.xmlReader exchanged.render with
  | error f =>
    rw [h] at hok
    cases hok
  | ok out =>
    refine ⟨out, rfl, renumbered_sound_iff XmlReader.xmlReader_documented ?_ ?_ ?_ ?_ h⟩ <;>
      decide +kernel

/-- References whose integers are written differently. -/
def padded : Document where
  tokens := [
    .startTag "ApplicationProgram".toList [("Id".toList, "M-00FA_A-0001-01-0000".toList)],
    comObject "M-00FA_A-0001-01-0000_O-5" "5",
    comObjectRef "M-00FA_A-0001-01-0000_O-5" "1",
    comObjectRef "M-00FA_A-0001-01-0000_O-5" "01",
    .closing "ApplicationProgram".toList]
  wellFormed := by decide +kernel
  balanced := by decide +kernel

/-- Suffixes that differ by leading zeros become one id. -/
theorem padded_unsound : XmlReader.xmlReader.Documented ∧
    findAttribute padded.elements "ApplicationProgram".toList "Id".toList =
      some "M-00FA_A-0001-01-0000".toList ∧
    (scopedIds (scopeOf "M-00FA_A-0001-01-0000".toList) padded.elements).Nodup ∧
    (∀ id ∈ scopedReferences (scopeOf "M-00FA_A-0001-01-0000".toList) padded.elements,
      id ∈ scopedIds (scopeOf "M-00FA_A-0001-01-0000".toList) padded.elements) ∧
    ∃ out, renumberIds XmlReader.xmlReader padded.render = .ok out ∧
      ¬Sound XmlReader.xmlReader padded.elements out := by
  refine ⟨XmlReader.xmlReader_documented, by decide +kernel, by decide +kernel,
    by decide +kernel, ?_⟩
  have hok : (renumberIds XmlReader.xmlReader padded.render).isOk = true := by decide +kernel
  have hreport : (renumberIds XmlReader.xmlReader padded.render).bind
      (sanityCheck XmlReader.xmlReader) ≠ .ok () := by
    decide +kernel
  cases h : renumberIds XmlReader.xmlReader padded.render with
  | error f =>
    rw [h] at hok
    cases hok
  | ok out =>
    rw [h] at hreport
    exact ⟨out, rfl, fun hsound => hreport hsound.sane⟩

end KnxRs.Renumber
