import KnxRs.IdNumbering
import Mathlib.Data.List.Destutter
import Mathlib.Data.Char
import Mathlib.Data.List.Lex

set_option autoImplicit false

/-!
# The sanity check

`sanity.rs`: the structure of a product document, by the values of its attributes that are in
the scope of the application program. It succeeds where no id is declared twice, the suffixes
of integer types are integers, and every reference is declared.
-/
namespace KnxRs.Sanity
open Texts XmlDocuments XmlScan Renumber

/-! ## The check -/

def intMarkers : List Text :=
  ["_UP-".toList, "_P-".toList, "_O-".toList, "_R-".toList, "_PB-".toList, "_PS-".toList]

def markerSegment (after : Text) : Text := after.takeWhile fun c => c ≠ '_' && c ≠ '"'

/-- The first occurrence of the marker that no integer follows. -/
def badMarker (marker : Text) : Text → Option Text
  | [] => none
  | c :: cs =>
    if marker.isPrefixOf (c :: cs) ∧ ¬isNumeral (markerSegment ((c :: cs).drop marker.length)) then
      some (marker ++ markerSegment ((c :: cs).drop marker.length))
    else badMarker marker cs

/-- What is wrong with an id of an integer type. -/
def badIntegerSuffix (value scope : Text) : Option Text := do
  let (before, after) ← splitOnce scope value
  let (kind, _) ← splitOnce "-".toList after
  if '_' :: kind ++ "-".toList ∈ intMarkers then
    intMarkers.findSome? fun marker => badMarker marker (value.drop before.length)
  else none

def endsWith (suffix name : Text) : Bool := suffix.reverse.isPrefixOf name.reverse

def isReferenceAttr (name : Text) : Bool :=
  endsWith "RefId".toList name || endsWith "RefRef".toList name || name = "ParamRefId".toList

structure Findings where
  declared : List Text
  dup : List Text
  badFormat : List Text
  references : List Text

/-- What is found of one attribute. -/
def inspect (scope : Text) (s : Findings) (attr : Text × Text) : Findings :=
  if ¬scope.isPrefixOf attr.2 then s
  else if attr.1 = "Id".toList then { s with
    declared := attr.2 :: s.declared
    dup := if attr.2 ∈ s.declared then attr.2 :: s.dup else s.dup
    badFormat := (badIntegerSuffix attr.2 scope).toList ++ s.badFormat }
  else if isReferenceAttr attr.1 then { s with
    references := attr.2 :: s.references
    badFormat := (badIntegerSuffix attr.2 scope).toList ++ s.badFormat }
  else s

def sortDedup (xs : List Text) : List Text :=
  (xs.mergeSort fun a b => decide (a ≤ b)).destutter (· ≠ ·)

def findings (scope : Text) (els : List Element) : Findings :=
  (els.flatMap Element.attributes).foldl (inspect scope) ⟨[], [], [], []⟩

def problems (s : Findings) : List Text :=
  (sortDedup s.badFormat).map ("non-integer id suffix: ".toList ++ ·) ++
    (sortDedup s.dup).map ("duplicate Id: ".toList ++ ·) ++
      (sortDedup (s.references.filter (· ∉ s.declared))).map
        ("dangling reference (no such Id): ".toList ++ ·)

/-- At most 40 lines are reported. -/
def capped (errors : List Text) : List Text :=
  if 40 < errors.length then
    errors.take 40 ++ ["… and ".toList ++ decimal (errors.length - 40) ++ " more".toList]
  else errors

def sanityCheck (reader : Reader) (xml : Text) : Except Failure Unit := do
  let appId ← (extractApplicationId reader xml).mapError .error
  let els ← (scan xml).mapError fun _ => .panic
  let errors := problems (findings (scopeOf appId) els)
  if errors = [] then .ok () else .error (.error (.validation (capped errors)))

/-! ## When it succeeds -/

def scopedValues (scope : Text) (named : Text → Bool) (attrs : List (Text × Text)) : List Text :=
  (attrs.filter fun attr => scope.isPrefixOf attr.2 && named attr.1).map Prod.snd

def isId (name : Text) : Bool := name = "Id".toList

def scopedReferences (scope : Text) (els : List Element) : List Text :=
  scopedValues scope (fun name => !isId name && isReferenceAttr name)
    (els.flatMap Element.attributes)

/-- The structure that the check accepts. -/
structure Sane (scope : Text) (els : List Element) : Prop where
  ids : (scopedIds scope els).Nodup
  format : ∀ id ∈ scopedIds scope els, badIntegerSuffix id scope = none
  referenceFormat : ∀ id ∈ scopedReferences scope els, badIntegerSuffix id scope = none
  resolved : ∀ id ∈ scopedReferences scope els, id ∈ scopedIds scope els

theorem sortDedup_nil {xs : List Text} : sortDedup xs = [] ↔ xs = [] := by
  unfold sortDedup
  rw [List.destutter_eq_nil]
  constructor
  · intro h
    have := List.mergeSort_perm xs fun a b => decide (a ≤ b)
    rw [h] at this
    exact List.nil_perm.mp this
  · rintro rfl
    exact List.mergeSort_nil

variable {scope : Text} {attrs : List (Text × Text)} {s : Findings}

theorem inspect_cases (scope : Text) (s : Findings) (attr : Text × Text) :
    ((scope.isPrefixOf attr.2 = false ∨ (isId attr.1 = false ∧ isReferenceAttr attr.1 = false)) ∧
        inspect scope s attr = s) ∨
      (scope.isPrefixOf attr.2 = true ∧ isId attr.1 = true ∧
        inspect scope s attr = ⟨attr.2 :: s.declared,
          if attr.2 ∈ s.declared then attr.2 :: s.dup else s.dup,
          (badIntegerSuffix attr.2 scope).toList ++ s.badFormat, s.references⟩) ∨
      (scope.isPrefixOf attr.2 = true ∧ isId attr.1 = false ∧ isReferenceAttr attr.1 = true ∧
        inspect scope s attr = ⟨s.declared, s.dup,
          (badIntegerSuffix attr.2 scope).toList ++ s.badFormat, attr.2 :: s.references⟩) := by
  unfold inspect isId
  cases hscope : scope.isPrefixOf attr.2 with
  | false => exact .inl ⟨.inl rfl, if_pos Bool.false_ne_true⟩
  | true =>
    rw [if_neg (not_not_intro rfl)]
    by_cases hid : attr.1 = "Id".toList
    · exact .inr (.inl ⟨rfl, decide_eq_true hid, if_pos hid⟩)
    · rw [if_neg hid]
      cases hreference : isReferenceAttr attr.1 with
      | false => exact .inl ⟨.inr ⟨decide_eq_false hid, rfl⟩, if_neg Bool.false_ne_true⟩
      | true => exact .inr (.inr ⟨rfl, decide_eq_false hid, rfl, if_pos rfl⟩)

theorem scopedValues_cons (named : Text → Bool) (attr : Text × Text) (attrs : List (Text × Text)) :
    scopedValues scope named (attr :: attrs) =
      (if scope.isPrefixOf attr.2 && named attr.1 then [attr.2] else []) ++
        scopedValues scope named attrs := by
  unfold scopedValues
  rw [List.filter_cons]
  split_ifs <;> rfl

theorem scopedValues_cases (scope : Text) (s : Findings) (attr : Text × Text) :
    ∃ ids references : List Text,
      (∀ attrs, scopedValues scope isId (attr :: attrs) = ids ++ scopedValues scope isId attrs) ∧
      (∀ attrs, scopedValues scope (fun name => !isId name && isReferenceAttr name) (attr :: attrs) =
        references ++ scopedValues scope (fun name => !isId name && isReferenceAttr name) attrs) ∧
      (inspect scope s attr).declared = ids ++ s.declared ∧
      (inspect scope s attr).references = references ++ s.references ∧
      ((inspect scope s attr).badFormat = [] ↔ s.badFormat = [] ∧
        ∀ id ∈ ids ++ references, badIntegerSuffix id scope = none) ∧
      ((inspect scope s attr).dup = [] ↔ s.dup = [] ∧ ∀ id ∈ ids, id ∉ s.declared) ∧
      ids.length ≤ 1 := by
  rcases inspect_cases scope s attr with ⟨hno, h⟩ | ⟨hscope, hid, h⟩ | ⟨hscope, hid, href, h⟩
  · refine ⟨[], [], fun attrs => ?_, fun attrs => ?_, ?_⟩
    · rw [scopedValues_cons, if_neg]
      rcases hno with hno | ⟨hno, _⟩ <;> simp [hno]
    · rw [scopedValues_cons, if_neg]
      rcases hno with hno | ⟨_, hno⟩ <;> simp [hno]
    · rw [h]
      simp
  · refine ⟨[attr.2], [], fun attrs => ?_, fun attrs => ?_, ?_⟩
    · rw [scopedValues_cons, if_pos (by simp [hscope, hid])]
    · rw [scopedValues_cons, if_neg (by simp [hid])]
    · rw [h]
      refine ⟨rfl, rfl, ?_, ?_, Nat.le_refl _⟩
      · simp [and_comm]
      · by_cases hmem : attr.2 ∈ s.declared <;> simp [hmem]
  · refine ⟨[], [attr.2], fun attrs => ?_, fun attrs => ?_, ?_⟩
    · rw [scopedValues_cons, if_neg (by simp [hid])]
    · rw [scopedValues_cons, if_pos (by simp [hscope, hid, href])]
    · rw [h]
      simp [and_comm]

theorem inspect_run (scope : Text) (s : Findings) (attrs : List (Text × Text)) :
    ((attrs.foldl (inspect scope) s).declared.Perm (scopedValues scope isId attrs ++ s.declared)) ∧
    ((attrs.foldl (inspect scope) s).references.Perm (scopedValues scope
      (fun name => !isId name && isReferenceAttr name) attrs ++ s.references)) ∧
    ((attrs.foldl (inspect scope) s).badFormat = [] ↔ s.badFormat = [] ∧
      (∀ id ∈ scopedValues scope isId attrs, badIntegerSuffix id scope = none) ∧
      ∀ id ∈ scopedValues scope (fun name => !isId name && isReferenceAttr name) attrs,
        badIntegerSuffix id scope = none) ∧
    ((attrs.foldl (inspect scope) s).dup = [] ↔ s.dup = [] ∧
      (scopedValues scope isId attrs).Nodup ∧
      ∀ id ∈ scopedValues scope isId attrs, id ∉ s.declared) := by
  induction attrs generalizing s with
  | nil => simp [scopedValues]
  | cons attr attrs ih =>
    obtain ⟨ids, references, hids, hreferences, hdeclared', hreferences', hbad, hdup, hlen⟩ :=
      scopedValues_cases scope s attr
    obtain ⟨ihdeclared, ihreferences, ihbad, ihdup⟩ := ih (inspect scope s attr)
    rw [List.foldl_cons, hids, hreferences]
    refine ⟨ihdeclared.trans ?_, ihreferences.trans ?_, ihbad.trans ?_, ihdup.trans ?_⟩
    · rw [hdeclared', ← List.append_assoc]
      exact List.perm_append_comm.append_right _
    · rw [hreferences', ← List.append_assoc]
      exact List.perm_append_comm.append_right _
    · rw [hbad]
      simp only [List.forall_mem_append]
      exact ⟨fun ⟨⟨hs, hi, hr⟩, hi', hr'⟩ => ⟨hs, ⟨hi, hi'⟩, hr, hr'⟩,
        fun ⟨hs, ⟨hi, hi'⟩, hr, hr'⟩ => ⟨⟨hs, hi, hr⟩, hi', hr'⟩⟩
    · have hone : ids.Nodup := by
        match ids, hlen with
        | [], _ => exact List.nodup_nil
        | [id], _ => exact List.nodup_singleton id
      rw [hdup, hdeclared', List.nodup_append, List.forall_mem_append]
      constructor
      · rintro ⟨⟨hs, hnew⟩, hrest, hfresh⟩
        refine ⟨hs, ⟨hone, hrest, fun a ha b hb => ?_⟩, hnew, fun id hid hmem => ?_⟩
        · rintro rfl
          exact hfresh a hb (List.mem_append_left _ ha)
        · exact hfresh id hid (List.mem_append_right _ hmem)
      · rintro ⟨hs, ⟨_, hrest, hapart⟩, hnew, hold⟩
        refine ⟨⟨hs, hnew⟩, hrest, fun id hid hmem => ?_⟩
        exact (List.mem_append.mp hmem).elim (fun h => hapart id h id hid rfl) (hold id hid)

theorem scopedValues_append (named : Text → Bool) (xs ys : List (Text × Text)) :
    scopedValues scope named (xs ++ ys) = scopedValues scope named xs ++ scopedValues scope named ys := by
  unfold scopedValues
  rw [List.filter_append, List.map_append]

theorem scopedValues_id {e : Element} (h : (e.attributes.map Prod.fst).Nodup) :
    scopedValues scope isId e.attributes = (scopedId scope e).toList := by
  unfold scopedId Element.attr
  obtain ⟨name, attributes⟩ := e
  dsimp only at h ⊢
  induction attributes with
  | nil => rfl
  | cons attr attrs ih =>
    rw [List.map_cons, List.nodup_cons] at h
    rw [scopedValues_cons, List.lookup_cons]
    by_cases hid : attr.1 = "Id".toList
    · have hrest : scopedValues scope isId attrs = [] := by
        unfold scopedValues
        rw [List.map_eq_nil_iff, List.filter_eq_nil_iff]
        intro other hother hnamed
        have hsame : other.1 = "Id".toList :=
          of_decide_eq_true (Bool.and_eq_true_iff.mp hnamed).2
        exact h.1 (hid.trans hsame.symm ▸ List.mem_map_of_mem hother)
      rw [hrest, List.append_nil, hid, beq_self_eq_true]
      show (if (scope.isPrefixOf attr.2 && isId "Id".toList) = true then [attr.2] else []) =
        (Option.filter _ (some attr.2)).toList
      rw [show isId "Id".toList = true from rfl, Bool.and_true]
      cases hscope : scope.isPrefixOf attr.2 with
      | true =>
        rw [Option.filter_some_pos hscope]
        rfl
      | false =>
        rw [Option.filter_some_neg hscope]
        rfl
    · have hne : ("Id".toList == attr.1) = false := beq_eq_false_iff_ne.mpr (Ne.symm hid)
      have hno : ¬(scope.isPrefixOf attr.2 && isId attr.1) = true := by
        rw [show isId attr.1 = false from decide_eq_false hid, Bool.and_false]
        exact Bool.false_ne_true
      rw [hne, if_neg hno, List.nil_append]
      exact ih h.2

theorem scopedValues_ids {els : List Element} (h : ∀ e ∈ els, (e.attributes.map Prod.fst).Nodup) :
    scopedValues scope isId (els.flatMap Element.attributes) = scopedIds scope els := by
  induction els with
  | nil => rfl
  | cons e els ih =>
    obtain ⟨he, hels⟩ := List.forall_mem_cons.mp h
    rw [List.flatMap_cons, scopedValues_append, scopedValues_id he, ih hels]
    unfold scopedIds
    cases hid : scopedId scope e with
    | none => rw [List.filterMap_cons_none hid]; rfl
    | some id => rw [List.filterMap_cons_some hid]; rfl

theorem attributes_nodup (doc : Document) : ∀ e ∈ doc.elements, (e.attributes.map Prod.fst).Nodup := by
  intro e he
  obtain ⟨t, ht, rfl⟩ := List.mem_map.mp he
  have := (doc.tag_wellFormed ht).distinct
  unfold Tag.element
  rwa [List.map_map]

theorem problems_nil {s : Findings} : problems s = [] ↔
    s.badFormat = [] ∧ s.dup = [] ∧ ∀ id ∈ s.references, id ∈ s.declared := by
  unfold problems
  rw [List.append_eq_nil_iff, List.append_eq_nil_iff, List.map_eq_nil_iff, List.map_eq_nil_iff,
    List.map_eq_nil_iff, sortDedup_nil, sortDedup_nil, sortDedup_nil, and_assoc,
    List.filter_eq_nil_iff]
  simp

theorem findings_sane {els : List Element} (h : ∀ e ∈ els, (e.attributes.map Prod.fst).Nodup) :
    problems (findings scope els) = [] ↔ Sane scope els := by
  obtain ⟨hdeclared, hreferences, hbad, hdup⟩ :=
    inspect_run scope ⟨[], [], [], []⟩ (els.flatMap Element.attributes)
  have hids : scopedValues scope isId _ = _ := scopedValues_ids h
  rw [List.append_nil] at hdeclared hreferences
  rw [hids] at hdeclared hbad hdup
  rw [problems_nil]
  unfold findings
  rw [hbad, hdup]
  constructor
  · rintro ⟨⟨_, hformat, hreference⟩, ⟨_, hnodup, _⟩, hresolved⟩
    refine ⟨hnodup, hformat, hreference, fun id hid => ?_⟩
    exact hdeclared.mem_iff.mp (hresolved id (hreferences.mem_iff.mpr hid))
  · intro hsane
    refine ⟨⟨rfl, hsane.format, hsane.referenceFormat⟩, ⟨rfl, hsane.ids, ?_⟩, fun id hid => ?_⟩
    · exact fun _ _ => List.not_mem_nil
    · exact hdeclared.mem_iff.mpr (hsane.resolved id (hreferences.mem_iff.mp hid))

/-- The check succeeds exactly on sane documents with an application program. -/
theorem sanityCheck_render {reader : Reader} (documented : reader.Documented) (doc : Document)
    (scannable : Scannable doc) : sanityCheck reader doc.render = .ok () ↔
      ∃ appId, findAttribute doc.elements "ApplicationProgram".toList "Id".toList = some appId ∧
        Sane (scopeOf appId) doc.elements := by
  unfold sanityCheck extractApplicationId extractXmlAttribute
  rw [documented doc, scan_render doc scannable]
  dsimp only
  cases findAttribute doc.elements "ApplicationProgram".toList "Id".toList with
  | none => exact ⟨fun h => (by cases h), fun ⟨_, h, _⟩ => (by cases h)⟩
  | some appId =>
    show (if problems (findings (scopeOf appId) doc.elements) = [] then Except.ok ()
      else Except.error _) = Except.ok () ↔ _
    have hsane : _ ↔ Sane (scopeOf appId) doc.elements := findings_sane (attributes_nodup doc)
    split_ifs with hproblems
    · exact ⟨fun _ => ⟨appId, rfl, hsane.mp hproblems⟩, fun _ => rfl⟩
    · refine ⟨fun h => (by cases h), fun ⟨_, happ, h⟩ => ?_⟩
      cases happ
      exact absurd (hsane.mpr h) hproblems

end KnxRs.Sanity
