import KnxRs.Renumber
import Mathlib.Data.Nat.Nth
import Mathlib.Order.Interval.Set.Infinite

set_option autoImplicit false

/-!
# The numbers of ids

What the two passes give out, in terms of the elements before each element: the newest
first, as the map has its entries. Numbers of parents are counted, those of com objects
read; the suffixes of references are counted, kept, or the next free ones.
-/
namespace KnxRs.Renumber
open Texts XmlDocuments XmlScan

/-! ## Parents -/

inductive Kind where
  | parameter | userParameter | comObject | block | separator
  deriving DecidableEq

def Kind.text : Kind → Text
  | .parameter => "P".toList
  | .userParameter => "UP".toList
  | .comObject => "O".toList
  | .block => "PB".toList
  | .separator => "PS".toList

def Kind.family : Kind → Kind
  | .userParameter => .parameter
  | k => k

/-- Parents whose integer goes into the ids of their references. -/
def Kind.indexed : Kind → Bool
  | .parameter | .userParameter | .comObject => true
  | .block | .separator => false

def kindOf (name suffix : Text) : Option Kind :=
  if name = "Parameter".toList then
    if "UP-".toList.isPrefixOf suffix then some .userParameter
    else if "P-".toList.isPrefixOf suffix then some .parameter
    else none
  else if name = "ComObject".toList then
    if "O-".toList.isPrefixOf suffix then some .comObject else none
  else if name = "ParameterBlock".toList then
    if "PB-".toList.isPrefixOf suffix then some .block else none
  else if name = "ParameterSeparator".toList then
    if "PS-".toList.isPrefixOf suffix then some .separator else none
  else none

def declares (scope : Text) (e : Element) : Option (Text × Kind) :=
  (scopedId scope e).bind fun id =>
    (kindOf e.name (id.drop scope.length)).map fun k => (id, k)

def declaresFamily (scope : Text) (k : Kind) (e : Element) : Bool :=
  (declares scope e).any fun d => d.2.family = k.family

def comObjectNumber (e : Element) : Option Nat := (e.attr "Number".toList).bind parseU64

/-- The number of a parent: that of a com object, or its place among those counted with it. -/
def parentNumber (scope : Text) (past : List Element) (k : Kind) (e : Element) : Nat :=
  if k = .comObject then (comObjectNumber e).getD 0
  else past.countP (declaresFamily scope k) + 1

def parents (scope : Text) : (past : List Element) → List (Text × Kind × Nat)
  | [] => []
  | e :: past =>
    match declares scope e with
    | some (id, k) => (id, k, parentNumber scope past k e) :: parents scope past
    | none => parents scope past

def parentMap (scope : Text) (past : List Element) : IdMap :=
  (parents scope past).map fun (id, k, n) => (id, integerId scope k.text n)

def parentInts (scope : Text) (past : List Element) : List (Text × Nat) :=
  ((parents scope past).filter fun (_, k, _) => k.indexed).map fun (id, _, n) => (id, n)

def declarations (scope : Text) (past : List Element) : Declarations where
  map := parentMap scope past
  parentInt := parentInts scope past
  nextParam := past.countP (declaresFamily scope .parameter) + 1
  nextBlock := past.countP (declaresFamily scope .block) + 1
  nextSeparator := past.countP (declaresFamily scope .separator) + 1

def ValidParent (scope : Text) (e : Element) : Prop :=
  ∀ id, declares scope e = some (id, .comObject) → (comObjectNumber e).isSome = true

instance (scope : Text) (e : Element) : Decidable (ValidParent scope e) :=
  match h : declares scope e with
  | some (id, .comObject) =>
    decidable_of_iff ((comObjectNumber e).isSome = true)
      ⟨fun hn _ _ => hn, fun hv => hv id h⟩
  | some (_, .parameter) | some (_, .userParameter) | some (_, .block) | some (_, .separator)
  | none => isTrue fun _ he => by rw [h] at he; cases he

variable {scope : Text} {e : Element} {id : Text} {k : Kind}

theorem declares_scoped (h : declares scope e = some (id, k)) :
    scopedId scope e = some id ∧ kindOf e.name (id.drop scope.length) = some k := by
  obtain ⟨id', hid, hmap⟩ := Option.bind_eq_some_iff.mp h
  obtain ⟨k', hk, he⟩ := Option.map_eq_some_iff.mp hmap
  obtain ⟨rfl, rfl⟩ := Prod.mk.inj he
  exact ⟨hid, hk⟩

theorem parents_some (past : List Element) (h : declares scope e = some (id, k)) :
    parents scope (e :: past) = (id, k, parentNumber scope past k e) :: parents scope past := by
  rw [parents, h]

theorem parents_none (past : List Element) (h : declares scope e = none) :
    parents scope (e :: past) = parents scope past := by
  rw [parents, h]

theorem declarations_none (past : List Element) (h : declares scope e = none) :
    declarations scope (e :: past) = declarations scope past := by
  have hfamily (k : Kind) : ¬declaresFamily scope k e = true := by
    unfold declaresFamily
    rw [h]
    exact Bool.false_ne_true
  unfold declarations parentMap parentInts
  rw [parents_none past h, List.countP_cons_of_neg (hfamily _), List.countP_cons_of_neg (hfamily _),
    List.countP_cons_of_neg (hfamily _)]

theorem declaresFamily_iff (h : declares scope e = some (id, k)) (k' : Kind) :
    declaresFamily scope k' e = decide (k.family = k'.family) := by
  unfold declaresFamily
  rw [h]
  rfl

theorem declare_none (s : Declarations) (h : declares scope e = none) :
    declare scope s e = .ok s := by
  unfold declares at h
  unfold declare
  cases hid : scopedId scope e with
  | none => rfl
  | some id =>
    rw [hid] at h
    have hk : kindOf e.name (id.drop scope.length) = none := Option.map_eq_none_iff.mp h
    unfold kindOf at hk
    dsimp only
    unfold paramKind
    split_ifs at hk ⊢ <;> rfl

theorem kindOf_elim {name suffix : Text} (h : kindOf name suffix = some k) :
    match k with
    | .parameter => name = "Parameter".toList ∧ paramKind suffix = some "P".toList
    | .userParameter => name = "Parameter".toList ∧ paramKind suffix = some "UP".toList
    | .comObject => name = "ComObject".toList ∧ "O-".toList.isPrefixOf suffix = true
    | .block => name = "ParameterBlock".toList ∧ "PB-".toList.isPrefixOf suffix = true
    | .separator => name = "ParameterSeparator".toList ∧ "PS-".toList.isPrefixOf suffix = true := by
  unfold kindOf at h
  unfold paramKind
  split_ifs at h ⊢ with hname hup hp <;> cases h <;> simp_all

/-- The number that comes next for a kind that is counted. -/
def Declarations.next (s : Declarations) : Kind → Nat
  | .parameter | .userParameter => s.nextParam
  | .block => s.nextBlock
  | .separator => s.nextSeparator
  | .comObject => 0

def Declarations.enter (scope : Text) (s : Declarations) (id : Text) (k : Kind) (n : Nat) :
    Declarations where
  map := (id, integerId scope k.text n) :: s.map
  parentInt := if k.indexed then (id, n) :: s.parentInt else s.parentInt
  nextParam := if k.family = .parameter then s.nextParam + 1 else s.nextParam
  nextBlock := if k.family = .block then s.nextBlock + 1 else s.nextBlock
  nextSeparator := if k.family = .separator then s.nextSeparator + 1 else s.nextSeparator

theorem declare_parent (s : Declarations) (h : declares scope e = some (id, k)) :
    (ValidParent scope e → declare scope s e = .ok (s.enter scope id k
      (if k = .comObject then (comObjectNumber e).getD 0 else s.next k))) ∧
    (¬ValidParent scope e → ∃ f, declare scope s e = .error f) := by
  obtain ⟨hid, hk⟩ := declares_scoped h
  have helim := kindOf_elim hk
  have hvalid : ValidParent scope e ↔ (k = .comObject → (comObjectNumber e).isSome = true) := by
    unfold ValidParent
    rw [h]
    constructor
    · rintro hv rfl
      exact hv id rfl
    · intro hv id' he
      exact hv (Prod.mk.inj (Option.some.inj he)).2
  rw [hvalid]
  unfold declare
  rw [hid]
  cases k with
  | comObject =>
    obtain ⟨hname, hstart⟩ := helim
    simp only [forall_const]
    unfold comObjectNumber
    rw [hname, if_neg (by decide), if_pos rfl, if_pos hstart, if_pos trivial]
    cases e.attr "Number".toList with
    | none => exact ⟨fun hn => absurd hn Bool.false_ne_true, fun _ => ⟨_, rfl⟩⟩
    | some number =>
      dsimp only [Option.bind_some]
      cases parseU64 number with
      | none => exact ⟨fun hn => absurd hn Bool.false_ne_true, fun _ => ⟨_, rfl⟩⟩
      | some n => exact ⟨fun _ => rfl, fun hn => absurd rfl hn⟩
  | _ =>
    obtain ⟨hname, hstart⟩ := helim
    refine ⟨fun _ => ?_, fun hn => absurd (fun hc => by cases hc) hn⟩
    dsimp only
    rw [hname, hstart]
    rfl

theorem declare_declarations (past : List Element) (e : Element) :
    (ValidParent scope e →
      declare scope (declarations scope past) e = .ok (declarations scope (e :: past))) ∧
    (¬ValidParent scope e → ∃ f, declare scope (declarations scope past) e = .error f) := by
  cases h : declares scope e with
  | none =>
    rw [declarations_none past h, declare_none _ h]
    refine ⟨fun _ => rfl, fun hv => absurd (fun id he => ?_) hv⟩
    rw [h] at he
    cases he
  | some d =>
    obtain ⟨id, k⟩ := d
    obtain ⟨hok, herror⟩ := declare_parent (declarations scope past) h
    refine ⟨fun hv => (hok hv).trans (congrArg _ ?_), herror⟩
    have hfamily := declaresFamily_iff h
    unfold declarations parentMap parentInts
    rw [parents_some past h]
    simp only [List.countP_cons, hfamily]
    cases k <;> rfl

/-- The first pass returns exactly when every parent is valid. -/
theorem declare_run (past els : List Element) :
    ((∀ e ∈ els, ValidParent scope e) → els.foldlM (declare scope) (declarations scope past) =
      .ok (declarations scope (els.reverse ++ past))) ∧
    (¬(∀ e ∈ els, ValidParent scope e) →
      ∃ f, els.foldlM (declare scope) (declarations scope past) = .error f) := by
  induction els generalizing past with
  | nil => exact ⟨fun _ => rfl, fun h => absurd (by simp) h⟩
  | cons e els ih =>
    rw [List.forall_mem_cons, List.foldlM_cons, List.reverse_cons, List.append_assoc]
    have hstep : (ValidParent scope e → _) ∧ _ := declare_declarations past e
    obtain ⟨hok, herror⟩ := hstep
    by_cases hv : ValidParent scope e
    · rw [hok hv]
      obtain ⟨hrest, hfail⟩ := ih (e :: past)
      exact ⟨fun h => hrest h.2, fun h => hfail fun hall => h ⟨hv, hall⟩⟩
    · obtain ⟨f, hf⟩ := herror hv
      rw [hf]
      exact ⟨fun h => absurd h.1 hv, fun _ => ⟨f, rfl⟩⟩

/-! ## The boundary of a reference id -/

def IdMap.declared (map : IdMap) (id : Text) : Prop := (map.lookup id).isSome = true

theorem declared_iff {map : IdMap} : map.declared id ↔ id ∈ map.map Prod.fst := by
  unfold IdMap.declared
  induction map with
  | nil => simp
  | cons entry map ih =>
    rw [List.lookup_cons, List.map_cons, List.mem_cons]
    cases h : id == entry.1 with
    | true => simp [beq_iff_eq.mp h]
    | false => simp [beq_eq_false_iff_ne.mp h, ih]

theorem splitRefFrom_some {map : IdMap} {before xs parent suffix : Text}
    (h : splitRefFrom map before xs = some (parent, suffix)) :
    ∃ q, parent = before ++ q ∧ xs = q ++ "_R-".toList ++ suffix ∧ map.declared parent ∧
      ∀ q' s', xs = q' ++ "_R-".toList ++ s' → map.declared (before ++ q') →
        q.length ≤ q'.length := by
  induction xs generalizing before with
  | nil => cases h
  | cons c cs ih =>
    unfold splitRefFrom at h
    split_ifs at h with hhere
    · obtain ⟨rfl, rfl⟩ := Prod.mk.inj (Option.some.inj h)
      obtain ⟨hstart, hdeclared⟩ := hhere
      obtain ⟨rest, hrest⟩ := List.isPrefixOf_iff_prefix.mp hstart
      refine ⟨[], (List.append_nil _).symm, ?_, hdeclared, fun _ _ _ _ => Nat.zero_le _⟩
      rw [← hrest]
      rfl
    · obtain ⟨q, hparent, hcs, hdeclared, hleast⟩ := ih h
      refine ⟨c :: q, ?_, congrArg (List.cons c) hcs, hdeclared, fun q' s' hxs hq' => ?_⟩
      · rw [hparent, List.append_assoc]
        rfl
      · cases q' with
        | nil =>
          refine absurd ⟨List.isPrefixOf_iff_prefix.mpr ⟨s', hxs.symm⟩, ?_⟩ hhere
          rwa [List.append_nil] at hq'
        | cons d q' =>
          obtain ⟨rfl, htail⟩ := List.cons.inj hxs
          refine Nat.succ_le_succ (hleast q' s' htail ?_)
          rwa [List.append_assoc]

theorem splitRefFrom_none {map : IdMap} {before xs : Text} (h : splitRefFrom map before xs = none)
    (q s : Text) (hxs : xs = q ++ "_R-".toList ++ s) : ¬map.declared (before ++ q) := by
  induction xs generalizing before q with
  | nil =>
    have := congrArg List.length hxs
    simp at this
  | cons c cs ih =>
    unfold splitRefFrom at h
    split_ifs at h with hhere
    cases q with
    | nil =>
      rw [List.append_nil]
      exact fun hd => hhere ⟨List.isPrefixOf_iff_prefix.mpr ⟨s, hxs.symm⟩, hd⟩
    | cons d q =>
      obtain ⟨rfl, hcs⟩ := List.cons.inj hxs
      have := ih h q hcs
      rwa [List.append_assoc] at this

/-- The boundary is the first one with a declared id before it. -/
structure Boundary (map : IdMap) (id parent suffix : Text) : Prop where
  parts : id = parent ++ "_R-".toList ++ suffix
  declared : map.declared parent
  first : ∀ p s, id = p ++ "_R-".toList ++ s → map.declared p → parent.length ≤ p.length

theorem splitRef_iff {map : IdMap} {parent suffix : Text} :
    splitRef id map = some (parent, suffix) ↔ Boundary map id parent suffix := by
  constructor
  · intro h
    obtain ⟨q, hq, hid, hdeclared, hfirst⟩ := splitRefFrom_some h
    obtain rfl : parent = q := hq
    exact ⟨hid, hdeclared, hfirst⟩
  · intro h
    cases hs : splitRef id map with
    | none => exact absurd h.declared (splitRefFrom_none hs _ _ h.parts)
    | some found =>
      obtain ⟨parent', suffix'⟩ := found
      obtain ⟨q, hq, hid, hdeclared, hfirst⟩ := splitRefFrom_some hs
      obtain rfl : parent' = q := hq
      have hlen := Nat.le_antisymm (hfirst _ _ h.parts h.declared) (h.first _ _ hid hdeclared)
      have hparts := hid.symm.trans h.parts
      rw [List.append_assoc, List.append_assoc] at hparts
      obtain ⟨rfl, hrest⟩ := List.append_inj hparts hlen
      rw [List.append_cancel_left hrest]

theorem splitRef_extra {map extra : IdMap}
    (h : ∀ entry ∈ extra, ∃ parent suffix, Boundary map entry.1 parent suffix) (id : Text) :
    splitRef id (extra ++ map) = splitRef id map := by
  have hdeclared {p : Text} : (extra ++ map).declared p ↔ p ∈ extra.map Prod.fst ∨ map.declared p := by
    rw [declared_iff, declared_iff, List.map_append, List.mem_append]
  have hshorter {p s : Text} (hid : id = p ++ "_R-".toList ++ s) (hp : p ∈ extra.map Prod.fst) :
      ∃ p' s', id = p' ++ "_R-".toList ++ s' ∧ map.declared p' ∧ p'.length < p.length := by
    obtain ⟨entry, hentry, rfl⟩ := List.mem_map.mp hp
    obtain ⟨parent, suffix, hb⟩ := h entry hentry
    refine ⟨parent, suffix ++ "_R-".toList ++ s, ?_, hb.declared, ?_⟩
    · rw [hid, hb.parts]
      simp only [List.append_assoc]
    · rw [hb.parts]
      simp
  cases hs : splitRef id map with
  | some found =>
    obtain ⟨parent, suffix⟩ := found
    have hb := splitRef_iff.mp hs
    refine splitRef_iff.mpr ⟨hb.parts, hdeclared.mpr (.inr hb.declared), fun p s hid hp => ?_⟩
    rcases hdeclared.mp hp with hp | hp
    · obtain ⟨p', s', hid', hp', hlen⟩ := hshorter hid hp
      exact Nat.le_of_lt (Nat.lt_of_le_of_lt (hb.first p' s' hid' hp') hlen)
    · exact hb.first p s hid hp
  | none =>
    cases hs' : splitRef id (extra ++ map) with
    | none => rfl
    | some found =>
      obtain ⟨parent, suffix⟩ := found
      have hb := splitRef_iff.mp hs'
      rcases hdeclared.mp hb.declared with hp | hp
      · obtain ⟨p', s', hid', hp', _⟩ := hshorter hb.parts hp
        exact absurd hp' (splitRefFrom_none hs _ _ hid')
      · exact absurd hp (splitRefFrom_none hs _ _ hb.parts)

/-! ## References -/

/-- A reference in scope: its id, and the parent and the suffix found in it. -/
def reference (scope : Text) (map : IdMap) (e : Element) : Option (Text × Text × Text) :=
  if e.name = "ParameterRef".toList ∨ e.name = "ComObjectRef".toList then
    (scopedId scope e).bind fun id => (splitRef id map).map fun (parent, rsuffix) =>
      (id, parent, rsuffix)
  else none

def paramRefOf (scope : Text) (map : IdMap) (parent : Text) (e : Element) : Bool :=
  e.name = "ParameterRef".toList ∧ (reference scope map e).any fun r => r.2.1 = parent

def freshRefOf (scope : Text) (map : IdMap) (parent : Text) (e : Element) : Bool :=
  e.name = "ComObjectRef".toList ∧
    (reference scope map e).any fun r => r.2.1 = parent ∧ (parseU64 r.2.2).isNone

/-- What the second pass knows from the elements as a whole. -/
structure Parents where
  map : IdMap
  ints : List (Text × Nat)
  kept : List (Text × Nat)

def parentsOf (scope : Text) (els : List Element) : Parents where
  map := parentMap scope els.reverse
  ints := parentInts scope els.reverse
  kept := els.filterMap (keptSuffix scope (parentMap scope els.reverse))

/-- The positive integers that no ComObjectRef of the parent carries, in their order. -/
noncomputable def freeInteger (kept : List (Text × Nat)) (parent : Text) (j : Nat) : Nat :=
  Nat.nth (fun n => 0 < n ∧ (parent, n) ∉ kept) j

noncomputable def newSuffix (scope : Text) (c : Parents) (past : List Element) (e : Element)
    (parent rsuffix : Text) : Text :=
  if e.name = "ParameterRef".toList then
    decimal ((c.ints.lookup parent).getD 0) ++
      twoDigits (past.countP (paramRefOf scope c.map parent) + 1)
  else match parseU64 rsuffix with
    | some n => decimal n
    | none => decimal (freeInteger c.kept parent (past.countP (freshRefOf scope c.map parent)))

noncomputable def references (scope : Text) (c : Parents) :
    (past : List Element) → List (Text × Text × Text)
  | [] => []
  | e :: past =>
    match reference scope c.map e with
    | some (id, parent, rsuffix) =>
      (id, parent, newSuffix scope c past e parent rsuffix) :: references scope c past
    | none => references scope c past

noncomputable def referenceMap (scope : Text) (c : Parents) (past : List Element) : IdMap :=
  (references scope c past).map fun (id, parent, suffix) =>
    (id, c.map.rename parent ++ "_R-".toList ++ suffix)

noncomputable def fullMap (scope : Text) (els : List Element) : IdMap :=
  referenceMap scope (parentsOf scope els) els.reverse ++ (parentsOf scope els).map

/-- A reference has a parent, a parameter reference one with an integer, and the counter of
free suffixes does not overflow. -/
def ValidReference (scope : Text) (c : Parents) (past : List Element) (e : Element) : Prop :=
  e.name = "ParameterRef".toList ∨ e.name = "ComObjectRef".toList →
    (scopedId scope e).isSome = true →
      ∃ id parent rsuffix, reference scope c.map e = some (id, parent, rsuffix) ∧
        (e.name = "ParameterRef".toList → (c.ints.lookup parent).isSome = true) ∧
        (e.name ≠ "ParameterRef".toList → parseU64 rsuffix = none →
          freeInteger c.kept parent (past.countP (freshRefOf scope c.map parent)) < 2 ^ 64)

/-! ## The next free integer -/

theorem nextFree_rounds {used : List (Text × Nat)} {parent : Text} {rounds ctr c : Nat}
    (hlt : ctr < c) (hfree : (parent, c) ∉ used)
    (htaken : ∀ n, ctr < n → n < c → (parent, n) ∈ used) (hrounds : c ≤ ctr + rounds) :
    (c < 2 ^ 64 → nextFree used parent rounds ctr = .ok c) ∧
      (2 ^ 64 ≤ c → nextFree used parent rounds ctr = .error .panic) := by
  induction rounds generalizing ctr with
  | zero => omega
  | succ rounds ih =>
    rw [nextFree]
    by_cases hnext : ctr + 1 = c
    · rw [hnext, if_neg hfree]
      exact ⟨fun h => if_neg (by omega), fun h => if_pos h⟩
    · rw [if_pos (htaken (ctr + 1) (by omega) (by omega))]
      obtain ⟨hok, herror⟩ := @ih (ctr + 1) (by omega)
        (fun n hn hnc => htaken n (by omega) hnc) (by omega)
      refine ⟨fun h => (if_neg (by omega)).trans (hok h), fun h => ?_⟩
      split_ifs
      · rfl
      · exact herror h

theorem nextFree_eq {used : List (Text × Nat)} {parent : Text} {ctr c : Nat}
    (hlt : ctr < c) (hfree : (parent, c) ∉ used)
    (htaken : ∀ n, ctr < n → n < c → (parent, n) ∈ used) :
    (c < 2 ^ 64 → nextFree used parent (used.length + 1) ctr = .ok c) ∧
      (2 ^ 64 ≤ c → nextFree used parent (used.length + 1) ctr = .error .panic) := by
  refine nextFree_rounds hlt hfree htaken ?_
  have hsub : ((List.range' (ctr + 1) (c - ctr - 1)).map fun n => (parent, n)) ⊆ used := by
    intro entry hentry
    obtain ⟨n, hn, rfl⟩ := List.mem_map.mp hentry
    obtain ⟨i, hi, rfl⟩ := List.mem_range'.mp hn
    exact htaken _ (by omega) (by omega)
  have hnodup : ((List.range' (ctr + 1) (c - ctr - 1)).map fun n => (parent, n)).Nodup :=
    List.Nodup.map (fun n m h => (Prod.mk.inj h).2) List.nodup_range'
  have hlen := (hnodup.subperm hsub).length_le
  rw [List.length_map, List.length_range'] at hlen
  omega

theorem freeInteger_infinite (kept : List (Text × Nat)) (parent : Text) :
    (Set.ofPred fun n => 0 < n ∧ (parent, n) ∉ kept).Infinite := by
  have hfinite : {n : Nat | (parent, n) ∈ kept}.Finite :=
    Set.Finite.preimage (fun n _ m _ h => (Prod.mk.inj h).2) kept.finite_toSet
  exact (Set.Ioi_infinite 0).sdiff hfinite

theorem freeInteger_least (kept : List (Text × Nat)) (parent : Text) (j : Nat) :
    IsLeast {i | (0 < i ∧ (parent, i) ∉ kept) ∧ ∀ k < j, freeInteger kept parent k < i}
      (freeInteger kept parent j) :=
  Nat.isLeast_nth_of_infinite (freeInteger_infinite kept parent) j

/-- The counter after `j` free integers have been given out. -/
noncomputable def counterAt (kept : List (Text × Nat)) (parent : Text) : (j : Nat) → Nat
  | 0 => 0
  | j + 1 => freeInteger kept parent j

theorem counterAt_lt (kept : List (Text × Nat)) (parent : Text) (j : Nat) :
    counterAt kept parent j < freeInteger kept parent j := by
  obtain ⟨⟨⟨hpos, _⟩, hgreater⟩, _⟩ := freeInteger_least kept parent j
  cases j with
  | zero => exact hpos
  | succ j => exact hgreater j (Nat.lt_succ_self j)

theorem freeInteger_mono (kept : List (Text × Nat)) (parent : Text) {i j : Nat} (h : i ≤ j) :
    freeInteger kept parent i ≤ freeInteger kept parent j :=
  Nat.nth_monotone (freeInteger_infinite kept parent) h

/-- Between the counter and the next free integer all are kept. -/
theorem kept_between {kept : List (Text × Nat)} {parent : Text} {j n : Nat}
    (hlt : counterAt kept parent j < n) (hn : n < freeInteger kept parent j) :
    (parent, n) ∈ kept := by
  by_contra hfree
  refine absurd ((freeInteger_least kept parent j).2 ⟨⟨Nat.zero_lt_of_lt hlt, hfree⟩, ?_⟩)
    (Nat.not_le.mpr hn)
  intro i hi
  cases j with
  | zero => exact absurd hi (Nat.not_lt_zero i)
  | succ j => exact Nat.lt_of_le_of_lt (freeInteger_mono kept parent (Nat.le_of_lt_succ hi)) hlt

/-! ## The second pass -/

/-- What the state of the second pass is after these elements. -/
structure Tracks (scope : Text) (c : Parents) (past : List Element) (s : References) : Prop where
  map : s.map = referenceMap scope c past ++ c.map
  inst : ∀ parent, (s.prefInst.lookup parent).getD 0 = past.countP (paramRefOf scope c.map parent)
  next : ∀ parent, (s.corefNext.lookup parent).getD 0 =
    counterAt c.kept parent (past.countP (freshRefOf scope c.map parent))
  used : ∀ parent n, (parent, n) ∈ s.used ↔ (parent, n) ∈ c.kept ∨
    ∃ j < past.countP (freshRefOf scope c.map parent), n = freeInteger c.kept parent j

variable {c : Parents} {past : List Element} {s : References}

theorem references_cons {parent rsuffix : Text}
    (h : reference scope c.map e = some (id, parent, rsuffix)) :
    references scope c (e :: past) =
      (id, parent, newSuffix scope c past e parent rsuffix) :: references scope c past := by
  rw [references, h]

theorem references_none (h : reference scope c.map e = none) :
    references scope c (e :: past) = references scope c past := by
  rw [references, h]

theorem reference_name {r : Text × Text × Text} (h : reference scope c.map e = some r) :
    e.name = "ParameterRef".toList ∨ e.name = "ComObjectRef".toList := by
  unfold reference at h
  split_ifs at h with hname
  exact hname

theorem reference_boundary {parent rsuffix : Text}
    (h : reference scope c.map e = some (id, parent, rsuffix)) :
    scopedId scope e = some id ∧ Boundary c.map id parent rsuffix := by
  unfold reference at h
  split_ifs at h
  obtain ⟨id', hid, hmap⟩ := Option.bind_eq_some_iff.mp h
  obtain ⟨⟨parent', rsuffix'⟩, hsplit, he⟩ := Option.map_eq_some_iff.mp hmap
  cases he
  exact ⟨hid, splitRef_iff.mp hsplit⟩

theorem mem_references {entry : Text × Text × Text} (h : entry ∈ references scope c past) :
    ∃ rsuffix, Boundary c.map entry.1 entry.2.1 rsuffix := by
  induction past with
  | nil => cases h
  | cons e past ih =>
    cases hr : reference scope c.map e with
    | none =>
      rw [references_none hr] at h
      exact ih h
    | some r =>
      obtain ⟨id, parent, rsuffix⟩ := r
      rw [references_cons hr] at h
      rcases List.mem_cons.mp h with rfl | h
      · exact ⟨rsuffix, (reference_boundary hr).2⟩
      · exact ih h

theorem referenceMap_boundary {entry : Text × Text} (h : entry ∈ referenceMap scope c past) :
    ∃ parent suffix, Boundary c.map entry.1 parent suffix := by
  obtain ⟨r, hr, rfl⟩ := List.mem_map.mp h
  obtain ⟨rsuffix, hb⟩ := mem_references hr
  exact ⟨_, rsuffix, hb⟩

theorem Tracks.split (h : Tracks scope c past s) (id : Text) :
    splitRef id s.map = splitRef id c.map := by
  rw [h.map]
  exact splitRef_extra (fun _ hentry => referenceMap_boundary hentry) id

def Apart (scope : Text) (c : Parents) (past : List Element) : Prop :=
  ∀ entry ∈ references scope c past, ¬c.map.declared entry.1

theorem rename_extra {map extra : IdMap} {value : Text} (h : value ∉ extra.map Prod.fst) :
    (extra ++ map).rename value = map.rename value := by
  unfold IdMap.rename
  induction extra with
  | nil => rfl
  | cons entry extra ih =>
    rw [List.map_cons] at h
    obtain ⟨hhead, htail⟩ := not_or.mp (mt List.mem_cons.mpr h)
    rw [List.cons_append, List.lookup_cons, beq_eq_false_iff_ne.mpr hhead]
    exact ih htail

/-- The parent found in an id is not the id of a reference: its boundary would come first. -/
theorem boundary_parent {parent rsuffix : Text} (h : Boundary c.map id parent rsuffix) :
    parent ∉ (referenceMap scope c past).map Prod.fst := by
  intro hmem
  obtain ⟨entry, hentry, rfl⟩ := List.mem_map.mp hmem
  obtain ⟨parent', suffix', hb⟩ := referenceMap_boundary hentry
  have hid : id = parent' ++ "_R-".toList ++ (suffix' ++ "_R-".toList ++ rsuffix) := by
    rw [h.parts, hb.parts]
    simp only [List.append_assoc]
  have hfirst := h.first parent' _ hid hb.declared
  have hlength := congrArg List.length hb.parts
  simp only [List.length_append, String.length_toList] at hlength
  have hpattern : "_R-".length = 3 := rfl
  omega

theorem Tracks.rename (h : Tracks scope c past s) {parent rsuffix : Text}
    (hb : Boundary c.map id parent rsuffix) : s.map.rename parent = c.map.rename parent := by
  rw [h.map]
  exact rename_extra (boundary_parent hb)

theorem referenceMap_cons {parent rsuffix : Text}
    (h : reference scope c.map e = some (id, parent, rsuffix)) :
    referenceMap scope c (e :: past) =
      (id, c.map.rename parent ++ "_R-".toList ++ newSuffix scope c past e parent rsuffix) ::
        referenceMap scope c past := by
  unfold referenceMap
  rw [references_cons h]
  rfl

theorem lookup_advance (counts : List (Text × Nat)) (parent other : Text) (n : Nat) :
    (((parent, n) :: counts).lookup other).getD 0 =
      if parent = other then n else (counts.lookup other).getD 0 := by
  rw [List.lookup_cons]
  by_cases h : parent = other
  · rw [if_pos h, h, beq_self_eq_true]
    rfl
  · rw [if_neg h, beq_eq_false_iff_ne.mpr (Ne.symm h)]

theorem Tracks.skip (h : Tracks scope c past s) (hr : reference scope c.map e = none) :
    Tracks scope c (e :: past) s := by
  have hparam (parent : Text) : ¬paramRefOf scope c.map parent e = true := by
    unfold paramRefOf
    rw [hr]
    simp
  have hfresh (parent : Text) : ¬freshRefOf scope c.map parent e = true := by
    unfold freshRefOf
    rw [hr]
    simp
  refine ⟨?_, fun parent => ?_, fun parent => ?_, fun parent n => ?_⟩
  · rw [h.map]
    unfold referenceMap
    rw [references_none hr]
  · rw [List.countP_cons_of_neg (hparam parent)]
    exact h.inst parent
  · rw [List.countP_cons_of_neg (hfresh parent)]
    exact h.next parent
  · rw [List.countP_cons_of_neg (hfresh parent)]
    exact h.used parent n

theorem Tracks.param (h : Tracks scope c past s) {parent rsuffix : Text}
    (hr : reference scope c.map e = some (id, parent, rsuffix))
    (hname : e.name = "ParameterRef".toList) (hrename : s.map.rename parent = c.map.rename parent) :
    Tracks scope c (e :: past) { s with
      map := (id, s.map.rename parent ++ "_R-".toList ++
        (decimal ((c.ints.lookup parent).getD 0) ++
          twoDigits ((s.prefInst.lookup parent).getD 0 + 1))) :: s.map
      prefInst := (parent, (s.prefInst.lookup parent).getD 0 + 1) :: s.prefInst } := by
  have hparam (other : Text) : paramRefOf scope c.map other e = decide (parent = other) := by
    unfold paramRefOf
    rw [hr, hname]
    simp
  have hfresh (other : Text) : ¬freshRefOf scope c.map other e = true := by
    unfold freshRefOf
    rw [hname]
    simp
  refine ⟨?_, fun other => ?_, fun other => ?_, fun other n => ?_⟩
  · rw [referenceMap_cons hr, hrename, h.map]
    unfold newSuffix
    rw [if_pos hname, h.inst]
    rfl
  · dsimp only
    rw [lookup_advance, List.countP_cons, hparam, h.inst, h.inst]
    by_cases ho : parent = other
    · simp [ho]
    · simp [ho]
  · rw [List.countP_cons_of_neg (hfresh other)]
    exact h.next other
  · rw [List.countP_cons_of_neg (hfresh other)]
    exact h.used other n

theorem Tracks.keep (h : Tracks scope c past s) {parent rsuffix : Text} {n : Nat}
    (hr : reference scope c.map e = some (id, parent, rsuffix))
    (hname : e.name ≠ "ParameterRef".toList) (hn : parseU64 rsuffix = some n)
    (hrename : s.map.rename parent = c.map.rename parent) :
    Tracks scope c (e :: past) { s with
      map := (id, s.map.rename parent ++ "_R-".toList ++ decimal n) :: s.map } := by
  have hparam (other : Text) : ¬paramRefOf scope c.map other e = true :=
    fun hp => hname (of_decide_eq_true hp).1
  have hfresh (other : Text) : ¬freshRefOf scope c.map other e = true := by
    unfold freshRefOf
    rw [hr, Option.any_some]
    dsimp only
    rw [hn]
    simp
  refine ⟨?_, fun other => ?_, fun other => ?_, fun other m => ?_⟩
  · rw [referenceMap_cons hr, hrename, h.map]
    unfold newSuffix
    rw [if_neg hname, hn]
    rfl
  · rw [List.countP_cons_of_neg (hparam other)]
    exact h.inst other
  · rw [List.countP_cons_of_neg (hfresh other)]
    exact h.next other
  · rw [List.countP_cons_of_neg (hfresh other)]
    exact h.used other m

theorem Tracks.fresh (h : Tracks scope c past s) {parent rsuffix : Text} {n : Nat}
    (hr : reference scope c.map e = some (id, parent, rsuffix))
    (hname : e.name = "ComObjectRef".toList) (hnone : parseU64 rsuffix = none)
    (hrename : s.map.rename parent = c.map.rename parent)
    (hn : n = freeInteger c.kept parent (past.countP (freshRefOf scope c.map parent))) :
    Tracks scope c (e :: past) { s with
      map := (id, s.map.rename parent ++ "_R-".toList ++ decimal n) :: s.map
      corefNext := (parent, n) :: s.corefNext
      used := (parent, n) :: s.used } := by
  have hparam (other : Text) : ¬paramRefOf scope c.map other e = true := by
    unfold paramRefOf
    rw [hname]
    simp
  have hfresh (other : Text) : freshRefOf scope c.map other e = decide (parent = other) := by
    unfold freshRefOf
    rw [hr, hname]
    simp [hnone]
  refine ⟨?_, fun other => ?_, fun other => ?_, fun other m => ?_⟩
  · rw [referenceMap_cons hr, hrename, h.map]
    unfold newSuffix
    rw [if_neg (by rw [hname]; decide), hnone, hn]
    rfl
  · rw [List.countP_cons_of_neg (hparam other)]
    exact h.inst other
  · dsimp only
    rw [lookup_advance, List.countP_cons, hfresh, h.next other]
    by_cases ho : parent = other
    · subst ho
      simp [hn, counterAt]
    · simp [ho]
  · rw [List.mem_cons, h.used, List.countP_cons, hfresh]
    by_cases ho : parent = other
    · subst ho
      simp only [Prod.mk.injEq, true_and, decide_true, if_true, Nat.lt_succ_iff_lt_or_eq]
      rw [hn]
      grind
    · have hne : ¬(other, m) = (parent, n) := fun he => ho (Prod.mk.inj he).1.symm
      simp [ho, hne]

section
variable {parent rsuffix : Text}

theorem refer_none (h : Tracks scope c past s) (hr : reference scope c.map e = none) :
    (ValidReference scope c past e → refer scope c.ints s e = .ok s) ∧
    (¬ValidReference scope c past e → ∃ f, refer scope c.ints s e = .error f) := by
  unfold refer ValidReference
  by_cases hname : e.name = "ParameterRef".toList ∨ e.name = "ComObjectRef".toList
  · rw [if_pos hname]
    cases hid : scopedId scope e with
    | none => exact ⟨fun _ => rfl, fun hv => absurd (fun _ hs => absurd hs Bool.false_ne_true) hv⟩
    | some id =>
      dsimp only
      have hsplit : splitRef id c.map = none := by
        unfold reference at hr
        rw [if_pos hname, hid] at hr
        exact Option.map_eq_none_iff.mp hr
      rw [h.split id, hsplit]
      refine ⟨fun hv => ?_, fun _ => ⟨_, rfl⟩⟩
      obtain ⟨id', parent, rsuffix, he, _⟩ := hv hname rfl
      rw [hr] at he
      cases he
  · rw [if_neg hname]
    exact ⟨fun _ => rfl, fun hv => absurd (fun hn => absurd hn hname) hv⟩

theorem validReference_iff (hr : reference scope c.map e = some (id, parent, rsuffix)) :
    ValidReference scope c past e ↔
      (e.name = "ParameterRef".toList → (c.ints.lookup parent).isSome = true) ∧
      (e.name ≠ "ParameterRef".toList → parseU64 rsuffix = none →
        freeInteger c.kept parent (past.countP (freshRefOf scope c.map parent)) < 2 ^ 64) := by
  constructor
  · intro hv
    have hid := (reference_boundary hr).1
    obtain ⟨id', parent', rsuffix', he, hparam, hobject⟩ := hv (reference_name hr) (hid ▸ rfl)
    cases hr.symm.trans he
    exact ⟨hparam, hobject⟩
  · exact fun ⟨hparam, hobject⟩ _ _ => ⟨id, parent, rsuffix, hr, hparam, hobject⟩

theorem refer_param (h : Tracks scope c past s)
    (hr : reference scope c.map e = some (id, parent, rsuffix))
    (hname : e.name = "ParameterRef".toList) :
    ((c.ints.lookup parent).isSome = true →
      ∃ s', refer scope c.ints s e = .ok s' ∧ Tracks scope c (e :: past) s') ∧
    (¬(c.ints.lookup parent).isSome = true → ∃ f, refer scope c.ints s e = .error f) := by
  obtain ⟨hid, hb⟩ := reference_boundary hr
  have htracks := h.param hr hname (h.rename hb)
  unfold refer
  rw [if_pos (reference_name hr), hid]
  dsimp only
  rw [h.split id, splitRef_iff.mpr hb]
  dsimp only
  rw [if_pos hname]
  cases hbase : c.ints.lookup parent with
  | none => exact ⟨fun hsome => absurd hsome Bool.false_ne_true, fun _ => ⟨_, rfl⟩⟩
  | some base =>
    rw [hbase] at htracks
    exact ⟨fun _ => ⟨_, rfl, htracks⟩, fun hnone => absurd rfl hnone⟩

theorem refer_object (h : Tracks scope c past s)
    (hr : reference scope c.map e = some (id, parent, rsuffix))
    (hname : e.name ≠ "ParameterRef".toList) :
    ((parseU64 rsuffix = none →
        freeInteger c.kept parent (past.countP (freshRefOf scope c.map parent)) < 2 ^ 64) →
      ∃ s', refer scope c.ints s e = .ok s' ∧ Tracks scope c (e :: past) s') ∧
    (¬(parseU64 rsuffix = none →
        freeInteger c.kept parent (past.countP (freshRefOf scope c.map parent)) < 2 ^ 64) →
      ∃ f, refer scope c.ints s e = .error f) := by
  obtain ⟨hid, hb⟩ := reference_boundary hr
  have hrename := h.rename hb
  unfold refer
  rw [if_pos (reference_name hr), hid]
  dsimp only
  rw [h.split id, splitRef_iff.mpr hb]
  dsimp only
  rw [if_neg hname]
  cases hn : parseU64 rsuffix with
  | some n => exact ⟨fun _ => ⟨_, rfl, h.keep hr hname hn hrename⟩, fun hv => absurd nofun hv⟩
  | none =>
    have hnext := h.next parent
    have hfree : (parent, freeInteger c.kept parent
        (past.countP (freshRefOf scope c.map parent))) ∉ s.used := by
      rw [h.used]
      rintro (hkept | ⟨j, hj, he⟩)
      · exact (freeInteger_least c.kept parent _).1.1.2 hkept
      · exact absurd he (Nat.ne_of_gt ((freeInteger_least c.kept parent _).1.2 j hj))
    obtain ⟨hok, herror⟩ := nextFree_eq (counterAt_lt c.kept parent _) hfree
      (fun n hlt hn => (h.used parent n).mpr (.inl (kept_between hlt hn)))
    dsimp only
    rw [hnext]
    constructor
    · intro hbound
      rw [hok (hbound rfl)]
      exact ⟨_, rfl, h.fresh hr ((reference_name hr).resolve_left hname) hn hrename rfl⟩
    · intro hv
      rw [herror (Nat.not_lt.mp fun hbound => hv fun _ => hbound)]
      exact ⟨_, rfl⟩

end

theorem refer_step (h : Tracks scope c past s) (e : Element) :
    (ValidReference scope c past e →
      ∃ s', refer scope c.ints s e = .ok s' ∧ Tracks scope c (e :: past) s') ∧
    (¬ValidReference scope c past e → ∃ f, refer scope c.ints s e = .error f) := by
  cases hr : reference scope c.map e with
  | none =>
    obtain ⟨hok, herror⟩ := refer_none h hr
    exact ⟨fun hv => ⟨s, hok hv, h.skip hr⟩, herror⟩
  | some found =>
    obtain ⟨id, parent, rsuffix⟩ := found
    rw [validReference_iff hr]
    by_cases hname : e.name = "ParameterRef".toList
    · obtain ⟨hok, herror⟩ := refer_param h hr hname
      exact ⟨fun hv => hok (hv.1 hname),
        fun hv => herror fun hsome => hv ⟨fun _ => hsome, fun hne => absurd hname hne⟩⟩
    · obtain ⟨hok, herror⟩ := refer_object h hr hname
      exact ⟨fun hv => hok (hv.2 hname),
        fun hv => herror fun hfree => hv ⟨fun hp => absurd hp hname, fun _ => hfree⟩⟩

/-! ## Both passes -/

def scopedIds (scope : Text) (els : List Element) : List Text := els.filterMap (scopedId scope)

theorem filterMap_nodup_eq {β γ : Type} {g : β → Option γ} {xs : List β}
    (h : (xs.filterMap g).Nodup) {x y : β} (hx : x ∈ xs) (hy : y ∈ xs) {v : γ}
    (hgx : g x = some v) (hgy : g y = some v) : x = y := by
  have hpair : xs.Pairwise fun x y => ∀ b ∈ g x, ∀ b' ∈ g y, b ≠ b' := List.pairwise_filterMap.mp h
  have hsymm : Std.Symm fun x y => ∀ b ∈ g x, ∀ b' ∈ g y, b ≠ b' :=
    ⟨fun _ _ hab b hb b' hb' => (hab b' hb' b hb).symm⟩
  by_contra hne
  exact hpair.forall hx hy hne v hgx v hgy rfl

theorem mem_parents {entry : Text × Kind × Nat} (h : entry ∈ parents scope past) :
    ∃ newer e older, past = newer ++ e :: older ∧ declares scope e = some (entry.1, entry.2.1) ∧
      entry.2.2 = parentNumber scope older entry.2.1 e := by
  induction past with
  | nil => cases h
  | cons e past ih =>
    cases hd : declares scope e with
    | none =>
      rw [parents_none past hd] at h
      obtain ⟨newer, e', older, rfl, he⟩ := ih h
      exact ⟨e :: newer, e', older, rfl, he⟩
    | some d =>
      obtain ⟨id, k⟩ := d
      rw [parents_some past hd] at h
      rcases List.mem_cons.mp h with rfl | h
      · exact ⟨[], e, past, rfl, hd, rfl⟩
      · obtain ⟨newer, e', older, rfl, he⟩ := ih h
        exact ⟨e :: newer, e', older, rfl, he⟩

theorem parents_mem {newer older : List Element} (h : declares scope e = some (id, k)) :
    (id, k, parentNumber scope older k e) ∈ parents scope (newer ++ e :: older) := by
  induction newer with
  | nil =>
    rw [List.nil_append, parents_some older h]
    exact List.mem_cons_self
  | cons x newer ih =>
    rw [List.cons_append]
    cases hd : declares scope x with
    | none => rwa [parents_none _ hd]
    | some d =>
      obtain ⟨other, k⟩ := d
      rw [parents_some _ hd]
      exact List.mem_cons_of_mem _ ih

theorem parentMap_declared : (parentMap scope past).declared id ↔
    ∃ e ∈ past, ∃ k, declares scope e = some (id, k) := by
  rw [declared_iff]
  constructor
  · intro h
    obtain ⟨entry, hentry, rfl⟩ := List.mem_map.mp h
    obtain ⟨d, hd, rfl⟩ := List.mem_map.mp hentry
    obtain ⟨newer, e, older, rfl, hdeclares, _⟩ := mem_parents hd
    exact ⟨e, List.mem_append_right _ List.mem_cons_self, _, hdeclares⟩
  · rintro ⟨e, he, k, hdeclares⟩
    obtain ⟨newer, older, rfl⟩ := List.append_of_mem he
    exact List.mem_map_of_mem (List.mem_map_of_mem (parents_mem hdeclares))

theorem reference_undeclared (h : declares scope e = some (id, k)) :
    e.name ≠ "ParameterRef".toList ∧ e.name ≠ "ComObjectRef".toList := by
  have helim := kindOf_elim (declares_scoped h).2
  have hname : e.name = "Parameter".toList ∨ e.name = "ComObject".toList ∨
      e.name = "ParameterBlock".toList ∨ e.name = "ParameterSeparator".toList := by
    cases k
    · exact .inl helim.1
    · exact .inl helim.1
    · exact .inr (.inl helim.1)
    · exact .inr (.inr (.inl helim.1))
    · exact .inr (.inr (.inr helim.1))
  rcases hname with hname | hname | hname | hname <;> rw [hname] <;> decide

theorem mem_references_iff {entry : Text × Text × Text} (h : entry ∈ references scope c past) :
    ∃ newer e older rsuffix, past = newer ++ e :: older ∧
      reference scope c.map e = some (entry.1, entry.2.1, rsuffix) ∧
      entry.2.2 = newSuffix scope c older e entry.2.1 rsuffix := by
  induction past with
  | nil => cases h
  | cons e past ih =>
    cases hr : reference scope c.map e with
    | none =>
      rw [references_none hr] at h
      obtain ⟨newer, e', older, rsuffix, rfl, he⟩ := ih h
      exact ⟨e :: newer, e', older, rsuffix, rfl, he⟩
    | some r =>
      obtain ⟨id, parent, rsuffix⟩ := r
      rw [references_cons hr] at h
      rcases List.mem_cons.mp h with rfl | h
      · exact ⟨[], e, past, rsuffix, rfl, hr, rfl⟩
      · obtain ⟨newer, e', older, rsuffix', rfl, he⟩ := ih h
        exact ⟨e :: newer, e', older, rsuffix', rfl, he⟩

theorem references_mem {newer older : List Element} {parent rsuffix : Text}
    (h : reference scope c.map e = some (id, parent, rsuffix)) :
    (id, parent, newSuffix scope c older e parent rsuffix) ∈
      references scope c (newer ++ e :: older) := by
  induction newer with
  | nil =>
    rw [List.nil_append, references_cons h]
    exact List.mem_cons_self
  | cons x newer ih =>
    rw [List.cons_append]
    cases hr : reference scope c.map x with
    | none => rwa [references_none hr]
    | some r =>
      obtain ⟨other, parent', rsuffix'⟩ := r
      rw [references_cons hr]
      exact List.mem_cons_of_mem _ ih

variable {els : List Element}

theorem apart_of_nodup (hids : (scopedIds scope els).Nodup) (hpast : past ⊆ els) :
    Apart scope (parentsOf scope els) past := by
  intro entry hentry hdeclared
  obtain ⟨newer, e, older, rsuffix, rfl, hr, _⟩ := mem_references_iff hentry
  obtain ⟨e', he', k, hd⟩ := parentMap_declared.mp hdeclared
  have hmem : e ∈ els := hpast (List.mem_append_right _ List.mem_cons_self)
  have hsame := filterMap_nodup_eq hids hmem (List.mem_reverse.mp he')
    (reference_boundary hr).1 (declares_scoped hd).1
  subst hsame
  have hname := reference_name hr
  exact hname.elim (reference_undeclared hd).1 (reference_undeclared hd).2

def ValidReferences (scope : Text) (c : Parents) (past : List Element) : List Element → Prop
  | [] => True
  | e :: els => ValidReference scope c past e ∧ ValidReferences scope c (e :: past) els

theorem refer_run (rest : List Element) (h : Tracks scope c past s) :
    (ValidReferences scope c past rest → ∃ s', rest.foldlM (refer scope c.ints) s = .ok s' ∧
      Tracks scope c (rest.reverse ++ past) s') ∧
    (¬ValidReferences scope c past rest →
      ∃ f, rest.foldlM (refer scope c.ints) s = .error f) := by
  induction rest generalizing past s with
  | nil => exact ⟨fun _ => ⟨s, rfl, h⟩, fun hv => absurd trivial hv⟩
  | cons e rest ih =>
    rw [List.foldlM_cons, List.reverse_cons, List.append_assoc]
    obtain ⟨hok, herror⟩ := refer_step h e
    by_cases hv : ValidReference scope c past e
    · obtain ⟨s', hs', htracks⟩ := hok hv
      rw [hs']
      obtain ⟨hgo, hfail⟩ := ih htracks
      exact ⟨fun hall => hgo hall.2, fun hall => hfail fun hr => hall ⟨hv, hr⟩⟩
    · obtain ⟨f, hf⟩ := herror hv
      rw [hf]
      exact ⟨fun hall => absurd hall.1 hv, fun _ => ⟨f, rfl⟩⟩

structure Numberable (scope : Text) (els : List Element) : Prop where
  parents : ∀ e ∈ els, ValidParent scope e
  references : ValidReferences scope (parentsOf scope els) [] els

/-- Numbering returns exactly where everything can be numbered, and then the map of all ids. -/
theorem numberIds_iff {map : IdMap} :
    numberIds scope els = .ok map ↔ Numberable scope els ∧ map = fullMap scope els := by
  have hrun : ((∀ e ∈ els, ValidParent scope e) → _) ∧ _ := declare_run [] els
  obtain ⟨hfirst, hfirstError⟩ := hrun
  rw [List.append_nil] at hfirst
  unfold numberIds
  by_cases hparents : ∀ e ∈ els, ValidParent scope e
  · have hstart : Tracks scope (parentsOf scope els) []
        ⟨(parentsOf scope els).map, [], [], (parentsOf scope els).kept⟩ :=
      ⟨rfl, fun _ => rfl, fun _ => rfl, fun parent n => by simp⟩
    obtain ⟨hrun, hfail⟩ := refer_run els hstart
    rw [show Declarations.start = declarations scope [] from rfl, hfirst hparents]
    show (els.foldlM (refer scope (parentsOf scope els).ints)
      ⟨(parentsOf scope els).map, [], [], (parentsOf scope els).kept⟩ >>= fun r =>
        Except.ok r.map) = Except.ok map ↔ _
    by_cases hreferences : ValidReferences scope (parentsOf scope els) [] els
    · obtain ⟨s, hs, htracks⟩ := hrun hreferences
      rw [hs]
      rw [List.append_nil] at htracks
      have hmap : s.map = fullMap scope els := htracks.map
      show Except.ok s.map = Except.ok map ↔ _
      rw [hmap]
      exact ⟨fun h => ⟨⟨hparents, hreferences⟩, (Except.ok.inj h).symm⟩,
        fun h => congrArg _ h.2.symm⟩
    · obtain ⟨f, hf⟩ := hfail hreferences
      rw [hf]
      refine ⟨fun h => ?_, fun h => absurd h.1.references hreferences⟩
      cases h
  · obtain ⟨f, hf⟩ := hfirstError hparents
    rw [show Declarations.start = declarations scope [] from rfl, hf]
    refine ⟨fun h => ?_, fun h => absurd h.1.parents hparents⟩
    cases h

end KnxRs.Renumber
