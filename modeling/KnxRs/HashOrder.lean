import KnxRs.HashTrees
import KnxRs.StableSort

set_option autoImplicit false

/-!
# The order of siblings

The octets do not depend on the order of siblings whose keys the comparison tells apart, at
any level of the tree. Ordered siblings keep theirs.
-/
namespace KnxRs.Hash
open Texts XmlDocuments XmlScan Renumber StableSort

variable {lib : Library}

/-! ## Siblings -/

/-- Results whose relative order matters: both are ordered, or the comparison does not tell
their keys apart. -/
def tied (r s : GenResult) : Bool :=
  match r.orderKey, s.orderKey with
  | some key, some other =>
    if r.orderIsRelevant then s.orderIsRelevant
    else !s.orderIsRelevant && cmpInvariant other key = .eq
  | _, _ => false

def resultIn (lib : Library) (parentName : Text) (node : Node) : Option GenResult :=
  (generate lib parentName node).toOption.join

/-- A permutation of siblings that keeps the order of those that are tied. -/
structure Permutes (lib : Library) (parentName : Text) (xs ys : List Node) : Prop where
  perm : xs.Perm ys
  kept : ∀ r, xs.filter (fun x => (resultIn lib parentName x).any (tied r)) =
    ys.filter fun y => (resultIn lib parentName y).any (tied r)

mutual

/-- Siblings are permuted inside an element, at any level. -/
inductive Node.Rearranged (lib : Library) : Node → Node → Prop where
  | same (node : Node) : Node.Rearranged lib node node
  | element (e : Element) {xs ys : List Node} (outer : innerKind (localName e.name) = none)
      (h : Rearranged lib (localName e.name) xs ys) :
      Node.Rearranged lib (.element e xs) (.element e ys)

inductive Rearranged (lib : Library) : Text → List Node → List Node → Prop where
  | nil (parentName : Text) : Rearranged lib parentName [] []
  | cons {parentName : Text} {x y : Node} {xs ys : List Node} (head : Node.Rearranged lib x y)
      (tail : Rearranged lib parentName xs ys) : Rearranged lib parentName (x :: xs) (y :: ys)
  | permute {parentName : Text} {xs ys zs : List Node} (inner : Rearranged lib parentName xs ys)
      (h : Permutes lib parentName ys zs) : Rearranged lib parentName xs zs

end

/-! ## Sorted children -/

def entriesFrom : (n : Nat) → List GenResult → List (SortKey × Octets)
  | _, [] => []
  | n, r :: rs =>
    match r.orderKey with
    | none => entriesFrom n rs
    | some key =>
      if r.orderIsRelevant then (.ordered n, r.octets) :: entriesFrom (n + 1) rs
      else (.sorted key, r.octets) :: entriesFrom n rs

theorem foldl_push (children : Children) (rs : List GenResult) :
    (rs.foldl Children.push children).sorted =
      children.sorted ++ entriesFrom children.orderCounter rs := by
  induction rs generalizing children with
  | nil => exact (List.append_nil _).symm
  | cons r rs ih =>
    rw [List.foldl_cons, ih, entriesFrom]
    unfold Children.push
    cases r.orderKey with
    | none => rfl
    | some key =>
      dsimp only
      split_ifs with hordered
      · rw [List.append_assoc, List.singleton_append]
      · rw [List.append_assoc, List.singleton_append]

def sortedEntry (r : GenResult) : Option (SortKey × Octets) :=
  r.orderKey.map fun key => (.sorted key, r.octets)

def entryWeight (entry : SortKey × Octets) : Nat ×ₗ Weight := entry.1.weight

theorem sorted_weight {key other : Text} :
    (SortKey.sorted key).weight = (SortKey.sorted other).weight ↔ cmpInvariant key other = .eq := by
  rw [(compares_cmpInvariant key other).eq_eq]
  constructor
  · exact fun h => congrArg (fun w => (ofLex w).2) h
  · exact fun h => congrArg (fun w => toLex (1, w)) h

theorem ordered_weight {m n : Nat} :
    (SortKey.ordered m).weight = (SortKey.ordered n).weight ↔ m = n := by
  constructor
  · intro h
    have hlist := congrArg (fun w => (ofLex (ofLex w).2).1) h
    exact (List.cons.inj hlist).1
  · rintro rfl
    rfl

theorem ordered_weight_ne (n : Nat) (key : Text) :
    (SortKey.ordered n).weight ≠ (SortKey.sorted key).weight :=
  fun h => absurd (congrArg (fun w => (ofLex w).1) h) Nat.zero_ne_one

theorem ties_entry_ne {key other : SortKey} (h : other.weight ≠ key.weight)
    (octets content : Octets) (entries : List (SortKey × Octets)) :
    ties entryWeight (key, octets) ((other, content) :: entries) =
      ties entryWeight (key, octets) entries :=
  ties_cons_of_ne (x := (key, octets)) (y := (other, content)) h entries

theorem ties_entry_self {key other : SortKey} (h : other.weight = key.weight)
    (octets content : Octets) (entries : List (SortKey × Octets)) :
    ties entryWeight (key, octets) ((other, content) :: entries) =
      (other, content) :: ties entryWeight (key, octets) entries := by
  have hweight : entryWeight (key, octets) = entryWeight (other, content) := h.symm
  rw [ties_congr hweight, ties_cons_self, ← ties_congr hweight]

/-- The entries of a key come from the results that are tied to it. -/
theorem ties_sorted (key : Text) (octets : Octets) (n : Nat) (rs : List GenResult) :
    ties entryWeight (.sorted key, octets) (entriesFrom n rs) =
      (rs.filter (tied ⟨[], some key, false⟩)).filterMap sortedEntry := by
  induction rs generalizing n with
  | nil => rfl
  | cons r rs ih =>
    obtain ⟨content, orderKey, relevant⟩ := r
    rw [entriesFrom]
    cases orderKey with
    | none => exact ih n
    | some other =>
      cases relevant with
      | true =>
        rw [List.filter_cons_of_neg Bool.false_ne_true, ← ih (n + 1)]
        exact ties_entry_ne (ordered_weight_ne n key) _ _ _
      | false =>
        have htied : tied ⟨[], some key, false⟩ ⟨content, some other, false⟩ =
            decide (cmpInvariant other key = .eq) := rfl
        by_cases h : cmpInvariant other key = .eq
        · rw [List.filter_cons_of_pos (by rw [htied]; exact decide_eq_true h)]
          exact (ties_entry_self (sorted_weight.mpr h) _ _ _).trans
            (congrArg ((SortKey.sorted other, content) :: ·) (ih n))
        · rw [List.filter_cons_of_neg (by rw [htied, decide_eq_true_iff]; exact h), ← ih n]
          exact ties_entry_ne (fun hw => h (sorted_weight.mp hw)) _ _ _

def anyOrdered : GenResult := ⟨[], some [], true⟩

theorem ties_ordered (m : Nat) (octets : Octets) (n : Nat) (rs : List GenResult) :
    ties entryWeight (.ordered m, octets) (entriesFrom n rs) =
      ties entryWeight (.ordered m, octets) (entriesFrom n (rs.filter (tied anyOrdered))) := by
  induction rs generalizing n with
  | nil => rfl
  | cons r rs ih =>
    obtain ⟨content, orderKey, relevant⟩ := r
    cases orderKey with
    | none => exact ih n
    | some key =>
      cases relevant with
      | false =>
        rw [List.filter_cons_of_neg Bool.false_ne_true, ← ih n]
        exact ties_entry_ne (ordered_weight_ne m key).symm _ _ _
      | true =>
        rw [List.filter_cons_of_pos rfl]
        show ties entryWeight _ ((.ordered n, content) :: entriesFrom (n + 1) rs) =
          ties entryWeight _ ((.ordered n, content) :: entriesFrom (n + 1) _)
        by_cases h : n = m
        · have hweight := ordered_weight.mpr h
          rw [ties_entry_self hweight, ties_entry_self hweight, ih]
        · have hne : (SortKey.ordered n).weight ≠ (SortKey.ordered m).weight :=
            fun hw => h (ordered_weight.mp hw)
          rw [ties_entry_ne hne, ties_entry_ne hne, ih]

theorem keyLe_weight (x y : SortKey × Octets) : keyLe x y ↔ entryWeight x ≤ entryWeight y :=
  (compares_sortKey x.1 y.1).ne_gt

/-- The octets of siblings depend on the order of tied ones only. -/
theorem concat_congr {rs rs' : List GenResult} (h : ∀ r, rs.filter (tied r) = rs'.filter (tied r)) :
    (rs.foldl Children.push ⟨[], 0⟩).concat = (rs'.foldl Children.push ⟨[], 0⟩).concat := by
  unfold Children.concat
  rw [foldl_push, foldl_push, List.nil_append, List.nil_append]
  refine congrArg (List.flatMap Prod.snd) (insertionSort_congr keyLe_weight fun entry => ?_)
  obtain ⟨key, octets⟩ := entry
  cases key with
  | sorted key => rw [ties_sorted, ties_sorted, h]
  | ordered m => rw [ties_ordered, ties_ordered m octets 0 rs', h]

/-! ## Trees -/

theorem toOption_bind {ε α β : Type} (x : Except ε α) (f : α → Except ε β) :
    (x.bind f).toOption = x.toOption.bind fun a => (f a).toOption := by
  cases x <;> rfl

theorem toOption_map {ε α β : Type} (x : Except ε α) (f : α → β) :
    (x.map f).toOption = x.toOption.map f := by
  cases x <;> rfl

def succeeds (lib : Library) (parentName : Text) (node : Node) : Bool :=
  (generate lib parentName node).toOption.isSome

theorem pushNode_foldl (children : Children) (result : Option GenResult) (rs : List GenResult) :
    rs.foldl Children.push (children.pushNode result) =
      (result.toList ++ rs).foldl Children.push children := by
  cases result <;> rfl

theorem generateAll_results (parentName : Text) (children : Children) (nodes : List Node) :
    (generateAll lib parentName children nodes).toOption =
      if nodes.all (succeeds lib parentName) then
        some ((nodes.filterMap (resultIn lib parentName)).foldl Children.push children)
      else none := by
  induction nodes generalizing children with
  | nil => rfl
  | cons node nodes ih =>
    rw [generateAll, List.all_cons]
    unfold succeeds at ih ⊢
    cases hnode : generate lib parentName node with
    | error f => rfl
    | ok result =>
      have hresult : resultIn lib parentName node = result := by
        unfold resultIn
        rw [hnode]
        rfl
      have hcons : (node :: nodes).filterMap (resultIn lib parentName) =
          result.toList ++ nodes.filterMap (resultIn lib parentName) := by
        rw [List.filterMap_cons, hresult]
        cases result <;> rfl
      rw [hcons, ← pushNode_foldl]
      exact ih (children.pushNode result)

structure SameSiblings (lib : Library) (parentName : Text) (xs ys : List Node) : Prop where
  succeed : xs.all (succeeds lib parentName) = ys.all (succeeds lib parentName)
  results : ∀ r, (xs.filterMap (resultIn lib parentName)).filter (tied r) =
    (ys.filterMap (resultIn lib parentName)).filter (tied r)

theorem SameSiblings.concat {parentName : Text} {xs ys : List Node}
    (h : SameSiblings lib parentName xs ys) :
    ((generateAll lib parentName ⟨[], 0⟩ xs).map Children.concat).toOption =
      ((generateAll lib parentName ⟨[], 0⟩ ys).map Children.concat).toOption := by
  rw [toOption_map, toOption_map, generateAll_results, generateAll_results, h.succeed]
  split_ifs
  · exact congrArg some (concat_congr h.results)
  · rfl

theorem filter_filterMap {α β : Type} (f : α → Option β) (p : β → Bool) (l : List α) :
    (l.filterMap f).filter p = (l.filter fun x => (f x).any p).filterMap f := by
  induction l with
  | nil => rfl
  | cons x l ih =>
    rw [List.filterMap_cons]
    cases hx : f x with
    | none => rw [List.filter_cons_of_neg (by rw [hx]; exact Bool.false_ne_true), ih]
    | some y =>
      by_cases hy : p y = true
      · rw [List.filter_cons_of_pos hy, List.filter_cons_of_pos (by rw [hx]; exact hy),
          List.filterMap_cons, hx, ih]
      · rw [List.filter_cons_of_neg hy, List.filter_cons_of_neg (by rw [hx]; exact hy), ih]

theorem Permutes.same {parentName : Text} {xs ys : List Node} (h : Permutes lib parentName xs ys) :
    SameSiblings lib parentName xs ys where
  succeed := h.perm.all_eq
  results r := by rw [filter_filterMap, filter_filterMap, h.kept]

theorem SameSiblings.trans {parentName : Text} {xs ys zs : List Node}
    (h : SameSiblings lib parentName xs ys) (h' : SameSiblings lib parentName ys zs) :
    SameSiblings lib parentName xs zs :=
  ⟨h.succeed.trans h'.succeed, fun r => (h.results r).trans (h'.results r)⟩

theorem SameSiblings.cons {parentName : Text} {x y : Node} {xs ys : List Node}
    (head : (generate lib parentName x).toOption = (generate lib parentName y).toOption)
    (tail : SameSiblings lib parentName xs ys) :
    SameSiblings lib parentName (x :: xs) (y :: ys) := by
  have hresult : resultIn lib parentName x = resultIn lib parentName y := congrArg Option.join head
  refine ⟨?_, fun r => ?_⟩
  · rw [List.all_cons, List.all_cons, tail.succeed]
    unfold succeeds
    rw [head]
  · rw [List.filterMap_cons, List.filterMap_cons, hresult]
    cases resultIn lib parentName y with
    | none => exact tail.results r
    | some s => rw [List.filter_cons, List.filter_cons, tail.results r]

theorem generate_element_congr (parentName : Text) {e : Element} {xs ys : List Node}
    (outer : innerKind (localName e.name) = none) (h : SameSiblings lib (localName e.name) xs ys) :
    (generate lib parentName (.element e xs)).toOption =
      (generate lib parentName (.element e ys)).toOption := by
  have hinner : (innerOctets lib e xs).toOption = (innerOctets lib e ys).toOption := by
    unfold innerOctets
    rw [outer]
    exact h.concat
  rw [generate_element, generate_element, toOption_bind, toOption_bind]
  simp only [toOption_bind, hinner]

mutual

theorem Node.Rearranged.same_result {x y : Node} (h : Node.Rearranged lib x y)
    (parentName : Text) :
    (generate lib parentName x).toOption = (generate lib parentName y).toOption :=
  match h with
  | .same _ => rfl
  | .element _ outer inner => generate_element_congr parentName outer inner.same_siblings

theorem Rearranged.same_siblings {parentName : Text} {xs ys : List Node}
    (h : Rearranged lib parentName xs ys) : SameSiblings lib parentName xs ys :=
  match h with
  | .nil _ => ⟨rfl, fun _ => rfl⟩
  | .cons head tail => tail.same_siblings.cons (head.same_result parentName)
  | .permute inner h => inner.same_siblings.trans h.same

end

theorem rearranged_refl (parentName : Text) (nodes : List Node) :
    Rearranged lib parentName nodes nodes := by
  induction nodes with
  | nil => exact .nil parentName
  | cons node nodes ih => exact .cons (.same node) ih

/-! ## Permutations with different keys -/

def isOrdered (lib : Library) (parentName : Text) (node : Node) : Bool :=
  (resultIn lib parentName node).any fun r => r.orderKey.isSome && r.orderIsRelevant

def sortedKey (lib : Library) (parentName : Text) (node : Node) : Option Text :=
  (resultIn lib parentName node).bind fun r => if r.orderIsRelevant then none else r.orderKey

def Apart (lib : Library) (parentName : Text) (x y : Node) : Prop :=
  ∀ key ∈ sortedKey lib parentName x, ∀ other ∈ sortedKey lib parentName y,
    cmpInvariant key other ≠ .eq

instance (parentName : Text) (x y : Node) : Decidable (Apart lib parentName x y) :=
  inferInstanceAs (Decidable (∀ key ∈ sortedKey lib parentName x,
    ∀ other ∈ sortedKey lib parentName y, cmpInvariant key other ≠ .eq))

theorem tied_ordered {r s : GenResult} {key : Text} (hkey : r.orderKey = some key)
    (h : r.orderIsRelevant = true) : tied r s = (s.orderKey.isSome && s.orderIsRelevant) := by
  unfold tied
  rw [hkey, h]
  cases s.orderKey <;> rfl

theorem tied_none {r : GenResult} (h : r.orderKey = none) (s : GenResult) : tied r s = false := by
  unfold tied
  rw [h]

theorem tied_sorted {r s : GenResult} {key : Text} (hkey : r.orderKey = some key)
    (h : r.orderIsRelevant = false) (htied : tied r s = true) :
    ∃ other, s.orderKey = some other ∧ s.orderIsRelevant = false ∧
      cmpInvariant other key = .eq := by
  unfold tied at htied
  rw [hkey, h] at htied
  cases hother : s.orderKey with
  | none =>
    rw [hother] at htied
    cases htied
  | some other =>
    rw [hother] at htied
    have hboth := (Bool.and_eq_true _ _).mp htied
    exact ⟨other, rfl, by simpa using hboth.1, of_decide_eq_true hboth.2⟩

theorem cmpInvariant_eq_trans {s t u : Text} (h : cmpInvariant s u = .eq)
    (h' : cmpInvariant t u = .eq) : cmpInvariant s t = .eq := by
  rw [(compares_cmpInvariant _ _).eq_eq] at h h' ⊢
  exact h.trans h'.symm

theorem tied_not_apart {parentName : Text} {r : GenResult} {key : Text} {x y : Node}
    (hkey : r.orderKey = some key) (h : r.orderIsRelevant = false)
    (hx : (resultIn lib parentName x).any (tied r) = true)
    (hy : (resultIn lib parentName y).any (tied r) = true) : ¬ Apart lib parentName x y := by
  obtain ⟨s, hs, hrs⟩ := Option.any_eq_true _ _ |>.mp hx
  obtain ⟨t, ht, hrt⟩ := Option.any_eq_true _ _ |>.mp hy
  obtain ⟨first, hfirst, hsorted, hcmp⟩ := tied_sorted hkey h hrs
  obtain ⟨second, hsecond, hsorted', hcmp'⟩ := tied_sorted hkey h hrt
  intro apart
  refine apart first ?_ second ?_ (cmpInvariant_eq_trans hcmp hcmp')
  · unfold sortedKey
    rw [hs, Option.bind_some, hsorted, hfirst]
    rfl
  · unfold sortedKey
    rw [ht, Option.bind_some, hsorted', hsecond]
    rfl

theorem perm_of_short {α : Type} {l l' : List α} (perm : l.Perm l') (h : l.length ≤ 1) : l = l' := by
  match l, h with
  | [], _ => exact perm.nil_eq
  | [a], _ => exact List.singleton_perm.mp perm

/-- Any permutation keeps the order of tied siblings when it keeps that of the ordered ones, and
all other keys are told apart. -/
theorem Permutes.of_apart {parentName : Text} {xs ys : List Node} (perm : xs.Perm ys)
    (ordered : xs.filter (isOrdered lib parentName) = ys.filter (isOrdered lib parentName))
    (apart : xs.Pairwise (Apart lib parentName)) : Permutes lib parentName xs ys where
  perm := perm
  kept r := by
    cases hkey : r.orderKey with
    | none =>
      have hfalse : (tied r) = fun _ => false := funext (tied_none hkey)
      rw [hfalse]
      simp
    | some key =>
      cases hrelevant : r.orderIsRelevant with
      | true =>
        have htied : (tied r) = fun s => s.orderKey.isSome && s.orderIsRelevant :=
          funext fun s => tied_ordered hkey hrelevant
        rw [htied]
        exact ordered
      | false =>
        refine perm_of_short (perm.filter _) ?_
        have hpairs := apart.filter fun x => (resultIn lib parentName x).any (tied r)
        match hl : xs.filter fun x => (resultIn lib parentName x).any (tied r), hpairs with
        | [], _ => exact Nat.zero_le 1
        | [x], _ => exact Nat.le_refl 1
        | x :: y :: rest, hpairs =>
          have hx : x ∈ xs.filter fun x => (resultIn lib parentName x).any (tied r) :=
            hl ▸ List.mem_cons_self
          have hy : y ∈ xs.filter fun x => (resultIn lib parentName x).any (tied r) :=
            hl ▸ List.mem_cons_of_mem _ List.mem_cons_self
          exact absurd (List.rel_of_pairwise_cons hpairs List.mem_cons_self)
            (tied_not_apart hkey hrelevant (List.mem_filter.mp hx).2 (List.mem_filter.mp hy).2)

/-! ## Documents -/

/-- The comparison of keys is a total preorder, and tells different printable keys apart. -/
structure KeyOrder (cmp : Text → Text → Ordering) : Prop where
  swap : ∀ s t, cmp t s = (cmp s t).swap
  trans : ∀ s t u, cmp s t ≠ .gt → cmp t u ≠ .gt → cmp s u ≠ .gt
  printable : ∀ s t, (∀ c ∈ s, isPrintable c = true) → (∀ c ∈ t, isPrintable c = true) →
    cmp s t = .eq → s = t

theorem cmpInvariant_order : KeyOrder cmpInvariant where
  swap := cmpInvariant_swap
  trans _ _ _ := cmpInvariant_trans
  printable _ _ := cmpInvariant_printable

/-- Rearranged documents are serialized and hashed alike. -/
theorem rearranged_serialized {reader : Text → List Event} {first second : Text}
    {nodes others children rearranged : List Node} (documented : lib.Documented)
    (reads : Reads reader first nodes) (reads' : Reads reader second others) (plain : Plain nodes)
    (plain' : Plain others) (programs : programsIn nodes = some children)
    (programs' : programsIn others = some rearranged)
    (h : Rearranged lib applicationPrograms children rearranged) :
    (serializeAppProgram lib reader first).toOption =
        (serializeAppProgram lib reader second).toOption ∧
      (hashApplicationProgram lib reader first).toOption =
        (hashApplicationProgram lib reader second).toOption ∧
      KeyOrder cmpInvariant := by
  have hsame : (serializeAppProgram lib reader first).toOption =
      (serializeAppProgram lib reader second).toOption := by
    rw [serialize_nodes documented reads plain, serialize_nodes documented reads' plain']
    unfold serializeNodes
    rw [programs, programs']
    exact h.same_siblings.concat
  refine ⟨hsame, ?_, cmpInvariant_order⟩
  unfold hashApplicationProgram
  rw [toOption_map, toOption_map, hsame]

/-! ## Parameter types -/

def parameterType (id : String) (children : List Node) : Node :=
  .element ⟨"ParameterType".toList, [("Id".toList, id.toList), ("Name".toList, "x".toList)]⟩
    children

def enumeration (id value : String) : Node :=
  .emptyElement ⟨"Enumeration".toList, [("Id".toList, id.toList), ("Value".toList, value.toList)]⟩

def enumerations : Text × List Node :=
  ("<ApplicationPrograms><ParameterType Id=\"PT-1\" Name=\"x\"><Enumeration Id=\"EN-1\" Value=\"1\"/><Enumeration Id=\"EN-2\" Value=\"2\"/></ParameterType><ParameterType Id=\"PT-2\" Name=\"x\"></ParameterType></ApplicationPrograms>".toList,
    applicationProgramsOf [
      parameterType "PT-1" [enumeration "EN-1" "1", enumeration "EN-2" "2"], parameterType "PT-2" []])

def enumerationsSwapped : Text × List Node :=
  ("<ApplicationPrograms><ParameterType Id=\"PT-2\" Name=\"x\"></ParameterType><ParameterType Id=\"PT-1\" Name=\"x\"><Enumeration Id=\"EN-2\" Value=\"2\"/><Enumeration Id=\"EN-1\" Value=\"1\"/></ParameterType></ApplicationPrograms>".toList,
    applicationProgramsOf [
      parameterType "PT-2" [], parameterType "PT-1" [enumeration "EN-2" "2", enumeration "EN-1" "1"]])

theorem enumerations_ne : enumerationsSwapped.1 ≠ enumerations.1 := by
  delta enumerations enumerationsSwapped
  dsimp only
  exact String.toList_inj.ne.mpr (by decide +kernel)

theorem enumerations_rearranged : Rearranged (libraryOf []) applicationPrograms
    [parameterType "PT-1" [enumeration "EN-1" "1", enumeration "EN-2" "2"], parameterType "PT-2" []]
    [parameterType "PT-2" [], parameterType "PT-1" [enumeration "EN-2" "2", enumeration "EN-1" "1"]] := by
  have swapped {parentName : Text} {x y : Node}
      (hx : isOrdered (libraryOf []) parentName x = false)
      (hy : isOrdered (libraryOf []) parentName y = false)
      (apart : Apart (libraryOf []) parentName x y) :
      Permutes (libraryOf []) parentName [x, y] [y, x] := by
    refine .of_apart (.swap _ _ _) ?_ (List.pairwise_pair.mpr apart)
    simp [hx, hy]
  have inner : Node.Rearranged (libraryOf [])
      (parameterType "PT-1" [enumeration "EN-1" "1", enumeration "EN-2" "2"])
      (parameterType "PT-1" [enumeration "EN-2" "2", enumeration "EN-1" "1"]) :=
    .element _ (by decide +kernel) (.permute (rearranged_refl _ _)
      (swapped (by decide +kernel) (by decide +kernel) (by decide +kernel)))
  exact .permute (.cons inner (rearranged_refl _ _))
    (swapped (by decide +kernel) (by decide +kernel) (by decide +kernel))

theorem enumerations_serialized :
    (serializeAppProgram (libraryOf []) (readerOf [enumerations, enumerationsSwapped])
        enumerations.1).toOption =
      (serializeAppProgram (libraryOf []) (readerOf [enumerations, enumerationsSwapped])
        enumerationsSwapped.1).toOption :=
  (rearranged_serialized (libraryOf_documented _) ⟨readerOf_first _ _, by decide +kernel⟩
    ⟨readerOf_second enumerations_ne, by decide +kernel⟩
    (plain_applicationPrograms (by decide +kernel)) (plain_applicationPrograms (by decide +kernel))
    rfl rfl enumerations_rearranged).1

def accented : Text × List Node :=
  ("<ApplicationPrograms><ParameterType Id=\"PT-a\" Name=\"x\"></ParameterType><ParameterType Id=\"PT-ä\" Name=\"x\"></ParameterType></ApplicationPrograms>".toList,
    applicationProgramsOf [parameterType "PT-a" [], parameterType "PT-ä" []])

def accentedSwapped : Text × List Node :=
  ("<ApplicationPrograms><ParameterType Id=\"PT-ä\" Name=\"x\"></ParameterType><ParameterType Id=\"PT-a\" Name=\"x\"></ParameterType></ApplicationPrograms>".toList,
    applicationProgramsOf [parameterType "PT-ä" [], parameterType "PT-a" []])

theorem accented_swapped :
    Reads (readerOf [accented, accentedSwapped]) accented.1 accented.2 ∧
      Reads (readerOf [accented, accentedSwapped]) accentedSwapped.1 accentedSwapped.2 ∧
      Plain accented.2 ∧ Plain accentedSwapped.2 ∧
      sortedKey (libraryOf []) applicationPrograms (parameterType "PT-a" []) =
        some "PT-a".toList ∧
      sortedKey (libraryOf []) applicationPrograms (parameterType "PT-ä" []) =
        some "PT-ä".toList ∧
      cmpInvariant "PT-a".toList "PT-ä".toList = .eq ∧
      serializeAppProgram (libraryOf []) (readerOf [accented, accentedSwapped]) accented.1 ≠
        serializeAppProgram (libraryOf []) (readerOf [accented, accentedSwapped])
          accentedSwapped.1 := by
  have hne : accentedSwapped.1 ≠ accented.1 := by
    delta accented accentedSwapped
    dsimp only
    exact String.toList_inj.ne.mpr (by decide +kernel)
  have hfirst : readerOf [accented, accentedSwapped] accented.1 = eventsOf accented.2 :=
    readerOf_first _ _
  have hsecond : readerOf [accented, accentedSwapped] accentedSwapped.1 =
      eventsOf accentedSwapped.2 := readerOf_second hne
  refine ⟨⟨hfirst, ?_⟩, ⟨hsecond, ?_⟩, plain_applicationPrograms ?_,
    plain_applicationPrograms ?_, ?_, ?_, ?_, ?_⟩
  case refine_8 =>
    unfold serializeAppProgram
    rw [hfirst, hsecond]
    decide +kernel
  all_goals decide +kernel

end KnxRs.Hash
