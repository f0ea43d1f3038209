import KnxRs.Texts

set_option autoImplicit false

/-!
# Searching a text

The positions of the first and of the last occurrence of a pattern, counted in characters.
-/
namespace KnxRs.TextSearch
open Texts

/-- `xml.find(pat)`. -/
def find (pat xml : Text) : Option Nat := (splitOnce pat xml).map fun (before, _) => before.length

/-- `xml.rfind(pat)`. -/
def rfind (pat : Text) : Text → Option Nat
  | [] => if pat = [] then some 0 else none
  | c :: cs =>
    match rfind pat cs with
    | some n => some (n + 1)
    | none => if pat.isPrefixOf (c :: cs) then some 0 else none

variable {pat pre s : Text}

theorem find_nil (h : pat ≠ []) : find pat [] = none := by
  unfold find splitOnce
  rw [if_neg h]
  rfl

theorem find_cons (c : Char) (cs : Text) : find pat (c :: cs) =
    if pat.isPrefixOf (c :: cs) then some 0 else (find pat cs).map (· + 1) := by
  unfold find
  rw [splitOnce]
  split_ifs
  · rfl
  · rw [Option.map_map, Option.map_map]
    rfl

theorem find_none (h : ¬ pat <:+: s) : find pat s = none := by
  induction s with
  | nil =>
    refine find_nil fun hnil => h ?_
    rw [hnil]
  | cons c cs ih =>
    rw [find_cons, if_neg fun hp => h (List.isPrefixOf_iff_prefix.mp hp).isInfix,
      ih fun hcs => h (List.infix_cons hcs)]
    rfl

theorem rfind_none (h : ¬ pat <:+: s) : rfind pat s = none := by
  induction s with
  | nil =>
    unfold rfind
    refine if_neg fun hnil => h ?_
    rw [hnil]
  | cons c cs ih =>
    rw [rfind, ih fun hcs => h (List.infix_cons hcs)]
    exact if_neg fun hp => h (List.isPrefixOf_iff_prefix.mp hp).isInfix

theorem prefix_or_mem {c : Char} (h : pat <+: pre ++ c :: s) :
    pat <+: pre ∨ (∃ more, pat = pre ++ c :: more) := by
  rcases List.prefix_or_prefix_of_prefix h (List.prefix_append pre (c :: s)) with hp | ⟨more, rfl⟩
  · exact .inl hp
  · cases more with
    | nil => exact .inl (by rw [List.append_nil])
    | cons d more =>
      obtain ⟨rest, hrest⟩ := h
      rw [List.append_assoc, List.append_cancel_left_eq] at hrest
      exact .inr ⟨more, by rw [(List.cons.inj hrest).1]⟩

theorem isPrefixOf_append {c d : Char} (hc : c ∉ pat.tail) :
    pat.isPrefixOf (d :: (pre ++ c :: s)) = pat.isPrefixOf (d :: pre) := by
  refine Bool.eq_iff_iff.mpr ⟨fun hp => ?_, fun hp => ?_⟩
  · have hcross : pat <+: (d :: pre) ++ c :: s := List.isPrefixOf_iff_prefix.mp hp
    rcases prefix_or_mem hcross with hp | ⟨more, rfl⟩
    · exact List.isPrefixOf_iff_prefix.mpr hp
    · exact absurd hc (by simp)
  · have hpre : d :: pre <+: d :: (pre ++ c :: s) := List.prefix_append (d :: pre) (c :: s)
    exact List.isPrefixOf_iff_prefix.mpr ((List.isPrefixOf_iff_prefix.mp hp).trans hpre)

/-- Before a character that the pattern has at most at its front, only whole occurrences count. -/
theorem find_append {c : Char} (hc : c ∉ pat.tail) (h : ¬ pat <:+: pre) :
    find pat (pre ++ c :: s) = (find pat (c :: s)).map (pre.length + ·) := by
  induction pre with
  | nil => simp
  | cons d pre ih =>
    have hno : ¬ pat.isPrefixOf (d :: pre) = true := fun hp =>
      h (List.isPrefixOf_iff_prefix.mp hp).isInfix
    rw [List.cons_append, find_cons, isPrefixOf_append hc, if_neg hno,
      ih fun hpre => h (List.infix_cons hpre),
      Option.map_map]
    congr 1
    funext n
    simp only [Function.comp, List.length_cons]
    omega

theorem find_prefix {t : Text} (h : pat <+: t) : find pat t = some 0 := by
  cases t with
  | nil =>
    rw [List.prefix_nil.mp h]
    rfl
  | cons c cs => rw [find_cons, if_pos (List.isPrefixOf_iff_prefix.mpr h)]

theorem find_char {c : Char} (h : c ∉ pre) : find [c] (pre ++ c :: s) = some pre.length := by
  have hfound : find [c] (c :: s) = some 0 := find_prefix ⟨s, rfl⟩
  rw [find_append List.not_mem_nil, hfound]
  · rfl
  · intro hc
    exact h (hc.subset List.mem_cons_self)

theorem rfind_append {n : Nat} (h : rfind pat s = some n) :
    rfind pat (pre ++ s) = some (pre.length + n) := by
  induction pre with
  | nil => simpa using h
  | cons c pre ih =>
    rw [List.cons_append, rfind, ih]
    simp only [List.length_cons, Option.some.injEq]
    omega

theorem rfind_pattern {c : Char} {cs : Text} (hc : c ∉ cs) (h : ¬ (c :: cs) <:+: s) :
    rfind (c :: cs) (c :: cs ++ s) = some 0 := by
  have hlater : ∀ ds : Text, c ∉ ds → rfind (c :: cs) (ds ++ s) = none := by
    intro ds hds
    induction ds with
    | nil => exact rfind_none h
    | cons d ds ih =>
      rw [List.cons_append, rfind, ih fun hmem => hds (List.mem_cons_of_mem d hmem)]
      refine if_neg fun hp => hds ?_
      obtain ⟨rest, hrest⟩ := List.isPrefixOf_iff_prefix.mp hp
      rw [(List.cons.inj hrest).1]
      exact List.mem_cons_self
  rw [List.cons_append, rfind, hlater cs hc]
  exact if_pos (List.isPrefixOf_iff_prefix.mpr ⟨s, rfl⟩)

end KnxRs.TextSearch
