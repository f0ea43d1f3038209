import Mathlib.Data.List.Forall2

set_option autoImplicit false

/-!
# Patterns of one class a character

A pattern is a row of character classes. Rewriting replaces the matches of some patterns from
left to right, a match never in another one, and keeps what is between them.
-/
namespace KnxRs.Patterns

variable {α : Type}

abbrev Pattern (α : Type) := List (α → Bool)

def Matches (p : Pattern α) (s : List α) : Prop := List.Forall₂ (fun k c => k c = true) p s

/-- The match at the start and what follows it. -/
def matchAt : Pattern α → List α → Option (List α × List α)
  | [], s => some ([], s)
  | _ :: _, [] => none
  | k :: p, c :: s => if k c then (matchAt p s).map fun (found, rest) => (c :: found, rest) else none

def matchFirst (patterns : List (Pattern α)) (s : List α) : Option (List α × List α) :=
  patterns.findSome? fun p => matchAt p s

/-- `skip` characters belong to the last match. -/
def rewriteFrom (patterns : List (Pattern α)) (f : List α → List α) : (skip : Nat) → List α → List α
  | _, [] => []
  | skip + 1, _ :: s => rewriteFrom patterns f skip s
  | 0, c :: s =>
    match matchFirst patterns (c :: s) with
    | some (found, _) => f found ++ rewriteFrom patterns f (found.length - 1) s
    | none => c :: rewriteFrom patterns f 0 s

/-- Every match is rewritten by `f`. -/
def rewriteAll (patterns : List (Pattern α)) (f : List α → List α) (s : List α) : List α :=
  rewriteFrom patterns f 0 s

def search (p : Pattern α) : List α → Option (List α)
  | [] => none
  | c :: s => ((matchAt p (c :: s)).map Prod.fst).or (search p s)

/-! ## Matches -/

theorem matchAt_iff {p : Pattern α} {s found rest : List α} :
    matchAt p s = some (found, rest) ↔ s = found ++ rest ∧ Matches p found := by
  unfold Matches
  induction p generalizing s found with
  | nil =>
    unfold matchAt
    rw [Option.some_inj, Prod.mk.injEq, List.forall₂_nil_left_iff]
    constructor
    · rintro ⟨rfl, rfl⟩
      exact ⟨rfl, rfl⟩
    · rintro ⟨rfl, rfl⟩
      exact ⟨rfl, rfl⟩
  | cons k p ih =>
    rw [List.forall₂_cons_left_iff]
    cases s with
    | nil =>
      constructor
      · intro h
        cases h
      · rintro ⟨hs, c, t, -, -, rfl⟩
        cases hs
    | cons c s =>
      unfold matchAt
      constructor
      · intro h
        split_ifs at h with hk
        obtain ⟨⟨found', rest'⟩, hm, he⟩ := Option.map_eq_some_iff.mp h
        obtain ⟨rfl, rfl⟩ := Prod.mk.inj he
        obtain ⟨rfl, hfound⟩ := ih.mp hm
        exact ⟨rfl, c, found', hk, hfound, rfl⟩
      · rintro ⟨hs, c', t, hk, ht, rfl⟩
        obtain ⟨rfl, rfl⟩ := List.cons.inj hs
        have htail : matchAt p (t ++ rest) = some (t, rest) := ih.mpr ⟨rfl, ht⟩
        rw [if_pos hk]
        exact congrArg (Option.map _) htail

theorem matchAt_append {p : Pattern α} {found : List α} (h : Matches p found) (rest : List α) :
    matchAt p (found ++ rest) = some (found, rest) := matchAt_iff.mpr ⟨rfl, h⟩

theorem Matches.append {p q : Pattern α} {s t : List α} (hs : Matches p s) (ht : Matches q t) :
    Matches (p ++ q) (s ++ t) := List.rel_append hs ht

theorem Matches.split {p q : Pattern α} {s : List α} (h : Matches (p ++ q) s) :
    ∃ t u, s = t ++ u ∧ Matches p t ∧ Matches q u := by
  induction p generalizing s with
  | nil => exact ⟨[], s, rfl, .nil, h⟩
  | cons k p ih =>
    obtain ⟨c, s', hk, hs', rfl⟩ := List.forall₂_cons_left_iff.mp h
    obtain ⟨t, u, rfl, ht, hu⟩ := ih hs'
    exact ⟨c :: t, u, rfl, .cons hk ht, hu⟩

theorem Matches.length_eq {p : Pattern α} {s : List α} (h : Matches p s) : p.length = s.length :=
  List.Forall₂.length_eq h

theorem matches_replicate {k : α → Bool} {n : Nat} {s : List α} :
    Matches (List.replicate n k) s ↔ s.length = n ∧ ∀ c ∈ s, k c = true := by
  unfold Matches
  induction n generalizing s with
  | zero =>
    rw [List.replicate_zero, List.forall₂_nil_left_iff, List.length_eq_zero_iff]
    constructor
    · rintro rfl
      exact ⟨rfl, fun c hc => absurd hc List.not_mem_nil⟩
    · exact And.left
  | succ n ih =>
    rw [List.replicate_succ, List.forall₂_cons_left_iff]
    constructor
    · rintro ⟨c, t, hc, ht, rfl⟩
      obtain ⟨rfl, hall⟩ := ih.mp ht
      exact ⟨rfl, List.forall_mem_cons.mpr ⟨hc, hall⟩⟩
    · rintro ⟨hlength, hall⟩
      cases s with
      | nil => cases hlength
      | cons c t =>
        obtain ⟨hc, ht⟩ := List.forall_mem_cons.mp hall
        exact ⟨c, t, hc, ih.mpr ⟨Nat.succ.inj hlength, ht⟩, rfl⟩

theorem Matches.class_of_mem {p : Pattern α} {s : List α} (h : Matches p s) {c : α} (hc : c ∈ s) :
    ∃ k ∈ p, k c = true := by
  unfold Matches at h
  induction h with
  | nil => cases hc
  | cons hk _ ih =>
    rcases List.mem_cons.mp hc with rfl | hc
    · exact ⟨_, List.mem_cons_self, hk⟩
    · obtain ⟨k, hmem, hkc⟩ := ih hc
      exact ⟨k, List.mem_cons_of_mem _ hmem, hkc⟩

theorem matchAt_foreign {p : Pattern α} {c : α} (foreign : ∀ k ∈ p, k c = false) (u v : List α) :
    matchAt p (u ++ c :: v) = (matchAt p u).map fun (found, rest) => (found, rest ++ c :: v) := by
  induction p generalizing u with
  | nil => rfl
  | cons k ks ih =>
    have htail : ∀ k ∈ ks, k c = false := fun k hk => foreign k (List.mem_cons_of_mem _ hk)
    cases u with
    | nil =>
      show (if k c = true then _ else none) = none
      rw [foreign k List.mem_cons_self, if_neg Bool.false_ne_true]
    | cons d u =>
      rw [List.cons_append]
      unfold matchAt
      split_ifs
      · rw [ih htail, Option.map_map, Option.map_map]
        rfl
      · rfl

section
variable {patterns : List (Pattern α)}

theorem matchFirst_eq {s found rest : List α} (h : matchFirst patterns s = some (found, rest)) :
    s = found ++ rest ∧ ∃ p ∈ patterns, Matches p found := by
  obtain ⟨p, hp, hm⟩ := List.exists_of_findSome?_eq_some h
  obtain ⟨hs, hfound⟩ := matchAt_iff.mp hm
  exact ⟨hs, p, hp, hfound⟩

theorem matchFirst_none {s : List α} (h : ∀ p ∈ patterns, matchAt p s = none) :
    matchFirst patterns s = none := List.findSome?_eq_none_iff.mpr h

theorem matchFirst_foreign {c : α} (foreign : ∀ p ∈ patterns, ∀ k ∈ p, k c = false)
    (u v : List α) : matchFirst patterns (u ++ c :: v) =
      (matchFirst patterns u).map fun (found, rest) => (found, rest ++ c :: v) := by
  unfold matchFirst
  induction patterns with
  | nil => rfl
  | cons p patterns ih =>
    rw [List.findSome?_cons, List.findSome?_cons, matchAt_foreign (foreign p List.mem_cons_self)]
    cases matchAt p u with
    | some m => rfl
    | none => exact ih fun q hq => foreign q (List.mem_cons_of_mem _ hq)

/-! ## Rewriting -/

variable {f : List α → List α}

theorem rewriteFrom_skip (skip : Nat) (s : List α) :
    rewriteFrom patterns f skip s = rewriteAll patterns f (s.drop skip) := by
  induction skip generalizing s with
  | zero => rfl
  | succ skip ih =>
    cases s with
    | nil => rfl
    | cons c s => exact ih s

theorem rewriteAll_kept {c : α} {s : List α} (h : matchFirst patterns (c :: s) = none) :
    rewriteAll patterns f (c :: s) = c :: rewriteAll patterns f s := by
  show (match matchFirst patterns (c :: s) with
    | some (found, _) => f found ++ rewriteFrom patterns f (found.length - 1) _
    | none => _) = _
  rw [h]
  rfl

variable (nonempty : ∀ p ∈ patterns, p ≠ [])
include nonempty

theorem found_positive {s found rest : List α} (h : matchFirst patterns s = some (found, rest)) :
    0 < found.length := by
  obtain ⟨p, hp, hfound⟩ := (matchFirst_eq h).2
  rw [← hfound.length_eq]
  exact List.length_pos_of_ne_nil (nonempty p hp)

theorem rewriteAll_found {s found rest : List α}
    (h : matchFirst patterns s = some (found, rest)) :
    rewriteAll patterns f s = f found ++ rewriteAll patterns f rest := by
  have hpositive := found_positive nonempty h
  obtain ⟨rfl, -⟩ := matchFirst_eq h
  cases found with
  | nil => cases hpositive
  | cons c found =>
    show (match matchFirst patterns (c :: (found ++ rest)) with
      | some (found, _) => f found ++ rewriteFrom patterns f (found.length - 1) _
      | none => _) = _
    rw [show matchFirst patterns (c :: (found ++ rest)) = some (c :: found, rest) from h]
    dsimp only
    have hdrop : (found ++ rest).drop found.length = rest := List.drop_left
    rw [rewriteFrom_skip, List.length_cons, Nat.add_sub_cancel]
    exact congrArg (fun s => f (c :: found) ++ rewriteAll patterns f s) hdrop

/-- The rewriting of a text: nothing is left, a character is kept, or a match is rewritten. -/
theorem rewriting_induction {P : List α → Prop} (nil : P [])
    (kept : ∀ c s, matchFirst patterns (c :: s) = none → P s → P (c :: s))
    (found : ∀ s m rest, matchFirst patterns s = some (m, rest) → P rest → P s) (s : List α) :
    P s := by
  induction hn : s.length using Nat.strongRecOn generalizing s with
  | ind n ih =>
    cases s with
    | nil => exact nil
    | cons c s =>
      cases hm : matchFirst patterns (c :: s) with
      | none => exact kept c s hm (ih s.length (by simp [← hn]) s rfl)
      | some m =>
        have hlength := congrArg List.length (matchFirst_eq hm).1
        rw [List.length_append, hn] at hlength
        have hpositive := found_positive nonempty hm
        exact found _ m.1 m.2 hm (ih m.2.length (by omega) m.2 rfl)

theorem rewriteAll_foreign {c : α} (foreign : ∀ p ∈ patterns, ∀ k ∈ p, k c = false)
    (u v : List α) : rewriteAll patterns f (u ++ c :: v) =
      rewriteAll patterns f u ++ c :: rewriteAll patterns f v := by
  have hmatch := matchFirst_foreign foreign
  induction u using rewriting_induction nonempty with
  | nil =>
    refine rewriteAll_kept ?_
    rw [← List.nil_append (c :: v), hmatch, matchFirst_none, Option.map_none]
    intro p hp
    cases p with
    | nil => exact absurd rfl (nonempty _ hp)
    | cons k ks => rfl
  | kept d u hnone ih =>
    have hnone' : matchFirst patterns (d :: (u ++ c :: v)) = none := by
      rw [← List.cons_append, hmatch, hnone]
      rfl
    rw [List.cons_append, rewriteAll_kept hnone', rewriteAll_kept hnone, ih]
    rfl
  | found u m rest hsome ih =>
    have hsome' : matchFirst patterns (u ++ c :: v) = some (m, rest ++ c :: v) := by
      rw [hmatch, hsome]
      rfl
    rw [rewriteAll_found nonempty hsome', rewriteAll_found nonempty hsome, ih, List.append_assoc]

theorem rewriteAll_length
    (same : ∀ p ∈ patterns, ∀ found, Matches p found → (f found).length = found.length)
    (s : List α) : (rewriteAll patterns f s).length = s.length := by
  induction s using rewriting_induction nonempty with
  | nil => rfl
  | kept c s hnone ih => rw [rewriteAll_kept hnone, List.length_cons, List.length_cons, ih]
  | found s m rest hsome ih =>
    obtain ⟨hs, p, hp, hm⟩ := matchFirst_eq hsome
    rw [rewriteAll_found nonempty hsome, List.length_append, same p hp m hm, ih, hs,
      List.length_append]

theorem rewriteAll_short {s : List α} (h : ∀ p ∈ patterns, s.length < p.length) :
    rewriteAll patterns f s = s := by
  induction s using rewriting_induction nonempty with
  | nil => rfl
  | kept c s hnone ih =>
    rw [rewriteAll_kept hnone, ih fun p hp => Nat.lt_of_succ_lt (h p hp)]
  | found s m rest hsome _ =>
    obtain ⟨hs, p, hp, hm⟩ := matchFirst_eq hsome
    have hshort := h p hp
    rw [hs, List.length_append, hm.length_eq] at hshort
    omega

omit nonempty

/-! ## Opening characters

Every match starts with a character of the class `opens`. -/

variable {opens : α → Bool} (opening : ∀ p ∈ patterns, ∃ ks, p = opens :: ks)
include opening

theorem nonempty_of_opening : ∀ p ∈ patterns, p ≠ [] := by
  intro p hp
  obtain ⟨ks, rfl⟩ := opening p hp
  exact List.cons_ne_nil _ _

theorem matchFirst_opens {c : α} {s : List α} (h : opens c = false) :
    matchFirst patterns (c :: s) = none := by
  refine matchFirst_none fun p hp => ?_
  obtain ⟨ks, rfl⟩ := opening p hp
  exact if_neg (h ▸ Bool.false_ne_true)

theorem rewriteAll_plain {u : List α} (h : ∀ c ∈ u, opens c = false) (v : List α) :
    rewriteAll patterns f (u ++ v) = u ++ rewriteAll patterns f v := by
  induction u with
  | nil => rfl
  | cons c u ih =>
    rw [List.cons_append, rewriteAll_kept (matchFirst_opens opening (h c List.mem_cons_self)),
      ih fun d hd => h d (List.mem_cons_of_mem _ hd)]
    rfl

/-- Where a rewritten match opens too, a text without opening characters that stands at the start
of a rewritten text was there before. -/
theorem rewriteAll_peel
    (keeps : ∀ p ∈ patterns, ∀ found, Matches p found → ∃ c out, f found = c :: out ∧ opens c = true)
    {u v s : List α} (h : ∀ c ∈ u, opens c = false) (hs : rewriteAll patterns f s = u ++ v) :
    ∃ t, s = u ++ t ∧ rewriteAll patterns f t = v := by
  induction u generalizing s with
  | nil => exact ⟨s, rfl, hs⟩
  | cons d u ih =>
    cases s with
    | nil => cases hs
    | cons c s =>
      cases hm : matchFirst patterns (c :: s) with
      | none =>
        rw [rewriteAll_kept hm] at hs
        obtain ⟨rfl, hrest⟩ := List.cons.inj hs
        obtain ⟨t, rfl, ht⟩ := ih (fun d hd => h d (List.mem_cons_of_mem _ hd)) hrest
        exact ⟨t, rfl, ht⟩
      | some m =>
        obtain ⟨p, hp, hfound⟩ := (matchFirst_eq hm).2
        obtain ⟨o, out, hout, hopens⟩ := keeps p hp m.1 hfound
        rw [rewriteAll_found (nonempty_of_opening opening) hm, hout] at hs
        obtain ⟨rfl, -⟩ := List.cons.inj hs
        rw [h o List.mem_cons_self] at hopens
        cases hopens

end

/-! ## Searching -/

theorem search_matches {p : Pattern α} {s found : List α} (h : search p s = some found) :
    Matches p found := by
  induction s with
  | nil => cases h
  | cons c s ih =>
    unfold search at h
    cases hm : matchAt p (c :: s) with
    | none =>
      rw [hm] at h
      exact ih h
    | some m =>
      rw [hm] at h
      obtain rfl := Option.some.inj h
      exact (matchAt_iff.mp hm).2

theorem search_plain {k : α → Bool} {p : Pattern α} {u : List α} (h : ∀ c ∈ u, k c = false)
    (v : List α) : search (k :: p) (u ++ v) = search (k :: p) v := by
  induction u with
  | nil => rfl
  | cons c u ih =>
    have hnone : matchAt (k :: p) (c :: (u ++ v)) = none :=
      if_neg (h c List.mem_cons_self ▸ Bool.false_ne_true)
    show ((matchAt (k :: p) (c :: (u ++ v))).map Prod.fst).or (search (k :: p) (u ++ v)) = _
    rw [hnone, ih fun d hd => h d (List.mem_cons_of_mem _ hd)]
    rfl

theorem search_found {k : α → Bool} {p : Pattern α} {s : List α} (h : Matches (k :: p) s)
    (v : List α) : search (k :: p) (s ++ v) = some s := by
  have hmatch := matchAt_append h v
  cases s with
  | nil => cases h
  | cons c s =>
    rw [List.cons_append] at hmatch ⊢
    unfold search
    rw [hmatch]
    rfl

end KnxRs.Patterns
