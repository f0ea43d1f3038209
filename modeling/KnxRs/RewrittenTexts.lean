import KnxRs.Renumber

set_option autoImplicit false

/-!
# Rewriting any text

The scanner that reads and the one that rewrites take every text apart in the same way: into
characters outside markup, markup that is passed over, open tags, and what is left of a tag or
of markup without an end. Inside a tag they agree when every quote delimits an attribute value.
-/
namespace KnxRs.Renumber
open Texts XmlDocuments XmlScan

/-! ## Pieces -/

/-- A character of a tag outside quotes, or a quoted value. -/
inductive Stretch where
  | plain (c : Char)
  | quoted (q : Char) (value : Text)

namespace Stretch

def render : Stretch → Text
  | plain c => [c]
  | quoted q value => q :: value ++ [q]

def WellFormed : Stretch → Prop
  | plain c => c ≠ '>' ∧ isQuote c = false
  | quoted q value => isQuote q = true ∧ q ∉ value

instance : (stretch : Stretch) → Decidable stretch.WellFormed
  | plain _ => inferInstanceAs (Decidable (_ ∧ _))
  | quoted _ _ => inferInstanceAs (Decidable (_ ∧ _))

def mapValue (f : Text → Text) : Stretch → Stretch
  | plain c => plain c
  | quoted q value => quoted q (f value)

end Stretch

/-- A piece that has an end: a character outside markup, a comment, CDATA section, closing tag,
declaration or instruction, or an open tag. -/
inductive Piece where
  | char (c : Char)
  | markup (s : Text)
  | tag (stretches : List Stretch)

namespace Piece

def body (stretches : List Stretch) : Text := stretches.flatMap Stretch.render

def render : Piece → Text
  | char c => [c]
  | markup s => s
  | tag stretches => '<' :: body stretches ++ ['>']

def WellFormed : Piece → Prop
  | char c => c ≠ '<'
  | markup s => markupEnd s = some (some (s, []))
  | tag stretches => (∀ stretch ∈ stretches, stretch.WellFormed) ∧
      markupEnd ('<' :: body stretches ++ ['>']) = none

instance : (piece : Piece) → Decidable piece.WellFormed
  | char _ => inferInstanceAs (Decidable (_ ≠ _))
  | markup _ => inferInstanceAs (Decidable (_ = _))
  | tag _ => inferInstanceAs (Decidable (_ ∧ _))

def openTag? : Piece → Option OpenTag
  | char _ | markup _ => none
  | tag stretches => some ⟨tagName (body stretches), body stretches⟩

def mapValues (f : Text → Text) : Piece → Piece
  | tag stretches => tag (stretches.map (Stretch.mapValue f))
  | piece => piece

end Piece

def Unended (tail : Text) : Prop :=
  tail = [] ∨ ∃ cs, tail = '<' :: cs ∧
    (markupEnd tail = some none ∨ markupEnd tail = none ∧ findTagEnd none cs = none)

/-! ## Stretches -/

theorem stretch_closed {stretch : Stretch} (h : stretch.WellFormed) : Closed stretch.render := by
  cases stretch with
  | plain c => exact closed_char h.1 h.2
  | quoted q value => exact closed_quoted h.1 h.2

theorem body_stretches_closed {stretches : List Stretch}
    (h : ∀ stretch ∈ stretches, stretch.WellFormed) : Closed (Piece.body stretches) :=
  closed_flatMap fun stretch hmem => stretch_closed (h stretch hmem)

theorem findTagEnd_quote {q : Char} {xs body rest : Text}
    (h : findTagEnd (some q) xs = some (body, rest)) :
    ∃ value more body', xs = value ++ q :: more ∧ q ∉ value ∧ body = value ++ q :: body' ∧
      findTagEnd none more = some (body', rest) := by
  induction xs generalizing body with
  | nil => cases h
  | cons c cs ih =>
    rw [findTagEnd] at h
    obtain ⟨⟨body', rest'⟩, hs, he⟩ := Option.map_eq_some_iff.mp h
    obtain ⟨rfl, rfl⟩ := Prod.mk.inj he
    split_ifs at hs with hc
    · subst hc
      exact ⟨[], cs, body', rfl, List.not_mem_nil, rfl, hs⟩
    · obtain ⟨value, more, body'', rfl, hvalue, rfl, hmore⟩ := ih hs
      refine ⟨c :: value, more, body'', rfl, ?_, rfl, hmore⟩
      exact fun hmem => (List.mem_cons.mp hmem).elim (fun he => hc he.symm) hvalue

theorem findTagEnd_stretches {xs body rest : Text} (h : findTagEnd none xs = some (body, rest)) :
    xs = body ++ '>' :: rest ∧ ∃ stretches, (∀ stretch ∈ stretches, stretch.WellFormed) ∧
      body = Piece.body stretches := by
  induction hn : xs.length using Nat.strong_induction_on generalizing xs body with
  | _ n ih =>
    cases xs with
    | nil => cases h
    | cons c cs =>
      rw [findTagEnd] at h
      split_ifs at h with hend hquote
      · obtain ⟨rfl, rfl⟩ := Prod.mk.inj (Option.some.inj h)
        exact ⟨by rw [hend]; rfl, [], fun _ h => absurd h List.not_mem_nil, rfl⟩
      · obtain ⟨⟨body', rest'⟩, hs, he⟩ := Option.map_eq_some_iff.mp h
        obtain ⟨rfl, rfl⟩ := Prod.mk.inj he
        obtain ⟨value, more, body'', rfl, hvalue, rfl, hmore⟩ := findTagEnd_quote hs
        obtain ⟨rfl, stretches, hstretches, rfl⟩ := ih more.length (by simp at hn; omega) hmore rfl
        refine ⟨by simp, .quoted c value :: stretches, ?_, by simp [Piece.body, Stretch.render]⟩
        exact List.forall_mem_cons.mpr ⟨⟨hquote, hvalue⟩, hstretches⟩
      · obtain ⟨⟨body', rest'⟩, hs, he⟩ := Option.map_eq_some_iff.mp h
        obtain ⟨rfl, rfl⟩ := Prod.mk.inj he
        obtain ⟨rfl, stretches, hstretches, rfl⟩ := ih cs.length (by simp at hn; omega) hs rfl
        refine ⟨rfl, .plain c :: stretches, ?_, rfl⟩
        exact List.forall_mem_cons.mpr ⟨⟨hend, Bool.eq_false_iff.mpr hquote⟩, hstretches⟩

/-! ## The ends of markup -/

theorem splitOnce_start {pat xs before rest : Text} (h : splitOnce pat xs = some (before, rest)) :
    splitOnce pat (before ++ pat) = some (before, []) := by
  induction xs generalizing before with
  | nil =>
    unfold splitOnce at h
    split_ifs at h with hp
    cases h
    subst hp
    rfl
  | cons c cs ih =>
    have heq := splitOnce_eq h
    unfold splitOnce at h
    split_ifs at h with hp
    · obtain ⟨rfl, rfl⟩ := Prod.mk.inj (Option.some.inj h)
      cases pat with
      | nil => rfl
      | cons d ds =>
        rw [List.nil_append, splitOnce,
          if_pos (List.isPrefixOf_iff_prefix.mpr (List.prefix_refl _)), List.drop_length]
    · obtain ⟨⟨before', rest'⟩, hs, he⟩ := Option.map_eq_some_iff.mp h
      obtain ⟨rfl, rfl⟩ := Prod.mk.inj he
      have hno : ¬pat.isPrefixOf (c :: (before' ++ pat)) = true := by
        intro hp'
        refine hp (List.isPrefixOf_iff_prefix.mpr ?_)
        rw [heq, List.append_assoc, List.cons_append, ← List.append_assoc]
        exact (List.isPrefixOf_iff_prefix.mp hp').trans (List.prefix_append (c :: _) rest')
      rw [List.cons_append, splitOnce, if_neg hno, ih hs]
      rfl

theorem splitAfter_start {pat xs before rest : Text}
    (h : splitAfter pat xs = some (before, rest)) :
    xs = before ++ rest ∧ splitAfter pat before = some (before, []) := by
  unfold splitAfter at h ⊢
  obtain ⟨⟨before', rest'⟩, hs, he⟩ := Option.map_eq_some_iff.mp h
  obtain ⟨rfl, rfl⟩ := Prod.mk.inj he
  exact ⟨splitOnce_eq hs, by rw [splitOnce_start hs]; rfl⟩

theorem findTagEnd_start {xs body rest : Text} (h : findTagEnd none xs = some (body, rest)) :
    findTagEnd none (body ++ ['>']) = some (body, []) := by
  obtain ⟨_, stretches, hstretches, rfl⟩ := findTagEnd_stretches h
  exact findTagEnd_closed (body_stretches_closed hstretches) []

theorem markupEnd_none {c : Char} {cs : Text} :
    markupEnd ('<' :: c :: cs) = none ↔ ¬(c = '/' ∨ c = '!' ∨ c = '?') := by
  have hbang {pat : Text} (h : ('<' :: '!' :: pat).isPrefixOf ('<' :: c :: cs) = true) : c = '!' := by
    obtain ⟨rest, hrest⟩ := List.isPrefixOf_iff_prefix.mp h
    exact (List.cons.inj (List.cons.inj hrest).2).1.symm
  have hmarkup : markupEnd ('<' :: c :: cs) =
      if "<!--".toList.isPrefixOf ('<' :: c :: cs) then
        some (splitAfter "-->".toList ('<' :: c :: cs))
      else if "<![CDATA[".toList.isPrefixOf ('<' :: c :: cs) then
        some (splitAfter "]]>".toList ('<' :: c :: cs))
      else if c = '/' || c = '!' || c = '?' then
        some ((findTagEnd none (c :: cs)).map fun found => ('<' :: found.1 ++ ['>'], found.2))
      else none := rfl
  rw [hmarkup]
  split_ifs with hcomment hcdata hother
  · exact iff_of_false id (not_not_intro (.inr (.inl (hbang hcomment))))
  · exact iff_of_false id (not_not_intro (.inr (.inl (hbang hcdata))))
  · exact iff_of_false id (not_not_intro (by simpa [or_assoc] using hother))
  · exact iff_of_true rfl fun h => hother (by simpa [or_assoc] using h)

theorem markupEnd_start {xs before rest : Text}
    (h : markupEnd xs = some (some (before, rest))) :
    xs = before ++ rest ∧ (∃ cs, before = '<' :: cs) ∧
      markupEnd before = some (some (before, [])) := by
  have hstarts (pat : Text) (hpat : '>' ∉ pat) (hend : '>' ∈ before) (heq : xs = before ++ rest) :
      pat.isPrefixOf xs = pat.isPrefixOf before := heq ▸ isPrefixOf_append hpat hend rest
  have hhead {pat : Text} (hpat : ('<' :: pat).isPrefixOf before = true) :
      ∃ cs, before = '<' :: cs := by
    obtain ⟨more, hmore⟩ := List.isPrefixOf_iff_prefix.mp hpat
    exact ⟨pat ++ more, hmore.symm⟩
  unfold markupEnd at h
  split_ifs at h with hcomment hcdata
  · obtain ⟨heq, hstart⟩ := splitAfter_start (Option.some.inj h)
    have hend : '>' ∈ before := splitAfter_mem (by decide) hstart
    rw [hstarts _ (by decide) hend heq] at hcomment
    refine ⟨heq, hhead hcomment, ?_⟩
    unfold markupEnd
    rw [if_pos hcomment, hstart]
  · obtain ⟨heq, hstart⟩ := splitAfter_start (Option.some.inj h)
    have hend : '>' ∈ before := splitAfter_mem (by decide) hstart
    rw [hstarts _ (by decide) hend heq] at hcomment hcdata
    refine ⟨heq, hhead hcdata, ?_⟩
    unfold markupEnd
    rw [if_neg hcomment, if_pos hcdata, hstart]
  · split at h
    · next c cs =>
      split_ifs at h with hother
      obtain ⟨⟨body, rest'⟩, hs, he⟩ := Option.map_eq_some_iff.mp (Option.some.inj h)
      obtain ⟨rfl, rfl⟩ := Prod.mk.inj he
      obtain ⟨heq, _⟩ := findTagEnd_stretches hs
      have hfound := findTagEnd_start hs
      have heq' : '<' :: c :: cs = '<' :: body ++ ['>'] ++ rest' := by
        rw [heq]
        simp
      have hend : '>' ∈ '<' :: body ++ ['>'] := List.mem_append_right _ List.mem_cons_self
      rw [hstarts _ (by decide) hend heq'] at hcomment hcdata
      refine ⟨heq', ⟨body ++ ['>'], rfl⟩, ?_⟩
      obtain ⟨d, ds, hd⟩ : ∃ d ds, body ++ ['>'] = d :: ds := by
        cases body with
        | nil => exact ⟨_, _, rfl⟩
        | cons d ds => exact ⟨d, ds ++ ['>'], rfl⟩
      have hc : d = c := by
        have hcons : c :: cs = d :: (ds ++ rest') := by
          rw [heq, ← List.cons_append, ← hd, List.append_assoc]
          rfl
        exact (List.cons.inj hcons).1.symm
      unfold markupEnd
      rw [if_neg hcomment, if_neg hcdata]
      rw [hd] at hfound
      rw [List.cons_append, hd]
      show (if d = '/' || d = '!' || d = '?' then
        some ((findTagEnd none (d :: ds)).map fun found => ('<' :: found.1 ++ ['>'], found.2))
        else none) = _
      rw [hc] at hfound hd ⊢
      rw [if_pos hother, hfound, ← hd]
      rfl
    · cases h

/-! ## Taking a text apart -/

/-- The text is these pieces and what is left without an end. -/
structure TakenApart (xs : Text) (pieces : List Piece) (tail : Text) : Prop where
  wellFormed : ∀ piece ∈ pieces, piece.WellFormed
  unended : Unended tail
  render : xs = pieces.flatMap Piece.render ++ tail

theorem exists_takenApart (xs : Text) : ∃ pieces tail, TakenApart xs pieces tail := by
  induction hn : xs.length using Nat.strong_induction_on generalizing xs with
  | _ n ih =>
    have hcons (piece : Piece) (rest : Text) (hpiece : piece.WellFormed)
        (heq : xs = piece.render ++ rest) (hlen : 0 < piece.render.length) :
        ∃ pieces tail, TakenApart xs pieces tail := by
      have hshorter : rest.length < n := by
        rw [← hn, heq, List.length_append]
        omega
      obtain ⟨pieces, tail, hpieces, htail, hrest⟩ := ih rest.length hshorter rest rfl
      refine ⟨piece :: pieces, tail, List.forall_mem_cons.mpr ⟨hpiece, hpieces⟩, htail, ?_⟩
      rw [heq, hrest, List.flatMap_cons, List.append_assoc]
    have htail (h : Unended xs) : ∃ pieces tail, TakenApart xs pieces tail :=
      ⟨[], xs, fun _ h => absurd h List.not_mem_nil, h, rfl⟩
    cases xs with
    | nil => exact htail (.inl rfl)
    | cons c cs =>
      by_cases hc : c = '<'
      · subst hc
        cases hmarkup : markupEnd ('<' :: cs) with
        | some found =>
          cases found with
          | none => exact htail (.inr ⟨cs, rfl, .inl hmarkup⟩)
          | some found =>
            obtain ⟨passed, rest⟩ := found
            obtain ⟨heq, ⟨_, rfl⟩, hstart⟩ := markupEnd_start hmarkup
            exact hcons (.markup _) rest hstart heq (Nat.succ_pos _)
        | none =>
          cases hend : findTagEnd none cs with
          | none => exact htail (.inr ⟨cs, rfl, .inr ⟨hmarkup, hend⟩⟩)
          | some found =>
            obtain ⟨body, rest⟩ := found
            obtain ⟨rfl, stretches, hstretches, rfl⟩ := findTagEnd_stretches hend
            refine hcons (.tag stretches) rest ⟨hstretches, ?_⟩ ?_ (Nat.succ_pos _)
            · cases hbody : Piece.body stretches with
              | nil => rfl
              | cons d ds =>
                rw [hbody] at hmarkup
                exact markupEnd_none.mpr (markupEnd_none.mp hmarkup)
            · unfold Piece.render
              simp
      · exact hcons (.char c) cs hc rfl (Nat.succ_pos _)

/-! ## The loops over a text -/

theorem markupEnd_body {stretches : List Stretch}
    (h : markupEnd ('<' :: Piece.body stretches ++ ['>']) = none) (rest : Text) :
    markupEnd ('<' :: (Piece.body stretches ++ '>' :: rest)) = none := by
  cases hbody : Piece.body stretches with
  | nil => rfl
  | cons d ds =>
    rw [hbody] at h
    exact markupEnd_none.mpr (markupEnd_none.mp h)

theorem piece_length {piece : Piece} (h : piece.WellFormed) : 0 < piece.render.length := by
  cases piece with
  | char c => exact Nat.one_pos
  | tag stretches => exact Nat.succ_pos _
  | markup s =>
    obtain ⟨_, ⟨cs, rfl⟩, _⟩ := markupEnd_start h
    exact Nat.succ_pos _

/-- A loop over a text passes over its pieces one after another. -/
theorem loop_pieces {β : Type} (loop : Nat → Text → β) (step : Piece → β → β) (base : β)
    {tail : Text} (hbase : ∀ rounds, tail.length ≤ rounds → loop rounds tail = base)
    (hstep : ∀ piece : Piece, piece.WellFormed → ∀ rounds rest,
      loop (rounds + 1) (piece.render ++ rest) = step piece (loop rounds rest))
    {pieces : List Piece} (wellFormed : ∀ piece ∈ pieces, piece.WellFormed) {rounds : Nat}
    (h : (pieces.flatMap Piece.render ++ tail).length ≤ rounds) :
    loop rounds (pieces.flatMap Piece.render ++ tail) = pieces.foldr step base := by
  induction pieces generalizing rounds with
  | nil => exact hbase rounds h
  | cons piece pieces ih =>
    obtain ⟨hpiece, hpieces⟩ := List.forall_mem_cons.mp wellFormed
    rw [List.flatMap_cons, List.append_assoc] at h ⊢
    have hlen := piece_length hpiece
    rw [List.length_append] at h
    cases rounds with
    | zero => omega
    | succ rounds => rw [hstep piece hpiece, List.foldr_cons, ih hpieces (by omega)]

theorem openTagsFrom_unended {tail : Text} (h : Unended tail) (rounds : Nat) :
    openTagsFrom rounds tail = [] := by
  cases rounds with
  | zero => rfl
  | succ rounds =>
    rcases h with rfl | ⟨cs, rfl, hmarkup | ⟨hmarkup, hend⟩⟩
    · rfl
    · rw [openTagsFrom, if_neg (by decide), skipMarkup, hmarkup]
      cases rounds <;> rfl
    · rw [openTagsFrom, if_neg (by decide), skipMarkup, hmarkup]
      dsimp only [Option.map_none]
      rw [hend]

theorem openTagsFrom_piece {piece : Piece} (h : piece.WellFormed) (rounds : Nat) (rest : Text) :
    openTagsFrom (rounds + 1) (piece.render ++ rest) =
      piece.openTag?.toList ++ openTagsFrom rounds rest := by
  cases piece with
  | char c =>
    show openTagsFrom (rounds + 1) (c :: rest) = _
    have hc : c ≠ '<' := h
    rw [openTagsFrom, if_pos hc]
    rfl
  | markup s =>
    obtain ⟨_, ⟨cs, rfl⟩, _⟩ := markupEnd_start h
    have hskip := markupEnd_append h rest
    show openTagsFrom (rounds + 1) ('<' :: (cs ++ rest)) = _
    rw [openTagsFrom, if_neg (by decide), skipMarkup, ← List.cons_append, hskip]
    rfl
  | tag stretches =>
    have hrender : Piece.render (.tag stretches) ++ rest =
        '<' :: (Piece.body stretches ++ '>' :: rest) := by
      unfold Piece.render
      simp
    rw [hrender, openTagsFrom, if_neg (by decide), skipMarkup, markupEnd_body h.2]
    dsimp only [Option.map_none]
    rw [findTagEnd_closed (body_stretches_closed h.1)]
    rfl

variable {map : IdMap} {pieces : List Piece} {tail : Text}

theorem openTags_pieces (wellFormed : ∀ piece ∈ pieces, piece.WellFormed)
    (unended : Unended tail) :
    openTags (pieces.flatMap Piece.render ++ tail) = pieces.filterMap Piece.openTag? := by
  unfold openTags
  rw [loop_pieces openTagsFrom (fun piece tags => piece.openTag?.toList ++ tags) []
    (fun rounds _ => openTagsFrom_unended unended rounds)
    (fun piece hpiece rounds rest => openTagsFrom_piece hpiece rounds rest) wellFormed
    (Nat.le_refl _)]
  clear wellFormed unended
  induction pieces with
  | nil => rfl
  | cons piece pieces ih =>
    rw [List.foldr_cons, ih]
    cases piece <;> rfl

theorem rewriteTagAttrs_stretches {stretches : List Stretch}
    (h : ∀ stretch ∈ stretches, stretch.WellFormed) (rest : Text) :
    rewriteTagAttrs map none (Piece.body stretches ++ rest) =
      Piece.body (stretches.map (Stretch.mapValue map.rename)) ++
        rewriteTagAttrs map none rest := by
  induction stretches with
  | nil => rfl
  | cons stretch stretches ih =>
    obtain ⟨hstretch, hstretches⟩ := List.forall_mem_cons.mp h
    have hbody (first : Stretch) (more : List Stretch) :
        Piece.body (first :: more) = first.render ++ Piece.body more := List.flatMap_cons
    rw [hbody, List.map_cons, hbody, List.append_assoc, List.append_assoc, ← ih hstretches]
    cases stretch with
    | plain c =>
      exact rewriteTagAttrs_plain (s := [c]) (by simpa using hstretch.2) _
    | quoted q value =>
      have hrender (value rest : Text) : Stretch.render (.quoted q value) ++ rest =
          q :: (value ++ q :: rest) := by
        unfold Stretch.render
        simp
      rw [Stretch.mapValue, hrender, hrender, rewriteTagAttrs, if_pos hstretch.1,
        rewriteTagAttrs_value hstretch.2]
      rfl

theorem rewriteIdsFrom_unended (h : Unended tail) (rounds : Nat) :
    rewriteIdsFrom map rounds tail = tail := by
  cases rounds with
  | zero => rfl
  | succ rounds =>
    rcases h with rfl | ⟨cs, rfl, hmarkup | ⟨hmarkup, hend⟩⟩
    · rfl
    · rw [rewriteIdsFrom, if_neg (by decide), skipMarkup, hmarkup]
      have hnil : rewriteIdsFrom map rounds [] = [] := by cases rounds <;> rfl
      show '<' :: cs ++ rewriteIdsFrom map rounds [] = _
      rw [hnil, List.append_nil]
    · rw [rewriteIdsFrom, if_neg (by decide), skipMarkup, hmarkup]
      dsimp only [Option.map_none]
      rw [hend]

theorem rewriteIdsFrom_piece {piece : Piece} (h : piece.WellFormed) (rounds : Nat)
    (rest : Text) : rewriteIdsFrom map (rounds + 1) (piece.render ++ rest) =
      (piece.mapValues map.rename).render ++ rewriteIdsFrom map rounds rest := by
  cases piece with
  | char c =>
    show rewriteIdsFrom map (rounds + 1) (c :: rest) = _
    have hc : c ≠ '<' := h
    rw [rewriteIdsFrom, if_pos hc]
    rfl
  | markup s =>
    obtain ⟨_, ⟨cs, rfl⟩, _⟩ := markupEnd_start h
    have hskip := markupEnd_append h rest
    show rewriteIdsFrom map (rounds + 1) ('<' :: (cs ++ rest)) = _
    rw [rewriteIdsFrom, if_neg (by decide), skipMarkup, ← List.cons_append, hskip]
    rfl
  | tag stretches =>
    have hrender : Piece.render (.tag stretches) ++ rest =
        '<' :: (Piece.body stretches ++ '>' :: rest) := by
      unfold Piece.render
      simp
    have htag : rewriteTagAttrs map none ('<' :: Piece.body stretches ++ ['>']) =
        (Piece.mapValues map.rename (.tag stretches)).render := by
      rw [List.cons_append, rewriteTagAttrs, if_neg (by decide), rewriteTagAttrs_stretches h.1]
      rfl
    rw [hrender, rewriteIdsFrom, if_neg (by decide), skipMarkup, markupEnd_body h.2]
    dsimp only [Option.map_none]
    rw [findTagEnd_closed (body_stretches_closed h.1), ← htag]

theorem rewriteIds_pieces (wellFormed : ∀ piece ∈ pieces, piece.WellFormed)
    (unended : Unended tail) : rewriteIds (pieces.flatMap Piece.render ++ tail) map =
      (pieces.map (Piece.mapValues map.rename)).flatMap Piece.render ++ tail := by
  unfold rewriteIds
  rw [loop_pieces (rewriteIdsFrom map)
    (fun piece out => (piece.mapValues map.rename).render ++ out) tail
    (fun rounds _ => rewriteIdsFrom_unended unended rounds)
    (fun piece hpiece rounds rest => rewriteIdsFrom_piece hpiece rounds rest) wellFormed
    (Nat.le_refl _)]
  clear wellFormed unended
  induction pieces with
  | nil => rfl
  | cons piece pieces ih =>
    rw [List.foldr_cons, ih, List.map_cons, List.flatMap_cons, List.append_assoc]

/-! ## What the rewritten text is made of -/

/-- A value that ends no quoted value and no tag. -/
def Clean (value : Text) : Prop := ∀ c ∈ value, isQuote c = false ∧ c ≠ '<' ∧ c ≠ '>'

def CleanMap (map : IdMap) : Prop := ∀ entry ∈ map, Clean entry.2

theorem rename_quoted (clean : CleanMap map) {q : Char} (hq : isQuote q = true) {value : Text}
    (h : q ∉ value) : q ∉ map.rename value := by
  unfold IdMap.rename
  cases hlookup : map.lookup value with
  | none => exact h
  | some renamed =>
    obtain ⟨before, after, rfl, _⟩ := List.lookup_eq_some_iff.mp hlookup
    have hmem : (value, renamed) ∈ before ++ (value, renamed) :: after := by simp
    exact fun hq' => absurd hq ((clean _ hmem q hq').1 ▸ Bool.false_ne_true)

theorem mapValue_stretch (clean : CleanMap map) {stretch : Stretch} (h : stretch.WellFormed) :
    (stretch.mapValue map.rename).WellFormed := by
  cases stretch with
  | plain c => exact h
  | quoted q value => exact ⟨h.1, rename_quoted clean h.1 h.2⟩

theorem mapValues_piece (clean : CleanMap map) {piece : Piece} (h : piece.WellFormed) :
    (piece.mapValues map.rename).WellFormed := by
  cases piece with
  | char c => exact h
  | markup s => exact h
  | tag stretches =>
    refine ⟨fun stretch hmem => ?_, ?_⟩
    · obtain ⟨old, hold, rfl⟩ := List.mem_map.mp hmem
      exact mapValue_stretch clean (h.1 old hold)
    · have hmarkup := h.2
      cases stretches with
      | nil => rfl
      | cons stretch stretches =>
        cases stretch <;> exact markupEnd_none.mpr (markupEnd_none.mp hmarkup)

/-! ## What the scanner reads of it -/

theorem mapValues_delimited (clean : CleanMap map) {t : Tag} (h : DelimitedTag t) :
    DelimitedTag (t.mapValues map.rename) := by
  refine { h with apart := fun a ha => ?_, attributes := fun a ha => ?_ }
  · rw [Tag.mapValues, List.head?_map] at ha
    obtain ⟨old, hold, rfl⟩ := Option.map_eq_some_iff.mp ha
    exact h.apart old hold
  · obtain ⟨old, hold, rfl⟩ := List.mem_map.mp ha
    have hdelimited := h.attributes old hold
    exact { hdelimited with quoted := rename_quoted clean hdelimited.quote hdelimited.quoted }

theorem tagName_mapValues (clean : CleanMap map) {t : Tag} (h : DelimitedTag t) :
    tagName (t.mapValues map.rename).body = tagName t.body := by
  by_cases hne : t.attributes = []
  · unfold Tag.mapValues Tag.body
    rw [hne]
    rfl
  · rw [tagName_delimited h hne, tagName_delimited (mapValues_delimited clean h)]
    · rfl
    · exact fun hnil => hne (List.map_eq_nil_iff.mp hnil)

theorem parseAttrs_mapValues (clean : CleanMap map) {t : Tag} (h : DelimitedTag t) :
    ∃ attributes, parseAttrs t.body = .ok attributes ∧ parseAttrs (t.mapValues map.rename).body =
      .ok (attributes.map fun a => (a.1, map.rename a.2)) := by
  refine ⟨_, parseAttrs_delimited h, ?_⟩
  rw [parseAttrs_delimited (mapValues_delimited clean h)]
  show Except.ok (((t.attributes.map (Attribute.mapValue map.rename)).filter _).map _) = _
  rw [List.filter_map, List.map_map, List.map_map]
  rfl

/-- Every quote delimits an attribute value. -/
def QuotesDelimit (body : Text) : Prop := ∃ t : Tag, DelimitedTag t ∧ t.body = body

def ReadRenamed (map : IdMap) (body renamed : Text) : Prop :=
  tagName renamed = tagName body ∧ ∃ attributes, parseAttrs body = .ok attributes ∧
    parseAttrs renamed = .ok (attributes.map fun a => (a.1, map.rename a.2))

theorem readRenamed_stretches (clean : CleanMap map) {stretches : List Stretch}
    (h : ∀ stretch ∈ stretches, stretch.WellFormed)
    (delimit : QuotesDelimit (Piece.body stretches)) :
    ReadRenamed map (Piece.body stretches)
      (Piece.body (stretches.map (Stretch.mapValue map.rename))) := by
  obtain ⟨t, ht, hbody⟩ := delimit
  have hstretches := @rewriteTagAttrs_stretches map stretches h []
  have htag := @rewriteTagAttrs_body map t ht []
  have hrenamed : Piece.body (stretches.map (Stretch.mapValue map.rename)) =
      (t.mapValues map.rename).body := by
    rw [hbody, hstretches] at htag
    exact List.append_cancel_right htag
  rw [hrenamed, ← hbody]
  exact ⟨tagName_mapValues clean ht, parseAttrs_mapValues clean ht⟩

theorem scan_pieces (clean : CleanMap map) (wellFormed : ∀ piece ∈ pieces, piece.WellFormed)
    (unended : Unended tail)
    (delimit : ∀ t ∈ openTags (pieces.flatMap Piece.render ++ tail), QuotesDelimit t.body) :
    ∃ elements, scan (pieces.flatMap Piece.render ++ tail) = .ok elements ∧
      scan ((pieces.map (Piece.mapValues map.rename)).flatMap Piece.render ++ tail) =
        .ok (elements.map (Element.mapValues map.rename)) := by
  have hrenamed : ∀ piece ∈ pieces.map (Piece.mapValues map.rename), piece.WellFormed := by
    intro piece hpiece
    obtain ⟨old, hold, rfl⟩ := List.mem_map.mp hpiece
    exact mapValues_piece clean (wellFormed old hold)
  rw [openTags_pieces wellFormed unended] at delimit
  unfold scan
  rw [openTags_pieces wellFormed unended, openTags_pieces hrenamed unended]
  clear hrenamed unended
  induction pieces with
  | nil => exact ⟨[], rfl, rfl⟩
  | cons piece pieces ih =>
    obtain ⟨hpiece, hpieces⟩ := List.forall_mem_cons.mp wellFormed
    cases piece with
    | char c => exact ih hpieces delimit
    | markup s => exact ih hpieces delimit
    | tag stretches =>
      obtain ⟨htag, htags⟩ := List.forall_mem_cons.mp delimit
      obtain ⟨elements, hread, hreadRenamed⟩ := ih hpieces htags
      obtain ⟨hname, attributes, hattrs, hattrsRenamed⟩ :=
        readRenamed_stretches clean hpiece.1 htag
      have hcons (stretches : List Stretch) (pieces : List Piece) :
          (Piece.tag stretches :: pieces).filterMap Piece.openTag? =
            ⟨tagName (Piece.body stretches), Piece.body stretches⟩ ::
              pieces.filterMap Piece.openTag? := rfl
      refine ⟨⟨tagName (Piece.body stretches), attributes⟩ :: elements, ?_, ?_⟩
      · rw [hcons, List.mapM_cons, hattrs, hread]
        rfl
      · rw [List.map_cons, Piece.mapValues, hcons, List.mapM_cons, hattrsRenamed, hreadRenamed,
          hname]
        rfl

/-- Whatever the text is, only quoted values of open tags are replaced, each once and if it is a
key, and what is scanned of the new text are the tags with these values; where every quote
delimits an attribute value, the scanner reads the same tags with their values renamed. -/
theorem rewriteIds_faithful (xml : Text) (map : IdMap) (clean : CleanMap map) :
    (∃ pieces tail, TakenApart xml pieces tail) ∧ ∀ pieces tail, TakenApart xml pieces tail →
      rewriteIds xml map = (pieces.map (Piece.mapValues map.rename)).flatMap Piece.render ++ tail ∧
      openTags xml = pieces.filterMap Piece.openTag? ∧
      openTags (rewriteIds xml map) =
        (pieces.map (Piece.mapValues map.rename)).filterMap Piece.openTag? ∧
      (∀ stretches, .tag stretches ∈ pieces → QuotesDelimit (Piece.body stretches) →
        ReadRenamed map (Piece.body stretches)
          (Piece.body (stretches.map (Stretch.mapValue map.rename)))) ∧
      ((∀ t ∈ openTags xml, QuotesDelimit t.body) → ∃ elements, scan xml = .ok elements ∧
        scan (rewriteIds xml map) = .ok (elements.map (Element.mapValues map.rename))) := by
  refine ⟨exists_takenApart xml, fun pieces tail taken => ?_⟩
  obtain ⟨wellFormed, unended, rfl⟩ := taken
  have hrenamed : ∀ piece ∈ pieces.map (Piece.mapValues map.rename), piece.WellFormed := by
    intro piece hpiece
    obtain ⟨old, hold, rfl⟩ := List.mem_map.mp hpiece
    exact mapValues_piece clean (wellFormed old hold)
  rw [rewriteIds_pieces wellFormed unended]
  refine ⟨rfl, openTags_pieces wellFormed unended, openTags_pieces hrenamed unended, ?_, ?_⟩
  · intro stretches hmem delimit
    exact readRenamed_stretches clean (wellFormed _ hmem).1 delimit
  · exact scan_pieces clean wellFormed unended

def samplePieces : List Piece :=
  [.tag [.plain 'a', .plain ' ', .plain 'b', .plain '=', .quoted '"' "k".toList, .plain '/'],
    .markup "<!-- \"k\" -->".toList]

def sampleMap : IdMap := [("k".toList, "v".toList)]

theorem sampleMap_clean : CleanMap sampleMap := by
  simp [CleanMap, Clean, sampleMap, isQuote]

theorem rewriteIds_faithful_sample :
    ∃ elements, scan "<a b=\"k\"/><!-- \"k\" -->".toList = .ok elements ∧
      scan (rewriteIds "<a b=\"k\"/><!-- \"k\" -->".toList sampleMap) =
        .ok (elements.map (Element.mapValues sampleMap.rename)) ∧
      rewriteIds "<a b=\"k\"/><!-- \"k\" -->".toList sampleMap =
        "<a b=\"v\"/><!-- \"k\" -->".toList := by
  have taken : TakenApart "<a b=\"k\"/><!-- \"k\" -->".toList samplePieces [] :=
    ⟨by decide, .inl rfl, by decide⟩
  obtain ⟨hrewritten, htags, _, _, hscan⟩ :=
    (rewriteIds_faithful "<a b=\"k\"/><!-- \"k\" -->".toList sampleMap sampleMap_clean).2 _ _ taken
  obtain ⟨elements, hread, hreadRenamed⟩ := hscan fun t ht => by
    rw [htags] at ht
    obtain rfl := List.mem_singleton.mp ht
    exact ⟨⟨"a".toList, [.plain "b".toList "k".toList], [], true⟩,
      tag_delimited (by decide), by decide⟩
  exact ⟨elements, hread, hreadRenamed, hrewritten.trans (by decide)⟩

/-- A quoted text that is no value of an attribute is replaced too, and the tag is then another. -/
theorem rewriteIds_unvalued :
    CleanMap sampleMap ∧ (∀ c ∈ "<a\"k\">".toList, c.toNat < 0x80) ∧
      scan "<a\"k\">".toList = .ok [⟨"a\"k\"".toList, []⟩] ∧
      rewriteIds "<a\"k\">".toList sampleMap = "<a\"v\">".toList ∧
      scan (rewriteIds "<a\"k\">".toList sampleMap) = .ok [⟨"a\"v\"".toList, []⟩] :=
  ⟨sampleMap_clean, by simp, by decide, by decide, by decide⟩

end KnxRs.Renumber
