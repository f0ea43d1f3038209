import KnxRs.Renumber

set_option autoImplicit false

/-!
# An XML reader

A reader for the documents of this development, with every kind of markup read to its own
end. The product code only assumes that its reader reports the elements of a document; this
one does.
-/
namespace KnxRs.XmlReader
open Texts XmlDocuments XmlScan

/-- The text after markup that is not a tag; without an end, nothing. -/
def afterMarkup (xs : Text) : Option (Option Text) :=
  if "<!--".toList.isPrefixOf xs then
    some ((splitOnce "--".toList (xs.drop 4)).bind fun (_, rest) =>
      if ">".toList.isPrefixOf rest then some (rest.drop 1) else none)
  else if "<![CDATA[".toList.isPrefixOf xs then
    some ((splitOnce "]]>".toList (xs.drop 9)).map Prod.snd)
  else if "<?".toList.isPrefixOf xs then
    some ((splitOnce "?>".toList (xs.drop 2)).map Prod.snd)
  else if "<!".toList.isPrefixOf xs ∨ "</".toList.isPrefixOf xs then
    some ((splitOnce ">".toList (xs.drop 2)).map Prod.snd)
  else none

/-- The elements that are read, in at most `rounds` rounds. -/
def readFrom : (rounds : Nat) → Text → Option (List Element)
  | _, [] => some []
  | 0, _ :: _ => none
  | rounds + 1, c :: cs =>
    if c ≠ '<' then readFrom rounds cs
    else match afterMarkup (c :: cs) with
      | some rest => rest.bind (readFrom rounds)
      | none => do
        let (body, rest) ← findTagEnd none cs
        let attributes ← (parseAttrs body).toOption
        let elements ← readFrom rounds rest
        some (⟨tagName body, attributes⟩ :: elements)

def xmlReader : Renumber.Reader := fun xml =>
  match readFrom xml.length xml with
  | some elements => ⟨elements, false⟩
  | none => ⟨[], true⟩

theorem splitOnce_closed {pat s : Text} (h : splitOnce pat (s ++ pat) = some (s, []))
    (rest : Text) : splitOnce pat (s ++ (pat ++ rest)) = some (s, rest) := by
  rw [← List.append_assoc, splitOnce_append h]
  rfl

theorem splitOnce_end {s : Text} (h : '>' ∉ s) (rest : Text) :
    splitOnce ">".toList (s ++ '>' :: rest) = some (s, rest) := by
  rw [show ">".toList = ['>'] from rfl, splitOnce_skip h, splitOnce, if_pos (by simp)]
  simp

theorem afterMarkup_render {token : Token} (h : token.WellFormed) (hmarkup : IsMarkup token)
    (rest : Text) : afterMarkup (token.render ++ rest) = some (some rest) := by
  cases token with
  | text s =>
    obtain ⟨cs, hcs⟩ := hmarkup.head
    have hmem : '<' ∈ s := by
      rw [show s = '<' :: cs from hcs]
      exact List.mem_cons_self
    exact absurd hmem h
  | tag t => cases hmarkup.untagged
  | comment s =>
    unfold Token.WellFormed at h
    have hsplit := splitOnce_closed h ('>' :: rest)
    have hrender : (Token.comment s).render ++ rest =
        '<' :: '!' :: '-' :: '-' :: (s ++ ("--".toList ++ '>' :: rest)) := by
      unfold Token.render
      simp only [List.append_assoc]
      rfl
    rw [hrender]
    show some ((splitOnce "--".toList (s ++ ("--".toList ++ '>' :: rest))).bind _) = _
    rw [hsplit]
    rfl
  | cdata s =>
    unfold Token.WellFormed at h
    have hsplit := splitOnce_closed h rest
    have hrender : (Token.cdata s).render ++ rest =
        "<![CDATA[".toList ++ (s ++ ("]]>".toList ++ rest)) := by
      unfold Token.render
      simp only [List.append_assoc]
    rw [hrender]
    show some ((splitOnce "]]>".toList (s ++ ("]]>".toList ++ rest))).map _) = _
    rw [hsplit]
    rfl
  | instruction s =>
    unfold Token.WellFormed at h
    have hsplit := splitOnce_closed h.2 rest
    have hrender : (Token.instruction s).render ++ rest =
        '<' :: '?' :: (s ++ ("?>".toList ++ rest)) := by
      unfold Token.render
      simp only [List.append_assoc]
      rfl
    rw [hrender]
    show some ((splitOnce "?>".toList (s ++ ("?>".toList ++ rest))).map _) = _
    rw [hsplit]
    rfl
  | declaration s =>
    obtain ⟨⟨more, hmore⟩, _, hend⟩ := h
    have hsplit := splitOnce_end hend rest
    have hrender : (Token.declaration s).render ++ rest = '<' :: '!' :: (s ++ '>' :: rest) := by
      unfold Token.render
      simp only [List.append_assoc]
      rfl
    rw [hrender, ← hmore]
    show some ((splitOnce ">".toList ("DOCTYPE".toList ++ more ++ '>' :: rest)).map _) = _
    rw [hmore, hsplit]
    rfl
  | endTag name spaces =>
    have hend : '>' ∉ name ++ spaces := by
      rw [List.mem_append]
      rintro (hc | hc)
      · exact absurd (h.1.2 _ hc) (by decide)
      · exact absurd (h.2 _ hc) (by decide)
    have hsplit := splitOnce_end hend rest
    have hrender : (Token.endTag name spaces).render ++ rest =
        '<' :: '/' :: (name ++ spaces ++ '>' :: rest) := by
      unfold Token.render
      simp only [List.append_assoc]
      rfl
    rw [hrender]
    show some ((splitOnce ">".toList (name ++ spaces ++ '>' :: rest)).map _) = _
    rw [hsplit]
    rfl

theorem afterMarkup_tag {t : Tag} (h : t.WellFormed) (rest : Text) :
    afterMarkup ('<' :: (t.body ++ rest)) = none := by
  obtain ⟨c, cs, hbody, hc⟩ := body_head h
  obtain ⟨_, _, _, hslash, hbang, hquestion, _⟩ := isNameChar_plain hc
  have hno (pat : Text) (hpat : ∃ d more, pat = '<' :: d :: more ∧ c ≠ d) :
      ¬pat.isPrefixOf ('<' :: (c :: cs ++ rest)) = true := by
    intro hp
    obtain ⟨d, more, rfl, hd⟩ := hpat
    obtain ⟨tail, htail⟩ := List.isPrefixOf_iff_prefix.mp hp
    exact hd (List.cons.inj (List.cons.inj htail).2).1.symm
  unfold afterMarkup
  rw [hbody, if_neg (hno "<!--".toList ⟨'!', _, rfl, hbang⟩),
    if_neg (hno "<![CDATA[".toList ⟨'!', _, rfl, hbang⟩),
    if_neg (hno "<?".toList ⟨'?', _, rfl, hquestion⟩),
    if_neg (not_or.mpr ⟨hno "<!".toList ⟨'!', _, rfl, hbang⟩, hno "</".toList ⟨'/', _, rfl, hslash⟩⟩)]

theorem readFrom_text {s : Text} (h : '<' ∉ s) (rounds : Nat) (rest : Text) :
    readFrom (s.length + rounds) (s ++ rest) = readFrom rounds rest := by
  induction s with
  | nil =>
    rw [List.length_nil, Nat.zero_add]
    rfl
  | cons c cs ih =>
    obtain ⟨hc, hcs⟩ := not_or.mp (mt List.mem_cons.mpr h)
    rw [List.length_cons, Nat.add_right_comm, List.cons_append, readFrom,
      if_pos (Ne.symm hc), ih hcs]

theorem readFrom_markup {token : Token} (h : token.WellFormed) (hmarkup : IsMarkup token)
    (rounds : Nat) (rest : Text) :
    readFrom (rounds + 1) (token.render ++ rest) = readFrom rounds rest := by
  have hafter := afterMarkup_render h hmarkup rest
  obtain ⟨cs, hcs⟩ := hmarkup.head
  rw [hcs] at hafter ⊢
  rw [List.cons_append] at hafter ⊢
  rw [readFrom, if_neg (by decide), hafter]
  rfl

theorem readFrom_tag {t : Tag} (h : t.WellFormed) (rounds : Nat) (rest : Text) :
    readFrom (rounds + 1) (t.render ++ rest) =
      (readFrom rounds rest).map fun elements => t.element :: elements := by
  have hrender : t.render ++ rest = '<' :: (t.body ++ '>' :: rest) := by
    unfold Tag.render
    rw [List.append_assoc]
    rfl
  rw [hrender, readFrom, if_neg (by decide), afterMarkup_tag h, findTagEnd_closed (body_closed h)]
  show (parseAttrs t.body).toOption.bind _ = _
  rw [parseAttrs_body h, tagName_body h]
  show (readFrom rounds rest).bind _ = _
  cases readFrom rounds rest <;> rfl

/-- The reader reports the elements of every document. -/
theorem xmlReader_documented : xmlReader.Documented := by
  intro doc
  have hloop := loop_tokens readFrom
    (fun token elements => elements.map fun els => (token.tag?.map Tag.element).toList ++ els)
    (some []) doc.tokens
    (fun rounds => by cases rounds <;> rfl) (fun token htoken rounds rest => ?_) (Nat.le_refl _)
  · have hfold (tokens : List Token) :
        tokens.foldr (fun token (elements : Option (List Element)) => elements.map fun els =>
          (token.tag?.map Tag.element).toList ++ els) (some []) =
            some ((tokens.filterMap Token.tag?).map Tag.element) := by
      induction tokens with
      | nil => rfl
      | cons token tokens ih =>
        rw [List.foldr_cons, ih]
        cases token <;> rfl
    unfold xmlReader Document.render
    rw [hloop, hfold]
    rfl
  · rcases token_cases token with ⟨s, rfl⟩ | ⟨t, rfl⟩ | hmarkup
    · refine ⟨rounds, Nat.le_refl _, (readFrom_text (doc.wellFormed _ htoken) rounds rest).trans ?_⟩
      cases readFrom rounds rest <;> rfl
    · refine ⟨t.body.length + 1 + rounds, Nat.le_add_left _ _, ?_⟩
      rw [show Token.render (.tag t) = t.render from rfl, render_length]
      exact readFrom_tag (doc.wellFormed _ htoken) _ _
    · obtain ⟨cs, hcs⟩ := hmarkup.head
      have hlen : token.render.length + rounds = cs.length + rounds + 1 := by
        rw [hcs, List.length_cons, Nat.add_right_comm]
      refine ⟨cs.length + rounds, Nat.le_add_left _ _, ?_⟩
      rw [hlen, readFrom_markup (doc.wellFormed _ htoken) hmarkup, hmarkup.untagged]
      cases readFrom (cs.length + rounds) rest <;> rfl

end KnxRs.XmlReader
