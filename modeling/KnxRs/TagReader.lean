import KnxRs.SourceTrees
import KnxRs.XmlReader

set_option autoImplicit false

/-!
# A reader of tags

A reader that reports where the tags of a document begin. The product code only assumes that
its reader does so for well-formed nodes; this one does.
-/
namespace KnxRs.XmlReader
open Texts XmlDocuments XmlScan SourceTrees

/-! ## The reader -/

def shift (k : Nat) (tags : List (Nat × TagEvent)) : List (Nat × TagEvent) :=
  tags.map fun tag => (tag.1 + k, tag.2)

/-- The end tag that a text begins with. -/
def endTagOf (xs : Text) : List (Nat × TagEvent) :=
  if "</".toList.isPrefixOf xs then [(0, .close ((xs.drop 2).takeWhile isNameChar))] else []

def tagOf (body : Text) (attributes : List (Text × Text)) : TagEvent :=
  if body.getLast? = some '/' then .empty ⟨tagName body, attributes⟩
  else .start ⟨tagName body, attributes⟩

/-- The tags that are read in at most `rounds` rounds, up to an error. -/
def readTags : (rounds : Nat) → Text → List (Nat × TagEvent)
  | _, [] | 0, _ :: _ => []
  | rounds + 1, c :: cs =>
    if c ≠ '<' then shift 1 (readTags rounds cs)
    else match afterMarkup (c :: cs) with
      | some none => []
      | some (some rest) =>
        endTagOf (c :: cs) ++ shift (cs.length + 1 - rest.length) (readTags rounds rest)
      | none =>
        match findTagEnd none cs with
        | none => []
        | some (body, rest) =>
          match parseAttrs body with
          | .error _ => []
          | .ok attributes =>
            (0, tagOf body attributes) :: shift (body.length + 2) (readTags rounds rest)

def tagReader : TagReader := fun xml => readTags xml.length xml

/-! ## Tokens -/

@[simp] theorem shift_zero (tags : List (Nat × TagEvent)) : shift 0 tags = tags := by
  unfold shift
  simp

theorem shift_shift (j k : Nat) (tags : List (Nat × TagEvent)) :
    shift j (shift k tags) = shift (k + j) tags := by
  unfold shift
  rw [List.map_map]
  congr 1
  funext tag
  simp only [Function.comp, Nat.add_assoc]

theorem shift_append (k : Nat) (tags more : List (Nat × TagEvent)) :
    shift k (tags ++ more) = shift k tags ++ shift k more := List.map_append

/-- What a reader reports of a token at the front of a text. -/
def tokenTags : Token → List (Nat × TagEvent)
  | .tag t => [(0, if t.selfClosing then .empty t.element else .start t.element)]
  | .endTag name _ => [(0, .close name)]
  | _ => []

def tokenStep (token : Token) (tags : List (Nat × TagEvent)) : List (Nat × TagEvent) :=
  tokenTags token ++ shift token.render.length tags

theorem readTags_nil (rounds : Nat) : readTags rounds [] = [] := by
  cases rounds <;> rw [readTags]

theorem readTags_text {s : Text} (h : '<' ∉ s) (rounds : Nat) (rest : Text) :
    readTags (s.length + rounds) (s ++ rest) = tokenStep (.text s) (readTags rounds rest) := by
  induction s with
  | nil =>
    rw [List.length_nil, Nat.zero_add]
    exact (shift_zero _).symm
  | cons c cs ih =>
    obtain ⟨hc, hcs⟩ := not_or.mp (mt List.mem_cons.mpr h)
    rw [List.length_cons, Nat.add_right_comm, List.cons_append, readTags, if_pos (Ne.symm hc),
      ih hcs]
    unfold tokenStep tokenTags
    rw [List.nil_append, List.nil_append, shift_shift]
    rfl

theorem endTagOf_render {token : Token} (h : token.WellFormed) (hmarkup : IsMarkup token)
    (rest : Text) : endTagOf (token.render ++ rest) = tokenTags token := by
  cases token with
  | text s =>
    obtain ⟨cs, hcs⟩ := hmarkup.head
    have hmem : '<' ∈ s := by
      rw [show s = '<' :: cs from hcs]
      exact List.mem_cons_self
    exact absurd hmem h
  | tag t => cases hmarkup.untagged
  | comment s => rfl
  | cdata s => rfl
  | instruction s => rfl
  | declaration s => rfl
  | endTag name spaces =>
    have hstop : ∀ s : Text, IsSpaces s → (s ++ '>' :: rest).takeWhile isNameChar = [] := by
      intro s hs
      cases s with
      | nil => rfl
      | cons c cs =>
        have hc : isNameChar c = false := by
          rcases isSpace_cases (hs c List.mem_cons_self) with rfl | rfl | rfl | rfl <;> decide
        rw [List.cons_append, List.takeWhile_cons, hc]
        rfl
    have hname : (name ++ (spaces ++ '>' :: rest)).takeWhile isNameChar = name := by
      rw [List.takeWhile_append_of_pos h.1.2, hstop spaces h.2, List.append_nil]
    have hrender : (Token.endTag name spaces).render ++ rest =
        '<' :: '/' :: (name ++ (spaces ++ '>' :: rest)) := by
      unfold Token.render
      simp only [List.append_assoc]
      rfl
    rw [hrender]
    show [(0, TagEvent.close ((name ++ (spaces ++ '>' :: rest)).takeWhile isNameChar))] = _
    rw [hname]
    rfl

theorem readTags_markup {token : Token} (h : token.WellFormed) (hmarkup : IsMarkup token)
    (rounds : Nat) (rest : Text) : readTags (rounds + 1) (token.render ++ rest) =
      tokenStep token (readTags rounds rest) := by
  have hafter := afterMarkup_render h hmarkup rest
  have hend := endTagOf_render h hmarkup rest
  obtain ⟨cs, hcs⟩ := hmarkup.head
  unfold tokenStep
  rw [← hend]
  rw [hcs, List.cons_append] at hafter ⊢
  have hlen : (cs ++ rest).length + 1 - rest.length = ('<' :: cs).length := by
    rw [List.length_append, List.length_cons]
    omega
  rw [readTags, if_neg (by decide), hafter]
  dsimp only
  rw [hlen]

theorem tagOf_body {t : Tag} (h : t.WellFormed) :
    tagOf t.body t.element.attributes =
      if t.selfClosing then .empty t.element else .start t.element := by
  have hlast : t.body.getLast? = some '/' ↔ t.selfClosing = true := by
    constructor
    · intro hslash
      by_contra hopen
      have hbody : t.body = plainBody t := by
        unfold Tag.body plainBody
        rw [if_neg hopen, List.append_nil, List.append_assoc]
      have hstrip := stripSlash_body h
      unfold stripSlash at hstrip
      rw [if_pos hslash, ← hbody] at hstrip
      have hlen := congrArg List.length hstrip
      obtain ⟨c, cs, hcons, _⟩ := body_head h
      rw [List.length_dropLast, hcons, List.length_cons] at hlen
      omega
    · intro hclosed
      unfold Tag.body
      rw [if_pos hclosed, List.getLast?_concat]
  unfold tagOf
  rw [tagName_body h]
  by_cases hclosed : t.selfClosing = true
  · rw [if_pos (hlast.mpr hclosed), if_pos hclosed]
    rfl
  · rw [if_neg (mt hlast.mp hclosed), if_neg hclosed]
    rfl

theorem readTags_tag {t : Tag} (h : t.WellFormed) (rounds : Nat) (rest : Text) :
    readTags (rounds + 1) (t.render ++ rest) =
      tokenStep (.tag t) (readTags rounds rest) := by
  have hrender : t.render ++ rest = '<' :: (t.body ++ '>' :: rest) := by
    unfold Tag.render
    rw [List.append_assoc]
    rfl
  have hlen : t.render.length = t.body.length + 2 := by
    unfold Tag.render
    simp
  rw [hrender, readTags, if_neg (by decide), afterMarkup_tag h, findTagEnd_closed (body_closed h)]
  dsimp only
  rw [parseAttrs_body h]
  show (0, tagOf t.body t.element.attributes) :: _ = _ :: shift t.render.length _
  rw [tagOf_body h, hlen]

theorem tagReader_tokens {tokens : List Token} (wellFormed : ∀ t ∈ tokens, t.WellFormed) :
    tagReader (tokens.flatMap Token.render) = tokens.foldr tokenStep [] := by
  refine loop_tokens readTags tokenStep [] tokens readTags_nil (fun token htoken rounds rest => ?_)
    (Nat.le_refl _)
  rcases token_cases token with ⟨s, rfl⟩ | ⟨t, rfl⟩ | hmarkup
  · exact ⟨rounds, Nat.le_refl _, readTags_text (wellFormed _ htoken) rounds rest⟩
  · refine ⟨t.body.length + 1 + rounds, Nat.le_add_left _ _, ?_⟩
    rw [show Token.render (.tag t) = t.render from rfl, render_length]
    exact readTags_tag (wellFormed _ htoken) _ _
  · obtain ⟨cs, hcs⟩ := hmarkup.head
    have hlen : token.render.length + rounds = cs.length + rounds + 1 := by
      rw [hcs, List.length_cons, Nat.add_right_comm]
    refine ⟨cs.length + rounds, Nat.le_add_left _ _, ?_⟩
    rw [hlen]
    exact readTags_markup (wellFormed _ htoken) hmarkup _ _

/-! ## Nodes -/

mutual

def Node.tokens : Node → List Token
  | .token t => [t]
  | .element tag children spaces => .tag tag :: (tokens children ++ [.endTag tag.name spaces])

def tokens : List Node → List Token
  | [] => []
  | n :: ns => Node.tokens n ++ tokens ns

end

mutual

theorem node_render : (n : Node) → (Node.tokens n).flatMap Token.render = n.render
  | .token t => by
    rw [Node.tokens, Node.render]
    exact List.append_nil _
  | .element tag children spaces => by
    rw [Node.tokens, Node.render, List.flatMap_cons, List.flatMap_append, nodes_render children,
      List.append_assoc]
    exact congrArg _ (congrArg _ (List.append_nil _))

theorem nodes_render : (ns : List Node) → (tokens ns).flatMap Token.render = render ns
  | [] => by
    rw [tokens, render]
    rfl
  | n :: ns => by
    rw [tokens, List.flatMap_append, node_render n, nodes_render ns, render_cons]

end

mutual

theorem node_wellFormed : (n : Node) → n.WellFormed → ∀ t ∈ Node.tokens n, t.WellFormed
  | .token t, h => by
    rw [Node.WellFormed] at h
    rw [Node.tokens]
    exact List.forall_mem_singleton.mpr h.1
  | .element tag children spaces, h => by
    rw [Node.WellFormed] at h
    obtain ⟨htag, _, hchildren, hspaces⟩ := h
    rw [Node.tokens]
    refine List.forall_mem_cons.mpr ⟨htag, List.forall_mem_append.mpr
      ⟨nodes_wellFormed children hchildren, List.forall_mem_singleton.mpr ⟨htag.name, hspaces⟩⟩⟩

theorem nodes_wellFormed : (ns : List Node) → WellFormed ns → ∀ t ∈ tokens ns, t.WellFormed
  | [], _ => by
    rw [tokens]
    exact List.forall_mem_nil _
  | n :: ns, h => by
    rw [WellFormed] at h
    rw [tokens]
    exact List.forall_mem_append.mpr ⟨node_wellFormed n h.1, nodes_wellFormed ns h.2⟩

end

theorem tokenTags_standing {t : Token} (h : Standing t) (pos : Nat) :
    tokenEvents pos t = shift pos (tokenTags t) := by
  cases t with
  | tag t =>
    have hclosed : t.selfClosing = true := h
    unfold tokenEvents tokenTags shift
    simp [hclosed]
  | endTag _ _ => exact h.elim
  | text _ | comment _ | cdata _ | instruction _ | declaration _ => rfl

theorem shift_tokenStep (pos : Nat) (t : Token) (tags : List (Nat × TagEvent)) :
    shift pos (tokenStep t tags) =
      shift pos (tokenTags t) ++ shift (pos + t.render.length) tags := by
  unfold tokenStep
  rw [shift_append, shift_shift, Nat.add_comm]

mutual

theorem node_events (pos : Nat) (tags : List (Nat × TagEvent)) : (n : Node) → n.WellFormed →
    shift pos ((Node.tokens n).foldr tokenStep tags) =
      n.events pos ++ shift (pos + n.render.length) tags
  | .token t, h => by
    rw [Node.WellFormed] at h
    rw [Node.tokens, Node.events, Node.render, List.foldr_cons, List.foldr_nil,
      tokenTags_standing h.2, shift_tokenStep]
  | .element tag children spaces, h => by
    rw [Node.WellFormed] at h
    obtain ⟨_, hopen, hchildren, _⟩ := h
    have hstart : tokenTags (.tag tag) = [(0, .start tag.element)] := by
      simp [tokenTags, hopen]
    have hlen : pos + tag.render.length + (render children).length + (closing tag spaces).length =
        pos + (Node.element tag children spaces).render.length := by
      rw [Node.render]
      simp only [List.length_append]
      omega
    rw [Node.tokens, List.foldr_cons, List.foldr_append, List.foldr_cons, List.foldr_nil,
      shift_tokenStep, hstart, nodes_events _ _ children hchildren, shift_tokenStep, ← hlen,
      Node.events, List.length_append]
    unfold tokenTags shift
    simp [Nat.add_assoc]
    rfl

theorem nodes_events (pos : Nat) (tags : List (Nat × TagEvent)) : (ns : List Node) →
    WellFormed ns → shift pos ((tokens ns).foldr tokenStep tags) =
      events pos ns ++ shift (pos + (render ns).length) tags
  | [], _ => by
    rw [tokens, events_nil, render_nil]
    rfl
  | n :: ns, h => by
    rw [WellFormed] at h
    rw [tokens, List.foldr_append, node_events pos _ n h.1, nodes_events _ _ ns h.2, events_cons,
      render_cons, List.append_assoc, List.length_append, Nat.add_assoc]

end

theorem tagReader_documented : tagReader.Documented := by
  intro nodes h
  have htokens := tagReader_tokens (nodes_wellFormed nodes h)
  rw [nodes_render] at htokens
  have hevents := nodes_events 0 [] nodes h
  rw [shift_zero] at hevents
  rw [htokens, hevents]
  exact List.append_nil _

end KnxRs.XmlReader
