import KnxRs.RewrittenTexts
import KnxRs.Utf8Offsets

set_option autoImplicit false

/-!
# The scanners on octets

`xml_scan.rs` and the rewriting of `renumber.rs` as they run: over the octets of a text, with
offsets, and slices between them. On whole tags they return what the scanners on characters do.
-/
namespace KnxRs.OctetScan
open Texts XmlDocuments XmlScan Renumber Utf8

def isQuoteOctet (b : UInt8) : Bool := b = octet '"' || b = octet '\''

/-- The loop of `find_tag_end`, from an offset over the octets left. -/
def findTagEndFrom : (quote : Option UInt8) → (i : Nat) → List UInt8 → Option Nat
  | _, _, [] => none
  | some q, i, c :: cs => findTagEndFrom (if c = q then none else some q) (i + 1) cs
  | none, i, c :: cs =>
    if c = octet '>' then some i
    else findTagEndFrom (if isQuoteOctet c then some c else none) (i + 1) cs

def findTagEnd (xml : Text) (start : Nat) : Option Nat :=
  findTagEndFrom none (start + 1) ((octets xml).drop (start + 1))

/-- `matches!(b.get(i + 1), Some(b'/' | b'!' | b'?'))`. -/
def isMarkupOctet (b : Option UInt8) : Bool :=
  b = some (octet '/') || b = some (octet '!') || b = some (octet '?')

/-- The offset after the comment, CDATA section, closing tag, declaration or instruction at `i`,
if there is one. -/
def skipMarkup (xml : Text) (i : Nat) : Except Fault (Option Nat) := do
  let rest ← slice xml i (size xml)
  if "<!--".toList.isPrefixOf rest then
    return some ((find "-->".toList rest).elim (size xml) fun e => i + e + 3)
  else if "<![CDATA[".toList.isPrefixOf rest then
    return some ((find "]]>".toList rest).elim (size xml) fun e => i + e + 3)
  else if isMarkupOctet (octets xml)[i + 1]? then
    return some ((findTagEnd xml i).elim (size xml) fun e => e + 1)
  else return none

/-- The loop that both scanners make: what they do at an open tag is given. -/
def walk {σ : Type} (xml : Text) (atTag : σ → (i e : Nat) → Except Fault σ) :
    (rounds : Nat) → (i : Nat) → σ → Except Fault σ
  | 0, _, _ => .error .unfinished
  | rounds + 1, i, s =>
    match (octets xml)[i]? with
    | none => .ok s
    | some c =>
      if c ≠ octet '<' then walk xml atTag rounds (i + 1) s
      else do
        match ← skipMarkup xml i with
        | some next => walk xml atTag rounds next s
        | none =>
          match findTagEnd xml i with
          | none => .ok s
          | some e => walk xml atTag rounds (e + 1) (← atTag s i e)

def pushTag (xml : Text) (out : List OpenTag) (i e : Nat) : Except Fault (List OpenTag) := do
  let body ← slice xml (i + 1) e
  return out ++ [⟨tagName body, body⟩]

def openTags (xml : Text) : Except Fault (List OpenTag) :=
  walk xml (pushTag xml) (size xml + 2) 0 []

/-- The loop of `rewrite_tag_attrs`. -/
def rewriteTagAttrsFrom (tag : Text) (map : IdMap) :
    (rounds : Nat) → (i last : Nat) → Text → Except Fault Text
  | 0, _, _, _ => .error .unfinished
  | rounds + 1, i, last, out =>
    match (octets tag)[i]? with
    | none => do return out ++ (← slice tag last (size tag))
    | some c =>
      if isQuoteOctet c then do
        let valStart := i + 1
        let j := advance (fun b => b ≠ c) (octets tag) valStart
        let before ← slice tag last valStart
        let value ← slice tag valStart (min j (size tag))
        rewriteTagAttrsFrom tag map rounds (j + 1) j (out ++ before ++ map.rename value)
      else rewriteTagAttrsFrom tag map rounds (i + 1) last out

def rewriteTagAttrs (tag : Text) (map : IdMap) (out : Text) : Except Fault Text :=
  rewriteTagAttrsFrom tag map (size tag + 2) 0 0 out

/-- The output, and the start of what is not yet in it. -/
structure Rewriting where
  last : Nat
  out : Text

def rewriteTag (xml : Text) (map : IdMap) (s : Rewriting) (i e : Nat) :
    Except Fault Rewriting := do
  let before ← slice xml s.last i
  let tag ← slice xml i (e + 1)
  let out ← rewriteTagAttrs tag map (s.out ++ before)
  return ⟨e + 1, out⟩

def rewriteIds (xml : Text) (map : IdMap) : Except Fault Text := do
  let s ← walk xml (rewriteTag xml map) (size xml + 2) 0 ⟨0, []⟩
  let rest ← slice xml s.last (size xml)
  return s.out ++ rest

/-! ## The end of a tag -/

theorem quote_ascii {c : Char} (h : isQuote c = true) : c.toNat < 0x80 := by
  rcases isQuote_iff.mp h with rfl | rfl <;> decide

theorem isQuoteOctet_octet {c : Char} (h : c.toNat < 0x80) :
    isQuoteOctet (octet c) = isQuote c := by
  unfold isQuoteOctet isQuote
  rw [Bool.eq_iff_iff]
  simp only [Bool.or_eq_true, decide_eq_true_eq, octet_inj h (show '"'.toNat < 0x80 by decide),
    octet_inj h (show '\''.toNat < 0x80 by decide)]

theorem high_ne {b : UInt8} (h : 0x80 ≤ b.toNat) {c : Char} (hc : c.toNat < 0x80) :
    b ≠ octet c := by
  rintro rfl
  rw [octet_toNat hc] at h
  omega

/-- Octets beyond ASCII neither end a tag nor begin or end a value. -/
theorem findTagEndFrom_high {quote : Option Char} (hquote : ∀ q ∈ quote, isQuote q = true)
    {bs : List UInt8} (h : ∀ b ∈ bs, 0x80 ≤ b.toNat) (i : Nat) (rest : List UInt8) :
    findTagEndFrom (quote.map octet) i (bs ++ rest) =
      findTagEndFrom (quote.map octet) (i + bs.length) rest := by
  induction bs generalizing i with
  | nil => rfl
  | cons b bs ih =>
    obtain ⟨hb, hbs⟩ := List.forall_mem_cons.mp h
    have hlen : i + (b :: bs).length = i + 1 + bs.length := by
      rw [List.length_cons]
      omega
    rw [List.cons_append, hlen, ← ih hbs]
    cases quote with
    | none =>
      have hplain : isQuoteOctet b = false := by
        simp [isQuoteOctet, high_ne hb (show '"'.toNat < 0x80 by decide),
          high_ne hb (show '\''.toNat < 0x80 by decide)]
      show findTagEndFrom none i (b :: (bs ++ rest)) = _
      rw [findTagEndFrom, if_neg (high_ne hb (by decide)), hplain]
      rfl
    | some q =>
      show findTagEndFrom (some (octet q)) i (b :: (bs ++ rest)) = _
      rw [findTagEndFrom, if_neg (high_ne hb (quote_ascii (hquote q rfl)))]
      rfl

theorem findTagEndFrom_octets {quote : Option Char} (hquote : ∀ q ∈ quote, isQuote q = true)
    (i : Nat) (y : Text) : findTagEndFrom (quote.map octet) i (octets y) =
      (XmlScan.findTagEnd quote y).map fun (body, _) => i + size body := by
  induction y generalizing quote i with
  | nil => cases quote <;> rfl
  | cons c cs ih =>
    have hnext (quote : Option Char) (hquote : ∀ q ∈ quote, isQuote q = true) :
        findTagEndFrom (quote.map octet) (i + (String.utf8EncodeChar c).length) (octets cs) =
          ((XmlScan.findTagEnd quote cs).map fun (body, rest) => (c :: body, rest)).map
            fun (body, _) => i + size body := by
      rw [ih hquote, Option.map_map]
      refine congrArg (fun f => Option.map f _) (funext fun found => ?_)
      simp only [Function.comp, size_cons]
      omega
    rw [octets_cons]
    by_cases hc : c.toNat < 0x80
    · rw [encode_ascii hc] at hnext ⊢
      cases quote with
      | none =>
        have hend : octet c = octet '>' ↔ c = '>' := octet_inj hc (by decide)
        show findTagEndFrom none i (octet c :: octets cs) = _
        rw [findTagEndFrom, XmlScan.findTagEnd, isQuoteOctet_octet hc]
        simp only [hend]
        split_ifs with hgt hq
        · rfl
        · exact hnext (some c) fun q hmem => (Option.some.inj hmem) ▸ hq
        · exact hnext none fun q hmem => by cases hmem
      | some q =>
        have hq := hquote q rfl
        have heq : octet c = octet q ↔ c = q := octet_inj hc (quote_ascii hq)
        show findTagEndFrom (some (octet q)) i (octet c :: octets cs) = _
        rw [findTagEndFrom, XmlScan.findTagEnd]
        simp only [heq]
        split_ifs
        · exact hnext none fun q hmem => by cases hmem
        · exact hnext (some q) hquote
    · have hhigh := encode_high hc
      rw [findTagEndFrom_high hquote hhigh]
      have hne {d : Char} (hd : d.toNat < 0x80) : c ≠ d := fun he => hc (he ▸ hd)
      cases quote with
      | none =>
        have hplain : isQuote c = false := by
          simp [isQuote, hne (show '"'.toNat < 0x80 by decide),
            hne (show '\''.toNat < 0x80 by decide)]
        rw [XmlScan.findTagEnd, if_neg (hne (by decide)), hplain]
        exact hnext none hquote
      | some q =>
        rw [XmlScan.findTagEnd, if_neg (hne (quote_ascii (hquote q rfl)))]
        exact hnext (some q) hquote

/-- The offset of the end of a tag. -/
theorem findTagEnd_octets (x cs : Text) : findTagEnd (x ++ '<' :: cs) (size x) =
    (XmlScan.findTagEnd none cs).map fun (body, _) => size (x ++ '<' :: body) := by
  have hdrop : (octets (x ++ '<' :: cs)).drop (size x + 1) = octets cs := by
    rw [← List.drop_drop, octets_drop, octets_cons, encode_ascii (by decide)]
    rfl
  have hfound := @findTagEndFrom_octets none (fun q hmem => by cases hmem) (size x + 1) cs
  unfold findTagEnd
  rw [hdrop]
  refine hfound.trans (congrArg (fun f => Option.map f _) (funext fun found => ?_))
  obtain ⟨body, rest⟩ := found
  dsimp only
  rw [size_append, size_ascii (by decide)]
  omega

/-! ## Markup -/

theorem octets_second (x cs : Text) :
    (octets (x ++ '<' :: cs))[size x + 1]? = (octets cs).head? := by
  rw [octets_get, octets_cons, encode_ascii (by decide), List.head?_eq_getElem?]
  rfl

theorem isMarkupOctet_head (y : Text) : isMarkupOctet (octets y).head? =
    (y.head? = some '/' || y.head? = some '!' || y.head? = some '?') := by
  unfold isMarkupOctet
  simp only [head_octets (show '/'.toNat < 0x80 by decide),
    head_octets (show '!'.toNat < 0x80 by decide), head_octets (show '?'.toNat < 0x80 by decide)]

theorem skipMarkup_octets (x cs : Text) : skipMarkup (x ++ '<' :: cs) (size x) =
    .ok ((XmlScan.skipMarkup ('<' :: cs)).map fun (passed, _) => size (x ++ passed)) := by
  have hfind {pat : Text} {k : Nat} (hk : size pat = k) (y : Text) :
      ((find pat y).elim (size (x ++ y)) fun e => size x + e + k) =
        size (x ++ ((splitAfter pat y).getD (y, [])).1) := by
    unfold find splitAfter
    cases splitOnce pat y with
    | none => rfl
    | some found =>
      dsimp only [Option.map_some, Option.elim_some, Option.getD_some]
      rw [size_append, size_append, hk, Nat.add_assoc]
  have hmarkup : XmlScan.markupEnd ('<' :: cs) =
      if "<!--".toList.isPrefixOf ('<' :: cs) then some (splitAfter "-->".toList ('<' :: cs))
      else if "<![CDATA[".toList.isPrefixOf ('<' :: cs) then
        some (splitAfter "]]>".toList ('<' :: cs))
      else if isMarkupOctet (octets cs).head? then
        some ((XmlScan.findTagEnd none cs).map fun (body, rest) => ('<' :: body ++ ['>'], rest))
      else none := by
    rw [isMarkupOctet_head]
    unfold XmlScan.markupEnd
    cases cs with
    | nil => rfl
    | cons c cs => simp
  unfold skipMarkup XmlScan.skipMarkup
  rw [slice_rest, hmarkup, octets_second]
  dsimp only [bind, Except.bind]
  split_ifs
  · rw [hfind (by decide)]
    rfl
  · rw [hfind (by decide)]
    rfl
  · rw [findTagEnd_octets]
    cases XmlScan.findTagEnd none cs with
    | none => rfl
    | some found =>
      have hend : size ('<' :: found.1 ++ ['>']) = size ('<' :: found.1) + 1 := by
        rw [size_append]
        rfl
      dsimp only [Option.map_some, Option.elim_some, Option.getD_some, pure, Except.pure]
      rw [size_append, size_append, hend, Nat.add_assoc]
  · rfl

/-! ## The loop over a text -/

section Walk
variable {σ : Type} {atTag : σ → (i e : Nat) → Except Fault σ}

theorem walk_char {c : Char} (h : c ≠ '<') (x y : Text) (rounds : Nat) (s : σ) :
    walk (x ++ c :: y) atTag ((String.utf8EncodeChar c).length + rounds) (size x) s =
      walk (x ++ c :: y) atTag rounds (size (x ++ [c])) s := by
  refine @loop_pass _ (fun rounds i => walk (x ++ c :: y) atTag rounds i s)
    (fun b => b ≠ octet '<') c x y (fun rounds i b hget hb => ?_) ?_ rounds
  · rw [walk, hget]
    exact if_pos hb
  · rintro b hb rfl
    exact h ((mem_encode (by decide)).mp hb)

theorem walk_start (x cs : Text) (rounds : Nat) (s : σ) :
    walk (x ++ '<' :: cs) atTag (rounds + 1) (size x) s =
      match XmlScan.skipMarkup ('<' :: cs) with
      | some (passed, _) => walk (x ++ '<' :: cs) atTag rounds (size (x ++ passed)) s
      | none =>
        match XmlScan.findTagEnd none cs with
        | none => .ok s
        | some (body, _) => atTag s (size x) (size (x ++ '<' :: body)) >>=
          walk (x ++ '<' :: cs) atTag rounds (size (x ++ '<' :: body) + 1) := by
  have hhead : (octets (x ++ '<' :: cs))[size x]? = some (octet '<') := by
    rw [octets_head, head_octets (by decide)]
    rfl
  rw [walk, hhead]
  dsimp only
  rw [if_neg (by simp), skipMarkup_octets, findTagEnd_octets]
  dsimp only [bind, Except.bind]
  cases XmlScan.skipMarkup ('<' :: cs) with
  | some found => rfl
  | none => cases XmlScan.findTagEnd none cs <;> rfl

theorem walk_end (xml : Text) (rounds : Nat) (s : σ) :
    walk xml atTag (rounds + 1) (size xml) s = .ok s := by
  rw [walk, octets_end]

theorem walk_unended {tail : Text} (h : Unended tail) (x : Text) (rounds : Nat) (s : σ) :
    walk (x ++ tail) atTag (rounds + 2) (size x) s = .ok s := by
  rcases h with rfl | ⟨cs, rfl, hmarkup | ⟨hmarkup, hend⟩⟩
  · rw [List.append_nil]
    exact walk_end x _ s
  · rw [walk_start, XmlScan.skipMarkup, hmarkup]
    exact walk_end _ rounds s
  · rw [walk_start, XmlScan.skipMarkup, hmarkup]
    dsimp only [Option.map_none]
    rw [hend]

variable {pieces : List Piece} {tail : Text}

/-- A text is walked through piece by piece; what holds of the pieces passed so far and the state
is kept by what is done at a tag. -/
theorem walk_pieces (wellFormed : ∀ piece ∈ pieces, piece.WellFormed) (unended : Unended tail)
    (inv : List Piece → σ → Prop)
    (passed : ∀ before piece s, piece.openTag? = none → inv before s → inv (before ++ [piece]) s)
    (tagged : ∀ before stretches more s, pieces = before ++ .tag stretches :: more →
      inv before s → ∃ s', inv (before ++ [.tag stretches]) s' ∧
        atTag s (size (before.flatMap Piece.render))
          (size (before.flatMap Piece.render ++ '<' :: Piece.body stretches)) = .ok s')
    {s : σ} (start : inv [] s) :
    ∃ s', inv pieces s' ∧ walk (pieces.flatMap Piece.render ++ tail) atTag
      (size (pieces.flatMap Piece.render ++ tail) + 2) 0 s = .ok s' := by
  have hrun (more : List Piece) : ∀ before s rounds, pieces = before ++ more → inv before s →
      size (more.flatMap Piece.render ++ tail) + 2 ≤ rounds →
      ∃ s', inv pieces s' ∧ walk (pieces.flatMap Piece.render ++ tail) atTag rounds
        (size (before.flatMap Piece.render)) s = .ok s' := by
    induction more with
    | nil =>
      intro before s rounds heq hinv hrounds
      rw [List.append_nil] at heq
      subst heq
      obtain ⟨left, rfl⟩ := Nat.exists_eq_add_of_le' (Nat.le_of_add_left_le hrounds)
      exact ⟨s, hinv, walk_unended unended _ left s⟩
    | cons piece more ih =>
      intro before s rounds heq hinv hrounds
      have hnext : pieces = (before ++ [piece]) ++ more := by simp [heq]
      have hpiece := wellFormed piece (heq ▸ List.mem_append_right _ List.mem_cons_self)
      have hxml : pieces.flatMap Piece.render ++ tail = before.flatMap Piece.render ++
          (piece.render ++ (more.flatMap Piece.render ++ tail)) := by
        rw [heq, List.flatMap_append, List.flatMap_cons]
        simp only [List.append_assoc]
      have hpassed : (before ++ [piece]).flatMap Piece.render =
          before.flatMap Piece.render ++ piece.render := by
        rw [List.flatMap_append, List.flatMap_singleton]
      rw [List.flatMap_cons, List.append_assoc, size_append] at hrounds
      cases piece with
      | char c =>
        have hlen : size [c] = (String.utf8EncodeChar c).length := by rw [size_cons]; rfl
        rw [Piece.render, hlen] at hrounds
        obtain ⟨left, rfl⟩ := Nat.exists_eq_add_of_le
          (show (String.utf8EncodeChar c).length ≤ rounds by omega)
        obtain ⟨s', hinv', hwalk⟩ := ih (before ++ [.char c]) s left hnext
          (passed before _ s rfl hinv) (by omega)
        refine ⟨s', hinv', ?_⟩
        rw [hxml, hpassed] at hwalk
        rw [hxml]
        exact (walk_char hpiece _ _ left s).trans hwalk
      | markup m =>
        obtain ⟨_, ⟨cs, rfl⟩, _⟩ := markupEnd_start hpiece
        have hmarkup := markupEnd_append hpiece (more.flatMap Piece.render ++ tail)
        have hpos : 0 < size ('<' :: cs) := size_pos (List.cons_ne_nil _ _)
        rw [Piece.render] at hrounds
        obtain ⟨left, rfl⟩ := Nat.exists_eq_add_of_le' (show 1 ≤ rounds by omega)
        obtain ⟨s', hinv', hwalk⟩ := ih (before ++ [.markup ('<' :: cs)]) s left hnext
          (passed before _ s rfl hinv) (by omega)
        refine ⟨s', hinv', ?_⟩
        rw [hxml, hpassed] at hwalk
        rw [hxml]
        refine (walk_start _ (cs ++ (more.flatMap Piece.render ++ tail)) left s).trans ?_
        rw [XmlScan.skipMarkup, ← List.cons_append, hmarkup]
        exact hwalk
      | tag stretches =>
        have hrender (rest : Text) : Piece.render (.tag stretches) ++ rest =
            '<' :: (Piece.body stretches ++ '>' :: rest) := by
          unfold Piece.render
          simp
        have hsize : size (before.flatMap Piece.render ++ Piece.render (.tag stretches)) =
            size (before.flatMap Piece.render ++ '<' :: Piece.body stretches) + 1 := by
          unfold Piece.render
          rw [← List.append_assoc, size_append _ ['>']]
          rfl
        have hpos : 0 < size (Piece.render (.tag stretches)) := size_pos (List.cons_ne_nil _ _)
        obtain ⟨left, rfl⟩ := Nat.exists_eq_add_of_le' (show 1 ≤ rounds by omega)
        obtain ⟨s₁, hinv₁, htag⟩ := tagged before stretches more s heq hinv
        obtain ⟨s', hinv', hwalk⟩ := ih (before ++ [.tag stretches]) s₁ left hnext hinv₁
          (by omega)
        refine ⟨s', hinv', ?_⟩
        rw [hxml, hpassed, hsize, hrender] at hwalk
        rw [hxml, hrender]
        refine (walk_start _ _ left s).trans ?_
        rw [XmlScan.skipMarkup, markupEnd_body hpiece.2]
        dsimp only [Option.map_none]
        rw [findTagEnd_closed (body_stretches_closed hpiece.1)]
        dsimp only
        rw [htag]
        exact hwalk
  obtain ⟨s', hinv, hwalk⟩ := hrun pieces [] s _ rfl start (Nat.le_refl _)
  exact ⟨s', hinv, hwalk⟩

end Walk

/-! ## What the scanners return -/

theorem size_open (x body : Text) :
    size (x ++ '<' :: body) = size x + 1 + size body := by
  rw [size_append, size_ascii (by decide)]
  omega

theorem pushTag_octets (x body rest : Text) (out : List OpenTag) :
    pushTag (x ++ '<' :: (body ++ rest)) out (size x) (size (x ++ '<' :: body)) =
      .ok (out ++ [⟨tagName body, body⟩]) := by
  have hxml : x ++ '<' :: (body ++ rest) = (x ++ ['<']) ++ (body ++ rest) := by simp
  have hstart : size x + 1 = size (x ++ ['<']) := by
    rw [size_append]
    rfl
  unfold pushTag
  rw [size_open, hstart, hxml, slice_append]
  rfl

theorem render_split {pieces before more : List Piece} {stretches : List Stretch}
    (h : pieces = before ++ .tag stretches :: more) (tail : Text) :
    pieces.flatMap Piece.render ++ tail = before.flatMap Piece.render ++
      '<' :: (Piece.body stretches ++ '>' :: (more.flatMap Piece.render ++ tail)) := by
  rw [h, List.flatMap_append, List.flatMap_cons, Piece.render]
  simp

theorem openTags_octets (xml : Text) : openTags xml = .ok (XmlScan.openTags xml) := by
  obtain ⟨pieces, tail, wellFormed, unended, rfl⟩ := exists_takenApart xml
  obtain ⟨tags, htags, hwalk⟩ := @walk_pieces _ (pushTag (pieces.flatMap Piece.render ++ tail))
    pieces tail wellFormed unended (fun before tags => tags = before.filterMap Piece.openTag?)
    (fun before piece tags hpiece htags => by
      rw [htags, List.filterMap_append, List.filterMap_cons_none hpiece, List.filterMap_nil,
        List.append_nil])
    (fun before stretches more tags heq htags => by
      refine ⟨before.filterMap Piece.openTag? ++
        [⟨tagName (Piece.body stretches), Piece.body stretches⟩], ?_, ?_⟩
      · rw [List.filterMap_append]
        rfl
      · rw [render_split heq, pushTag_octets, htags])
    [] rfl
  rw [openTags_pieces wellFormed unended, ← htags]
  exact hwalk

theorem rewriteTagAttrsFrom_char {c : Char} (h : isQuote c = false) (map : IdMap) (x y : Text)
    (rounds last : Nat) (out : Text) :
    rewriteTagAttrsFrom (x ++ c :: y) map ((String.utf8EncodeChar c).length + rounds) (size x)
      last out = rewriteTagAttrsFrom (x ++ c :: y) map rounds (size (x ++ [c])) last out := by
  refine @loop_pass _ (fun rounds i => rewriteTagAttrsFrom (x ++ c :: y) map rounds i last out)
    (fun b => isQuoteOctet b = false) c x y (fun rounds i b hget hb => ?_) (fun b hb => ?_) rounds
  · rw [rewriteTagAttrsFrom, hget]
    exact if_neg (by rw [hb]; decide)
  · by_cases hc : c.toNat < 0x80
    · rw [encode_ascii hc, List.mem_singleton] at hb
      rw [hb, isQuoteOctet_octet hc, h]
    · have hhigh := encode_high hc b hb
      simp [isQuoteOctet, high_ne hhigh (show '"'.toNat < 0x80 by decide),
        high_ne hhigh (show '\''.toNat < 0x80 by decide)]

theorem advance_quote {q : Char} (hq : isQuote q = true) (x y : Text) :
    advance (fun b => b ≠ octet q) (octets (x ++ y)) (size x) =
      size (x ++ y.takeWhile fun c => c ≠ q) := by
  have hascii := quote_ascii hq
  refine advance_octets (P := fun c => c ≠ q) (fun c hc b hb => ?_) (fun c hc b hb => ?_) x y
  · refine decide_eq_true fun he => ?_
    rw [he] at hb
    exact of_decide_eq_true hc ((mem_encode hascii).mp hb)
  · refine decide_eq_false (not_not_intro ?_)
    obtain rfl : c = q := not_not.mp (of_decide_eq_false hc)
    exact Option.some.inj (hb.symm.trans ((encode_head hascii).mpr rfl))

/-- A tag is copied with its values renamed: what is before the offset is in the output or is
pending. -/
theorem rewriteTagAttrsFrom_stretches (map : IdMap) {stretches : List Stretch}
    (h : ∀ stretch ∈ stretches, stretch.WellFormed) (flushed pending out : Text) {rounds : Nat}
    (hrounds : size (Piece.body stretches) + 3 ≤ rounds) :
    rewriteTagAttrsFrom ((flushed ++ pending) ++ (Piece.body stretches ++ ['>'])) map rounds
      (size (flushed ++ pending)) (size flushed) out =
        .ok (out ++ (pending ++ (Piece.body (stretches.map (Stretch.mapValue map.rename)) ++
          ['>']))) := by
  induction stretches generalizing flushed pending out rounds with
  | nil =>
    obtain ⟨left, rfl⟩ := Nat.exists_eq_add_of_le' (Nat.le_of_add_left_le hrounds)
    have hpass := rewriteTagAttrsFrom_char (c := '>') (by decide) map (flushed ++ pending) []
      (left + 2) (size flushed) out
    have hlen : left + 3 = (String.utf8EncodeChar '>').length + (left + 2) := Nat.add_comm _ 1
    have hend := slice_rest flushed (pending ++ ['>'])
    rw [← List.append_assoc] at hend
    show rewriteTagAttrsFrom ((flushed ++ pending) ++ ['>']) map (left + 3) _ _ _ = _
    rw [hlen, hpass, rewriteTagAttrsFrom, octets_end]
    dsimp only [bind, Except.bind]
    rw [hend]
    rfl
  | cons stretch stretches ih =>
    obtain ⟨hstretch, hstretches⟩ := List.forall_mem_cons.mp h
    have hbody (first : Stretch) (more : List Stretch) :
        Piece.body (first :: more) = first.render ++ Piece.body more := List.flatMap_cons
    rw [hbody, size_append] at hrounds
    rw [List.map_cons, hbody, hbody]
    cases stretch with
    | plain c =>
      have hsize : size (Stretch.render (.plain c)) = (String.utf8EncodeChar c).length := by
        rw [Stretch.render, size_cons]
        rfl
      obtain ⟨left, rfl⟩ := Nat.exists_eq_add_of_le
        (show (String.utf8EncodeChar c).length ≤ rounds by omega)
      have hnext := ih hstretches flushed (pending ++ [c]) out
        (show size (Piece.body stretches) + 3 ≤ left by omega)
      have htag : (flushed ++ (pending ++ [c])) ++ (Piece.body stretches ++ ['>']) =
          (flushed ++ pending) ++ c :: (Piece.body stretches ++ ['>']) := by simp
      rw [htag, ← List.append_assoc] at hnext
      refine (rewriteTagAttrsFrom_char hstretch.2 map _ _ left _ out).trans (hnext.trans ?_)
      simp [Stretch.mapValue, Stretch.render]
    | quoted q value =>
      obtain ⟨hq, hvalue⟩ := hstretch
      obtain ⟨left, rfl⟩ := Nat.exists_eq_add_of_le' (show 1 ≤ rounds by omega)
      have hpos : 0 < size (Stretch.render (.quoted q value)) := size_pos (List.cons_ne_nil _ _)
      have hnext := ih hstretches (flushed ++ pending ++ [q] ++ value) [q]
        (out ++ (pending ++ [q]) ++ map.rename value)
        (show size (Piece.body stretches) + 3 ≤ left by omega)
      have htag : (flushed ++ pending) ++
          (Stretch.render (.quoted q value) ++ Piece.body stretches ++ ['>']) =
            (flushed ++ pending ++ [q]) ++
              (value ++ q :: (Piece.body stretches ++ ['>'])) := by
        simp [Stretch.render]
      have hhead : (octets ((flushed ++ pending ++ [q]) ++
          (value ++ q :: (Piece.body stretches ++ ['>']))))[size (flushed ++ pending)]? =
            some (octet q) := by
        rw [List.append_assoc, octets_head]
        exact (head_octets (quote_ascii hq) _).mpr rfl
      have hstart : size (flushed ++ pending) + 1 = size (flushed ++ pending ++ [q]) := by
        rw [size_append _ [q], size_ascii (quote_ascii hq)]
        rfl
      have hbefore : slice ((flushed ++ pending ++ [q]) ++
          (value ++ q :: (Piece.body stretches ++ ['>']))) (size flushed)
            (size (flushed ++ pending ++ [q])) = .ok (pending ++ [q]) := by
        have hslice := slice_append flushed (pending ++ [q])
          (value ++ q :: (Piece.body stretches ++ ['>']))
        rw [← size_append] at hslice
        simpa only [List.append_assoc] using hslice
      have hslice := slice_append (flushed ++ pending ++ [q]) value
        (q :: (Piece.body stretches ++ ['>']))
      have hend : size (flushed ++ pending ++ [q] ++ value) + 1 =
          size (flushed ++ pending ++ [q] ++ value ++ [q]) := by
        rw [size_append _ [q], size_ascii (quote_ascii hq)]
        rfl
      have hrest : (flushed ++ pending ++ [q] ++ value ++ [q]) ++ (Piece.body stretches ++ ['>']) =
          (flushed ++ pending ++ [q]) ++ (value ++ q :: (Piece.body stretches ++ ['>'])) := by
        simp
      have hwithin : size (flushed ++ pending ++ [q] ++ value) ≤
          size ((flushed ++ pending ++ [q]) ++
            (value ++ q :: (Piece.body stretches ++ ['>']))) := by
        rw [← List.append_assoc _ value, size_append _ (q :: _)]
        exact Nat.le_add_right _ _
      rw [← size_append] at hslice
      rw [htag, rewriteTagAttrsFrom, hhead]
      dsimp only
      rw [if_pos (by rw [isQuoteOctet_octet (quote_ascii hq), hq]), hstart,
        advance_quote hq, (takeWhile_quoted hvalue _).1, hbefore]
      dsimp only [bind, Except.bind]
      rw [Nat.min_eq_left hwithin, hslice]
      dsimp only
      rw [hend, ← hrest, hnext]
      simp [Stretch.mapValue, Stretch.render]

theorem rewriteTagAttrs_octets (map : IdMap) {stretches : List Stretch}
    (h : ∀ stretch ∈ stretches, stretch.WellFormed) (out : Text) :
    rewriteTagAttrs (Piece.render (.tag stretches)) map out =
      .ok (out ++ (Piece.mapValues map.rename (.tag stretches)).render) := by
  have hpass := rewriteTagAttrsFrom_char (c := '<') (by decide) map []
    (Piece.body stretches ++ ['>']) (size (Piece.render (.tag stretches)) + 1) 0 out
  have hrounds : size (Piece.body stretches) + 3 ≤ size (Piece.render (.tag stretches)) + 1 := by
    rw [Piece.render, List.cons_append, size_ascii (by decide), size_append]
    exact Nat.le_refl _
  have hrun := rewriteTagAttrsFrom_stretches map h [] ['<'] out hrounds
  have hlen : size (Piece.render (.tag stretches)) + 2 =
      (String.utf8EncodeChar '<').length + (size (Piece.render (.tag stretches)) + 1) :=
    Nat.add_comm _ 1
  unfold rewriteTagAttrs
  rw [hlen]
  refine hpass.trans (hrun.trans ?_)
  rfl

/-- The pieces before are in the output, or pending. -/
def Rewritten (map : IdMap) (before : List Piece) (s : Rewriting) : Prop :=
  ∃ flushed pending, before.flatMap Piece.render = flushed ++ pending ∧ s.last = size flushed ∧
    s.out ++ pending = (before.map (Piece.mapValues map.rename)).flatMap Piece.render

theorem rewriteTag_octets {map : IdMap} {before more : List Piece} {stretches : List Stretch}
    (h : ∀ stretch ∈ stretches, stretch.WellFormed) {s : Rewriting}
    (rewritten : Rewritten map before s) (tail : Text) :
    ∃ s', Rewritten map (before ++ [.tag stretches]) s' ∧
      rewriteTag ((before ++ .tag stretches :: more).flatMap Piece.render ++ tail) map s
        (size (before.flatMap Piece.render))
        (size (before.flatMap Piece.render ++ '<' :: Piece.body stretches)) = .ok s' := by
  obtain ⟨flushed, pending, hbefore, hlast, hout⟩ := rewritten
  set tag := Piece.render (.tag stretches) with htag
  have hxml : (before ++ .tag stretches :: more).flatMap Piece.render ++ tail =
      before.flatMap Piece.render ++ (tag ++ (more.flatMap Piece.render ++ tail)) := by
    rw [List.flatMap_append, List.flatMap_cons]
    simp only [List.append_assoc]
    rfl
  have hend : size (before.flatMap Piece.render ++ '<' :: Piece.body stretches) + 1 =
      size (before.flatMap Piece.render) + size tag := by
    rw [htag, Piece.render, List.cons_append, size_open, size_ascii (by decide), size_append]
    have hone : size ['>'] = 1 := rfl
    omega
  have hpending : slice (before.flatMap Piece.render ++
      (tag ++ (more.flatMap Piece.render ++ tail))) s.last (size (before.flatMap Piece.render)) =
        .ok pending := by
    rw [hbefore, hlast, size_append, List.append_assoc]
    exact slice_append flushed pending _
  refine ⟨⟨size (before.flatMap Piece.render) + size tag,
    ((before ++ [Piece.tag stretches]).map (Piece.mapValues map.rename)).flatMap Piece.render⟩,
    ?_, ?_⟩
  · refine ⟨before.flatMap Piece.render ++ tag, [], ?_, (size_append _ _).symm,
      List.append_nil _⟩
    rw [List.flatMap_append, List.flatMap_singleton, List.append_nil]
  · unfold rewriteTag
    rw [hxml, hpending, hend]
    dsimp only [bind, Except.bind]
    rw [slice_append]
    dsimp only
    rw [rewriteTagAttrs_octets map h, hout, List.map_append, List.flatMap_append,
      List.map_singleton, List.flatMap_singleton]
    rfl

/-- The text is rewritten, and no slice fails. -/
theorem rewriteIds_octets (xml : Text) (map : IdMap) :
    rewriteIds xml map = .ok (Renumber.rewriteIds xml map) := by
  obtain ⟨pieces, tail, wellFormed, unended, rfl⟩ := exists_takenApart xml
  obtain ⟨s, ⟨flushed, pending, hpieces, hlast, hout⟩, hwalk⟩ :=
    @walk_pieces _ (rewriteTag (pieces.flatMap Piece.render ++ tail) map) pieces tail wellFormed
      unended (Rewritten map)
      (fun before piece s hpiece rewritten => by
        obtain ⟨flushed, pending, hbefore, hlast, hout⟩ := rewritten
        have hkept : piece.mapValues map.rename = piece := by
          cases piece with
          | tag stretches => cases hpiece
          | _ => rfl
        refine ⟨flushed, pending ++ piece.render, ?_, hlast, ?_⟩
        · rw [List.flatMap_append, List.flatMap_singleton, hbefore, List.append_assoc]
        · rw [← List.append_assoc, hout, List.map_append, List.flatMap_append, List.map_singleton,
            List.flatMap_singleton, hkept])
      (fun before stretches more s heq rewritten => by
        have hmem : Piece.tag stretches ∈ pieces :=
          heq ▸ List.mem_append_right _ List.mem_cons_self
        rw [heq]
        exact rewriteTag_octets (wellFormed _ hmem).1 rewritten tail)
      ⟨0, []⟩ ⟨[], [], rfl, rfl, rfl⟩
  have hrest : slice (pieces.flatMap Piece.render ++ tail) s.last
      (size (pieces.flatMap Piece.render ++ tail)) = .ok (pending ++ tail) := by
    rw [hpieces, hlast, List.append_assoc]
    exact slice_rest flushed (pending ++ tail)
  unfold rewriteIds
  rw [hwalk]
  dsimp only [bind, Except.bind]
  rw [hrest, rewriteIds_pieces wellFormed unended, ← hout, List.append_assoc]
  rfl

end KnxRs.OctetScan
