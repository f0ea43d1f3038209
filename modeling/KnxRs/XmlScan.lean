import KnxRs.XmlDocuments

set_option autoImplicit false

/-!
# The tag scanner

The open-tag scanner of `xml_scan.rs`, on the text that is left to scan, and what it finds
in a document. Attribute names are read octet by octet, so a slice can fall inside a
character.
-/
namespace KnxRs.XmlScan
open Texts XmlDocuments

/-- `char::is_whitespace`. -/
def isWhitespace (c : Char) : Bool :=
  let n := c.toNat
  (0x09 ≤ n && n ≤ 0x0D) || n = 0x20 || n = 0x85 || n = 0xA0 || n = 0x1680 ||
    (0x2000 ≤ n && n ≤ 0x200A) || n = 0x2028 || n = 0x2029 || n = 0x202F || n = 0x205F || n = 0x3000

/-- `(b as char).is_whitespace()` of an octet. -/
def isOctetSpace (b : UInt8) : Bool := isWhitespace (Char.ofNat b.toNat)

def isQuote (c : Char) : Bool := c = '"' || c = '\''

/-- A slice that does not begin and end between characters. -/
inductive SlicePanic where
  | insideCharacter
  deriving DecidableEq

/-- The text up to the `>` that closes the tag, and the text after it. -/
def findTagEnd : (quote : Option Char) → Text → Option (Text × Text)
  | _, [] => none
  | some q, c :: cs =>
    (findTagEnd (if c = q then none else some q) cs).map fun (body, rest) => (c :: body, rest)
  | none, c :: cs =>
    if c = '>' then some ([], cs)
    else
      (findTagEnd (if isQuote c then some c else none) cs).map fun (body, rest) => (c :: body, rest)

structure OpenTag where
  tag : Text
  body : Text
  deriving DecidableEq

/-- `body.strip_suffix('/').unwrap_or(body)`. -/
def stripSlash (body : Text) : Text :=
  if body.getLast? = some '/' then body.dropLast else body

def tagName (body : Text) : Text := (stripSlash body).takeWhile fun c => !isWhitespace c

/-- The text up to the end of the pattern, and the text after it. -/
def splitAfter (pat xs : Text) : Option (Text × Text) :=
  (splitOnce pat xs).map fun (before, rest) => (before ++ pat, rest)

/-- Where what is not an open element ends: a comment, a CDATA section, or a closing tag,
declaration or processing instruction. -/
def markupEnd (xs : Text) : Option (Option (Text × Text)) :=
  if "<!--".toList.isPrefixOf xs then some (splitAfter "-->".toList xs)
  else if "<![CDATA[".toList.isPrefixOf xs then some (splitAfter "]]>".toList xs)
  else match xs with
    | '<' :: c :: cs =>
      if c = '/' || c = '!' || c = '?' then
        some ((findTagEnd none (c :: cs)).map fun (body, rest) => ('<' :: body ++ ['>'], rest))
      else none
    | _ => none

/-- The markup that is passed over, and the text after it; without an end, all of the text. -/
def skipMarkup (xs : Text) : Option (Text × Text) :=
  (markupEnd xs).map fun found => found.getD (xs, [])

/-- The scanning loop, for at most `rounds` rounds. -/
def openTagsFrom : (rounds : Nat) → Text → List OpenTag
  | 0, _ | _, [] => []
  | rounds + 1, c :: cs =>
    if c ≠ '<' then openTagsFrom rounds cs
    else match skipMarkup (c :: cs) with
      | some (_, rest) => openTagsFrom rounds rest
      | none =>
        match findTagEnd none cs with
        | none => []
        | some (body, rest) => ⟨tagName body, body⟩ :: openTagsFrom rounds rest

/-- Every round passes over at least one character. -/
def openTags (xml : Text) : List OpenTag := openTagsFrom xml.length xml

/-! ## Attributes -/

/-- Whether the octets of the character from its first space on are all spaces; `none` without
a space. -/
def afterSpace (c : Char) : Option Bool :=
  match (String.utf8EncodeChar c).dropWhile (fun b => !isOctetSpace b) with
  | [] => none
  | octets => some (octets.all isOctetSpace)

/-- The text from the first space on that is not part of the tag name. -/
def skipName : Text → Except SlicePanic Text
  | [] => .ok []
  | c :: cs =>
    match afterSpace c with
    | none => skipName cs
    | some true => .ok cs
    | some false => .error .insideCharacter

/-- No octet of a character but an ASCII space begins with a space. -/
def skipSpaces (cs : Text) : Text := cs.dropWhile fun c => c.toNat < 0x80 && isWhitespace c

/-- An attribute name and the text after it. -/
def takeName : Text → Except SlicePanic (Text × Text)
  | [] => .ok ([], [])
  | c :: cs =>
    if c = '=' || (c.toNat < 0x80 && isWhitespace c) then .ok ([], c :: cs)
    else if (afterSpace c).isSome then .error .insideCharacter
    else (takeName cs).map fun (name, rest) => (c :: name, rest)

def parseAttrsFrom : (rounds : Nat) → Text → Except SlicePanic (List (Text × Text))
  | 0, _ | _, [] => .ok []
  | rounds + 1, c :: cs => do
    let (name, rest) ← takeName (skipSpaces (c :: cs))
    match skipSpaces rest with
    | '=' :: rest =>
      match skipSpaces rest with
      | quote :: rest =>
        if isQuote quote then
          match rest.dropWhile fun d => d ≠ quote with
          | [] => .ok []
          | _ :: after =>
            let more ← parseAttrsFrom rounds after
            let value := rest.takeWhile fun d => d ≠ quote
            .ok (if name = [] then more else (name, value) :: more)
        else .ok []
      | [] => .ok []
    | _ => .ok []

def parseAttrs (body : Text) : Except SlicePanic (List (Text × Text)) := do
  let rest ← skipName (stripSlash body)
  parseAttrsFrom rest.length rest

/-! ## The end of a tag -/

def Closed (s : Text) : Prop :=
  ∀ rest, findTagEnd none (s ++ rest) = (findTagEnd none rest).map fun (body, rest) =>
    (s ++ body, rest)

theorem closed_nil : Closed [] := by
  intro rest
  rw [List.nil_append]
  cases findTagEnd none rest <;> rfl

theorem Closed.append {s u : Text} (hs : Closed s) (hu : Closed u) : Closed (s ++ u) := by
  intro rest
  rw [List.append_assoc, hs, hu, Option.map_map]
  refine congrArg (fun f => Option.map f _) (funext fun found => ?_)
  simp

theorem closed_char {c : Char} (hend : c ≠ '>') (hquote : isQuote c = false) : Closed [c] := by
  intro rest
  show findTagEnd none (c :: rest) = _
  rw [findTagEnd, if_neg hend, hquote]
  rfl

theorem closed_plain {s : Text} (h : ∀ c ∈ s, c ≠ '>' ∧ isQuote c = false) : Closed s := by
  induction s with
  | nil => exact closed_nil
  | cons c cs ih =>
    have hc := h c List.mem_cons_self
    exact (closed_char hc.1 hc.2).append (ih fun d hd => h d (List.mem_cons_of_mem c hd))

theorem closed_flatMap {β : Type} {f : β → Text} {xs : List β} (h : ∀ x ∈ xs, Closed (f x)) :
    Closed (xs.flatMap f) :=
  flatMap_keeps closed_nil Closed.append h

theorem findTagEnd_quoted {q : Char} {value : Text} (h : q ∉ value) (rest : Text) :
    findTagEnd (some q) (value ++ q :: rest) =
      (findTagEnd none rest).map fun (body, rest) => (value ++ q :: body, rest) := by
  induction value with
  | nil =>
    show findTagEnd (some q) (q :: rest) = _
    rw [findTagEnd, if_pos rfl]
    rfl
  | cons c cs ih =>
    obtain ⟨hc, hcs⟩ := not_or.mp (mt List.mem_cons.mpr h)
    rw [List.cons_append, findTagEnd, if_neg (Ne.symm hc), ih hcs, Option.map_map]
    rfl

theorem closed_quoted {q : Char} {value : Text} (hq : isQuote q = true) (h : q ∉ value) :
    Closed (q :: value ++ [q]) := by
  intro rest
  have hend : q ≠ '>' := by
    rintro rfl
    cases hq
  have happend : q :: value ++ [q] ++ rest = q :: (value ++ q :: rest) := by simp
  rw [happend, findTagEnd, if_neg hend, if_pos hq, findTagEnd_quoted h, Option.map_map]
  refine congrArg (fun f => Option.map f _) (funext fun found => ?_)
  simp

theorem findTagEnd_closed {s : Text} (h : Closed s) (rest : Text) :
    findTagEnd none (s ++ '>' :: rest) = some (s, rest) := by
  rw [h, findTagEnd, if_pos rfl]
  exact congrArg (fun b => some (b, rest)) (List.append_nil s)

theorem findTagEnd_append {quote : Option Char} {xs body rest : Text}
    (h : findTagEnd quote xs = some (body, rest)) (more : Text) :
    findTagEnd quote (xs ++ more) = some (body, rest ++ more) := by
  induction xs generalizing quote body with
  | nil => cases quote <;> cases h
  | cons c cs ih =>
    rw [List.cons_append]
    cases quote with
    | none =>
      rw [findTagEnd] at h ⊢
      split_ifs at h ⊢ with hend
      · obtain ⟨rfl, rfl⟩ := Prod.mk.inj (Option.some.inj h)
        rfl
      all_goals
        obtain ⟨⟨body', rest'⟩, hs, he⟩ := Option.map_eq_some_iff.mp h
        obtain ⟨rfl, rfl⟩ := Prod.mk.inj he
        rw [ih hs]
        rfl
    | some q =>
      rw [findTagEnd] at h ⊢
      obtain ⟨⟨body', rest'⟩, hs, he⟩ := Option.map_eq_some_iff.mp h
      obtain ⟨rfl, rfl⟩ := Prod.mk.inj he
      rw [ih hs]
      rfl

theorem findTagEnd_mem {quote : Option Char} {xs body rest : Text}
    (h : findTagEnd quote xs = some (body, rest)) : '>' ∈ xs := by
  induction xs generalizing quote body rest with
  | nil => cases quote <;> cases h
  | cons c cs ih =>
    cases quote with
    | none =>
      rw [findTagEnd] at h
      by_cases hend : c = '>'
      · rw [hend]
        exact List.mem_cons_self
      · rw [if_neg hend] at h
        obtain ⟨⟨body', rest'⟩, hs, _⟩ := Option.map_eq_some_iff.mp h
        exact List.mem_cons_of_mem c (ih hs)
    | some q =>
      rw [findTagEnd] at h
      obtain ⟨⟨body', rest'⟩, hs, _⟩ := Option.map_eq_some_iff.mp h
      exact List.mem_cons_of_mem c (ih hs)

/-! ## Markup that is passed over -/

theorem isPrefixOf_append {pat xs : Text} {c : Char} (hpat : c ∉ pat) (hxs : c ∈ xs)
    (more : Text) : pat.isPrefixOf (xs ++ more) = pat.isPrefixOf xs := by
  rw [Bool.eq_iff_iff, List.isPrefixOf_iff_prefix, List.isPrefixOf_iff_prefix]
  constructor
  · intro h
    rcases List.prefix_or_prefix_of_prefix h (List.prefix_append xs more) with h | h
    · exact h
    · exact absurd (h.subset hxs) hpat
  · exact fun h => h.trans (List.prefix_append xs more)

theorem splitAfter_append {pat xs before rest : Text}
    (h : splitAfter pat xs = some (before, rest)) (more : Text) :
    splitAfter pat (xs ++ more) = some (before, rest ++ more) := by
  unfold splitAfter at h ⊢
  obtain ⟨⟨before', rest'⟩, hs, he⟩ := Option.map_eq_some_iff.mp h
  obtain ⟨rfl, rfl⟩ := Prod.mk.inj he
  rw [splitOnce_append hs]
  rfl

theorem splitAfter_mem {c : Char} {pat xs before rest : Text} (hc : c ∈ pat)
    (h : splitAfter pat xs = some (before, rest)) : c ∈ xs := by
  unfold splitAfter at h
  obtain ⟨⟨before', rest'⟩, hs, _⟩ := Option.map_eq_some_iff.mp h
  rw [splitOnce_eq hs]
  exact List.mem_append_left _ (List.mem_append_right _ hc)

theorem markupEnd_append {xs before rest : Text} (h : markupEnd xs = some (some (before, rest)))
    (more : Text) : markupEnd (xs ++ more) = some (some (before, rest ++ more)) := by
  have hend : '>' ∈ xs := by
    unfold markupEnd at h
    split_ifs at h
    · exact splitAfter_mem (by decide) (Option.some.inj h)
    · exact splitAfter_mem (by decide) (Option.some.inj h)
    · split at h
      · split_ifs at h
        obtain ⟨⟨body, rest'⟩, hs, _⟩ := Option.map_eq_some_iff.mp (Option.some.inj h)
        exact List.mem_cons_of_mem _ (findTagEnd_mem hs)
      · cases h
  unfold markupEnd at h ⊢
  rw [isPrefixOf_append (by decide) hend, isPrefixOf_append (by decide) hend]
  split_ifs at h ⊢
  · exact congrArg some (splitAfter_append (Option.some.inj h) more)
  · exact congrArg some (splitAfter_append (Option.some.inj h) more)
  · split at h
    · next c cs _ _ =>
      show (if c = '/' || c = '!' || c = '?' then _ else none) = _
      split_ifs at h ⊢
      obtain ⟨⟨body, rest'⟩, hs, he⟩ := Option.map_eq_some_iff.mp (Option.some.inj h)
      obtain ⟨rfl, rfl⟩ := Prod.mk.inj he
      have happend := findTagEnd_append hs more
      rw [List.cons_append] at happend
      show some ((findTagEnd none (c :: (cs ++ more))).map _) = _
      rw [happend]
      rfl
    · cases h

/-! ## The tags of a document -/

theorem isNameChar_ascii {c : Char} (h : isNameChar c = true) : c.toNat < 0x80 := by
  have h : (((((decide ('A'.val ≤ c.val ∧ c.val ≤ 'Z'.val) ||
      (decide ('a'.val ≤ c.val) && decide (c.val ≤ 'z'.val))) ||
      (decide ('0'.val ≤ c.val) && decide (c.val ≤ '9'.val))) || decide (c = '_')) ||
      decide (c = '-')) || decide (c = '.') || decide (c = ':')) = true := h
  simp only [Bool.or_eq_true, decide_eq_true_eq, Bool.and_eq_true, UInt32.le_iff_toNat_le] at h
  have hval : c.toNat = c.val.toNat := rfl
  rcases h with ((((h | h) | h) | h) | h) | h
  · rw [hval]
    rcases h with h | h <;> exact Nat.lt_of_le_of_lt h.2 (by decide)
  · rw [hval]
    exact Nat.lt_of_le_of_lt h.2 (by decide)
  all_goals
    rw [h]
    decide

theorem nameChar_induction {P : Char → Prop}
    (h : ∀ n, n < 0x80 → isNameChar (Char.ofNat n) = true → P (Char.ofNat n)) {c : Char}
    (hc : isNameChar c = true) : P c := by
  have hofNat : Char.ofNat c.toNat = c := Char.ofNat_toNat c
  have := h c.toNat (isNameChar_ascii hc) (hofNat.symm ▸ hc)
  rwa [hofNat] at this

theorem isNameChar_plain {c : Char} (h : isNameChar c = true) :
    c ≠ '>' ∧ c ≠ '<' ∧ c ≠ '=' ∧ c ≠ '/' ∧ c ≠ '!' ∧ c ≠ '?' ∧ isQuote c = false ∧
      isWhitespace c = false ∧ afterSpace c = none :=
  nameChar_induction (P := fun c => c ≠ '>' ∧ c ≠ '<' ∧ c ≠ '=' ∧ c ≠ '/' ∧ c ≠ '!' ∧ c ≠ '?' ∧
    isQuote c = false ∧ isWhitespace c = false ∧ afterSpace c = none) (by decide +kernel) h

theorem isSpace_cases {c : Char} (h : isSpace c = true) :
    c = ' ' ∨ c = '\t' ∨ c = '\n' ∨ c = '\r' := by
  simpa [isSpace, or_assoc] using h

theorem isSpace_plain {c : Char} (h : isSpace c = true) :
    c ≠ '>' ∧ c ≠ '/' ∧ c ≠ '=' ∧ isQuote c = false ∧ c.toNat < 0x80 ∧ isWhitespace c = true ∧
      afterSpace c = some true := by
  rcases isSpace_cases h with rfl | rfl | rfl | rfl <;> decide

theorem name_closed {s : Text} (h : IsName s) : Closed s :=
  closed_plain fun c hc =>
    have hplain := isNameChar_plain (h.2 c hc)
    ⟨hplain.1, hplain.2.2.2.2.2.2.1⟩

theorem spaces_closed {s : Text} (h : IsSpaces s) : Closed s :=
  closed_plain fun c hc =>
    have hplain := isSpace_plain (h c hc)
    ⟨hplain.1, hplain.2.2.2.1⟩

theorem isQuote_iff {c : Char} : isQuote c = true ↔ c = '"' ∨ c = '\'' := by
  simp [isQuote]

theorem attribute_closed {a : Attribute} (h : a.WellFormed) : Closed a.render := by
  unfold Attribute.render
  have heq : Closed ('=' :: a.afterEq) :=
    (closed_char (by decide) (by decide)).append (spaces_closed h.afterEq)
  have hvalue : Closed (a.quote :: a.value ++ [a.quote]) :=
    closed_quoted (isQuote_iff.mpr h.quote) h.quoted
  have hall := ((((spaces_closed h.before).append (name_closed h.name)).append
    (spaces_closed h.beforeEq)).append heq).append hvalue
  rwa [← List.append_assoc] at hall

theorem body_closed {t : Tag} (h : t.WellFormed) : Closed t.body := by
  unfold Tag.body
  refine (((name_closed h.name).append (closed_flatMap fun a ha =>
    attribute_closed (h.attributes a ha))).append (spaces_closed h.trailing)).append ?_
  split_ifs
  · exact closed_char (by decide) (by decide)
  · exact closed_nil

theorem body_head {t : Tag} (h : t.WellFormed) :
    ∃ c cs, t.body = c :: cs ∧ isNameChar c = true := by
  obtain ⟨hne, hchars⟩ := h.name
  unfold Tag.body
  cases hname : t.name with
  | nil => exact absurd hname hne
  | cons c cs => exact ⟨c, _, rfl, hchars c (hname ▸ List.mem_cons_self)⟩

theorem markupEnd_tag {t : Tag} (h : t.WellFormed) (rest : Text) :
    markupEnd ('<' :: (t.body ++ rest)) = none := by
  obtain ⟨c, cs, hbody, hc⟩ := body_head h
  obtain ⟨_, _, _, hslash, hbang, hquestion, _⟩ := isNameChar_plain hc
  rw [hbody]
  unfold markupEnd
  rw [if_neg, if_neg]
  · show (if c = '/' || c = '!' || c = '?' then _ else none) = _
    simp [hslash, hbang, hquestion]
  all_goals
    intro hp
    obtain ⟨rest, hrest⟩ := List.isPrefixOf_iff_prefix.mp hp
    exact hbang (List.cons.inj (List.cons.inj hrest).2).1.symm

/-- Markup other than tags ends for the scanner where it ends for an XML reader: no comment
begins with `>` or `->`, and instructions have no open quote and no `>` before their end. -/
def EndsInPlace (token : Token) : Prop :=
  match token with
  | .tag _ | .text _ => True
  | token => markupEnd token.render = some (some (token.render, []))

instance : (token : Token) → Decidable (EndsInPlace token)
  | .tag _ | .text _ => isTrue trivial
  | .comment _ | .cdata _ | .instruction _ | .declaration _ | .endTag _ _ =>
    inferInstanceAs (Decidable (_ = _))

def Scannable (doc : Document) : Prop := ∀ token ∈ doc.tokens, EndsInPlace token

instance (doc : Document) : Decidable (Scannable doc) :=
  inferInstanceAs (Decidable (∀ token ∈ doc.tokens, _))

theorem openTagsFrom_text {s : Text} (h : '<' ∉ s) (rounds : Nat) (rest : Text) :
    openTagsFrom (s.length + rounds) (s ++ rest) = openTagsFrom rounds rest := by
  induction s with
  | nil =>
    rw [List.length_nil, Nat.zero_add]
    rfl
  | cons c cs ih =>
    obtain ⟨hc, hcs⟩ := not_or.mp (mt List.mem_cons.mpr h)
    rw [List.length_cons, Nat.add_right_comm, List.cons_append, openTagsFrom,
      if_pos (Ne.symm hc), ih hcs]

structure IsMarkup (token : Token) : Prop where
  untagged : token.tag? = none
  mapValues : ∀ f, token.mapValues f = token
  ends : EndsInPlace token → markupEnd token.render = some (some (token.render, []))
  head : ∃ cs, token.render = '<' :: cs

theorem token_cases (token : Token) :
    (∃ s, token = .text s) ∨ (∃ t, token = .tag t) ∨ IsMarkup token := by
  cases token with
  | text s => exact .inl ⟨s, rfl⟩
  | tag t => exact .inr (.inl ⟨t, rfl⟩)
  | _ => exact .inr (.inr ⟨rfl, fun _ => rfl, fun h => h, _, rfl⟩)

theorem openTagsFrom_markup {token : Token} (h : IsMarkup token) (ends : EndsInPlace token)
    (rounds : Nat) (rest : Text) :
    openTagsFrom (rounds + 1) (token.render ++ rest) = openTagsFrom rounds rest := by
  have hskip := markupEnd_append (h.ends ends) rest
  obtain ⟨cs, hcs⟩ := h.head
  rw [hcs] at hskip ⊢
  rw [List.cons_append] at hskip ⊢
  rw [openTagsFrom, if_neg (by decide)]
  unfold skipMarkup
  rw [hskip]
  rfl

theorem openTagsFrom_tag {t : Tag} (h : t.WellFormed) (rounds : Nat) (rest : Text) :
    openTagsFrom (rounds + 1) (t.render ++ rest) =
      ⟨tagName t.body, t.body⟩ :: openTagsFrom rounds rest := by
  have hrender : t.render ++ rest = '<' :: (t.body ++ '>' :: rest) := by
    unfold Tag.render
    rw [List.append_assoc]
    rfl
  rw [hrender, openTagsFrom, if_neg (by decide)]
  unfold skipMarkup
  rw [markupEnd_tag h, findTagEnd_closed (body_closed h)]
  rfl

theorem render_length (t : Tag) (rounds : Nat) :
    t.render.length + rounds = t.body.length + 1 + rounds + 1 := by
  unfold Tag.render
  rw [List.length_append, List.length_cons, List.length_singleton]
  omega

/-- A loop that takes one token after another, with a round for each character at most. -/
theorem loop_tokens {β : Type} (loop : Nat → Text → β) (step : Token → β → β) (base : β)
    (tokens : List Token) (hnil : ∀ rounds, loop rounds [] = base)
    (hstep : ∀ token ∈ tokens, ∀ rounds rest, ∃ more, rounds ≤ more ∧
      loop (token.render.length + rounds) (token.render ++ rest) = step token (loop more rest))
    {rounds : Nat} (h : (tokens.flatMap Token.render).length ≤ rounds) :
    loop rounds (tokens.flatMap Token.render) = tokens.foldr step base := by
  induction tokens generalizing rounds with
  | nil => exact hnil rounds
  | cons token tokens ih =>
    obtain ⟨htoken, htokens⟩ := List.forall_mem_cons.mp hstep
    rw [List.flatMap_cons, List.length_append] at h
    obtain ⟨left, rfl⟩ := Nat.exists_eq_add_of_le (Nat.le_trans (Nat.le_add_right _ _) h)
    obtain ⟨more, hmore, hloop⟩ := htoken left (tokens.flatMap Token.render)
    rw [List.flatMap_cons, hloop, List.foldr_cons,
      ih htokens (Nat.le_trans (Nat.le_of_add_le_add_left h) hmore)]

theorem openTagsFrom_tokens {tokens : List Token} (wellFormed : ∀ token ∈ tokens, token.WellFormed)
    (scannable : ∀ token ∈ tokens, EndsInPlace token) {rounds : Nat}
    (h : (tokens.flatMap Token.render).length ≤ rounds) :
    openTagsFrom rounds (tokens.flatMap Token.render) =
      (tokens.filterMap Token.tag?).map fun t => ⟨tagName t.body, t.body⟩ := by
  have hloop := loop_tokens openTagsFrom (fun token tags =>
    (token.tag?.map fun t => ⟨tagName t.body, t.body⟩).toList ++ tags) [] tokens
    (fun rounds => by cases rounds <;> rfl) (fun token htoken rounds rest => ?_) h
  · rw [hloop]
    clear wellFormed scannable h hloop
    induction tokens with
    | nil => rfl
    | cons token tokens ih =>
      rw [List.foldr_cons, ih]
      cases token <;> rfl
  · rcases token_cases token with ⟨s, rfl⟩ | ⟨t, rfl⟩ | hmarkup
    · exact ⟨rounds, Nat.le_refl _, openTagsFrom_text (wellFormed _ htoken) rounds rest⟩
    · refine ⟨t.body.length + 1 + rounds, Nat.le_add_left _ _, ?_⟩
      rw [show Token.render (.tag t) = t.render from rfl, render_length]
      exact openTagsFrom_tag (wellFormed _ htoken) _ _
    · obtain ⟨cs, hcs⟩ := hmarkup.head
      have hlen : token.render.length + rounds = cs.length + rounds + 1 := by
        rw [hcs, List.length_cons, Nat.add_right_comm]
      refine ⟨cs.length + rounds, Nat.le_add_left _ _, ?_⟩
      rw [hlen, openTagsFrom_markup hmarkup (scannable _ htoken), hmarkup.untagged]
      rfl

/-! ## Names and attributes of a tag -/

def plainBody (t : Tag) : Text :=
  t.name ++ (t.attributes.flatMap Attribute.render ++ t.trailing)

theorem attributes_last {attributes : List Attribute} (h : attributes ≠ []) (front : Text) :
    ∃ a ∈ attributes, (front ++ attributes.flatMap Attribute.render).getLast? = some a.quote := by
  obtain hnil | ⟨init, a, hattrs⟩ := List.eq_nil_or_concat attributes
  · exact absurd hnil h
  · rw [List.concat_eq_append] at hattrs
    refine ⟨a, hattrs ▸ List.mem_append_right _ List.mem_cons_self, ?_⟩
    rw [hattrs, List.flatMap_append, List.flatMap_singleton]
    unfold Attribute.render
    rw [← List.append_assoc, ← List.append_assoc, List.getLast?_concat]

theorem plainBody_last {t : Tag} (h : t.WellFormed) : (plainBody t).getLast? ≠ some '/' := by
  have spaces {s : Text} (hs : IsSpaces s) : '/' ∉ s := fun hc => absurd (hs _ hc) (by decide)
  have name {s : Text} (hs : IsName s) : '/' ∉ s := fun hc => absurd (hs.2 _ hc) (by decide)
  unfold plainBody
  intro hlast
  rcases List.eq_nil_or_concat t.trailing with htrailing | ⟨init, c, htrailing⟩
  · rw [htrailing, List.append_nil] at hlast
    by_cases hattrs : t.attributes = []
    · rw [hattrs, List.flatMap_nil, List.append_nil] at hlast
      exact name h.name (List.mem_of_getLast? hlast)
    · obtain ⟨a, ha, hquote⟩ := attributes_last hattrs t.name
      have hslash := (h.attributes a ha).quote
      rw [Option.some.inj (hquote.symm.trans hlast)] at hslash
      exact absurd hslash (by decide)
  · rw [List.concat_eq_append] at htrailing
    rw [htrailing, ← List.append_assoc, ← List.append_assoc, List.getLast?_concat] at hlast
    refine spaces h.trailing ?_
    rw [htrailing, Option.some.inj hlast]
    exact List.mem_append_right _ List.mem_cons_self

theorem stripSlash_body {t : Tag} (h : t.WellFormed) : stripSlash t.body = plainBody t := by
  have hbody : t.body = plainBody t ++ if t.selfClosing then ['/'] else [] := by
    unfold Tag.body plainBody
    rw [List.append_assoc t.name]
  unfold stripSlash
  rw [hbody]
  cases t.selfClosing with
  | true => simp
  | false => simp [plainBody_last h]

theorem afterName_cases {t : Tag} (h : t.WellFormed) :
    (t.attributes = [] ∧ t.attributes.flatMap Attribute.render ++ t.trailing = []) ∨
      ∃ c cs, t.attributes.flatMap Attribute.render ++ t.trailing = c :: cs ∧
        isSpace c = true := by
  cases hattrs : t.attributes with
  | nil =>
    rw [List.flatMap_nil, List.nil_append]
    cases htrailing : t.trailing with
    | nil => exact .inl ⟨rfl, rfl⟩
    | cons c cs => exact .inr ⟨c, cs, rfl, h.trailing c (htrailing ▸ List.mem_cons_self)⟩
  | cons a as =>
    have ha := h.attributes a (hattrs ▸ List.mem_cons_self)
    cases hbefore : a.before with
    | nil => exact absurd hbefore ha.apart
    | cons c cs =>
      refine .inr ⟨c, cs ++ a.name ++ a.beforeEq ++ ('=' :: a.afterEq) ++ (a.quote :: a.value) ++
        [a.quote] ++ as.flatMap Attribute.render ++ t.trailing, ?_,
        ha.before c (hbefore ▸ List.mem_cons_self)⟩
      rw [List.flatMap_cons]
      unfold Attribute.render
      rw [hbefore]
      rfl

theorem tagName_body {t : Tag} (h : t.WellFormed) : tagName t.body = t.name := by
  unfold tagName
  rw [stripSlash_body h]
  unfold plainBody
  have hname : ∀ c ∈ t.name, (!isWhitespace c) = true := by
    intro c hc
    rw [(isNameChar_plain (h.name.2 c hc)).2.2.2.2.2.2.2.1]
    rfl
  rw [List.takeWhile_append_of_pos hname]
  rcases afterName_cases h with ⟨_, hrest⟩ | ⟨c, cs, hrest, hc⟩
  · rw [hrest, List.takeWhile_nil, List.append_nil]
  · rw [hrest, List.takeWhile_cons_of_neg, List.append_nil]
    rw [(isSpace_plain hc).2.2.2.2.2.1]
    decide

/-- A space that is one octet. -/
structure Spacing (c : Char) : Prop where
  ascii : c.toNat < 0x80
  space : isWhitespace c = true

theorem ascii_induction {P : Char → Prop} (h : ∀ n, n < 0x80 → P (Char.ofNat n)) {c : Char}
    (hc : c.toNat < 0x80) : P c := by
  have := h c.toNat hc
  rwa [Char.ofNat_toNat] at this

theorem afterSpace_ascii {c : Char} (h : c.toNat < 0x80) :
    afterSpace c = if isWhitespace c then some true else none :=
  ascii_induction (P := fun c => afterSpace c = if isWhitespace c then some true else none)
    (by decide +kernel) h

theorem Spacing.quote {c : Char} (h : Spacing c) : isQuote c = false := by
  cases hquote : isQuote c with
  | false => rfl
  | true =>
    have hspace := h.space
    rcases isQuote_iff.mp hquote with rfl | rfl <;> exact absurd hspace (by decide)

theorem skipSpaces_append {s : Text} (h : ∀ c ∈ s, Spacing c) (rest : Text) :
    skipSpaces (s ++ rest) = skipSpaces rest := by
  unfold skipSpaces
  refine List.dropWhile_append_of_pos fun c hc => ?_
  obtain ⟨hascii, hspace⟩ := h c hc
  rw [hspace, decide_eq_true hascii]
  rfl

theorem clear_plain {c : Char} (h : afterSpace c = none) :
    (decide (c.toNat < 0x80) && isWhitespace c) = false := by
  by_cases hascii : c.toNat < 0x80
  · rw [afterSpace_ascii hascii] at h
    cases hspace : isWhitespace c with
    | true => simp [hspace] at h
    | false => exact Bool.and_false _
  · rw [decide_eq_false hascii]
    rfl

theorem skipSpaces_char {c : Char} (h : afterSpace c = none) (rest : Text) :
    skipSpaces (c :: rest) = c :: rest := by
  refine List.dropWhile_cons_of_neg ?_
  rw [clear_plain h]
  exact Bool.false_ne_true

/-- A character that can stand in the name of an attribute. -/
structure NamePart (c : Char) : Prop where
  clear : afterSpace c = none
  equals : c ≠ '='

theorem takeName_append {s : Text} (h : ∀ c ∈ s, NamePart c) {rest : Text}
    (hrest : takeName rest = .ok ([], rest)) : takeName (s ++ rest) = .ok (s, rest) := by
  induction s with
  | nil => exact hrest
  | cons c cs ih =>
    have hc := h c List.mem_cons_self
    rw [List.cons_append, takeName, clear_plain hc.clear, Bool.or_false,
      decide_eq_false hc.equals, if_neg Bool.false_ne_true, hc.clear,
      ih fun d hd => h d (List.mem_cons_of_mem c hd)]
    rfl

theorem takeName_end {s : Text} (h : ∀ c ∈ s, Spacing c) (rest : Text) :
    takeName (s ++ '=' :: rest) = .ok ([], s ++ '=' :: rest) := by
  cases s with
  | nil =>
    rw [List.nil_append, takeName]
    rfl
  | cons c cs =>
    obtain ⟨hascii, hspace⟩ := h c List.mem_cons_self
    rw [List.cons_append, takeName, hspace, decide_eq_true hascii, Bool.and_true, Bool.or_true,
      if_pos rfl]

theorem takeWhile_quoted {q : Char} {value : Text} (h : q ∉ value) (rest : Text) :
    (value ++ q :: rest).takeWhile (fun d => d ≠ q) = value ∧
      (value ++ q :: rest).dropWhile (fun d => d ≠ q) = q :: rest := by
  have hall : ∀ d ∈ value, (decide (d ≠ q)) = true :=
    fun d hd => decide_eq_true fun he => h (he ▸ hd)
  constructor
  · rw [List.takeWhile_append_of_pos hall, List.takeWhile_cons_of_neg (by simp), List.append_nil]
  · rw [List.dropWhile_append_of_pos hall, List.dropWhile_cons_of_neg (by simp)]

/-! ## Quotes that delimit values -/

/-- What the scanner takes for `name="value"`, also without a name. -/
structure Scanned (a : Attribute) : Prop where
  before : ∀ c ∈ a.before, Spacing c
  name : ∀ c ∈ a.name, NamePart c
  beforeEq : ∀ c ∈ a.beforeEq, Spacing c
  afterEq : ∀ c ∈ a.afterEq, Spacing c
  quote : isQuote a.quote = true
  quoted : a.quote ∉ a.value

structure Delimited (a : Attribute) : Prop extends Scanned a where
  unquoted : ∀ c ∈ a.name, isQuote c = false

/-- A tag in which every quote delimits an attribute value. -/
structure DelimitedTag (t : Tag) : Prop where
  name : ∀ c ∈ t.name, c.toNat < 0x80 ∧ isWhitespace c = false ∧ isQuote c = false
  apart : ∀ a ∈ t.attributes.head?, a.before ≠ []
  attributes : ∀ a ∈ t.attributes, Delimited a
  trailing : ∀ c ∈ t.trailing, c.toNat < 0x80 ∧ isQuote c = false

theorem spaces_spacing {s : Text} (h : IsSpaces s) : ∀ c ∈ s, Spacing c := fun c hc =>
  have hplain := isSpace_plain (h c hc)
  ⟨hplain.2.2.2.2.1, hplain.2.2.2.2.2.1⟩

theorem attribute_delimited {a : Attribute} (h : a.WellFormed) : Delimited a where
  before := spaces_spacing h.before
  name c hc :=
    have hplain := isNameChar_plain (h.name.2 c hc)
    ⟨hplain.2.2.2.2.2.2.2.2, hplain.2.2.1⟩
  beforeEq := spaces_spacing h.beforeEq
  afterEq := spaces_spacing h.afterEq
  quote := isQuote_iff.mpr h.quote
  quoted := h.quoted
  unquoted c hc := (isNameChar_plain (h.name.2 c hc)).2.2.2.2.2.2.1

theorem tag_delimited {t : Tag} (h : t.WellFormed) : DelimitedTag t where
  name c hc :=
    have hplain := isNameChar_plain (h.name.2 c hc)
    ⟨isNameChar_ascii (h.name.2 c hc), hplain.2.2.2.2.2.2.2.1, hplain.2.2.2.2.2.2.1⟩
  apart a ha := (h.attributes a (List.mem_of_mem_head? ha)).apart
  attributes a ha := attribute_delimited (h.attributes a ha)
  trailing c hc :=
    have hplain := isSpace_plain (h.trailing c hc)
    ⟨hplain.2.2.2.2.1, hplain.2.2.2.1⟩

theorem takeName_attribute {a : Attribute} (h : Scanned a) (xs : Text) :
    ∃ rest, takeName (skipSpaces (a.before ++ (a.name ++ (a.beforeEq ++ '=' :: xs)))) =
      .ok (a.name, rest) ∧ skipSpaces rest = '=' :: xs := by
  have hequals : skipSpaces ('=' :: xs) = '=' :: xs := skipSpaces_char (by decide) xs
  rw [skipSpaces_append h.before]
  cases hname : a.name with
  | nil =>
    rw [List.nil_append, skipSpaces_append h.beforeEq, hequals]
    exact ⟨'=' :: xs, takeName_end (s := []) (fun _ h => absurd h List.not_mem_nil) xs, hequals⟩
  | cons c cs =>
    have hc : NamePart c := h.name c (hname ▸ List.mem_cons_self)
    refine ⟨a.beforeEq ++ '=' :: xs, ?_, by rw [skipSpaces_append h.beforeEq, hequals]⟩
    rw [List.cons_append, skipSpaces_char hc.clear, ← List.cons_append, ← hname]
    exact takeName_append h.name (takeName_end h.beforeEq xs)

theorem parseAttrsFrom_spaces (rounds : Nat) {xs ys : Text} (h : skipSpaces xs = skipSpaces ys) :
    parseAttrsFrom rounds xs = parseAttrsFrom rounds ys := by
  have hempty {zs : Text} (hzs : skipSpaces zs = []) (rounds : Nat) :
      parseAttrsFrom (rounds + 1) zs = .ok [] := by
    cases zs with
    | nil => rfl
    | cons c cs =>
      rw [parseAttrsFrom, hzs]
      rfl
  cases rounds with
  | zero => rfl
  | succ rounds =>
    cases xs with
    | nil => rw [hempty rfl, hempty h.symm]
    | cons c cs =>
      cases ys with
      | nil => rw [hempty h, hempty rfl]
      | cons d ds => rw [parseAttrsFrom, parseAttrsFrom, h]

theorem parseAttrsFrom_attribute {a : Attribute} (h : Scanned a) (rounds : Nat) (rest : Text) :
    parseAttrsFrom (rounds + 1) (a.render ++ rest) = (parseAttrsFrom rounds rest).map fun more =>
      if a.name = [] then more else a.pair :: more := by
  have hrender : a.render ++ rest = a.before ++ (a.name ++ (a.beforeEq ++ '=' ::
      (a.afterEq ++ a.quote :: (a.value ++ a.quote :: rest)))) := by
    unfold Attribute.render
    simp only [List.append_assoc, List.cons_append, List.nil_append]
  have hplain : afterSpace a.quote = none := by
    rcases isQuote_iff.mp h.quote with hq | hq <;> rw [hq] <;> decide
  obtain ⟨after, htake, hskip⟩ :=
    takeName_attribute h (a.afterEq ++ a.quote :: (a.value ++ a.quote :: rest))
  rw [← hrender] at htake
  obtain ⟨hvalue, hdrop⟩ := takeWhile_quoted h.quoted rest
  cases hxs : a.render ++ rest with
  | nil =>
    rw [hxs] at htake
    obtain ⟨_, rfl⟩ := Prod.mk.inj (Except.ok.inj htake)
    cases hskip
  | cons c cs =>
    rw [parseAttrsFrom, ← hxs, htake]
    dsimp only [bind, Except.bind]
    rw [hskip]
    simp only
    rw [skipSpaces_append h.afterEq, skipSpaces_char hplain]
    dsimp only
    rw [if_pos h.quote, hdrop]
    dsimp only
    rw [hvalue]
    cases parseAttrsFrom rounds rest <;> rfl

theorem takeName_ascii {xs : Text} (h : ∀ c ∈ xs, c.toNat < 0x80) :
    ∃ name rest, takeName xs = .ok (name, rest) ∧ rest ⊆ xs := by
  induction xs with
  | nil => exact ⟨[], [], rfl, List.Subset.refl _⟩
  | cons c cs ih =>
    obtain ⟨hc, hcs⟩ := List.forall_mem_cons.mp h
    rw [takeName]
    split_ifs with hend hspace
    · exact ⟨[], c :: cs, rfl, List.Subset.refl _⟩
    · simp only [decide_eq_true hc, Bool.true_and, Bool.or_eq_true, not_or] at hend
      rw [afterSpace_ascii hc, if_neg hend.2] at hspace
      cases hspace
    · obtain ⟨name, rest, htake, hrest⟩ := ih hcs
      exact ⟨c :: name, rest, by rw [htake]; rfl, List.subset_cons_of_subset c hrest⟩

theorem skipSpaces_subset (xs : Text) : skipSpaces xs ⊆ xs := (List.dropWhile_sublist _).subset

theorem parseAttrsFrom_bare {xs : Text} (h : ∀ c ∈ xs, c.toNat < 0x80 ∧ isQuote c = false)
    (rounds : Nat) : parseAttrsFrom rounds xs = .ok [] := by
  cases rounds with
  | zero => rfl
  | succ rounds =>
    cases xs with
    | nil => rfl
    | cons c cs =>
      have hspaces := skipSpaces_subset (c :: cs)
      obtain ⟨name, rest, htake, hrest⟩ := takeName_ascii fun d hd => (h d (hspaces hd)).1
      rw [parseAttrsFrom, htake]
      dsimp only [bind, Except.bind]
      split
      · next more hequals =>
        split
        · next quote after hquote =>
          have hmore : more ⊆ rest := fun d hd =>
            skipSpaces_subset rest (hequals ▸ List.mem_cons_of_mem _ hd)
          have hmem : quote ∈ more := skipSpaces_subset more (hquote ▸ List.mem_cons_self)
          rw [(h quote (hspaces (hrest (hmore hmem)))).2, if_neg Bool.false_ne_true]
        · rfl
      · rfl

theorem parseAttrsFrom_attributes {attributes : List Attribute}
    (h : ∀ a ∈ attributes, Delimited a) {trailing : Text}
    (htrailing : ∀ c ∈ trailing, c.toNat < 0x80 ∧ isQuote c = false) {rounds : Nat}
    (hrounds : attributes.length ≤ rounds) :
    parseAttrsFrom rounds (attributes.flatMap Attribute.render ++ trailing) =
      .ok ((attributes.filter fun a => a.name ≠ []).map Attribute.pair) := by
  induction attributes generalizing rounds with
  | nil => exact parseAttrsFrom_bare htrailing rounds
  | cons a as ih =>
    obtain ⟨ha, has⟩ := List.forall_mem_cons.mp h
    cases rounds with
    | zero => exact absurd hrounds (Nat.not_succ_le_zero _)
    | succ rounds =>
      rw [List.flatMap_cons, List.append_assoc, parseAttrsFrom_attribute ha.toScanned,
        ih has (Nat.le_of_succ_le_succ hrounds), List.filter_cons]
      by_cases hname : a.name = []
      · simp [hname, Except.map]
      · simp [hname, Except.map]

theorem skipName_append {s : Text} (h : ∀ c ∈ s, c.toNat < 0x80 ∧ isWhitespace c = false)
    (rest : Text) : skipName (s ++ rest) = skipName rest := by
  induction s with
  | nil => rfl
  | cons c cs ih =>
    obtain ⟨⟨hascii, hspace⟩, hcs⟩ := List.forall_mem_cons.mp h
    rw [List.cons_append, skipName, afterSpace_ascii hascii, hspace]
    exact ih hcs

theorem skipName_ascii {xs : Text} (h : ∀ c ∈ xs, c.toNat < 0x80) :
    ∃ rest, skipName xs = .ok rest ∧ rest ⊆ xs := by
  induction xs with
  | nil => exact ⟨[], rfl, List.Subset.refl _⟩
  | cons c cs ih =>
    obtain ⟨hc, hcs⟩ := List.forall_mem_cons.mp h
    rw [skipName, afterSpace_ascii hc]
    cases isWhitespace c with
    | true => exact ⟨cs, rfl, List.subset_cons_self c cs⟩
    | false =>
      obtain ⟨rest, hskip, hrest⟩ := ih hcs
      exact ⟨rest, hskip, List.subset_cons_of_subset c hrest⟩

theorem attributes_length (attributes : List Attribute) :
    2 * attributes.length ≤ (attributes.flatMap Attribute.render).length := by
  induction attributes with
  | nil => exact Nat.le_refl _
  | cons a as ih =>
    have ha : 2 ≤ a.render.length := by
      unfold Attribute.render
      simp only [List.length_append, List.length_cons]
      omega
    rw [List.flatMap_cons, List.length_append, List.length_cons]
    omega

theorem stripSlash_subset (body : Text) : stripSlash body ⊆ body := by
  unfold stripSlash
  split_ifs
  · exact (List.dropLast_sublist body).subset
  · exact List.Subset.refl body

theorem stripSlash_append {front : Text} (h : front.getLast? ≠ some '/') (ending : Text) :
    stripSlash (front ++ ending) = front ++ stripSlash ending := by
  unfold stripSlash
  cases ending with
  | nil => simp [h]
  | cons c cs =>
    rw [List.getLast?_append_of_ne_nil _ (List.cons_ne_nil c cs),
      List.dropLast_append_of_ne_nil (List.cons_ne_nil c cs)]
    split_ifs <;> rfl

theorem stripSlash_tag {t : Tag} (h : DelimitedTag t) (hne : t.attributes ≠ []) :
    stripSlash t.body = t.name ++ t.attributes.flatMap Attribute.render ++
      stripSlash (t.trailing ++ if t.selfClosing then ['/'] else []) := by
  unfold Tag.body
  rw [List.append_assoc (t.name ++ _)]
  refine stripSlash_append ?_ _
  obtain ⟨a, ha, hlast⟩ := attributes_last hne t.name
  intro hslash
  have hquote := (h.attributes a ha).quote
  rw [Option.some.inj (hlast.symm.trans hslash)] at hquote
  exact absurd hquote (by decide)

theorem ending_bare {t : Tag} (h : DelimitedTag t) :
    ∀ c ∈ t.trailing ++ (if t.selfClosing then ['/'] else []),
      c.toNat < 0x80 ∧ isQuote c = false := by
  simp only [List.forall_mem_append]
  refine ⟨h.trailing, ?_⟩
  split_ifs
  · exact List.forall_mem_cons.mpr ⟨by decide, fun _ h => absurd h List.not_mem_nil⟩
  · exact fun _ h => absurd h List.not_mem_nil

theorem afterName_space {t : Tag} (h : DelimitedTag t) (hne : t.attributes ≠ [])
    (ending : Text) : ∃ c rest, t.attributes.flatMap Attribute.render ++ ending = c :: rest ∧
      Spacing c := by
  obtain ⟨a, as, hattrs⟩ := List.exists_cons_of_ne_nil hne
  have hbefore : a.before ≠ [] := h.apart a (by simp [hattrs])
  obtain ⟨c, cs, hcs⟩ := List.exists_cons_of_ne_nil hbefore
  have ha := h.attributes a (hattrs ▸ List.mem_cons_self)
  refine ⟨c, cs ++ a.name ++ a.beforeEq ++ ('=' :: a.afterEq) ++ (a.quote :: a.value) ++
    [a.quote] ++ as.flatMap Attribute.render ++ ending, ?_, ha.before c (hcs ▸ List.mem_cons_self)⟩
  rw [hattrs, List.flatMap_cons]
  unfold Attribute.render
  rw [hcs]
  rfl

/-- The attributes of a tag are read as they are written, except those without a name. -/
theorem parseAttrs_delimited {t : Tag} (h : DelimitedTag t) :
    parseAttrs t.body =
      .ok ((t.attributes.filter fun a => a.name ≠ []).map Attribute.pair) := by
  unfold parseAttrs
  cases hattrs : t.attributes with
  | nil =>
    have hbody : ∀ c ∈ t.body, c.toNat < 0x80 ∧ isQuote c = false := by
      unfold Tag.body
      rw [hattrs, List.flatMap_nil, List.append_nil, List.append_assoc]
      exact List.forall_mem_append.mpr
        ⟨fun c hc => ⟨(h.name c hc).1, (h.name c hc).2.2⟩, ending_bare h⟩
    have hbare := fun c hc => hbody c (stripSlash_subset t.body hc)
    obtain ⟨rest, hskip, hrest⟩ := skipName_ascii fun c hc => (hbare c hc).1
    rw [hskip]
    exact parseAttrsFrom_bare (fun c hc => hbare c (hrest hc)) _
  | cons a as =>
    have hne : t.attributes ≠ [] := hattrs ▸ List.cons_ne_nil a as
    have hname : ∀ c ∈ t.name, c.toNat < 0x80 ∧ isWhitespace c = false :=
      fun c hc => ⟨(h.name c hc).1, (h.name c hc).2.1⟩
    rw [stripSlash_tag h hne, List.append_assoc, skipName_append hname, ← hattrs]
    set ending := stripSlash (t.trailing ++ if t.selfClosing then ['/'] else [])
    have hending : ∀ c ∈ ending, c.toNat < 0x80 ∧ isQuote c = false :=
      fun c hc => ending_bare h c (stripSlash_subset _ hc)
    obtain ⟨c, rest, hrest, hc⟩ := afterName_space h hne ending
    have hlen : t.attributes.length ≤ rest.length := by
      have htotal := congrArg List.length hrest
      have := attributes_length t.attributes
      simp only [List.length_append, List.length_cons] at htotal
      have := List.length_pos_iff.mpr hne
      omega
    have hskip :
        skipSpaces rest = skipSpaces (t.attributes.flatMap Attribute.render ++ ending) := by
      rw [hrest]
      exact (skipSpaces_append (s := [c]) (by simpa using hc) rest).symm
    rw [hrest, skipName, afterSpace_ascii hc.ascii, hc.space]
    exact (parseAttrsFrom_spaces rest.length hskip).trans
      (parseAttrsFrom_attributes h.attributes hending hlen)

theorem tagName_delimited {t : Tag} (h : DelimitedTag t) (hne : t.attributes ≠ []) :
    tagName t.body = t.name := by
  obtain ⟨c, rest, hrest, hc⟩ := afterName_space h hne
    (stripSlash (t.trailing ++ if t.selfClosing then ['/'] else []))
  have hname : ∀ c ∈ t.name, (!isWhitespace c) = true := by
    intro c hc
    rw [(h.name c hc).2.1]
    rfl
  unfold tagName
  rw [stripSlash_tag h hne, List.append_assoc, List.takeWhile_append_of_pos hname, hrest,
    List.takeWhile_cons_of_neg, List.append_nil]
  rw [hc.space]
  decide

theorem parseAttrs_body {t : Tag} (h : t.WellFormed) :
    parseAttrs t.body = .ok (t.attributes.map Attribute.pair) := by
  rw [parseAttrs_delimited (tag_delimited h), List.filter_eq_self.mpr fun a ha =>
    decide_eq_true (h.attributes a ha).name.1]

/-- What a consumer of the scanner reads: the name and the attributes of every open tag. -/
def scan (xml : Text) : Except SlicePanic (List Element) :=
  (openTags xml).mapM fun t => (parseAttrs t.body).map fun attributes => ⟨t.tag, attributes⟩

/-- The scanner reads the elements of a document. -/
theorem scan_render (doc : Document) (scannable : Scannable doc) :
    scan doc.render = .ok doc.elements := by
  unfold scan openTags Document.render
  rw [openTagsFrom_tokens doc.wellFormed scannable (Nat.le_refl _)]
  show (doc.tags.map _).mapM _ = Except.ok (doc.tags.map Tag.element)
  have hread : ∀ tags : List Tag, (∀ t ∈ tags, t.WellFormed) →
      (tags.map fun t => (⟨tagName t.body, t.body⟩ : OpenTag)).mapM (fun t =>
        (parseAttrs t.body).map fun attributes => (⟨t.tag, attributes⟩ : Element)) =
          Except.ok (tags.map Tag.element) := by
    intro tags h
    induction tags with
    | nil => rfl
    | cons t tags ih =>
      have ht := h t List.mem_cons_self
      rw [List.map_cons, List.mapM_cons, parseAttrs_body ht, tagName_body ht,
        ih fun x hx => h x (List.mem_cons_of_mem t hx)]
      rfl
  exact hread doc.tags fun t ht => doc.tag_wellFormed ht

end KnxRs.XmlScan
