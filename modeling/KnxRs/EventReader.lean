import KnxRs.SignedHashes
import KnxRs.TagReader

set_option autoImplicit false

/-!
# A reader of events

The events of a document. The product code only assumes that its reader reports these; this one
does.
-/
namespace KnxRs.XmlReader
open Texts XmlDocuments XmlScan SourceTrees Hash Sign

/-! ## The events of a document -/

def textEvent (s : Text) : List Event := if s = [] then [] else [.text s]

/-- Character data, with the reference that is being read. -/
def textEventsFrom : (reference : Option Text) → (pending : Text) → Text → List Event
  | none, pending, [] => textEvent pending
  | some _, _, [] => [.failed]
  | none, pending, c :: cs =>
    if c = '&' then textEvent pending ++ textEventsFrom (some []) [] cs
    else textEventsFrom none (pending ++ [c]) cs
  | some name, pending, c :: cs =>
    if c = ';' then .generalRef name :: textEventsFrom none [] cs
    else if c = '&' then [.failed]
    else textEventsFrom (some (name ++ [c])) pending cs

def textEvents (s : Text) : List Event := textEventsFrom none [] s

/-- The events of the tokens, with the character data before them. -/
def eventsFrom : List Token → (pending : Text) → List Event
  | [], pending => textEvents pending
  | .text s :: tokens, pending => eventsFrom tokens (pending ++ s)
  | token :: tokens, pending => textEvents pending ++ eventOf token :: eventsFrom tokens []

def documentEvents (d : Document) : List Event := eventsFrom d.tokens []

def succeeded : Event → Bool
  | .failed => false
  | _ => true

/-- The references in the texts of the document are closed. -/
def Closed (d : Document) : Prop := ∀ event ∈ documentEvents d, succeeded event = true

instance (d : Document) : Decidable (Closed d) := List.decidableBAll _ _

/-- The events of well-formed documents are reported. -/
def Reports (reader : Text → List Event) : Prop :=
  ∀ d : Document, Closed d → reader d.render = documentEvents d

/-! ## The reader -/

def markupEvent (xs : Text) : Event :=
  if "<![CDATA[".toList.isPrefixOf xs then
    .cdata (((splitOnce "]]>".toList (xs.drop 9)).map Prod.fst).getD [])
  else if "</".toList.isPrefixOf xs then .finish else .other

def eventOfTag : TagEvent → Event
  | .start e => .start e
  | .empty e => .empty e
  | .close _ => .finish

/-- The events that are read in at most `rounds` rounds, up to an error. -/
def readEvents : (rounds : Nat) → Text → (pending : Text) → List Event
  | _, [], pending => textEvents pending
  | 0, _ :: _, _ => [.failed]
  | rounds + 1, c :: cs, pending =>
    if c ≠ '<' then readEvents rounds cs (pending ++ [c])
    else textEvents pending ++
      match afterMarkup (c :: cs) with
      | some none => [.failed]
      | some (some rest) => markupEvent (c :: cs) :: readEvents rounds rest []
      | none =>
        match findTagEnd none cs with
        | none => [.failed]
        | some (body, rest) =>
          match parseAttrs body with
          | .error _ => [.failed]
          | .ok attributes => eventOfTag (tagOf body attributes) :: readEvents rounds rest []

def eventReader (xml : Text) : List Event := readEvents xml.length xml []

/-! ## Tokens -/

/-- One token before what is read after it. -/
def eventStep : Token → (Text → List Event) → Text → List Event
  | .text s, events, pending => events (pending ++ s)
  | token, events, pending => textEvents pending ++ eventOf token :: events []

theorem eventsFrom_fold (tokens : List Token) :
    tokens.foldr eventStep textEvents = eventsFrom tokens := by
  induction tokens with
  | nil => rfl
  | cons token tokens ih =>
    rw [List.foldr_cons, ih]
    cases token <;> rfl

theorem readEvents_text {s : Text} (h : '<' ∉ s) (rounds : Nat) (rest : Text) :
    readEvents (s.length + rounds) (s ++ rest) =
      eventStep (.text s) (readEvents rounds rest) := by
  funext pending
  show _ = readEvents rounds rest (pending ++ s)
  induction s generalizing pending with
  | nil =>
    rw [List.length_nil, Nat.zero_add, List.append_nil]
    rfl
  | cons c cs ih =>
    obtain ⟨hc, hcs⟩ := not_or.mp (mt List.mem_cons.mpr h)
    rw [List.length_cons, Nat.add_right_comm, List.cons_append, readEvents, if_pos (Ne.symm hc),
      ih hcs, List.append_assoc, List.singleton_append]

theorem text_not_markup {s : Text} (h : '<' ∉ s) : ¬ IsMarkup (.text s) := by
  intro hmarkup
  obtain ⟨cs, hcs⟩ := hmarkup.head
  have hs : s = '<' :: cs := hcs
  exact h (hs ▸ List.mem_cons_self)

theorem markupEvent_render {token : Token} (h : token.WellFormed) (hmarkup : IsMarkup token)
    (rest : Text) : markupEvent (token.render ++ rest) = eventOf token := by
  cases token with
  | text s => exact absurd hmarkup (text_not_markup h)
  | tag t => cases hmarkup.untagged
  | comment s => rfl
  | instruction s => rfl
  | endTag name spaces => rfl
  | declaration s =>
    obtain ⟨⟨more, rfl⟩, -⟩ := h
    rfl
  | cdata s =>
    have hsplit : splitOnce "]]>".toList (s ++ ("]]>".toList ++ rest)) = some (s, rest) :=
      splitOnce_closed h rest
    have hrender : (Token.cdata s).render ++ rest =
        "<![CDATA[".toList ++ (s ++ ("]]>".toList ++ rest)) := by
      unfold Token.render
      simp only [List.append_assoc]
    rw [hrender]
    show Event.cdata (((splitOnce "]]>".toList (s ++ ("]]>".toList ++ rest))).map _).getD []) = _
    rw [hsplit]
    rfl

theorem eventStep_markup {token : Token} (hmarkup : IsMarkup token) (events : Text → List Event)
    (h : token.WellFormed) (pending : Text) :
    eventStep token events pending = textEvents pending ++ eventOf token :: events [] := by
  cases token with
  | text s => exact absurd hmarkup (text_not_markup h)
  | _ => rfl

theorem readEvents_markup {token : Token} (h : token.WellFormed) (hmarkup : IsMarkup token)
    (rounds : Nat) (rest : Text) : readEvents (rounds + 1) (token.render ++ rest) =
      eventStep token (readEvents rounds rest) := by
  funext pending
  have hafter := afterMarkup_render h hmarkup rest
  have hevent := markupEvent_render h hmarkup rest
  obtain ⟨cs, hcs⟩ := hmarkup.head
  rw [eventStep_markup hmarkup _ h, ← hevent]
  rw [hcs, List.cons_append] at hafter ⊢
  rw [readEvents, if_neg (by decide), hafter]

theorem readEvents_tag {t : Tag} (h : t.WellFormed) (rounds : Nat) (rest : Text) :
    readEvents (rounds + 1) (t.render ++ rest) =
      eventStep (.tag t) (readEvents rounds rest) := by
  funext pending
  have hrender : t.render ++ rest = '<' :: (t.body ++ '>' :: rest) := by
    unfold Tag.render
    rw [List.append_assoc]
    rfl
  have hevent : eventOfTag (tagOf t.body t.element.attributes) = eventOf (.tag t) := by
    rw [tagOf_body h]
    unfold eventOf
    dsimp only
    split_ifs <;> rfl
  rw [hrender, readEvents, if_neg (by decide), afterMarkup_tag h, findTagEnd_closed (body_closed h)]
  dsimp only
  rw [parseAttrs_body h]
  dsimp only
  show _ ++ eventOfTag (tagOf t.body t.element.attributes) :: _ = _
  rw [hevent]
  rfl

/-- The reader reports the events of every document. -/
theorem eventReader_reports : Reports eventReader := by
  intro d _
  have hloop := loop_tokens readEvents eventStep textEvents d.tokens
    (fun rounds => by cases rounds <;> rfl) (fun token htoken rounds rest => ?_) (Nat.le_refl _)
  · show readEvents _ (d.tokens.flatMap Token.render) [] = eventsFrom d.tokens []
    rw [show d.render.length = (d.tokens.flatMap Token.render).length from rfl, hloop,
      eventsFrom_fold]
  · rcases token_cases token with ⟨s, rfl⟩ | ⟨t, rfl⟩ | hmarkup
    · exact ⟨rounds, Nat.le_refl _, readEvents_text (d.wellFormed _ htoken) rounds rest⟩
    · refine ⟨t.body.length + 1 + rounds, Nat.le_add_left _ _, ?_⟩
      rw [show Token.render (.tag t) = t.render from rfl, render_length]
      exact readEvents_tag (d.wellFormed _ htoken) _ _
    · obtain ⟨cs, hcs⟩ := hmarkup.head
      have hlen : token.render.length + rounds = cs.length + rounds + 1 := by
        rw [hcs, List.length_cons, Nat.add_right_comm]
      refine ⟨cs.length + rounds, Nat.le_add_left _ _, ?_⟩
      rw [hlen]
      exact readEvents_markup (d.wellFormed _ htoken) hmarkup _ _

end KnxRs.XmlReader
