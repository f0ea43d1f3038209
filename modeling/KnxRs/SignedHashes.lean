import KnxRs.AuthoredDocuments
import KnxRs.SignedNames
import KnxRs.TextSearch

set_option autoImplicit false

/-!
# The hash of a signed application program

The hash is written over the value that the first match of a pattern finds in the text of the
document, whatever that is a part of.
-/
namespace KnxRs.Sign
open Texts XmlDocuments Patterns Codecs

/-! ## The value in the document -/

def splitFirst {α : Type} (p : α → Bool) : List α → Option (List α × α × List α)
  | [] => none
  | x :: xs =>
    if p x then some ([], x, xs)
    else (splitFirst p xs).map fun (before, found, after) => (x :: before, found, after)

def isHash (a : Attribute) : Bool := a.name = "Hash".toList

def isProgram (t : Tag) : Bool := Renumber.localName t.name = "ApplicationProgram".toList

def hashInTag (t : Tag) : Option (Text × Text × Text) :=
  (splitFirst isHash t.attributes).map fun (before, a, after) =>
    ('<' :: (t.name ++ before.flatMap Attribute.render ++ a.before ++ a.name ++ a.beforeEq ++
        '=' :: a.afterEq ++ [a.quote]),
      a.value,
      a.quote :: (after.flatMap Attribute.render ++ t.trailing ++
        (if t.selfClosing then ['/'] else []) ++ ['>']))

/-- The hash of the first application program of the tokens. -/
def hashInTokens : List Token → Option (Text × Text × Text)
  | [] => none
  | token :: tokens =>
    match token.tag?.filter isProgram with
    | some t => (hashInTag t).map fun (before, value, rest) =>
        (before, value, rest ++ tokens.flatMap Token.render)
    | none => (hashInTokens tokens).map fun (before, value, rest) =>
        (token.render ++ before, value, rest)

def hashIn (d : Document) : Option (Text × Text × Text) := hashInTokens d.tokens

theorem splitFirst_eq {α : Type} {p : α → Bool} {xs before after : List α} {found : α}
    (h : splitFirst p xs = some (before, found, after)) :
    xs = before ++ found :: after ∧ p found = true := by
  induction xs generalizing before with
  | nil => cases h
  | cons x xs ih =>
    unfold splitFirst at h
    split_ifs at h with hx
    · cases h
      exact ⟨rfl, hx⟩
    · obtain ⟨⟨before', found', after'⟩, hm, he⟩ := Option.map_eq_some_iff.mp h
      cases he
      obtain ⟨rfl, hfound⟩ := ih hm
      exact ⟨rfl, hfound⟩

/-- A value in quotes: the text up to it ends with a quote that closes it again. -/
structure Quoted (s before value rest : Text) : Prop where
  parts : s = before ++ value ++ rest
  quotes : ∃ q start tail, (q = '"' ∨ q = '\'') ∧ before = start ++ [q] ∧ rest = q :: tail ∧
    q ∉ value

theorem hashInTag_quoted {t : Tag} (h : t.WellFormed) {before value rest : Text}
    (found : hashInTag t = some (before, value, rest)) : Quoted t.render before value rest := by
  obtain ⟨⟨as, a, bs⟩, hsplit, he⟩ := Option.map_eq_some_iff.mp found
  obtain ⟨hattributes, -⟩ := splitFirst_eq hsplit
  cases he
  have ha := h.attributes a (hattributes ▸ List.mem_append_right _ List.mem_cons_self)
  refine ⟨?_, a.quote, _, _, ha.quote, (List.cons_append ..).symm, rfl, ha.quoted⟩
  unfold Tag.render Tag.body
  rw [hattributes, List.flatMap_append, List.flatMap_cons]
  unfold Attribute.render
  simp

theorem hashInTokens_quoted {tokens : List Token} (h : ∀ token ∈ tokens, token.WellFormed)
    {before value rest : Text} (found : hashInTokens tokens = some (before, value, rest)) :
    Quoted (tokens.flatMap Token.render) before value rest := by
  induction tokens generalizing before with
  | nil => cases found
  | cons token tokens ih =>
    unfold hashInTokens at found
    rw [List.flatMap_cons]
    split at found
    · next t ht =>
      obtain ⟨⟨b, v, r⟩, htag, he⟩ := Option.map_eq_some_iff.mp found
      cases he
      cases token with
      | tag t' =>
        obtain rfl : t' = t := Option.some.inj (Option.filter_eq_some_iff.mp ht).1
        obtain ⟨hparts, q, start, tail, hq, hb, hr, hv⟩ :=
          hashInTag_quoted (h _ List.mem_cons_self) htag
        refine ⟨?_, q, start, tail ++ tokens.flatMap Token.render, hq, hb, ?_, hv⟩
        · show t'.render ++ _ = _
          rw [hparts, List.append_assoc]
        · rw [hr, List.cons_append]
      | _ => cases ht
    · obtain ⟨⟨b, v, r⟩, htokens, he⟩ := Option.map_eq_some_iff.mp found
      cases he
      obtain ⟨hparts, q, start, tail, hq, rfl, hr, hv⟩ :=
        ih (fun token ht => h token (List.mem_cons_of_mem _ ht)) htokens
      refine ⟨?_, q, token.render ++ start, tail, hq, (List.append_assoc ..).symm, hr, hv⟩
      rw [hparts]
      simp

/-! ## The value that is found -/

theorem takeHash_eq {s value rest : Text} (h : takeHash s = some (value, rest)) :
    s = hashAttribute ++ value ++ rest ∧ '"' ∉ value ∧ ∃ tail, rest = '"' :: tail := by
  unfold takeHash at h
  split_ifs at h with hstart
  obtain ⟨t, rfl⟩ := List.isPrefixOf_iff_prefix.mp hstart
  rw [List.drop_left] at h
  split at h
  · cases h
  · next quote tail hdrop =>
    obtain ⟨rfl, rfl⟩ := Prod.mk.inj (Option.some.inj h)
    have hquote : quote = '"' := by
      have hhead := List.head?_dropWhile_not (fun c : Char => decide (c ≠ '"')) t
      rw [hdrop] at hhead
      simpa using hhead
    refine ⟨?_, ?_, tail, hquote ▸ rfl⟩
    · rw [List.append_assoc, ← hdrop, List.takeWhile_append_dropWhile]
    · intro hmem
      have hkept := List.all_eq_true.mp List.all_takeWhile '"' hmem
      cases hkept

theorem findHash_eq {s skipped value rest : Text} (h : findHash s = some (skipped, value, rest)) :
    s = skipped ++ hashAttribute ++ value ++ rest ∧ '"' ∉ value ∧ ∃ tail, rest = '"' :: tail := by
  induction s generalizing skipped with
  | nil => cases h
  | cons c s ih =>
    unfold findHash at h
    split at h
    · next found hfound =>
      cases h
      exact takeHash_eq hfound
    · split_ifs at h
      obtain ⟨⟨skipped', value', rest'⟩, hm, he⟩ := Option.map_eq_some_iff.mp h
      cases he
      obtain ⟨rfl, hvalue, hrest⟩ := ih hm
      exact ⟨rfl, hvalue, hrest⟩

theorem hashPlace_quoted {s before value rest : Text}
    (h : hashPlace s = some (before, value, rest)) : Quoted s before value rest := by
  induction s generalizing before with
  | nil => cases h
  | cons c s ih =>
    unfold hashPlace at h
    split at h
    · next skipped found following hfound =>
      cases h
      split_ifs at hfound with hstart
      obtain ⟨t, ht⟩ := List.isPrefixOf_iff_prefix.mp hstart
      rw [← ht, List.drop_left] at hfound
      obtain ⟨rfl, hvalue, tail, rfl⟩ := findHash_eq hfound
      refine ⟨?_, '"', programTag ++ skipped ++ "Hash=".toList, tail, .inl rfl, ?_, rfl, hvalue⟩
      · rw [← ht]
        simp
      · exact (List.append_assoc (programTag ++ skipped) "Hash=".toList ['"']).symm
    · obtain ⟨⟨before', value', rest'⟩, hm, he⟩ := Option.map_eq_some_iff.mp h
      cases he
      obtain ⟨hparts, q, start, tail, hq, rfl, hr, hv⟩ := ih hm
      exact ⟨congrArg (c :: ·) hparts, q, c :: start, tail, hq, rfl, hr, hv⟩

theorem takeHash_append {value tail : Text} (hvalue : '"' ∉ value) :
    takeHash (hashAttribute ++ (value ++ '"' :: tail)) = some (value, '"' :: tail) := by
  have hstart : hashAttribute.isPrefixOf (hashAttribute ++ (value ++ '"' :: tail)) = true :=
    List.isPrefixOf_iff_prefix.mpr (List.prefix_append _ _)
  have hkeep : ∀ c ∈ value, decide (c ≠ '"') = true := by
    intro c hc
    simp only [decide_eq_true_eq]
    rintro rfl
    exact hvalue hc
  unfold takeHash
  rw [if_pos hstart, List.drop_left, List.dropWhile_append_of_pos hkeep,
    List.takeWhile_append_of_pos hkeep]
  simp

theorem findHash_found {s value rest : Text} (h : takeHash s = some (value, rest)) :
    findHash s = some ([], value, rest) := by
  cases s with
  | nil => cases h
  | cons c s =>
    unfold findHash
    rw [h]

theorem takeHash_cons {c d : Char} {skipped s : Text} (hd : d ∉ hashAttribute.tail)
    (alone : ¬ hashAttribute <:+: c :: skipped) : takeHash (c :: (skipped ++ d :: s)) = none := by
  unfold takeHash
  rw [TextSearch.isPrefixOf_append hd]
  exact if_neg fun hp => alone (List.isPrefixOf_iff_prefix.mp hp).isInfix

theorem findHash_append {skipped value tail : Text} (hvalue : '"' ∉ value) (inside : '>' ∉ skipped)
    (alone : ¬ hashAttribute <:+: skipped) :
    findHash (skipped ++ (hashAttribute ++ (value ++ '"' :: tail))) =
      some (skipped, value, '"' :: tail) := by
  induction skipped with
  | nil => exact findHash_found (takeHash_append hvalue)
  | cons c skipped ih =>
    simp only [List.mem_cons, not_or] at inside
    have hno : takeHash (c :: (skipped ++ (hashAttribute ++ (value ++ '"' :: tail)))) = none :=
      takeHash_cons (by decide) alone
    rw [List.cons_append]
    unfold findHash
    rw [hno]
    dsimp only
    rw [if_neg (Ne.symm inside.1), ih inside.2 fun h => alone (List.infix_cons h)]
    rfl

theorem findHash_closed {tag more : Text} (alone : ¬ hashAttribute <:+: tag) :
    findHash (tag ++ '>' :: more) = none := by
  induction tag with
  | nil => rfl
  | cons c tag ih =>
    rw [List.cons_append]
    unfold findHash
    rw [takeHash_cons (by decide) alone, ih fun h => alone (List.infix_cons h)]
    exact ite_self none

theorem hashPlace_found {t skipped value rest : Text}
    (h : findHash t = some (skipped, value, rest)) :
    hashPlace (programTag ++ t) = some (programTag ++ skipped ++ hashAttribute, value, rest) := by
  have hstart : programTag.isPrefixOf (programTag ++ t) = true :=
    List.isPrefixOf_iff_prefix.mpr (List.prefix_append _ _)
  have hdrop : (programTag ++ t).drop programTag.length = t := List.drop_left
  generalize programTag ++ t = s at hstart hdrop
  cases s with
  | nil => exact absurd hstart (by decide)
  | cons c s =>
    unfold hashPlace
    rw [if_pos hstart, hdrop, h]

theorem hashPlace_later {c : Char} {s before value rest : Text}
    (closed : programTag.isPrefixOf (c :: s) = true →
      findHash ((c :: s).drop programTag.length) = none)
    (later : hashPlace s = some (before, value, rest)) :
    hashPlace (c :: s) = some (c :: before, value, rest) := by
  unfold hashPlace
  split_ifs with hp
  · rw [closed hp, later]
    rfl
  · rw [later]
    rfl

/-- The hash of the program is the value that is found, if it is in double quotes, its tag has no
    other such attribute before it, and each tag of the name that begins before ends without one,
    as that of the list of the programs does. -/
theorem hashPlace_of_text {d : Document} {start skipped value rest : Text}
    (found : hashIn d = some (start ++ programTag ++ skipped ++ hashAttribute, value, rest))
    (first : ∀ before after, start = before ++ (programTag ++ after) →
      ∃ tag more, after = tag ++ '>' :: more ∧ ¬ hashAttribute <:+: tag)
    (inside : '>' ∉ skipped) (alone : ¬ hashAttribute <:+: skipped) :
    hashPlace d.render = hashIn d := by
  obtain ⟨hparts, q, before, tail, -, hbefore, rfl, hvalue⟩ :=
    hashInTokens_quoted d.wellFormed found
  have hquote : '"' = q := by
    have hlast := congrArg List.getLast? hbefore
    rw [List.getLast?_concat, List.getLast?_append_of_ne_nil _ (by decide)] at hlast
    exact Option.some.inj hlast
  subst hquote
  have hhere : findHash (skipped ++ (hashAttribute ++ (value ++ '"' :: tail))) =
      some (skipped, value, '"' :: tail) := findHash_append hvalue inside alone
  have htext : d.render =
      start ++ (programTag ++ (skipped ++ (hashAttribute ++ (value ++ '"' :: tail)))) := by
    refine Eq.trans hparts ?_
    simp only [List.append_assoc]
  rw [found, htext]
  clear hparts hbefore htext found
  induction start with
  | nil => exact hashPlace_found hhere
  | cons c start ih =>
    rw [List.cons_append]
    refine hashPlace_later (fun hp => ?_)
      (ih fun before after h => first (c :: before) after (congrArg (c :: ·) h))
    have hwithin : programTag.isPrefixOf (c :: start) = true :=
      (TextSearch.isPrefixOf_append (by decide)).symm.trans hp
    obtain ⟨after, hafter⟩ := List.isPrefixOf_iff_prefix.mp hwithin
    obtain ⟨tag, more, rfl, htag⟩ := first [] after hafter.symm
    rw [← List.cons_append, ← hafter, List.append_assoc, List.drop_left, List.append_assoc]
    exact findHash_closed htag

/-! ## One value for another -/

/-- Two values that are changed to the same text with the same outcome, the first of them before the
    second, have had that text before. -/
theorem changed_again {v w v' w' y h : Text} {q r : Char} (first : v ++ w = y ++ (v' ++ w'))
    (second : h ++ w = y ++ (h ++ w')) (hw : ∃ tail, w = q :: tail) (hy : r ∈ y) (hr : r ∉ h)
    (hv : q ∉ v) (hq : q ∉ h) : v = h ∧ v' = h := by
  rcases List.append_eq_append_iff.mp second with ⟨between, rfl, hrest⟩ | ⟨between, rfl, -⟩
  · -- The first value ends before the second one begins.
    rw [hrest, List.append_assoc] at first
    cases between with
    | nil =>
      rw [List.append_nil] at hy
      exact absurd hy hr
    | cons c between =>
      obtain ⟨tail, htail⟩ := hw
      obtain ⟨rfl, -⟩ := List.cons.inj (hrest.symm.trans htail)
      obtain ⟨rfl, hafter⟩ := split_unique hv hq first
      exact ⟨rfl, (List.append_cancel_right (List.append_cancel_left hafter)).symm⟩
  · exact absurd (List.mem_append_left between hy) hr

/-- A text with a quoted value and another one: writing the same over both has the same outcome
    only for one value, or where nothing changes. -/
theorem same_change {s b v r b' v' r' h : Text} (quoted : Quoted s b v r)
    (quoted' : Quoted s b' v' r') (hplain : '"' ∉ h ∧ '\'' ∉ h)
    (same : b ++ h ++ r = b' ++ h ++ r') : (b, v, r) = (b', v', r') ∨ v = h ∧ v' = h := by
  obtain ⟨hparts, q, start, tail, hq, hb, hr, hv⟩ := quoted
  obtain ⟨hparts', q', start', tail', hq', hb', hr', hv'⟩ := quoted'
  have hnot {q : Char} (hq : q = '"' ∨ q = '\'') : q ∉ h := by
    rcases hq with rfl | rfl
    · exact hplain.1
    · exact hplain.2
  have hsplit := hparts.symm.trans hparts'
  rw [List.append_assoc, List.append_assoc] at hsplit same
  -- The quote that opens a later value stands between the beginnings of the two.
  have hlast {start between b : Text} {q : Char} (hne : between ≠ [])
      (h : start ++ [q] = b ++ between) : q ∈ between := by
    have hend := congrArg List.getLast? h
    rw [List.getLast?_concat, List.getLast?_append_of_ne_nil _ hne] at hend
    exact List.mem_of_getLast? hend.symm
  rcases List.append_eq_append_iff.mp hsplit with ⟨between, rfl, hafter⟩ | ⟨between, rfl, hafter⟩
  · cases between with
    | nil =>
      rw [List.append_nil] at same
      obtain rfl := List.append_cancel_left (List.append_cancel_left same)
      rw [List.nil_append] at hafter
      rw [List.append_nil, List.append_cancel_right hafter]
      exact .inl rfl
    | cons c between =>
      rw [List.append_assoc] at same
      refine .inr (changed_again hafter (List.append_cancel_left same) ⟨tail, hr⟩
        (hlast (List.cons_ne_nil _ _) hb'.symm) (hnot hq') hv (hnot hq))
  · cases between with
    | nil =>
      rw [List.append_nil] at same
      obtain rfl := List.append_cancel_left (List.append_cancel_left same)
      rw [List.nil_append] at hafter
      rw [List.append_nil, List.append_cancel_right hafter]
      exact .inl rfl
    | cons c between =>
      rw [List.append_assoc] at same
      exact .inr (changed_again hafter (List.append_cancel_left same.symm) ⟨tail', hr'⟩
        (hlast (List.cons_ne_nil _ _) hb.symm) (hnot hq) hv' (hnot hq')).symm

/-! ## The document with the new hash -/

def setHashTag (h : Text) (t : Tag) : Tag :=
  { t with attributes := t.attributes.map fun a => if isHash a then { a with value := h } else a }

def setHash (h : Text) : List Token → List Token
  | [] => []
  | token :: tokens =>
    match token.tag?.filter isProgram with
    | some t => .tag (setHashTag h t) :: tokens
    | none => token :: setHash h tokens

/-- The elements with another hash in the first application program. -/
def withHash (h : Text) : List Element → List Element
  | [] => []
  | e :: es =>
    if Renumber.localName e.name = "ApplicationProgram".toList then
      { e with attributes := e.attributes.map fun a =>
          if a.1 = "Hash".toList then (a.1, h) else a } :: es
    else e :: withHash h es

theorem setHashTag_render {t : Tag} (distinct : (t.attributes.map Attribute.name).Nodup)
    {before value rest h : Text} (found : hashInTag t = some (before, value, rest)) :
    (setHashTag h t).render = before ++ h ++ rest := by
  obtain ⟨⟨as, a, bs⟩, hsplit, he⟩ := Option.map_eq_some_iff.mp found
  obtain ⟨hattributes, ha⟩ := splitFirst_eq hsplit
  cases he
  have hother {b : Attribute} (hb : b ∈ as ∨ b ∈ bs) :
      (if isHash b then { b with value := h } else b) = b := by
    refine if_neg fun hhash => ?_
    have hname : b.name = a.name := (of_decide_eq_true hhash).trans (of_decide_eq_true ha).symm
    rw [hattributes, List.map_append, List.map_cons] at distinct
    rcases hb with hb | hb
    · exact (List.nodup_append.mp distinct).2.2 b.name (List.mem_map_of_mem hb) a.name
        List.mem_cons_self hname
    · exact (List.nodup_cons.mp (List.nodup_append.mp distinct).2.1).1
        (hname ▸ List.mem_map_of_mem hb)
  have hset : (setHashTag h t).attributes = as ++ { a with value := h } :: bs := by
    unfold setHashTag
    dsimp only
    rw [hattributes, List.map_append, List.map_cons, if_pos ha,
      List.map_congr_left fun b hb => hother (.inl hb),
      List.map_congr_left fun b hb => hother (.inr hb), List.map_id', List.map_id']
  unfold Tag.render Tag.body
  rw [hset, List.flatMap_append, List.flatMap_cons]
  unfold Attribute.render setHashTag
  simp

theorem setHash_found {h : Text} {token : Token} {tokens : List Token} {t : Tag}
    (ht : token.tag?.filter isProgram = some t) :
    setHash h (token :: tokens) = .tag (setHashTag h t) :: tokens := by
  show (match token.tag?.filter isProgram with
    | some t => Token.tag (setHashTag h t) :: tokens
    | none => token :: setHash h tokens) = _
  rw [ht]

theorem setHash_skipped {h : Text} {token : Token} {tokens : List Token}
    (ht : token.tag?.filter isProgram = none) :
    setHash h (token :: tokens) = token :: setHash h tokens := by
  show (match token.tag?.filter isProgram with
    | some t => Token.tag (setHashTag h t) :: tokens
    | none => token :: setHash h tokens) = _
  rw [ht]

theorem program_token {token : Token} {t : Tag} (ht : token.tag?.filter isProgram = some t) :
    token = .tag t ∧ isProgram t = true := by
  obtain ⟨htag, hprogram⟩ := Option.filter_eq_some_iff.mp ht
  cases token with
  | tag t' => exact ⟨congrArg Token.tag (Option.some.inj htag), hprogram⟩
  | _ => cases htag

theorem setHash_render {tokens : List Token} (wellFormed : ∀ token ∈ tokens, token.WellFormed)
    {before value rest h : Text} (found : hashInTokens tokens = some (before, value, rest)) :
    (setHash h tokens).flatMap Token.render = before ++ h ++ rest := by
  induction tokens generalizing before with
  | nil => cases found
  | cons token tokens ih =>
    unfold hashInTokens at found
    split at found
    · next t ht =>
      obtain ⟨⟨b, v, r⟩, htag, he⟩ := Option.map_eq_some_iff.mp found
      cases he
      rw [setHash_found ht, List.flatMap_cons]
      obtain ⟨rfl, -⟩ := program_token ht
      have hw : t.WellFormed := wellFormed _ List.mem_cons_self
      show (setHashTag h t).render ++ _ = _
      rw [setHashTag_render hw.distinct htag, List.append_assoc]
    · next ht =>
      obtain ⟨⟨b, v, r⟩, htokens, he⟩ := Option.map_eq_some_iff.mp found
      cases he
      rw [setHash_skipped ht, List.flatMap_cons,
        ih (fun token ht => wellFormed token (List.mem_cons_of_mem _ ht)) htokens]
      simp

theorem setHash_wellFormed {tokens : List Token} (wellFormed : ∀ token ∈ tokens, token.WellFormed)
    {h : Text} (hquotes : '"' ∉ h ∧ '\'' ∉ h) (hlt : '<' ∉ h) :
    ∀ token ∈ setHash h tokens, token.WellFormed := by
  have htag {t : Tag} (ht : t.WellFormed) : (setHashTag h t).WellFormed := by
    refine ⟨ht.name, ?_, ?_, ht.trailing⟩
    · intro a ha
      obtain ⟨b, hb, rfl⟩ := List.mem_map.mp ha
      have hw := ht.attributes b hb
      split_ifs
      · refine { hw with quoted := ?_, value := hlt }
        rcases hw.quote with hq | hq
        · exact hq ▸ hquotes.1
        · exact hq ▸ hquotes.2
      · exact hw
    · have hnames : (setHashTag h t).attributes.map Attribute.name =
          t.attributes.map Attribute.name := by
        unfold setHashTag
        rw [List.map_map]
        refine List.map_congr_left fun a _ => ?_
        show (if isHash a then _ else a).name = a.name
        split_ifs <;> rfl
      rw [hnames]
      exact ht.distinct
  induction tokens with
  | nil => nofun
  | cons token tokens ih =>
    obtain ⟨hfirst, hothers⟩ := List.forall_mem_cons.mp wellFormed
    cases ht : token.tag?.filter isProgram with
    | some t =>
      rw [setHash_found ht]
      obtain ⟨rfl, -⟩ := program_token ht
      exact List.forall_mem_cons.mpr ⟨htag hfirst, hothers⟩
    | none =>
      rw [setHash_skipped ht]
      exact List.forall_mem_cons.mpr ⟨hfirst, ih hothers⟩

theorem openElements_setHash (h : Text) (names : List Text) (tokens : List Token) :
    openElements names (setHash h tokens) = openElements names tokens := by
  induction tokens generalizing names with
  | nil => rfl
  | cons token tokens ih =>
    cases ht : token.tag?.filter isProgram with
    | some t =>
      rw [setHash_found ht]
      obtain ⟨rfl, -⟩ := program_token ht
      cases names <;> rfl
    | none =>
      rw [setHash_skipped ht]
      cases token with
      | endTag name spaces =>
        cases names with
        | nil => rfl
        | cons n names =>
          show (if n = name then openElements names (setHash h tokens) else none) = _
          rw [ih]
          rfl
      | tag t =>
        cases names <;> exact ih _
      | _ => cases names <;> exact ih _

theorem elements_setHash (h : Text) (tokens : List Token) :
    ((setHash h tokens).filterMap Token.tag?).map Tag.element =
      withHash h ((tokens.filterMap Token.tag?).map Tag.element) := by
  induction tokens with
  | nil => rfl
  | cons token tokens ih =>
    cases ht : token.tag?.filter isProgram with
    | some t =>
      rw [setHash_found ht]
      obtain ⟨rfl, hprogram⟩ := program_token ht
      show (setHashTag h t).element :: _ = (if _ then _ else _)
      have hname : Renumber.localName t.element.name = "ApplicationProgram".toList :=
        of_decide_eq_true hprogram
      rw [if_pos hname]
      refine congrArg (· :: _) ?_
      unfold setHashTag Tag.element
      rw [List.map_map, List.map_map]
      refine congrArg (Element.mk t.name) (List.map_congr_left fun a _ => ?_)
      show (if isHash a then _ else a).pair = if a.name = "Hash".toList then (a.name, h) else a.pair
      by_cases hname : a.name = "Hash".toList
      · have hhash : isHash a = true := decide_eq_true hname
        rw [if_pos hname, if_pos hhash]
        rfl
      · have hhash : ¬isHash a = true := fun hhash => hname (of_decide_eq_true hhash)
        rw [if_neg hname, if_neg hhash]
    | none =>
      rw [setHash_skipped ht]
      cases htag : token.tag? with
      | none =>
        rw [List.filterMap_cons_none htag, List.filterMap_cons_none htag, ih]
      | some t =>
        have hother : isProgram t = false := by
          rw [htag] at ht
          cases hp : isProgram t with
          | false => rfl
          | true =>
            rw [Option.filter_some_pos hp] at ht
            cases ht
        rw [List.filterMap_cons_some htag, List.filterMap_cons_some htag, List.map_cons,
          List.map_cons, ih]
        have hname : Renumber.localName t.element.name ≠ "ApplicationProgram".toList :=
          of_decide_eq_false hother
        show _ = if _ then _ else _
        rw [if_neg hname]

/-- The text with the new hash in its place is that of the document whose application program has
    it, all other attributes as they were. -/
theorem document_withHash (d : Document) {before value rest h : Text}
    (found : hashIn d = some (before, value, rest)) (hquotes : '"' ∉ h ∧ '\'' ∉ h) (hlt : '<' ∉ h) :
    ∃ d' : Document, d'.render = before ++ h ++ rest ∧ d'.elements = withHash h d.elements :=
  ⟨⟨setHash h d.tokens, setHash_wellFormed d.wellFormed hquotes hlt,
    (openElements_setHash h [] d.tokens).trans d.balanced⟩,
    setHash_render d.wellFormed found, elements_setHash h d.tokens⟩

/-! ## Signing -/

/-- `[A-Za-z0-9+/=]`. -/
def isBase64Char (c : Char) : Bool := c.isAlphanum || c = '+' || c = '/' || c = '='

/-- Base64 has the characters of its alphabet only. -/
def Base64 (lib : Hash.Library) : Prop := ∀ octets, (lib.encode octets).all isBase64Char = true

theorem base64_plain {s : Text} (h : s.all isBase64Char = true) :
    ('"' ∉ s ∧ '\'' ∉ s) ∧ '<' ∉ s ∧ ∀ c ∈ s, opens c = false := by
  have hall := List.all_eq_true.mp h
  refine ⟨⟨fun hmem => ?_, fun hmem => ?_⟩, fun hmem => ?_, fun c hc => ?_⟩
  · exact absurd (hall _ hmem) (by decide)
  · exact absurd (hall _ hmem) (by decide)
  · exact absurd (hall _ hmem) (by decide)
  · have hchar := hall c hc
    unfold isBase64Char at hchar
    simp only [Bool.or_eq_true, decide_eq_true_eq] at hchar
    rcases hchar with ((hchar | rfl) | rfl) | rfl
    · have hname : isNameChar c = true := by
        unfold isNameChar
        rw [hchar]
        rfl
      exact XmlScan.nameChar_induction (P := fun c => c.isAlphanum = true → opens c = false)
        (by decide +kernel) hname hchar
    all_goals decide

theorem extractFingerprint_hex {filename oldFp : Text} (h : extractFingerprint filename = some oldFp) :
    IsHex 4 oldFp := by
  obtain ⟨found, hfound, rfl⟩ := Option.map_eq_some_iff.mp h
  obtain ⟨start, fp, rfl, hstart, hfp⟩ := (search_matches hfound).split
  have hlength : start.length = 11 := hstart.length_eq.symm
  rw [← hlength, List.drop_left]
  exact matches_hexDigits.mp hfp

theorem patchFingerprint_quoted {oldFp newFp s before value rest h : Text} (hex : IsHex 4 oldFp)
    (quoted : Quoted s before value rest) (hplain : ∀ c ∈ h, opens c = false) :
    patchFingerprint oldFp (before ++ h ++ rest) newFp =
      patchFingerprint oldFp before newFp ++ h ++ patchFingerprint oldFp rest newFp := by
  obtain ⟨-, q, start, tail, hq, rfl, rfl, -⟩ := quoted
  have hquote (u v : Text) : patchFingerprint oldFp (u ++ q :: v) newFp =
      patchFingerprint oldFp u newFp ++ q :: patchFingerprint oldFp v newFp := by
    rcases hq with rfl | rfl
    · exact patchFingerprint_foreign hex (by decide) (by decide) (by decide) u v
    · exact patchFingerprint_foreign hex (by decide) (by decide) (by decide) u v
  have hhash (v : Text) : patchFingerprint oldFp (h ++ v) newFp =
      h ++ patchFingerprint oldFp v newFp := rewriteAll_plain fingerprintRegex_opening hplain v
  have hempty : patchFingerprint oldFp [] newFp = [] := rfl
  rw [List.append_assoc, List.append_assoc, List.singleton_append, hquote, hhash, hquote start [],
    hempty, ← List.nil_append (q :: tail), hquote, hempty]
  simp

/-- The application program of the document gets the new hash and nothing else changes, and the
    file is written with it and with the new fingerprint around it. -/
structure Hashed (newHash oldFp newFp : Text) (d : Document) (written : Text) : Prop where
  place : ∃ before value rest, hashIn d = some (before, value, rest) ∧
    patchHashAttribute d.render newHash = before ++ newHash ++ rest ∧
    written = patchFingerprint oldFp before newFp ++ newHash ++ patchFingerprint oldFp rest newFp
  document : ∃ d' : Document, patchHashAttribute d.render newHash = d'.render ∧
    d'.elements = withHash newHash d.elements

/-- The hash goes to its place in a document exactly where the pattern finds the attribute of the
    application program, or where that attribute and whatever the pattern finds have it already. -/
theorem signed_hash_iff {lib : Hash.Library} {reader : Text → List Hash.Event}
    {dir dir' : Directory} {split split' : SplitResult} (base64 : Base64 lib) (d : Document)
    (file : dir.read split.application = .ok d.render)
    (signed : signApplication lib reader dir split = .ok (dir', split')) :
    ∃ hash oldFp written, Hash.hashApplicationProgram lib reader d.render = .ok hash ∧
      extractFingerprint split.application = some oldFp ∧
      dir'.read split'.application = .ok written ∧
      (Hashed (hashBase64 lib hash) oldFp (fingerprintHex hash) d written ↔
        ∃ before value rest, hashIn d = some (before, value, rest) ∧
          (hashPlace d.render = hashIn d ∨
            value = hashBase64 lib hash ∧
              ∀ found ∈ hashPlace d.render, found.2.1 = hashBase64 lib hash)) := by
  obtain ⟨oldFp, xml, hash, result, -⟩ := signApplication_ok signed
  obtain rfl := Except.ok.inj (result.given.symm.trans file)
  refine ⟨hash, oldFp, _, result.hashed, result.old, result.written, ?_⟩
  have hex := extractFingerprint_hex result.old
  have halphabet : (hashBase64 lib hash).all isBase64Char = true := base64 hash.md5
  obtain ⟨hquotes, hlt, hopens⟩ := base64_plain halphabet
  have hplace {before value rest : Text} (h : hashIn d = some (before, value, rest)) :
      Quoted d.render before value rest := hashInTokens_quoted d.wellFormed h
  constructor
  · rintro ⟨⟨before, value, rest, hvalue, hpatched, -⟩, -⟩
    refine ⟨before, value, rest, hvalue, ?_⟩
    unfold patchHashAttribute at hpatched
    cases hfound : hashPlace d.render with
    | none =>
      rw [hfound, (hplace hvalue).parts] at hpatched
      dsimp only at hpatched
      exact .inr ⟨List.append_cancel_left (List.append_cancel_right hpatched), nofun⟩
    | some found =>
      obtain ⟨before', value', rest'⟩ := found
      rw [hfound] at hpatched
      dsimp only at hpatched
      rcases same_change (hashPlace_quoted hfound) (hplace hvalue) hquotes hpatched with he | ⟨hv, hv'⟩
      · exact .inl (by rw [he, hvalue])
      · refine .inr ⟨hv', fun found hmem => ?_⟩
        rw [← Option.some.inj hmem]
        exact hv
  · rintro ⟨before, value, rest, hvalue, hcase⟩
    have hpatched : patchHashAttribute d.render (hashBase64 lib hash) =
        before ++ hashBase64 lib hash ++ rest := by
      unfold patchHashAttribute
      rcases hcase with hfound | ⟨rfl, hsame⟩
      · rw [hfound, hvalue]
      · rw [← (hplace hvalue).parts]
        cases hfound : hashPlace d.render with
        | none => rfl
        | some found =>
          have hsame := hsame found hfound
          dsimp only
          rw [(hashPlace_quoted hfound).parts, hsame]
    obtain ⟨d', hrender, helements⟩ := document_withHash d hvalue hquotes hlt
    refine ⟨⟨before, value, rest, hvalue, hpatched, ?_⟩, d', hpatched.trans hrender.symm, helements⟩
    rw [hpatched, patchFingerprint_quoted hex (hplace hvalue) hopens]

/-! ## Authored documents -/

section
open Author
variable {lines : List Line} {rest : List Token}

def isOther (name : String) : Bool :=
  Renumber.localName name.toList ≠ "ApplicationProgram".toList

theorem hashInTokens_other {token : Token} (h : token.tag?.filter isProgram = none) :
    hashInTokens (token :: rest) = none ↔ hashInTokens rest = none := by
  have hskip : hashInTokens (token :: rest) = (hashInTokens rest).map fun (before, value, rest) =>
      (token.render ++ before, value, rest) := by
    show (match token.tag?.filter isProgram with
      | some t => _
      | none => (hashInTokens rest).map _) = _
    rw [h]
  rw [hskip, Option.map_eq_none_iff]

theorem token_other {line : Line} (h : isOther line.name = true) :
    line.token.tag?.filter isProgram = none := by
  have hname := of_decide_eq_true h
  cases line with
  | closing indent name => rfl
  | opening indent name attributes =>
    exact Option.filter_some_neg (decide_eq_false hname)
  | single indent name attributes =>
    exact Option.filter_some_neg (decide_eq_false hname)

theorem hashInTokens_others {tokens : List Token}
    (h : ∀ token ∈ tokens, token.tag?.filter isProgram = none) :
    hashInTokens (tokens ++ rest) = none ↔ hashInTokens rest = none := by
  induction tokens with
  | nil => rfl
  | cons token tokens ih =>
    rw [List.cons_append, hashInTokens_other (h token List.mem_cons_self),
      ih fun t ht => h t (List.mem_cons_of_mem _ ht)]

theorem hashInTokens_lines (h : ∀ line ∈ lines, isOther line.name = true) :
    hashInTokens (tokensOf lines ++ rest) = none ↔ hashInTokens rest = none := by
  refine hashInTokens_others fun token htoken => ?_
  obtain ⟨line, hline, hmem⟩ := List.mem_flatMap.mp htoken
  unfold Line.tokens at hmem
  simp only [List.mem_cons, List.not_mem_nil, or_false] at hmem
  rcases hmem with rfl | rfl | rfl
  · rfl
  · exact token_other (h line hline)
  · rfl

theorem isOther_node {indent : Nat} {name : String} {attributes : Attributes}
    (hname : isOther name = true) (h : ∀ line ∈ lines, isOther line.name = true) :
    ∀ line ∈ node indent name attributes lines, isOther line.name = true := by
  intro line hline
  unfold node at hline
  rcases List.mem_cons.mp hline with rfl | hline
  · exact hname
  · rcases List.mem_append.mp hline with hline | hline
    · exact h line hline
    · rw [List.mem_singleton.mp hline]
      exact hname

/-- The first application program of the lines has no hash, whatever follows. -/
def Hashless (lines : List Line) : Prop := ∀ rest, hashInTokens (tokensOf lines ++ rest) = none

theorem Hashless.append (h : Hashless lines) (more : List Line) : Hashless (lines ++ more) := by
  intro rest
  rw [tokensOf_append, List.append_assoc]
  exact h _

theorem Hashless.after {before : List Line} (hbefore : ∀ line ∈ before, isOther line.name = true)
    (h : Hashless lines) : Hashless (before ++ lines) := by
  intro rest
  rw [tokensOf_append, List.append_assoc]
  exact (hashInTokens_lines hbefore).mpr (h rest)

theorem Hashless.node {indent : Nat} {name : String} {attributes : Attributes}
    (hname : isOther name = true) (h : Hashless lines) :
    Hashless (node indent name attributes lines) :=
  have hopening : ∀ line ∈ [Line.opening indent name attributes], isOther line.name = true :=
    fun _ hline => List.mem_singleton.mp hline ▸ hname
  .after hopening (h.append _)

theorem Hashless.program {indent : Nat} {attributes : Attributes}
    (h : ∀ a ∈ attributes, a.1 ≠ "Hash") (inner : List Line) :
    Hashless (Author.node indent "ApplicationProgram" attributes inner) := by
  have hnone : splitFirst isHash (attributes.map attributeOf) = none := by
    induction attributes with
    | nil => rfl
    | cons a attributes ih =>
      have hname : isHash (attributeOf a) = false := by
        refine decide_eq_false fun he => h a List.mem_cons_self ?_
        exact String.toList_inj.mp he
      rw [List.map_cons]
      unfold splitFirst
      rw [if_neg (hname ▸ Bool.false_ne_true), ih fun b hb => h b (List.mem_cons_of_mem _ hb)]
      rfl
  intro rest
  unfold Author.node
  rw [tokensOf_cons]
  refine (hashInTokens_other rfl).mpr ?_
  show (hashInTag ⟨_, attributes.map attributeOf, [], false⟩).map _ = none
  unfold hashInTag
  rw [hnone]
  rfl

theorem writeCatalog_other (app : AppProgram) (indent : Nat) :
    ∀ line ∈ app.writeCatalog indent, isOther line.name = true := by
  unfold AppProgram.writeCatalog unlessEmpty
  split_ifs
  · nofun
  · refine isOther_node (by decide) fun line hline => ?_
    obtain ⟨sect, -, hsection⟩ := List.mem_flatMap.mp hline
    refine isOther_node (by decide) (fun line hline => ?_) line hsection
    obtain ⟨item, -, rfl⟩ := List.mem_map.mp hline
    show isOther "CatalogItem" = true
    decide

theorem authored_without_hash (app : AppProgram) (info : ProgramInfo)
    (createdBy toolVersion : Text) :
    hashInTokens (documentTokens (app.documentLines info createdBy toolVersion)) = none := by
  have hprogram : Hashless (app.writeApplicationProgram info 6) :=
    .node (by decide) (.program (by simp [number]) _)
  have hmanufacturer : Hashless (app.writeManufacturer info 6) :=
    (((Hashless.after (writeCatalog_other app 6) hprogram).append _).append _).append _
  have hdocument : Hashless (app.documentLines info createdBy toolVersion) :=
    .node (by decide) (.node (by decide) (.node (by decide) hmanufacturer))
  refine (hashInTokens_other rfl).mpr ((hashInTokens_other rfl).mpr ?_)
  rw [← List.append_nil (tokensOf _)]
  exact hdocument []

theorem authored_unsigned {app : AppProgram} {info : ProgramInfo} {createdBy toolVersion : Text}
    (ids : app.PlainIds) (newHash oldFp newFp written : Text) :
    ¬ Hashed newHash oldFp newFp
      (documentOf _ (documentLines_nested ids info createdBy toolVersion)) written := by
  rintro ⟨⟨before, value, rest, hvalue, -, -⟩, -⟩
  have hnone := authored_without_hash app info createdBy toolVersion
  unfold hashIn at hvalue
  rw [show (documentOf _ (documentLines_nested ids info createdBy toolVersion)).tokens =
    documentTokens (app.documentLines info createdBy toolVersion) from rfl, hnone] at hvalue
  cases hvalue

end

/-! ## A signed document -/

def eventOf : Token → Hash.Event
  | .text s => .text s
  | .cdata s => .cdata s
  | .endTag _ _ => .finish
  | .tag t => if t.selfClosing then .empty t.element else .start t.element
  | .comment _ | .instruction _ | .declaration _ => .other

def documentReader (d : Document) (xml : Text) : List Hash.Event :=
  if xml = d.render then d.tokens.map eventOf else [.failed]

def applicationFile : Text := "M-00FA_A-0001-01-0000.xml".toList

def directoryOf (d : Document) : Directory :=
  ⟨[(applicationFile, .file d.render)], List.nodup_singleton _⟩

def signDocument (lib : Hash.Library) (d : Document) : Except SigningError (Directory × SplitResult) :=
  signApplication lib (documentReader d) (directoryOf d)
    ⟨"Catalog.xml".toList, "Hardware.xml".toList, applicationFile⟩

def plainDocument : Document where
  tokens := [.startTag "ApplicationPrograms".toList [],
    .emptyTag "ApplicationProgram".toList
      [("Id".toList, "M-00FA_A-0001-01-0000".toList), ("Hash".toList, [])],
    .closing "ApplicationPrograms".toList]
  wellFormed := by decide +kernel
  balanced := by decide

theorem digestLibrary_base64 {md5 : Hash.Octets} {base64 : Text}
    (h : base64.all isBase64Char = true) : Base64 (digestLibrary md5 base64) := fun _ => h

theorem plain_document_hashed : ∃ dir' split' hash oldFp written,
    signDocument firstLibrary plainDocument = .ok (dir', split') ∧
    dir'.read split'.application = .ok written ∧
    Hashed (hashBase64 firstLibrary hash) oldFp (fingerprintHex hash) plainDocument written := by
  have hname : (signDocument firstLibrary plainDocument).map (fun r => r.2.application) =
      .ok "M-00FA_A-0001-01-8D6B.xml".toList := by decide +kernel
  have hfile : (directoryOf plainDocument).read applicationFile = .ok plainDocument.render := by
    decide +kernel
  have hplace : hashPlace plainDocument.render = hashIn plainDocument := by decide +kernel
  have hsome : (hashIn plainDocument).isSome = true := by decide +kernel
  obtain ⟨⟨dir', split'⟩, hsigned, -⟩ := map_ok hname
  obtain ⟨hash, oldFp, written, -, -, hwritten, hiff⟩ := signed_hash_iff
    (digestLibrary_base64 (by decide)) plainDocument hfile hsigned
  obtain ⟨⟨before, value, rest⟩, hvalue⟩ := Option.isSome_iff_exists.mp hsome
  exact ⟨dir', split', hash, oldFp, written, hsigned, hwritten,
    hiff.mpr ⟨before, value, rest, hvalue, .inl hplace⟩⟩

/-- The digest of the authored program 0001 without any content. -/
def authoredHash : Hash.AppProgramHash :=
  ⟨[203, 209, 151, 62, 143, 3, 100, 200, 197, 220, 88, 198, 188, 251, 9, 197], 0xcbc5⟩

def authoredLibrary : Hash.Library := digestLibrary authoredHash.md5 "y9GXPo8DZMjF3FjGvPsJxQ==".toList

theorem authored_ids : (Author.AppProgram.new "M-00FA_A-0001-01-0000".toList).PlainIds := by
  have hids : ∀ s ∈ (Author.AppProgram.new "M-00FA_A-0001-01-0000".toList).ids,
      Author.plainText s = true := by decide
  exact hids

def authoredDocument : Document :=
  Author.documentOf _ (Author.documentLines_nested authored_ids Author.helpInfo "xtask".toList
    "1.0".toList)

/-- An authored document is signed, but not given its hash. -/
theorem authored_document_unsigned : ∃ dir' split',
    (Author.AppProgram.new "M-00FA_A-0001-01-0000".toList).writeKnxDocument Author.helpInfo
      "xtask".toList "1.0".toList = some authoredDocument.render ∧
    signDocument authoredLibrary authoredDocument = .ok (dir', split') ∧
    Hash.hashApplicationProgram authoredLibrary (documentReader authoredDocument)
      authoredDocument.render = .ok authoredHash ∧
    ∀ written, ¬ Hashed (hashBase64 authoredLibrary authoredHash) "0000".toList
      (fingerprintHex authoredHash) authoredDocument written := by
  have hname : (signDocument authoredLibrary authoredDocument).map (fun r => r.2.application) =
      .ok "M-00FA_A-0001-01-CBC5.xml".toList := by decide +kernel
  have hxml : (Author.AppProgram.new "M-00FA_A-0001-01-0000".toList).writeKnxDocument
      Author.helpInfo "xtask".toList "1.0".toList = some authoredDocument.render :=
    (if_pos (by decide)).trans (congrArg some (Author.documentTokens_render _).symm)
  have hhash : Hash.hashApplicationProgram authoredLibrary (documentReader authoredDocument)
      authoredDocument.render = .ok authoredHash := by decide +kernel
  obtain ⟨⟨dir', split'⟩, hsigned, -⟩ := map_ok hname
  refine ⟨dir', split', hxml, hsigned, hhash, fun written => ?_⟩
  exact authored_unsigned authored_ids _ _ _ written

end KnxRs.Sign
