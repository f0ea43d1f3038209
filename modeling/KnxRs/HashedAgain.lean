import KnxRs.AuthoredHashes
import KnxRs.EventReader
import KnxRs.RewrittenIds
import KnxRs.SameEvents

set_option autoImplicit false

/-!
# The hash of a rewritten document

A document and the one with another hash and another fingerprint have the same octets, so that a
signed file has the hash that is written in it.
-/
namespace KnxRs.Sign
open Texts XmlDocuments XmlValues XmlReader Patterns Codecs Hash Renumber
open Author (Normalizes crateLibrary)

/-! ## The text around the values -/

/-- A text with the values in its quotes, beside the same text without them and with others. -/
inductive Framed (f : Text → Text) : Text → Text → Text → Prop where
  | plain (s : Text) : Framed f s s s
  | value (s v : Text) {q : Char} (hq : q = '"' ∨ q = '\'') {frame old new : Text}
    (h : Framed f frame old new) :
    Framed f (s ++ q :: q :: frame) (s ++ q :: (v ++ q :: old)) (s ++ q :: (f v ++ q :: new))

section
variable {f : Text → Text}

theorem Framed.append {a b c a' b' c' : Text} (h : Framed f a b c) (h' : Framed f a' b' c') :
    Framed f (a ++ a') (b ++ b') (c ++ c') := by
  induction h with
  | plain s =>
    cases h' with
    | plain => exact .plain _
    | value s' v hq h' =>
      rw [← List.append_assoc, ← List.append_assoc, ← List.append_assoc]
      exact .value (s ++ s') v hq h'
  | value s v hq h ih =>
    simp only [List.append_assoc, List.cons_append]
    exact .value s v hq ih

theorem Framed.flatMap {α : Type} {frame old new : α → Text} {xs : List α}
    (h : ∀ x ∈ xs, Framed f (frame x) (old x) (new x)) :
    Framed f (xs.flatMap frame) (xs.flatMap old) (xs.flatMap new) := by
  induction xs with
  | nil => exact .plain []
  | cons x xs ih =>
    obtain ⟨hx, hxs⟩ := List.forall_mem_cons.mp h
    exact hx.append (ih hxs)

theorem attribute_framed {a : Attribute} (h : a.WellFormed) :
    Framed f (a.mapValue fun _ => []).render a.render (a.mapValue f).render := by
  have hframed := Framed.value (f := f) (a.before ++ a.name ++ a.beforeEq ++ ('=' :: a.afterEq))
    a.value h.quote (.plain [])
  unfold Attribute.render Attribute.mapValue
  simpa only [List.append_assoc, List.cons_append, List.nil_append] using hframed

theorem token_framed {token : Token} (h : token.WellFormed) :
    Framed f (token.mapValues fun _ => []).render token.render (token.mapValues f).render := by
  cases token with
  | tag t =>
    have hattributes : Framed f
        ((t.attributes.map (Attribute.mapValue fun _ => [])).flatMap Attribute.render)
        (t.attributes.flatMap Attribute.render)
        ((t.attributes.map (Attribute.mapValue f)).flatMap Attribute.render) := by
      rw [List.flatMap_map, List.flatMap_map]
      exact Framed.flatMap fun a ha => attribute_framed (h.attributes a ha)
    have hframed := ((Framed.plain (f := f) ('<' :: t.name)).append hattributes).append
      (.plain (t.trailing ++ (if t.selfClosing then ['/'] else []) ++ ['>']))
    show Framed f (t.mapValues fun _ => []).render t.render (t.mapValues f).render
    unfold Tag.render Tag.body Tag.mapValues
    simpa only [List.append_assoc, List.cons_append] using hframed
  | _ => exact .plain _

/-- The text of the tokens without their attribute values. -/
def frame (tokens : List Token) : Text := tokens.flatMap fun token =>
  (token.mapValues fun _ => []).render

theorem tokens_framed {tokens : List Token} (h : ∀ token ∈ tokens, token.WellFormed) :
    Framed f (frame tokens) (tokens.flatMap Token.render)
      ((tokens.map (Token.mapValues f)).flatMap Token.render) := by
  rw [List.flatMap_map]
  exact Framed.flatMap fun token htoken => token_framed (h token htoken)

end

theorem patch_framed {oldFp newFp : Text} (hex : IsHex 4 oldFp) (hex' : IsHex 4 newFp)
    {plain old new : Text} (h : Framed (fun v => patchFingerprint oldFp v newFp) plain old new)
    (hplain : patchFingerprint oldFp plain newFp = plain) :
    patchFingerprint oldFp old newFp = new := by
  induction h with
  | plain s => exact hplain
  | @value s v q hq plain old new h ih =>
    have hquote (x y : Text) : patchFingerprint oldFp (x ++ q :: y) newFp =
        patchFingerprint oldFp x newFp ++ q :: patchFingerprint oldFp y newFp := by
      rcases hq with rfl | rfl
      · exact patchFingerprint_foreign hex (by decide) (by decide) (by decide) x y
      · exact patchFingerprint_foreign hex (by decide) (by decide) (by decide) x y
    have hstart (y : Text) : patchFingerprint oldFp (q :: y) newFp =
        q :: patchFingerprint oldFp y newFp := hquote [] y
    rw [hquote, hstart] at hplain
    obtain ⟨hs, hrest⟩ := List.append_inj hplain (patchFingerprint_length hex hex' s)
    rw [hquote, hs, hquote, ih (List.cons.inj (List.cons.inj hrest).2).2]

/-! ## The hash attribute -/

theorem splitFirst_none {α : Type} {p : α → Bool} {xs : List α} (h : splitFirst p xs = none) :
    ∀ x ∈ xs, p x = false := by
  induction xs with
  | nil => nofun
  | cons x xs ih =>
    unfold splitFirst at h
    split_ifs at h with hx
    exact List.forall_mem_cons.mpr ⟨Bool.eq_false_iff.mpr hx, ih (Option.map_eq_none_iff.mp h)⟩

theorem setHash_absent {tokens : List Token} (h : hashInTokens tokens = none) (hash : Text) :
    setHash hash tokens = tokens := by
  induction tokens with
  | nil => rfl
  | cons token tokens ih =>
    unfold hashInTokens at h
    split at h
    · next t ht =>
      have hnone := splitFirst_none (Option.map_eq_none_iff.mp (Option.map_eq_none_iff.mp h))
      have hkept : t.attributes.map (fun a => if isHash a then { a with value := hash } else a) =
          t.attributes :=
        (List.map_congr_left fun a ha => if_neg (Bool.eq_false_iff.mp (hnone a ha))).trans
          (List.map_id' _)
      rw [setHash_found ht, (program_token ht).1]
      unfold setHashTag
      rw [hkept]
    · next ht => rw [setHash_skipped ht, ih (Option.map_eq_none_iff.mp h)]

/-- Where the pattern finds the attribute of the application program, or both are absent. -/
theorem patchHash_render {d : Document} (place : hashPlace d.render = hashIn d) (h : Text) :
    patchHashAttribute d.render h = (setHash h d.tokens).flatMap Token.render := by
  unfold patchHashAttribute
  rw [place]
  cases hfound : hashIn d with
  | none =>
    rw [setHash_absent hfound]
    rfl
  | some found => exact (setHash_render d.wellFormed hfound).symm

theorem frame_setHash (h : Text) (tokens : List Token) :
    frame (setHash h tokens) = frame tokens := by
  induction tokens with
  | nil => rfl
  | cons token tokens ih =>
    cases ht : token.tag?.filter isProgram with
    | some t =>
      have hset : (setHashTag h t).mapValues (fun _ => []) = t.mapValues fun _ => [] := by
        unfold setHashTag Tag.mapValues
        rw [List.map_map]
        refine congrArg (fun attributes => { t with attributes := attributes }) ?_
        refine List.map_congr_left fun a _ => ?_
        rw [Function.comp_apply]
        split_ifs <;> rfl
      rw [setHash_found ht, (program_token ht).1]
      unfold frame
      rw [List.flatMap_cons, List.flatMap_cons]
      exact congrArg (fun t : Tag => t.render ++ _) hset
    | none =>
      rw [setHash_skipped ht]
      unfold frame
      rw [List.flatMap_cons, List.flatMap_cons]
      exact congrArg _ ih

/-! ## The rewritten document -/

section
variable {oldFp newFp h : Text}

def patchTokens (oldFp newFp : Text) (tokens : List Token) : List Token :=
  tokens.map (Token.mapValues fun v => patchFingerprint oldFp v newFp)

theorem patch_replaces (hex' : IsHex 4 newFp) :
    Replaces fun v => patchFingerprint oldFp v newFp := by
  have hhex : ∀ c ∈ newFp, c ≠ '"' ∧ c ≠ '\'' ∧ c ≠ '<' := fun c hc =>
    hexDigit_induction (P := fun c => c ≠ '"' ∧ c ≠ '\'' ∧ c ≠ '<') (by decide +kernel)
      (hex'.2 c hc)
  intro v
  induction v using rewriting_induction (fingerprintRegex_nonempty oldFp) with
  | nil => nofun
  | kept c s hnone ih =>
    intro d (hd : d ∈ patchFingerprint oldFp (c :: s) newFp)
    have hkept : patchFingerprint oldFp (c :: s) newFp = c :: patchFingerprint oldFp s newFp :=
      rewriteAll_kept hnone
    rw [hkept] at hd
    rcases List.mem_cons.mp hd with rfl | hd
    · exact .inl List.mem_cons_self
    · exact (ih d hd).imp_left (List.mem_cons_of_mem c)
  | found s m rest hsome ih =>
    intro d (hd : d ∈ patchFingerprint oldFp s newFp)
    have hfound : patchFingerprint oldFp s newFp = (m.take (m.length - oldFp.length) ++ newFp) ++
        patchFingerprint oldFp rest newFp :=
      rewriteAll_found (fingerprintRegex_nonempty oldFp) hsome
    rw [hfound, List.mem_append, List.mem_append] at hd
    rw [(matchFirst_eq hsome).1, List.mem_append]
    rcases hd with (hd | hd) | hd
    · exact .inl (.inl (List.mem_of_mem_take hd))
    · exact .inr (hhex d hd)
    · exact (ih d hd).imp_left .inr

/-- The rewritten text is that of the document with the new values. -/
theorem rewritten_document {d : Document} (hex : IsHex 4 oldFp) (hex' : IsHex 4 newFp)
    (outside : Unmatched oldFp (frame d.tokens)) (place : hashPlace d.render = hashIn d)
    (hquotes : '"' ∉ h ∧ '\'' ∉ h) (hlt : '<' ∉ h) : ∃ d' : Document,
      d'.tokens = patchTokens oldFp newFp (setHash h d.tokens) ∧
        d'.render = patchFingerprint oldFp (patchHashAttribute d.render h) newFp := by
  have hwell := setHash_wellFormed d.wellFormed hquotes hlt
  refine ⟨Document.mapValues ⟨setHash h d.tokens, hwell,
    (openElements_setHash h [] d.tokens).trans d.balanced⟩ _ (patch_replaces hex'), rfl, ?_⟩
  rw [patchHash_render place]
  refine (patch_framed hex hex' (tokens_framed hwell) ?_).symm
  rw [frame_setHash]
  exact patch_unmatched outside

/-! ## Its events -/

/-- Every id that is rewritten stands in a value, and where the registry reads the value it is an
    id to it and the first one. -/
structure IdsFirst (oldFp : Text) (d : Document) : Prop where
  outside : Unmatched oldFp (frame d.tokens)
  values : ∀ t ∈ d.tags, ∀ info ∈ registry (localName t.name), ∀ a ∈ t.attributes,
    info.Reads (localName a.name) →
      (attributeValue a.value).isSome = true ∧ FirstIds oldFp a.value ∧
        (info.Exact (localName a.name) → Unmatched oldFp a.value)

variable {lib : Library}

/-- The tokens are alike but for the values of a tag that the registry does not tell apart. -/
inductive TokenAlike (lib : Library) : Token → Token → Prop where
  | tag {t t' : Tag} (h : SameElement lib t.element t'.element)
    (closed : t'.selfClosing = t.selfClosing) : TokenAlike lib (.tag t) (.tag t')
  | same (token : Token) : TokenAlike lib token token

theorem eventsFrom_alike {tokens tokens' : List Token}
    (alike : List.Forall₂ (TokenAlike lib) tokens tokens') (pending : Text) :
    List.Forall₂ (Event.Same lib) (eventsFrom tokens pending) (eventsFrom tokens' pending) := by
  have hsame (events : List Event) : List.Forall₂ (Event.Same lib) events events :=
    List.forall₂_same.mpr fun event _ => .same event
  induction alike generalizing pending with
  | nil => exact hsame _
  | @cons token token' tokens tokens' htoken _ ih =>
    cases htoken with
    | @tag t t' helement closed =>
      refine List.rel_append (hsame _) (.cons ?_ (ih []))
      unfold eventOf
      dsimp only
      rw [closed]
      split_ifs
      · exact .empty helement
      · exact .start helement
    | same =>
      cases token with
      | text s => exact ih _
      | _ => exact List.rel_append (hsame _) (.cons (.same _) (ih []))

theorem succeeded_alike {events events' : List Event}
    (alike : List.Forall₂ (Event.Same lib) events events')
    (h : ∀ event ∈ events, succeeded event = true) : ∀ event ∈ events', succeeded event = true := by
  induction alike with
  | nil => nofun
  | cons hevent _ ih =>
    obtain ⟨hfirst, hrest⟩ := List.forall_mem_cons.mp h
    refine List.forall_mem_cons.mpr ⟨?_, ih hrest⟩
    cases hevent with
    | start _ => rfl
    | empty _ => rfl
    | same => exact hfirst

theorem read_value (normalizes : Normalizes lib) {raw value : Text}
    (h : attributeValue raw = some value) : lib.read raw = value := by
  unfold Library.read
  rw [normalizes raw value h]
  rfl

theorem value_alike (normalizes : Normalizes lib) (hex : IsHex 4 oldFp) (hex' : IsHex 4 newFp)
    {info : ElementInfo} {name raw : Text}
    (hvalue : info.Reads name → (attributeValue raw).isSome = true ∧ FirstIds oldFp raw ∧
      (info.Exact name → Unmatched oldFp raw)) :
    info.SameValue name (lib.read raw) (lib.read (patchFingerprint oldFp raw newFp)) := by
  by_cases hreads : info.Reads name
  · obtain ⟨hsome, first, unmatched⟩ := hvalue hreads
    obtain ⟨value, hread⟩ := Option.isSome_iff_exists.mp hsome
    obtain ⟨value', hread', hnormalized, hempty⟩ := patched_value hex hex' first hread
    rw [read_value normalizes hread, read_value normalizes hread']
    refine ⟨fun hexact => ?_, fun _ => hnormalized, fun _ => hempty⟩
    rw [patch_unmatched (unmatched hexact), hread] at hread'
    exact (Option.some.inj hread').symm
  · exact .unread hreads _ _

/-- The new hash is not read. -/
theorem hash_unread {info : ElementInfo} (hinfo : info ∈ registry "ApplicationProgram".toList) :
    ¬ info.Reads (localName "Hash".toList) := by
  have hregistry : (registry "ApplicationProgram".toList).all (fun info =>
      !decide (info.Reads (localName "Hash".toList))) = true := by decide +kernel
  rw [Option.mem_def.mp hinfo] at hregistry
  simpa using hregistry

theorem tag_alike {t : Tag} {g : Attribute → Attribute} (hname : ∀ a, (g a).name = a.name)
    (hvalue : ∀ info ∈ registry (localName t.name), ∀ a ∈ t.attributes,
      info.SameValue (localName a.name) (lib.read a.value) (lib.read (g a).value)) :
    TokenAlike lib (.tag t) (.tag { t with attributes := t.attributes.map g }) := by
  refine .tag ⟨rfl, fun info hinfo => serialize_attributes ?_⟩ rfl
  unfold SameAttributes Tag.element
  dsimp only
  rw [List.map_map, List.forall₂_map_left_iff, List.forall₂_map_right_iff]
  exact List.forall₂_same.mpr fun a ha => ⟨hname a, hvalue info hinfo a ha⟩

theorem token_alike {token : Token} (hvalue : ∀ t ∈ token.tag?,
      ∀ info ∈ registry (localName t.name), ∀ a ∈ t.attributes,
        info.SameValue (localName a.name) (lib.read a.value)
          (lib.read (patchFingerprint oldFp a.value newFp))) :
    TokenAlike lib token (token.mapValues fun v => patchFingerprint oldFp v newFp) := by
  cases token with
  | tag t => exact tag_alike (fun _ => rfl) (hvalue t rfl)
  | _ => exact .same _

theorem program_alike {t : Tag} (program : isProgram t = true)
    (hvalue : ∀ info ∈ registry (localName t.name), ∀ a ∈ t.attributes,
      info.SameValue (localName a.name) (lib.read a.value)
        (lib.read (patchFingerprint oldFp a.value newFp))) :
    TokenAlike lib (.tag t) ((Token.tag (setHashTag h t)).mapValues fun v =>
      patchFingerprint oldFp v newFp) := by
  have hset : (setHashTag h t).mapValues (fun v => patchFingerprint oldFp v newFp) =
      { t with attributes := t.attributes.map fun a => (if isHash a then { a with value := h }
        else a).mapValue fun v => patchFingerprint oldFp v newFp } := by
    unfold setHashTag Tag.mapValues
    rw [List.map_map]
    rfl
  show TokenAlike lib (.tag t) (.tag ((setHashTag h t).mapValues _))
  rw [hset]
  refine tag_alike (fun a => ?_) fun info hinfo a ha => ?_
  · split_ifs <;> rfl
  · split_ifs with hhash
    · have hname : localName t.name = "ApplicationProgram".toList := of_decide_eq_true program
      have hunread : ¬ info.Reads (localName a.name) := by
        rw [of_decide_eq_true hhash]
        exact hash_unread (hname ▸ hinfo)
      exact .unread hunread _ _
    · exact hvalue info hinfo a ha

theorem patched_alike {tokens : List Token} (hvalue : ∀ token ∈ tokens, ∀ t ∈ token.tag?,
      ∀ info ∈ registry (localName t.name), ∀ a ∈ t.attributes,
        info.SameValue (localName a.name) (lib.read a.value)
          (lib.read (patchFingerprint oldFp a.value newFp))) :
    List.Forall₂ (TokenAlike lib) tokens (patchTokens oldFp newFp (setHash h tokens)) := by
  unfold patchTokens
  induction tokens with
  | nil => exact .nil
  | cons token tokens ih =>
    obtain ⟨hfirst, hrest⟩ := List.forall_mem_cons.mp hvalue
    cases ht : token.tag?.filter isProgram with
    | some t =>
      rw [setHash_found ht]
      obtain ⟨rfl, program⟩ := program_token ht
      refine .cons (program_alike program (hfirst t rfl)) ?_
      rw [List.forall₂_map_right_iff]
      exact List.forall₂_same.mpr fun token htoken => token_alike (hrest token htoken)
    | none =>
      rw [setHash_skipped ht]
      exact .cons (token_alike hfirst) (ih hrest)

/-! ## The hash of the rewritten document -/

/-- The octets of the document do not tell the fingerprint and the hash. -/
theorem rewritten_serialized (normalizes : Normalizes lib) {reader : Text → List Event}
    (reports : Reports reader) {d : Document} (closed : Closed d) (hex : IsHex 4 oldFp)
    (hex' : IsHex 4 newFp) (ids : IdsFirst oldFp d) (place : hashPlace d.render = hashIn d)
    (hquotes : '"' ∉ h ∧ '\'' ∉ h) (hlt : '<' ∉ h) :
    serializeAppProgram lib reader (patchFingerprint oldFp (patchHashAttribute d.render h) newFp) =
      serializeAppProgram lib reader d.render := by
  obtain ⟨d', htokens, hrender⟩ := rewritten_document hex hex' ids.outside place hquotes hlt
  have hvalue (token : Token) (htoken : token ∈ d.tokens) (t : Tag) (ht : t ∈ token.tag?) :
      ∀ info ∈ registry (localName t.name), ∀ a ∈ t.attributes,
        info.SameValue (localName a.name) (lib.read a.value)
          (lib.read (patchFingerprint oldFp a.value newFp)) := fun info hinfo a ha =>
    value_alike normalizes hex hex'
      (ids.values t (List.mem_filterMap.mpr ⟨token, htoken, ht⟩) info hinfo a ha)
  have hevents : List.Forall₂ (Event.Same lib) (documentEvents d) (documentEvents d') := by
    unfold documentEvents
    rw [htokens]
    exact eventsFrom_alike (patched_alike hvalue) []
  rw [← hrender]
  refine texts_serialized ?_
  rw [reports d closed, reports d' (succeeded_alike hevents closed)]
  exact hevents

end

/-- An application file is hashed as before when its fingerprint and its hash are replaced, and so
    its signed file has the hash and the fingerprint that are written in it. -/
theorem signed_hashed_again {lib : Library} (normalizes : Normalizes lib)
    {reader : Text → List Event} (reports : Reports reader) {d : Document} (closed : Closed d)
    {oldFp : Text} (hex : IsHex 4 oldFp) (ids : IdsFirst oldFp d)
    (place : hashPlace d.render = hashIn d) :
    (∀ h newFp, IsHex 4 newFp → '"' ∉ h ∧ '\'' ∉ h → '<' ∉ h →
      serializeAppProgram lib reader
          (patchFingerprint oldFp (patchHashAttribute d.render h) newFp) =
        serializeAppProgram lib reader d.render ∧
      hashApplicationProgram lib reader
          (patchFingerprint oldFp (patchHashAttribute d.render h) newFp) =
        hashApplicationProgram lib reader d.render) ∧
    (Base64 lib → ∀ dir split dir' split', dir.read split.application = .ok d.render →
      extractFingerprint split.application = some oldFp →
      signApplication lib reader dir split = .ok (dir', split') →
        ∃ hash written, hashApplicationProgram lib reader d.render = .ok hash ∧
          dir'.read split'.application = .ok written ∧
          hashApplicationProgram lib reader written = .ok hash) := by
  have rewritten {h newFp : Text} (hex' : IsHex 4 newFp) (hquotes : '"' ∉ h ∧ '\'' ∉ h)
      (hlt : '<' ∉ h) :
      serializeAppProgram lib reader
          (patchFingerprint oldFp (patchHashAttribute d.render h) newFp) =
        serializeAppProgram lib reader d.render ∧
      hashApplicationProgram lib reader
          (patchFingerprint oldFp (patchHashAttribute d.render h) newFp) =
        hashApplicationProgram lib reader d.render := by
    have hserialized :=
      rewritten_serialized normalizes reports closed hex hex' ids place hquotes hlt
    exact ⟨hserialized, congrArg (Except.map (hashOf lib)) hserialized⟩
  refine ⟨fun h newFp hex' hquotes hlt => rewritten hex' hquotes hlt,
    fun base64 dir split dir' split' file old signed => ?_⟩
  obtain ⟨oldFp', xml, hash, result, -⟩ := signApplication_ok signed
  obtain rfl := Except.ok.inj (result.given.symm.trans file)
  obtain rfl := Option.some.inj (result.old.symm.trans old)
  obtain ⟨hquotes, hlt, -⟩ := base64_plain (base64 hash.md5)
  exact ⟨hash, _, result.hashed, result.written,
    (rewritten (fingerprintHex_hex hash) hquotes hlt).2.trans result.hashed⟩

/-! ## Signed documents -/

theorem symbol_base64 (n : Nat) : isBase64Char (Digests.symbol n) = true := by
  unfold Digests.symbol
  have halphabet : ∀ i < 64, isBase64Char (Digests.alphabet.getD i '=') = true := by
    decide +kernel
  exact halphabet _ (Nat.mod_lt _ (by decide))

theorem encode_base64 (octets : List UInt8) : (Digests.encode octets).all isBase64Char = true := by
  have hpad : isBase64Char '=' = true := by decide
  induction octets using Digests.encode.induct with
  | case1 a b c rest ih =>
    simp only [Digests.encode, List.all_cons, symbol_base64, Bool.true_and]
    exact ih
  | case2 a b => simp [Digests.encode, symbol_base64, hpad]
  | case3 a => simp [Digests.encode, symbol_base64, hpad]
  | case4 => rfl

def elementWith (name id : String) : Token := .emptyTag name.toList [("Id".toList, id.toList)]

def programTokens (inner : List Token) : List Token :=
  [.startTag "ApplicationPrograms".toList [], .startTag "ApplicationProgram".toList
      [("Id".toList, "M-00FA_A-0001-01-0000".toList), ("Hash".toList, [])]] ++ inner ++
    [.closing "ApplicationProgram".toList, .closing "ApplicationPrograms".toList]

/-- Two parameter types that are not in their order. -/
def sortedDocument : Document where
  tokens := programTokens [elementWith "ParameterType" "M-00FA_A-0001-01-0000_PT-B",
    elementWith "ParameterType" "M-00FA_A-0001-01-0000_PT-A"]
  wellFormed := by decide +kernel
  balanced := by decide

theorem sortedDocument_ids : IdsFirst "0000".toList sortedDocument where
  outside := by decide +kernel
  values := by decide +kernel

def signWith (d : Document) : Except SigningError (Directory × SplitResult) :=
  signApplication crateLibrary eventReader (directoryOf d)
    ⟨"Catalog.xml".toList, "Hardware.xml".toList, applicationFile⟩

theorem sorted_document_hashed_again :
    hashApplicationProgram crateLibrary eventReader (patchFingerprint "0000".toList
        (patchHashAttribute sortedDocument.render "AAAA".toList) "1234".toList) =
      hashApplicationProgram crateLibrary eventReader sortedDocument.render ∧
    ∃ dir' split' hash written,
      signWith sortedDocument = .ok (dir', split') ∧
      split'.application = "M-00FA_A-0001-01-BC0D.xml".toList ∧
      hashApplicationProgram crateLibrary eventReader sortedDocument.render = .ok hash ∧
      dir'.read split'.application = .ok written ∧
      hashApplicationProgram crateLibrary eventReader written = .ok hash := by
  have hname : ((signWith sortedDocument).map fun r => r.2.application) =
      .ok "M-00FA_A-0001-01-BC0D.xml".toList := by decide +kernel
  have hfile : (directoryOf sortedDocument).read applicationFile = .ok sortedDocument.render := by
    decide +kernel
  obtain ⟨⟨dir', split'⟩, hsigned, happlication⟩ := map_ok hname
  have normalizes : Author.Normalizes crateLibrary := fun _ _ h => h
  have closed : Closed sortedDocument := by decide +kernel
  obtain ⟨rewritten, signed⟩ := signed_hashed_again normalizes eventReader_reports closed
    (by decide) sortedDocument_ids (by decide +kernel)
  obtain ⟨hash, written, hhash, hwritten, hagain⟩ := signed (fun octets => encode_base64 octets)
    (directoryOf sortedDocument) _ dir' split' hfile (by decide +kernel) hsigned
  exact ⟨(rewritten "AAAA".toList "1234".toList (by decide) (by decide) (by decide)).2,
    dir', split', hash, written, hsigned, happlication, hhash, hwritten, hagain⟩

/-- Values that the fingerprint pattern rewrites and the normalization leaves or misreads: the id of
    a hardware-to-program link, one in small letters, and one after another mark. -/
inductive Misread where
  | linked | lowercase | marked

def Misread.id : Misread → String
  | .linked => "M-00FA_H-1_HP-0001-01-0000"
  | .lowercase => "M-00FA_a-0001-01-0000"
  | .marked => "M-00FA_A-1_A-0001-01-0000"

def Misread.document (m : Misread) : Document where
  tokens := programTokens [elementWith "ComObjectRef" m.id]
  wellFormed := by cases m <;> decide +kernel
  balanced := by cases m <;> decide

/-- The ids of application programs stand where they may and once in a value, but the hash of the
    rewritten document is another. -/
theorem misread_changed : Reports eventReader ∧ ∀ m : Misread,
    search fingerprintPattern (frame m.document.tokens) = none ∧
    (∀ value ∈ m.document.values,
      (value.tails.filter fun t => (matchAt fingerprintPattern t).isSome).length ≤ 1) ∧
    (∀ t ∈ m.document.tags, ∀ info ∈ registry (localName t.name), ∀ a ∈ t.attributes,
      info.Exact (localName a.name) → search fingerprintPattern a.value = none) ∧
    Closed m.document ∧ hashPlace m.document.render = hashIn m.document ∧
    hashApplicationProgram crateLibrary eventReader (patchFingerprint "0000".toList
        (patchHashAttribute m.document.render "AAAA".toList) "1234".toList) ≠
      hashApplicationProgram crateLibrary eventReader m.document.render := by
  refine ⟨eventReader_reports, fun m => ?_⟩
  cases m with
  | linked => decide +kernel
  | lowercase => decide +kernel
  | marked => decide +kernel

end KnxRs.Sign
