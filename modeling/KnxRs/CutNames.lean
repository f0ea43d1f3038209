import KnxRs.OctetScan
import Mathlib.Data.List.TakeWhile

set_option autoImplicit false

/-!
# Names that are cut

Attribute names are read octet by octet, and an octet inside a character is taken for a space
when it is one in Latin-1. A tag is read without a failing slice unless a name is cut there.
-/
namespace KnxRs.OctetScan
open Texts XmlDocuments XmlScan Renumber Utf8

def isNameOctet (b : UInt8) : Bool := b ≠ octet '=' && !isOctetSpace b

def readValue (body : Text) (i : Nat) : Except Fault (Option (Text × Nat)) := do
  let i := advance isOctetSpace (octets body) i
  if (octets body)[i]? ≠ some (octet '=') then return none
  else
    let i := advance isOctetSpace (octets body) (i + 1)
    match (octets body)[i]? with
    | none => return none
    | some quote =>
      if !isQuoteOctet quote then return none
      else
        let valStart := i + 1
        let i := advance (fun b => b ≠ quote) (octets body) valStart
        if size body ≤ i then return none
        else
          let value ← slice body valStart i
          return some (value, i + 1)

/-- The loop of `parse_attrs` after the tag name. -/
def parseAttrsFrom (body : Text) :
    (rounds : Nat) → (i : Nat) → List (Text × Text) → Except Fault (List (Text × Text))
  | 0, _, _ => .error .unfinished
  | rounds + 1, i, out =>
    if size body ≤ i then .ok out
    else do
      let nameStart := advance isOctetSpace (octets body) i
      let i := advance isNameOctet (octets body) nameStart
      let name ← slice body nameStart i
      match ← readValue body i with
      | none => return out
      | some (value, i) =>
        parseAttrsFrom body rounds i (if name = [] then out else out ++ [(name, value)])

def parseAttrs (body : Text) : Except Fault (List (Text × Text)) :=
  let body := stripSlash body
  parseAttrsFrom body (size body + 1) (advance (fun b => !isOctetSpace b) (octets body) 0) []

/-! ## Names on characters -/

/-- The name of an attribute is cut inside a character: one of its octets is a space, but the
character is none. -/
inductive CutAttribute : Text → Prop
  | here {spaces part rest : Text} {c : Char} (spacing : ∀ d ∈ spaces, Spacing d)
      (parts : ∀ d ∈ part, NamePart d) (other : ¬Spacing c) (cut : afterSpace c ≠ none) :
      CutAttribute (spaces ++ (part ++ c :: rest))
  | later {a : Attribute} {rest : Text} (scanned : Scanned a) (cut : CutAttribute rest) :
      CutAttribute (a.render ++ rest)

/-- The name of the tag or of an attribute is cut; the name of a tag may end with a character
whose last octets are spaces. -/
inductive CutName : Text → Prop
  | tagName {name rest : Text} {c : Char} (clear : ∀ d ∈ name, afterSpace d = none)
      (cut : afterSpace c = some false) : CutName (name ++ c :: rest)
  | attributeName {name rest : Text} {c : Char} (clear : ∀ d ∈ name, afterSpace d = none)
      (apart : afterSpace c = some true) (cut : CutAttribute rest) : CutName (name ++ c :: rest)

inductive SkippedName : Text → Except SlicePanic Text → Prop
  | whole {xs : Text} (clear : ∀ d ∈ xs, afterSpace d = none) : SkippedName xs (.ok [])
  | space {name rest : Text} {c : Char} (clear : ∀ d ∈ name, afterSpace d = none)
      (apart : afterSpace c = some true) : SkippedName (name ++ c :: rest) (.ok rest)
  | cut {name rest : Text} {c : Char} (clear : ∀ d ∈ name, afterSpace d = none)
      (cut : afterSpace c = some false) : SkippedName (name ++ c :: rest) (.error .insideCharacter)

theorem skipName_skipped (xs : Text) : SkippedName xs (skipName xs) := by
  induction xs with
  | nil => exact .whole fun d hd => absurd hd List.not_mem_nil
  | cons c cs ih =>
    rw [skipName]
    cases hc : afterSpace c with
    | some all =>
      cases all with
      | true => exact @SkippedName.space [] cs c (fun d hd => absurd hd List.not_mem_nil) hc
      | false => exact @SkippedName.cut [] cs c (fun d hd => absurd hd List.not_mem_nil) hc
    | none =>
      dsimp only
      generalize skipName cs = skipped at ih
      cases ih with
      | whole clear => exact .whole (List.forall_mem_cons.mpr ⟨hc, clear⟩)
      | space clear apart =>
        exact @SkippedName.space (c :: _) _ _ (List.forall_mem_cons.mpr ⟨hc, clear⟩) apart
      | cut clear cut =>
        exact @SkippedName.cut (c :: _) _ _ (List.forall_mem_cons.mpr ⟨hc, clear⟩) cut

inductive TakenName : Text → Except SlicePanic (Text × Text) → Prop
  | whole {name rest : Text} (parts : ∀ c ∈ name, NamePart c)
      (stops : ∀ c ∈ rest.head?, c = '=' ∨ Spacing c) : TakenName (name ++ rest) (.ok (name, rest))
  | cut {name rest : Text} {c : Char} (parts : ∀ d ∈ name, NamePart d) (other : ¬Spacing c)
      (cut : afterSpace c ≠ none) : TakenName (name ++ c :: rest) (.error .insideCharacter)

theorem takeName_taken (xs : Text) : TakenName xs (takeName xs) := by
  induction xs with
  | nil =>
    exact @TakenName.whole [] [] (fun d hd => absurd hd List.not_mem_nil) fun c hc => by cases hc
  | cons c cs ih =>
    rw [takeName]
    split_ifs with hend hspace
    · refine @TakenName.whole [] (c :: cs) (fun d hd => absurd hd List.not_mem_nil) fun d hd => ?_
      obtain rfl := Option.some.inj hd
      simp only [Bool.or_eq_true, decide_eq_true_eq, Bool.and_eq_true] at hend
      exact hend.imp id fun h => ⟨h.1, h.2⟩
    · refine @TakenName.cut [] cs c (fun d hd => absurd hd List.not_mem_nil) (fun hspacing => ?_) ?_
      · exact hend (by simp [hspacing.ascii, hspacing.space])
      · exact Option.isSome_iff_ne_none.mp hspace
    · have hpart : NamePart c := by
        refine ⟨Option.not_isSome_iff_eq_none.mp hspace, fun he => hend ?_⟩
        rw [he]
        rfl
      generalize takeName cs = taken at ih
      cases ih with
      | whole parts stops =>
        exact @TakenName.whole (c :: _) _ (List.forall_mem_cons.mpr ⟨hpart, parts⟩) stops
      | cut parts other cut =>
        exact @TakenName.cut (c :: _) _ _ (List.forall_mem_cons.mpr ⟨hpart, parts⟩) other cut

theorem high_plain {b : UInt8} (h : 0xC0 ≤ b.toNat) : isOctetSpace b = false := by
  have hall : ∀ n, n < 256 → 0xC0 ≤ n → isWhitespace (Char.ofNat n) = false := by decide +kernel
  exact hall b.toNat b.toNat_lt h

theorem encode_plain_head {c : Char} (h : ¬Spacing c) {b : UInt8}
    (hb : (String.utf8EncodeChar c).head? = some b) : isOctetSpace b = false := by
  by_cases hc : c.toNat < 0x80
  · rw [encode_ascii hc] at hb
    obtain rfl := Option.some.inj hb
    unfold isOctetSpace
    rw [octet_toNat hc, Char.ofNat_toNat]
    exact Bool.eq_false_iff.mpr fun hspace => h ⟨hc, hspace⟩
  · obtain ⟨first, more, hencode, hfirst, _⟩ := encode_other hc
    rw [hencode] at hb
    obtain rfl := Option.some.inj hb
    exact high_plain hfirst

theorem encode_spacing {c : Char} (h : Spacing c) :
    ∀ b ∈ String.utf8EncodeChar c, isOctetSpace b = true := by
  intro b hb
  rw [encode_ascii h.ascii, List.mem_singleton] at hb
  unfold isOctetSpace
  rw [hb, octet_toNat h.ascii, Char.ofNat_toNat]
  exact h.space

theorem skipSpaces_split (y : Text) : ∃ spaces, (∀ c ∈ spaces, Spacing c) ∧
    y = spaces ++ skipSpaces y ∧ ∀ x, advance isOctetSpace (octets (x ++ y)) (size x) =
      size (x ++ spaces) := by
  have hspacing {c : Char} (h : (decide (c.toNat < 0x80) && isWhitespace c) = true) :
      Spacing c := by
    simp only [Bool.and_eq_true, decide_eq_true_eq] at h
    exact ⟨h.1, h.2⟩
  refine ⟨y.takeWhile fun c => c.toNat < 0x80 && isWhitespace c, fun c hc => ?_,
    List.takeWhile_append_dropWhile.symm, fun x => ?_⟩
  · exact hspacing (List.all_eq_true.mp List.all_takeWhile c hc)
  · refine advance_octets (fun c hc => encode_spacing (hspacing hc)) (fun c hc b hb => ?_) x y
    refine encode_plain_head (fun hspace => ?_) hb
    rw [hspace.space, decide_eq_true hspace.ascii] at hc
    cases hc

theorem quoted_split {q d : Char} {xs after : Text}
    (h : xs.dropWhile (fun c => c ≠ q) = d :: after) :
    xs = xs.takeWhile (fun c => c ≠ q) ++ q :: after ∧ q ∉ xs.takeWhile (fun c => c ≠ q) := by
  have hd : d = q := by
    have hhead := List.head?_dropWhile_not (fun c => decide (c ≠ q)) xs
    rw [h] at hhead
    simpa using hhead
  have hsplit := List.takeWhile_append_dropWhile (p := fun c => decide (c ≠ q)) (l := xs)
  rw [h, hd] at hsplit
  refine ⟨hsplit.symm, fun hmem => ?_⟩
  exact of_decide_eq_true (List.all_eq_true.mp List.all_takeWhile q hmem) rfl

theorem parseAttrsFrom_cut {rounds : Nat} {xs : Text}
    (h : XmlScan.parseAttrsFrom rounds xs = .error .insideCharacter) : CutAttribute xs := by
  induction rounds generalizing xs with
  | zero => cases h
  | succ rounds ih =>
    cases xs with
    | nil => cases h
    | cons c cs =>
      rw [XmlScan.parseAttrsFrom] at h
      obtain ⟨spaces, hspaces, hxs, _⟩ := skipSpaces_split (c :: cs)
      rw [hxs]
      have htaken := takeName_taken (skipSpaces (c :: cs))
      clear hxs
      generalize skipSpaces (c :: cs) = named at htaken h
      generalize takeName named = taken at htaken h
      cases htaken with
      | cut parts other cut => exact .here hspaces parts other cut
      | @whole name rest parts stops =>
        dsimp only [bind, Except.bind] at h
        obtain ⟨beforeEq, hbeforeEq, hrest, _⟩ := skipSpaces_split rest
        rw [hrest]
        clear hrest
        split at h
        · next more hequals =>
          obtain ⟨afterEq, hafterEq, hmore, _⟩ := skipSpaces_split more
          rw [hequals, hmore]
          clear hmore
          split at h
          · next quote quoted hquote =>
            by_cases hq : isQuote quote = true
            · rw [if_pos hq] at h
              split at h
              · cases h
              · next after hafter =>
                obtain ⟨hquoted, hvalue⟩ := quoted_split hafter
                have hscanned : Scanned ⟨spaces, name, beforeEq, afterEq, quote, _⟩ :=
                  ⟨hspaces, parts, hbeforeEq, hafterEq, hq, hvalue⟩
                split at h
                · next panic hpanic =>
                  have hcut := CutAttribute.later hscanned (ih (hpanic.trans (by cases panic; rfl)))
                  rw [hquote, hquoted]
                  unfold Attribute.render at hcut
                  simpa only [List.append_assoc, List.cons_append, List.nil_append] using hcut
                · split_ifs at h
            · rw [if_neg hq] at h
              cases h
          · cases h
        · cases h

theorem takeName_cut {part : Text} (parts : ∀ d ∈ part, NamePart d) {c : Char}
    (other : ¬Spacing c) (cut : afterSpace c ≠ none) (rest : Text) :
    takeName (part ++ c :: rest) = .error .insideCharacter := by
  induction part with
  | nil =>
    have hend : (decide (c = '=') || (decide (c.toNat < 0x80) && isWhitespace c)) = false := by
      have hequals : c ≠ '=' := by
        rintro rfl
        exact cut (by decide)
      rw [decide_eq_false hequals, Bool.false_or, Bool.eq_false_iff]
      intro h
      simp only [Bool.and_eq_true, decide_eq_true_eq] at h
      exact other ⟨h.1, h.2⟩
    rw [List.nil_append, takeName, hend, if_neg Bool.false_ne_true,
      if_pos (Option.isSome_iff_ne_none.mpr cut)]
  | cons d ds ih =>
    obtain ⟨hd, hds⟩ := List.forall_mem_cons.mp parts
    rw [List.cons_append, takeName, clear_plain hd.clear, Bool.or_false,
      decide_eq_false hd.equals, if_neg Bool.false_ne_true, hd.clear, ih hds]
    rfl

theorem skipSpaces_part {part : Text} (parts : ∀ d ∈ part, NamePart d) {c : Char}
    (other : ¬Spacing c) (rest : Text) :
    skipSpaces (part ++ c :: rest) = part ++ c :: rest := by
  cases part with
  | nil =>
    refine List.dropWhile_cons_of_neg fun h => other ?_
    simp only [Bool.and_eq_true, decide_eq_true_eq] at h
    exact ⟨h.1, h.2⟩
  | cons d ds => exact skipSpaces_char (parts d List.mem_cons_self).clear _

theorem CutAttribute.fails {xs : Text} (h : CutAttribute xs) :
    ∀ rounds, xs.length ≤ rounds →
      XmlScan.parseAttrsFrom rounds xs = .error .insideCharacter := by
  induction h with
  | @here spaces part rest c spacing parts other cut =>
    intro rounds hrounds
    have hread : takeName (skipSpaces (spaces ++ (part ++ c :: rest))) =
        .error .insideCharacter := by
      rw [skipSpaces_append spacing, skipSpaces_part parts other, takeName_cut parts other cut]
    obtain ⟨d, ds, hcons⟩ := List.exists_cons_of_ne_nil
      (show spaces ++ (part ++ c :: rest) ≠ [] by simp)
    rw [hcons] at hrounds hread ⊢
    cases rounds with
    | zero => cases hrounds
    | succ rounds =>
      rw [XmlScan.parseAttrsFrom, hread]
      rfl
  | @later a rest scanned cut ih =>
    intro rounds hrounds
    have hlen := attributes_length [a]
    rw [List.flatMap_singleton, List.length_singleton] at hlen
    rw [List.length_append] at hrounds
    cases rounds with
    | zero => omega
    | succ rounds =>
      rw [parseAttrsFrom_attribute scanned, ih rounds (by omega)]
      rfl

/-- A body is read unless a name is cut. -/
theorem parseAttrs_fails_iff (body : Text) :
    XmlScan.parseAttrs body = .error .insideCharacter ↔ CutName (stripSlash body) := by
  unfold XmlScan.parseAttrs
  generalize stripSlash body = xs
  constructor
  · intro h
    have hskipped := skipName_skipped xs
    generalize skipName xs = skipped at h hskipped
    cases hskipped with
    | whole clear => cases h
    | space clear apart => exact .attributeName clear apart (parseAttrsFrom_cut h)
    | cut clear cut => exact .tagName clear cut
  · have hskip {name rest : Text} {c : Char} (clear : ∀ d ∈ name, afterSpace d = none) :
        skipName (name ++ c :: rest) = skipName (c :: rest) := by
      induction name with
      | nil => rfl
      | cons d ds ih =>
        obtain ⟨hd, hds⟩ := List.forall_mem_cons.mp clear
        rw [List.cons_append, skipName, hd]
        exact ih hds
    intro h
    cases h with
    | tagName clear cut =>
      rw [hskip clear, skipName, cut]
      rfl
    | attributeName clear apart cut =>
      rw [hskip clear, skipName, apart]
      exact cut.fails _ (Nat.le_refl _)

/-! ## Attributes on octets -/

theorem clear_octets {c : Char} :
    afterSpace c = none ↔ ∀ b ∈ String.utf8EncodeChar c, isOctetSpace b = false := by
  unfold afterSpace
  have hdrop := List.dropWhile_eq_nil_iff (p := fun b => !isOctetSpace b)
    (l := String.utf8EncodeChar c)
  simp only [Bool.not_eq_true'] at hdrop
  rw [← hdrop]
  cases (String.utf8EncodeChar c).dropWhile fun b => !isOctetSpace b with
  | nil => exact iff_of_true rfl rfl
  | cons b bs => exact iff_of_false (fun h => by cases h) fun h => by cases h

theorem name_octets {c : Char} (h : NamePart c) :
    ∀ b ∈ String.utf8EncodeChar c, isNameOctet b = true := by
  intro b hb
  have hequals : b ≠ octet '=' := by
    rintro rfl
    exact h.equals ((mem_encode (by decide)).mp hb)
  unfold isNameOctet
  rw [decide_eq_true hequals, clear_octets.mp h.clear b hb]
  rfl

theorem takeWhile_name {name : Text} (parts : ∀ c ∈ name, NamePart c) (bs : List UInt8) :
    (octets name ++ bs).takeWhile isNameOctet = octets name ++ bs.takeWhile isNameOctet := by
  refine List.takeWhile_append_of_pos fun b hb => ?_
  obtain ⟨c, hc, hb⟩ := List.mem_flatMap.mp hb
  exact name_octets (parts c hc) b hb

theorem advance_name {name rest : Text} (parts : ∀ c ∈ name, NamePart c)
    (stops : ∀ c ∈ rest.head?, c = '=' ∨ Spacing c) (x : Text) :
    advance isNameOctet (octets (x ++ (name ++ rest))) (size x) = size (x ++ name) := by
  have hrest : (octets rest).takeWhile isNameOctet = [] := by
    cases rest with
    | nil => rfl
    | cons c cs =>
      have hc : c.toNat < 0x80 := by
        rcases stops c rfl with rfl | hspace
        · decide
        · exact hspace.ascii
      rw [octets_cons, encode_ascii hc, List.singleton_append, List.takeWhile_cons_of_neg]
      rcases stops c rfl with rfl | hspace
      · decide
      · have hoctet := encode_spacing hspace (octet c) (encode_ascii hc ▸ List.mem_cons_self)
        unfold isNameOctet
        rw [hoctet, Bool.not_true, Bool.and_false]
        exact Bool.false_ne_true
  rw [advance_append, octets_append, takeWhile_name parts, hrest, List.append_nil, size_append]
  rfl

theorem advance_cut {part rest : Text} {c : Char} (parts : ∀ d ∈ part, NamePart d)
    (other : ¬Spacing c) (cut : afterSpace c ≠ none) (x : Text) :
    ∃ k, 0 < k ∧ k < (String.utf8EncodeChar c).length ∧
      advance isNameOctet (octets (x ++ (part ++ c :: rest))) (size x) =
        size x + (size part + k) := by
  have hc : ¬c.toNat < 0x80 := by
    intro hascii
    rw [afterSpace_ascii hascii] at cut
    split_ifs at cut with hspace
    · exact other ⟨hascii, hspace⟩
    · exact cut rfl
  obtain ⟨first, more, hencode, hfirst, hmore⟩ := encode_other hc
  have hfirstPart : isNameOctet first = true := by
    have hequals : first ≠ octet '=' := high_ne (by omega) (by decide)
    unfold isNameOctet
    rw [decide_eq_true hequals, high_plain hfirst]
    rfl
  have hspace : ¬∀ b ∈ String.utf8EncodeChar c, isNameOctet b = true := by
    refine fun hall => cut (clear_octets.mpr fun b hb => ?_)
    have hpart := hall b hb
    unfold isNameOctet at hpart
    exact (Bool.not_eq_true' _).mp (Bool.and_eq_true_iff.mp hpart).2
  have hshorter : ((String.utf8EncodeChar c).takeWhile isNameOctet).length <
      (String.utf8EncodeChar c).length := by
    have hstart := List.takeWhile_prefix (l := String.utf8EncodeChar c) isNameOctet
    refine Nat.lt_of_le_of_ne hstart.length_le fun hlen => ?_
    exact hspace (List.takeWhile_eq_self_iff.mp (hstart.eq_of_length hlen))
  have htake : ((octets (part ++ c :: rest)).takeWhile isNameOctet).length =
      size part + ((String.utf8EncodeChar c).takeWhile isNameOctet).length := by
    rw [octets_append, takeWhile_name parts, List.length_append, octets_cons,
      List.takeWhile_append, if_neg (Nat.ne_of_lt hshorter)]
    rfl
  refine ⟨((String.utf8EncodeChar c).takeWhile isNameOctet).length, ?_, hshorter, ?_⟩
  · rw [hencode, List.takeWhile_cons_of_pos hfirstPart]
    exact Nat.succ_pos _
  · rw [advance_append, htake]

theorem isQuoteOctet_head {c : Char} {b : UInt8}
    (h : (String.utf8EncodeChar c).head? = some b) : isQuoteOctet b = isQuote c := by
  unfold isQuoteOctet isQuote
  rw [Bool.eq_iff_iff]
  simp only [Bool.or_eq_true, decide_eq_true_eq]
  rw [← encode_head (show '"'.toNat < 0x80 by decide),
    ← encode_head (show '\''.toNat < 0x80 by decide), h, Option.some.injEq, Option.some.injEq]

def valueOf (rest : Text) : Option (Text × Text) :=
  match skipSpaces rest with
  | '=' :: rest =>
    match skipSpaces rest with
    | quote :: rest =>
      if isQuote quote then
        match rest.dropWhile fun d => d ≠ quote with
        | [] => none
        | _ :: after => some (rest.takeWhile fun d => d ≠ quote, after)
      else none
    | [] => none
  | _ => none

theorem parseAttrsFrom_valueOf (rounds : Nat) (c : Char) (cs : Text) :
    XmlScan.parseAttrsFrom (rounds + 1) (c :: cs) = (do
      let (name, rest) ← takeName (skipSpaces (c :: cs))
      match valueOf rest with
      | none => .ok []
      | some (value, after) =>
        let more ← XmlScan.parseAttrsFrom rounds after
        .ok (if name = [] then more else (name, value) :: more)) := by
  rw [XmlScan.parseAttrsFrom]
  refine congrArg (takeName (skipSpaces (c :: cs)) >>= ·) (funext fun found => ?_)
  obtain ⟨name, rest⟩ := found
  dsimp only
  unfold valueOf
  generalize skipSpaces rest = equals
  cases equals with
  | nil => rfl
  | cons d more =>
    by_cases hd : d = '='
    · subst hd
      simp only
      cases skipSpaces more with
      | nil => rfl
      | cons quote quoted =>
        by_cases hq : isQuote quote = true
        · simp only [hq, if_true]
          cases quoted.dropWhile fun d => d ≠ quote <;> rfl
        · simp [hq]
    · simp [hd]

theorem readValue_octets (x rest : Text) : readValue (x ++ rest) (size x) =
    .ok ((valueOf rest).map fun (value, after) => (value, size (x ++ rest) - size after)) := by
  obtain ⟨beforeEq, _, hrest, hadvance⟩ := skipSpaces_split rest
  unfold valueOf readValue
  rw [hadvance x]
  generalize skipSpaces rest = equals at hrest
  have hbody : x ++ rest = (x ++ beforeEq) ++ equals := by rw [hrest, List.append_assoc]
  dsimp only
  rw [hbody, octets_head]
  cases equals with
  | nil => rfl
  | cons d more =>
    by_cases hd : d = '='
    · subst hd
      have hequals : (octets ('=' :: more)).head? = some (octet '=') :=
        (head_octets (by decide) _).mpr rfl
      rw [if_neg (not_not_intro hequals)]
      simp only
      obtain ⟨afterEq, _, hmore, hadvanceEq⟩ := skipSpaces_split more
      have hstart : size (x ++ beforeEq) + 1 = size (x ++ beforeEq ++ ['=']) := by
        rw [size_append _ ['=']]
        rfl
      have hbodyEq : (x ++ beforeEq) ++ '=' :: more = (x ++ beforeEq ++ ['=']) ++ more := by simp
      rw [hbodyEq, hstart, hadvanceEq]
      generalize skipSpaces more = quoted at hmore
      have hbodyQuote : (x ++ beforeEq ++ ['=']) ++ more =
          (x ++ beforeEq ++ ['='] ++ afterEq) ++ quoted := by
        rw [hmore, List.append_assoc _ afterEq]
      rw [hbodyQuote, octets_head]
      generalize x ++ beforeEq ++ ['='] ++ afterEq = start
      cases quoted with
      | nil => rfl
      | cons quote quoted =>
        obtain ⟨b, bs, hencode⟩ := List.exists_cons_of_ne_nil (@String.utf8EncodeChar_ne_nil quote)
        have hquoteOctet : isQuoteOctet b = isQuote quote :=
          isQuoteOctet_head (by rw [hencode]; rfl)
        rw [octets_cons, hencode, List.cons_append, List.head?_cons]
        dsimp only
        rw [hquoteOctet]
        by_cases hq : isQuote quote = true
        · have hascii := quote_ascii hq
          obtain ⟨rfl, _⟩ := List.cons.inj (hencode.symm.trans (encode_ascii hascii))
          have hvalueStart : size start + 1 = size (start ++ [quote]) := by
            rw [size_append, size_ascii hascii]
            rfl
          have hbodyValue : start ++ quote :: quoted = (start ++ [quote]) ++ quoted := by simp
          simp only [hq, Bool.not_true, Bool.false_eq_true, if_false, if_true]
          rw [hvalueStart, hbodyValue, advance_quote hq]
          cases hdrop : quoted.dropWhile fun d => d ≠ quote with
          | nil =>
            have hvalue := List.takeWhile_append_dropWhile (p := fun d => decide (d ≠ quote))
              (l := quoted)
            rw [hdrop, List.append_nil] at hvalue
            rw [hvalue, if_pos (Nat.le_refl _)]
            rfl
          | cons d after =>
            obtain ⟨hvalue, _⟩ := quoted_split hdrop
            generalize quoted.takeWhile (fun d => decide (d ≠ quote)) = value at hvalue
            have hend : size ((start ++ [quote]) ++ quoted) =
                size ((start ++ [quote]) ++ value) + 1 + size after := by
              rw [hvalue, ← List.append_assoc _ value, size_append, size_ascii hascii]
              omega
            have hslice := slice_append (start ++ [quote]) value (quote :: after)
            rw [← hvalue, ← size_append] at hslice
            rw [if_neg (by omega), hslice, hend]
            dsimp only [Option.map_some]
            rw [Nat.add_sub_cancel]
            rfl
        · simp only [hq, Bool.not_false, if_true, Bool.false_eq_true, if_false]
          rfl
    · have hequals : (octets (d :: more)).head? ≠ some (octet '=') := fun h =>
        hd (Option.some.inj ((head_octets (by decide) _).mp h))
      rw [if_pos hequals]
      simp [hd]
      rfl

theorem valueOf_split {rest value after : Text} (h : valueOf rest = some (value, after)) :
    ∃ read, read ≠ [] ∧ rest = read ++ after := by
  obtain ⟨beforeEq, _, hrest, _⟩ := skipSpaces_split rest
  unfold valueOf at h
  split at h
  · next more hequals =>
    obtain ⟨afterEq, _, hmore, _⟩ := skipSpaces_split more
    split at h
    · next quote quoted hquote =>
      split_ifs at h with hq
      split at h
      · cases h
      · next after' hdrop =>
        obtain ⟨rfl, rfl⟩ := Prod.mk.inj (Option.some.inj h)
        have hquoted := (quoted_split hdrop).1
        generalize quoted.takeWhile (fun d => decide (d ≠ quote)) = value at hquoted
        refine ⟨beforeEq ++ '=' :: (afterEq ++ quote :: (value ++ [quote])), by simp, ?_⟩
        rw [hrest, hequals, hmore, hquote, hquoted]
        simp
    · cases h
  · cases h

theorem parseAttrsFrom_octets {rounds n : Nat} {x y : Text} (out : List (Text × Text))
    (hrounds : size y < rounds) (hn : y.length ≤ n) :
    parseAttrsFrom (x ++ y) rounds (size x) out =
      ((XmlScan.parseAttrsFrom n y).mapError fun _ => Fault.panic).map (out ++ ·) := by
  induction rounds generalizing n x y out with
  | zero => cases hrounds
  | succ rounds ih =>
    rw [parseAttrsFrom]
    cases y with
    | nil =>
      rw [List.append_nil, if_pos (Nat.le_refl _)]
      cases n <;> exact congrArg Except.ok (List.append_nil out).symm
    | cons c cs =>
      have hpos : 0 < size (c :: cs) := size_pos (List.cons_ne_nil c cs)
      have hinside : ¬size (x ++ c :: cs) ≤ size x := by
        rw [size_append]
        omega
      cases n with
      | zero => cases hn
      | succ n =>
        rw [if_neg hinside, parseAttrsFrom_valueOf]
        obtain ⟨spaces, _, hxs, hadvance⟩ := skipSpaces_split (c :: cs)
        have htaken := takeName_taken (skipSpaces (c :: cs))
        rw [hadvance x]
        generalize skipSpaces (c :: cs) = named at hxs htaken
        have hbody : x ++ c :: cs = (x ++ spaces) ++ named := by rw [hxs, List.append_assoc]
        rw [hbody]
        generalize takeName named = taken at htaken
        cases htaken with
        | cut parts other cut =>
          obtain ⟨k, hk, hlen, hcut⟩ := advance_cut parts other cut (x ++ spaces)
          dsimp only [bind, Except.bind]
          rw [hcut, slice_to_inside hk hlen]
          rfl
        | @whole name rest parts stops =>
          dsimp only [bind, Except.bind]
          rw [advance_name parts stops, size_append _ name, slice_append, ← size_append _ name]
          dsimp only
          rw [← List.append_assoc, readValue_octets]
          cases hvalue : valueOf rest with
          | none => exact congrArg Except.ok (List.append_nil out).symm
          | some found =>
            obtain ⟨value, after⟩ := found
            obtain ⟨read, hread, rfl⟩ := valueOf_split hvalue
            have hafter : (x ++ spaces ++ name) ++ (read ++ after) =
                (x ++ spaces ++ name ++ read) ++ after := (List.append_assoc _ _ _).symm
            have hrest : c :: cs = (spaces ++ name ++ read) ++ after := by
              rw [hxs]
              simp only [List.append_assoc]
            have hreadSize := size_pos hread
            have hreadLength := List.length_pos_iff.mpr hread
            have hsize := congrArg size hrest
            have hlength := congrArg List.length hrest
            simp only [size_append, List.length_append] at hsize hlength
            dsimp only [Option.map_some]
            rw [hafter, size_append _ after, Nat.add_sub_cancel,
              ih (n := n) _ (by omega) (by omega)]
            cases XmlScan.parseAttrsFrom n after with
            | error panic => rfl
            | ok more =>
              by_cases hname : name = []
              · simp only [hname, if_true]
              · simp only [hname, if_false]
                exact congrArg Except.ok (List.append_assoc out [(name, value)] more)

/-! ## The tag name on octets -/

theorem afterSpace_octets {c : Char} {all : Bool} (h : afterSpace c = some all) :
    ∃ clean b more, String.utf8EncodeChar c = clean ++ b :: more ∧
      (∀ d ∈ clean, isOctetSpace d = false) ∧ isOctetSpace b = true ∧
      more.all isOctetSpace = all := by
  have hsplit := List.takeWhile_append_dropWhile (p := fun b => !isOctetSpace b)
    (l := String.utf8EncodeChar c)
  have hclean : ∀ d ∈ (String.utf8EncodeChar c).takeWhile fun b => !isOctetSpace b,
      isOctetSpace d = false := fun d hd =>
    (Bool.not_eq_true' _).mp (List.all_eq_true.mp List.all_takeWhile d hd)
  have hhead := List.head?_dropWhile_not (fun b => !isOctetSpace b) (String.utf8EncodeChar c)
  unfold afterSpace at h
  cases hdrop : (String.utf8EncodeChar c).dropWhile fun b => !isOctetSpace b with
  | nil =>
    rw [hdrop] at h
    cases h
  | cons b more =>
    rw [hdrop] at h hhead hsplit
    have hb : isOctetSpace b = true := by simpa using hhead
    refine ⟨_, b, more, hsplit.symm, hclean, hb, ?_⟩
    have hall := Option.some.inj h
    rwa [List.all_cons, hb, Bool.true_and] at hall

theorem advance_tagName {name rest : Text} {c : Char} {all : Bool}
    (clear : ∀ d ∈ name, afterSpace d = none) (h : afterSpace c = some all) :
    ∃ clean b more, String.utf8EncodeChar c = clean ++ b :: more ∧ isOctetSpace b = true ∧
      more.all isOctetSpace = all ∧
      advance (fun b => !isOctetSpace b) (octets (name ++ c :: rest)) 0 =
        size name + clean.length ∧
      (octets (name ++ c :: rest)).drop (size name + clean.length) = b :: more ++ octets rest := by
  obtain ⟨clean, b, more, hencode, hclean, hb, hmore⟩ := afterSpace_octets h
  have hoctets : octets (name ++ c :: rest) =
      (octets name ++ clean) ++ (b :: more ++ octets rest) := by
    rw [octets_append, octets_cons, hencode, List.append_assoc, List.append_assoc]
  have hlen : size name + clean.length = (octets name ++ clean).length := by
    rw [List.length_append]
    rfl
  have hpassed : ∀ d ∈ octets name ++ clean, (!isOctetSpace d) = true := by
    intro d hd
    refine (Bool.not_eq_true' _).mpr ?_
    rcases List.mem_append.mp hd with hd | hd
    · obtain ⟨e, he, hd⟩ := List.mem_flatMap.mp hd
      exact clear_octets.mp (clear e he) d hd
    · exact hclean d hd
  refine ⟨clean, b, more, hencode, hb, hmore, ?_, ?_⟩
  · unfold advance
    rw [List.drop_zero, hoctets, List.takeWhile_append_of_pos hpassed, List.cons_append,
      List.takeWhile_cons_of_neg (by rw [hb]; decide), List.append_nil, hlen, Nat.zero_add]
  · rw [hoctets, hlen, List.drop_left]

theorem parseAttrsFrom_start {x rest : Text} {i : Nat} (hinside : i < size (x ++ rest))
    (hadvance : advance isOctetSpace (octets (x ++ rest)) i =
      advance isOctetSpace (octets (x ++ rest)) (size x)) (rounds : Nat)
    (out : List (Text × Text)) :
    parseAttrsFrom (x ++ rest) (rounds + 1) i out =
      parseAttrsFrom (x ++ rest) (rounds + 1) (size x) out := by
  rw [parseAttrsFrom, parseAttrsFrom, if_neg (Nat.not_le_of_lt hinside), hadvance]
  cases rest with
  | cons c cs =>
    have hpos : 0 < size (c :: cs) := size_pos (List.cons_ne_nil c cs)
    have hrest : ¬size (x ++ c :: cs) ≤ size x := by
      rw [size_append]
      omega
    rw [if_neg hrest]
  | nil =>
    have hend (p : UInt8 → Bool) : advance p (octets (x ++ [])) (size x) = size x := by
      rw [advance_append]
      rfl
    have hslice := slice_append x [] []
    have hvalue := readValue_octets x []
    rw [List.append_nil] at hslice hvalue
    dsimp only
    rw [hend, hend, List.append_nil, if_pos (Nat.le_refl _)]
    rw [size_nil, Nat.add_zero, List.append_nil] at hslice
    dsimp only [bind, Except.bind]
    rw [hslice, hvalue]
    rfl

/-- The attributes are read as they are on characters, and where these fail a slice does. -/
theorem parseAttrs_octets (body : Text) :
    parseAttrs body = (XmlScan.parseAttrs body).mapError fun _ => Fault.panic := by
  unfold parseAttrs XmlScan.parseAttrs
  generalize stripSlash body = xs
  have hskipped := skipName_skipped xs
  generalize skipName xs = skipped at hskipped
  cases hskipped with
  | whole clear =>
    have hpassed : ∀ b ∈ octets xs, (!isOctetSpace b) = true := by
      intro b hb
      obtain ⟨c, hc, hb⟩ := List.mem_flatMap.mp hb
      exact (Bool.not_eq_true' _).mpr (clear_octets.mp (clear c hc) b hb)
    have hend : advance (fun b => !isOctetSpace b) (octets xs) 0 = size xs := by
      unfold advance
      rw [List.drop_zero, List.takeWhile_eq_self_iff.mpr hpassed, Nat.zero_add]
      rfl
    dsimp only
    rw [hend, parseAttrsFrom, if_pos (Nat.le_refl _)]
    rfl
  | @space name rest c clear apart =>
    obtain ⟨clean, b, more, hencode, hb, hmore, hstart, hdrop⟩ :=
      @advance_tagName name rest c true clear apart
    have hcons : name ++ c :: rest = (name ++ [c]) ++ rest := by simp
    have hsize : size (name ++ [c]) = size name + (clean.length + (b :: more).length) := by
      rw [size_append, size_cons, hencode, List.length_append]
      rfl
    have hspaces : ∀ d ∈ b :: more, isOctetSpace d = true :=
      List.forall_mem_cons.mpr ⟨hb, List.all_eq_true.mp hmore⟩
    have hadvance : advance isOctetSpace (octets (name ++ c :: rest))
        (size name + clean.length) =
          advance isOctetSpace (octets (name ++ c :: rest)) (size (name ++ [c])) := by
      have hrest := advance_append isOctetSpace (name ++ [c]) rest
      rw [← hcons] at hrest
      rw [hrest, hsize]
      unfold advance
      rw [hdrop, List.takeWhile_append_of_pos hspaces, List.length_append]
      omega
    dsimp only
    rw [hstart]
    rw [hcons] at hadvance ⊢
    rw [parseAttrsFrom_start (by rw [size_append, hsize, List.length_cons]; omega) hadvance,
      parseAttrsFrom_octets [] (by rw [size_append, hsize]; omega) (Nat.le_refl _)]
    show _ = (XmlScan.parseAttrsFrom rest.length rest).mapError _
    cases XmlScan.parseAttrsFrom rest.length rest <;> rfl
  | @cut name rest c clear cut =>
    obtain ⟨clean, b, more, hencode, hb, hmore, hstart, hdrop⟩ :=
      @advance_tagName name rest c false clear cut
    have hsome : ¬(more.takeWhile isOctetSpace).length = more.length := by
      intro hlen
      have hall := (List.takeWhile_prefix (l := more) isOctetSpace).eq_of_length hlen
      rw [List.all_eq_true.mpr (List.takeWhile_eq_self_iff.mp hall)] at hmore
      cases hmore
    have hle := (List.takeWhile_prefix (l := more) isOctetSpace).length_le
    have hadvance : advance isOctetSpace (octets (name ++ c :: rest))
        (size name + clean.length) =
          size name + (clean.length + ((more.takeWhile isOctetSpace).length + 1)) := by
      unfold advance
      rw [hdrop, List.cons_append, List.takeWhile_cons_of_pos hb, List.takeWhile_append,
        if_neg hsome, List.length_cons, Nat.add_assoc]
    have hinside : ¬size (name ++ c :: rest) ≤ size name + clean.length := by
      rw [size_append, size_cons, hencode, List.length_append, List.length_cons]
      omega
    dsimp only
    rw [hstart, parseAttrsFrom, if_neg hinside]
    dsimp only [bind, Except.bind]
    rw [hadvance, slice_from_inside (Nat.add_pos_right _ (Nat.succ_pos _)) (by
      rw [hencode, List.length_append, List.length_cons]
      omega)]
    rfl

/-! ## Texts that are scanned without a panic -/

/-- All the scanners return: the open tags, the attributes of each, and the rewritten text. -/
structure Returns (xml : Text) (map : IdMap) : Prop where
  openTags : ∃ tags, openTags xml = .ok tags ∧
    ∀ t ∈ tags, ∃ attributes, parseAttrs t.body = .ok attributes
  rewriteIds : ∃ out, rewriteIds xml map = .ok out

theorem parseAttrs_returns_iff (body : Text) :
    (∃ attributes, parseAttrs body = .ok attributes) ↔ ¬CutName (stripSlash body) := by
  rw [← parseAttrs_fails_iff, parseAttrs_octets]
  cases XmlScan.parseAttrs body with
  | ok attributes => exact iff_of_true ⟨attributes, rfl⟩ fun h => by cases h
  | error panic =>
    cases panic
    exact iff_of_false (fun ⟨_, h⟩ => by cases h) fun h => h rfl

/-- The scanners return on a text, however it is taken apart, if and only if no open tag has a
name that is cut inside a character. -/
theorem returns_iff (xml : Text) (map : IdMap) :
    (∃ pieces tail, TakenApart xml pieces tail) ∧ ∀ pieces tail, TakenApart xml pieces tail →
      (Returns xml map ↔
        ∀ stretches, .tag stretches ∈ pieces → ¬CutName (stripSlash (Piece.body stretches))) := by
  refine ⟨exists_takenApart xml, fun pieces tail taken => ?_⟩
  obtain ⟨wellFormed, unended, rfl⟩ := taken
  have htags := openTags_pieces wellFormed unended
  constructor
  · intro returns stretches hmem
    obtain ⟨tags, hscan, hattrs⟩ := returns.openTags
    rw [openTags_octets, htags] at hscan
    rw [← parseAttrs_returns_iff]
    refine hattrs ⟨tagName (Piece.body stretches), Piece.body stretches⟩ ?_
    rw [← Except.ok.inj hscan]
    exact List.mem_filterMap.mpr ⟨_, hmem, rfl⟩
  · intro hnames
    refine ⟨⟨_, openTags_octets _, fun t ht => ?_⟩, ⟨_, rewriteIds_octets _ map⟩⟩
    rw [htags] at ht
    obtain ⟨piece, hpiece, ht⟩ := List.mem_filterMap.mp ht
    cases piece with
    | tag stretches =>
      obtain rfl := Option.some.inj ht
      exact (parseAttrs_returns_iff _).mpr (hnames stretches hpiece)
    | _ => cases ht

theorem returns_iff_sample : Returns "<a b=\"k\"/><!-- \"k\" -->".toList sampleMap := by
  have taken : TakenApart "<a b=\"k\"/><!-- \"k\" -->".toList samplePieces [] :=
    ⟨by decide, .inl rfl, by decide⟩
  refine ((returns_iff _ sampleMap).2 _ _ taken).mpr fun stretches hmem => ?_
  have hread : XmlScan.parseAttrs (Piece.body stretches) = .ok [("b".toList, "k".toList)] := by
    rcases List.mem_cons.mp hmem with h | h
    · rw [Piece.tag.inj h]
      decide
    · cases List.mem_singleton.mp h
  rw [← parseAttrs_fails_iff, hread]
  exact fun h => by cases h

/-- The last octet of `à` is a space in Latin-1, and the slice of the name ends before it. -/
theorem accent_cut :
    openTags "<a à=\"1\"/>".toList = .ok [⟨"a".toList, "a à=\"1\"/".toList⟩] ∧
      parseAttrs "a à=\"1\"/".toList = .error .panic ∧ ¬Returns "<a à=\"1\"/>".toList [] := by
  have htags : openTags "<a à=\"1\"/>".toList = .ok [⟨"a".toList, "a à=\"1\"/".toList⟩] := by
    decide +kernel
  have hpanic : parseAttrs "a à=\"1\"/".toList = .error .panic := by decide +kernel
  refine ⟨htags, hpanic, fun returns => ?_⟩
  obtain ⟨tags, hscan, hattrs⟩ := returns.openTags
  rw [htags] at hscan
  obtain ⟨attributes, hok⟩ := hattrs _ (Except.ok.inj hscan ▸ List.mem_cons_self)
  rw [hpanic] at hok
  cases hok

end KnxRs.OctetScan
