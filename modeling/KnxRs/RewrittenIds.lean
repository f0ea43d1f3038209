import KnxRs.SignedHashes
import KnxRs.XmlValues

set_option autoImplicit false

/-!
# Rewritten ids

The pattern of the fingerprint and the normalization of ids, which drops the fingerprint, agree
where every id that the one rewrites is the first that the other finds.
-/
namespace KnxRs.Hash
open Texts TextSearch XmlDocuments Sign

/-! ## Ids without their fingerprint -/

/-- What follows the manufacturer in an id. -/
def idWith (application version fp : Text) : Text :=
  "_A-".toList ++ (application ++ '-' :: (version ++ '-' :: fp))

theorem utf8Size_hex {c : Char} (h : isHexDigit c = true) : c.utf8Size = 1 :=
  hexDigit_induction (P := fun c => c.utf8Size = 1) (by decide +kernel) h

theorem dropOctets_append {s : Text} (h : ∀ c ∈ s, c.utf8Size = 1) (rest : Text) :
    dropOctets s.length (s ++ rest) = some rest := by
  induction s with
  | nil => cases rest <;> rfl
  | cons c s ih =>
    obtain ⟨hc, hs⟩ := List.forall_mem_cons.mp h
    rw [List.length_cons, List.cons_append, dropOctets, hc, if_pos (by omega)]
    exact ih hs

theorem splitOnce_mark {before : Text} (h : ¬ "_A-".toList <:+: before) (rest : Text) :
    splitOnce "_A-".toList (before ++ ("_A-".toList ++ rest)) = some (before, rest) := by
  have hfind : find "_A-".toList (before ++ '_' :: ("A-".toList ++ rest)) = some before.length := by
    have hmark : find "_A-".toList ('_' :: ("A-".toList ++ rest)) = some 0 :=
      find_prefix (List.prefix_append "_A-".toList rest)
    rw [find_append (by decide) h, hmark]
    rfl
  obtain ⟨⟨b, r⟩, hsplit, hlength⟩ := Option.map_eq_some_iff.mp hfind
  have hsame : before ++ ("_A-".toList ++ rest) = b ++ ("_A-".toList ++ r) := by
    rw [← List.append_assoc b]
    exact splitOnce_eq hsplit
  obtain ⟨rfl, hrest⟩ := List.append_inj hsame hlength.symm
  obtain rfl := List.append_cancel_left hrest
  exact hsplit

theorem splitSecondDash_segments {first second : Text} (hfirst : '-' ∉ first)
    (hsecond : '-' ∉ second) (rest : Text) :
    splitSecondDash (first ++ '-' :: (second ++ '-' :: rest)) =
      some (first ++ '-' :: second, '-' :: rest) := by
  unfold splitSecondDash
  rw [splitOnce_dash hfirst]
  dsimp only [Option.bind_eq_bind, Option.bind_some]
  rw [splitOnce_dash hsecond]
  rfl

/-- The first id of a text loses its fingerprint, whatever that is. -/
theorem idWith_normalized {before application version fp : Text} (h : ¬ "_A-".toList <:+: before)
    (happlication : IsHex 4 application) (hversion : IsHex 2 version) (hfp : IsHex 4 fp)
    (rest : Text) : normalizeApplProgId (before ++ (idWith application version fp ++ rest)) =
      before ++ "_A-".toList ++ (application ++ '-' :: version) ++ rest := by
  have hdrop : dropOctets 5 ('-' :: (fp ++ rest)) = some rest := by
    have hsizes : ∀ c ∈ '-' :: fp, c.utf8Size = 1 :=
      List.forall_mem_cons.mpr ⟨by decide, fun c hc => utf8Size_hex (hfp.2 c hc)⟩
    have hlength : ('-' :: fp).length = 5 := by rw [List.length_cons, hfp.1]
    rw [← hlength]
    exact dropOctets_append hsizes rest
  have hid : idWith application version fp ++ rest =
      "_A-".toList ++ (application ++ '-' :: (version ++ '-' :: (fp ++ rest))) := by
    unfold idWith
    simp only [List.append_assoc, List.cons_append]
  unfold normalizeApplProgId
  rw [hid, splitOnce_mark h]
  dsimp only
  rw [splitSecondDash_segments (happlication.not_mem (by decide)) (hversion.not_mem (by decide))]
  dsimp only
  rw [hdrop]

end KnxRs.Hash

namespace KnxRs.Sign
open Texts XmlDocuments XmlValues Patterns Hash

/-! ## Matches -/

section
variable {oldFp newFp : Text}

/-- The pattern of the fingerprint is nowhere in the text. -/
def Unmatched (oldFp s : Text) : Prop := ∀ t ∈ s.tails, matchFirst (fingerprintRegex oldFp) t = none

instance (oldFp s : Text) : Decidable (Unmatched oldFp s) :=
  inferInstanceAs (Decidable (∀ t ∈ s.tails, matchFirst (fingerprintRegex oldFp) t = none))

theorem patch_unmatched {s : Text} (h : Unmatched oldFp s) :
    patchFingerprint oldFp s newFp = s := by
  induction s with
  | nil => rfl
  | cons c s ih =>
    unfold Unmatched at h
    rw [List.tails_cons] at h
    obtain ⟨hc, hs⟩ := List.forall_mem_cons.mp h
    exact (rewriteAll_kept hc).trans (congrArg (List.cons c) (ih hs))

theorem fingerprintRegex_nonempty (oldFp : Text) : ∀ p ∈ fingerprintRegex oldFp, p ≠ [] :=
  nonempty_of_opening fingerprintRegex_opening

/-- The first match of a text, and what the pattern makes of the text. -/
theorem unmatched_or_first (oldFp s : Text) : Unmatched oldFp s ∨
    ∃ before found rest, s = before ++ (found ++ rest) ∧
      matchFirst (fingerprintRegex oldFp) (found ++ rest) = some (found, rest) ∧
      ∀ newFp, patchFingerprint oldFp s newFp =
        before ++ (found.take (found.length - oldFp.length) ++ newFp ++
          patchFingerprint oldFp rest newFp) := by
  have hnonempty := fingerprintRegex_nonempty oldFp
  induction s with
  | nil =>
    refine .inl fun t ht => ?_
    obtain rfl := List.mem_singleton.mp ht
    rfl
  | cons c s ih =>
    cases hm : matchFirst (fingerprintRegex oldFp) (c :: s) with
    | some m =>
      obtain ⟨found, rest⟩ := m
      have hs : c :: s = found ++ rest := (matchFirst_eq hm).1
      exact .inr ⟨[], found, rest, hs, hs ▸ hm, fun newFp => rewriteAll_found hnonempty hm⟩
    | none =>
      rcases ih with ih | ⟨before, found, rest, hs, hfound, hpatch⟩
      · refine .inl fun t ht => ?_
        rw [List.tails_cons] at ht
        rcases List.mem_cons.mp ht with rfl | ht
        · exact hm
        · exact ih t ht
      · refine .inr ⟨c :: before, found, rest, congrArg (List.cons c) hs, hfound, fun newFp => ?_⟩
        exact (rewriteAll_kept hm).trans (congrArg (List.cons c) (hpatch newFp))

/-! ## The parts of an id -/

theorem toLower_cases (c : Char) : c.toLower = c ∨ c.toNat < 0x80 := by
  unfold Char.toLower
  split_ifs with h
  · have hupper : c.toNat ≤ 'Z'.toNat := UInt32.le_iff_toNat_le.mp h.2
    exact .inr (Nat.lt_of_le_of_lt hupper (by decide))
  · exact .inl rfl

theorem lower_induction {P : Char → Prop} {c : Char} (h : P c.toLower)
    (ascii : ∀ n < 0x80, P (Char.ofNat n).toLower → P (Char.ofNat n)) : P c := by
  rcases toLower_cases c with hc | hc
  · exact hc ▸ h
  · have hofNat : Char.ofNat c.toNat = c := Char.ofNat_toNat c
    have hascii := ascii c.toNat hc
    rw [hofNat] at hascii
    exact hascii h

theorem isHexDigit_of_toLower {c : Char} (h : isHexDigit c.toLower = true) :
    isHexDigit c = true :=
  lower_induction (P := fun c => isHexDigit c = true) h (by decide +kernel)

theorem matches_anyHex {s t : Text} {n : Nat} (hex : IsHex n s) (h : Matches (anyCase s) t) :
    IsHex n t := by
  have hlength : t.length = n := by rw [← h.length_eq, anyCase_length, hex.1]
  refine ⟨hlength, fun c hc => ?_⟩
  obtain ⟨k, hk, hkc⟩ := h.class_of_mem hc
  obtain ⟨d, hd, rfl⟩ := List.mem_map.mp hk
  refine isHexDigit_of_toLower ?_
  rw [beq_iff_eq.mp hkc]
  exact isHexDigit_toLower (hex.2 d hd)

theorem matches_dash {s : Text} (h : Matches (anyCase "-".toList) s) : s = "-".toList := by
  obtain ⟨c, t, hc, ht, rfl⟩ := List.forall₂_cons_left_iff.mp h
  obtain rfl := List.forall₂_nil_left_iff.mp ht
  have hdash : c = '-' := lower_induction (P := fun c => c = '-')
    (show c.toLower = '-' from beq_iff_eq.mp hc) (by decide +kernel)
  rw [hdash]
  rfl

/-- A match that begins with `_A-` is an id from there on. -/
theorem found_id (hex : IsHex 4 oldFp) {found rest : Text}
    (h : matchFirst (fingerprintRegex oldFp) (found ++ rest) = some (found, rest))
    (mark : "_A-".toList <+: found ++ rest) : ∃ application version fp,
      IsHex 4 application ∧ IsHex 2 version ∧ IsHex 4 fp ∧
      found = idWith application version fp ∧
      ∀ newFp, found.take (found.length - oldFp.length) ++ newFp =
        idWith application version newFp := by
  obtain ⟨-, p, hp, hfound⟩ := matchFirst_eq h
  rcases List.mem_pair.mp hp with rfl | rfl
  · obtain ⟨stem, fp, rfl, hstem, hfp⟩ := hfound.split
    obtain ⟨stem, dash', rfl, hstem, hdash'⟩ := hstem.split
    obtain ⟨stem, version, rfl, hstem, hversion⟩ := hstem.split
    obtain ⟨stem, dash, rfl, hstem, hdash⟩ := hstem.split
    obtain ⟨kind, application, rfl, hkind, happlication⟩ := hstem.split
    obtain rfl := matches_dash hdash
    obtain rfl := matches_dash hdash'
    have hlength : kind.length = "_A-".toList.length := hkind.length_eq.symm
    have hkindEq : "_A-".toList = kind := by
      obtain ⟨more, hmore⟩ := mark
      rw [List.append_assoc, List.append_assoc, List.append_assoc, List.append_assoc,
        List.append_assoc] at hmore
      exact (List.append_inj hmore hlength.symm).1
    subst hkindEq
    refine ⟨application, version, fp, matches_hexDigits.mp happlication,
      matches_hexDigits.mp hversion, matches_anyHex hex hfp, ?_, fun newFp => ?_⟩
    · simp [idWith]
    · rw [rewritten_found hex (matches_anyHex hex hfp).1]
      simp [idWith]
  · obtain ⟨stem, fp, rfl, hstem, hfp⟩ := hfound.split
    -- The mark of a hardware-to-program id has another letter.
    obtain ⟨more, hmore⟩ := mark
    obtain ⟨c, out, -, hout, rfl⟩ := List.forall₂_cons_left_iff.mp
      (show List.Forall₂ _ (_ :: _) stem from hstem)
    obtain ⟨d, out, hd, -, rfl⟩ := List.forall₂_cons_left_iff.mp
      (show List.Forall₂ _ (_ :: _) out from hout)
    obtain ⟨rfl, -⟩ := List.cons.inj (List.cons.inj hmore).2
    cases hd

/-! ## Values -/

/-- Every match is an id of an application program, and the decoded text before it has none. -/
def FirstIds (oldFp raw : Text) : Prop :=
  ∀ i < raw.length, (matchFirst (fingerprintRegex oldFp) (raw.drop i)).isSome = true →
    "_A-".toList <+: raw.drop i ∧
      ∃ before ∈ attributeValue (raw.take i), ¬ "_A-".toList <:+: before

instance (oldFp raw : Text) : Decidable (FirstIds oldFp raw) :=
  inferInstanceAs (Decidable (∀ i < raw.length, _ → _))

theorem idWith_plain {application version fp : Text} (happlication : IsHex 4 application)
    (hversion : IsHex 2 version) (hfp : IsHex 4 fp) :
    ∀ c ∈ idWith application version fp, isPlain c = true := by
  have hhex {n : Nat} {s : Text} (hs : IsHex n s) : ∀ c ∈ s, isPlain c = true := fun c hc =>
    hexDigit_induction (P := fun c => isPlain c = true) (by decide +kernel) (hs.2 c hc)
  unfold idWith
  intro c hc
  simp only [List.mem_append, List.mem_cons] at hc
  rcases hc with hc | hc | rfl | hc | rfl | hc
  · exact List.all_eq_true.mp (by decide : "_A-".toList.all isPlain = true) c hc
  · exact hhex happlication c hc
  · decide
  · exact hhex hversion c hc
  · decide
  · exact hhex hfp c hc

theorem patched_value (hex : IsHex 4 oldFp) (hex' : IsHex 4 newFp) {raw value : Text}
    (first : FirstIds oldFp raw) (h : attributeValue raw = some value) :
    ∃ value', attributeValue (patchFingerprint oldFp raw newFp) = some value' ∧
      normalizeApplProgId value' = normalizeApplProgId value ∧ (value' = [] ↔ value = []) := by
  rcases unmatched_or_first oldFp raw with hnone | ⟨u, found, rest, hraw, hfound, hpatch⟩
  · exact ⟨value, by rw [patch_unmatched hnone, h], rfl, Iff.rfl⟩
  · have hpositive : 0 < found.length :=
      found_positive (fingerprintRegex_nonempty oldFp) hfound
    have place {s t : Text} (hst : raw = s ++ t)
        (ht : (matchFirst (fingerprintRegex oldFp) t).isSome = true) :
        "_A-".toList <+: t ∧ ∃ before ∈ attributeValue s, ¬ "_A-".toList <:+: before := by
      have hlength : s.length < raw.length := by
        cases t with
        | nil => cases ht
        | cons c t =>
          rw [hst, List.length_append, List.length_cons]
          omega
      have hplace := first s.length hlength
      rw [hst, List.drop_left, List.take_left] at hplace
      exact hplace ht
    obtain ⟨mark, before, hbefore, hno⟩ := place hraw (by rw [hfound]; rfl)
    obtain ⟨application, version, fp, happ, hver, hfp, rfl, hnew⟩ := found_id hex hfound mark
    have between {fp' : Text} (hfp' : IsHex 4 fp') (more : Text) :
        attributeValue (u ++ (idWith application version fp' ++ more)) =
          (attributeValue more).map fun m => before ++ (idWith application version fp' ++ m) :=
      attributeValue_between hbefore (List.cons_ne_nil _ _) (idWith_plain happ hver hfp') more
    have hrest : Unmatched oldFp rest := by
      intro t ht
      obtain ⟨r, hr⟩ := (List.mem_tails _ _).mp ht
      by_contra hmatch
      have hsome := Option.isSome_iff_ne_none.mpr hmatch
      obtain ⟨-, decoded, hdecoded, hmark⟩ := place (s := u ++ (idWith application version fp ++ r))
        (t := t) (by rw [hraw, ← hr]; unfold idWith; simp) hsome
      rw [Option.mem_def, between hfp] at hdecoded
      obtain ⟨m, -, rfl⟩ := Option.map_eq_some_iff.mp hdecoded
      exact hmark ⟨before, application ++ '-' :: (version ++ '-' :: fp) ++ m, by
        unfold idWith
        simp⟩
    have hvalue : (attributeValue rest).map
        (fun m => before ++ (idWith application version fp ++ m)) = some value := by
      rw [← between hfp, ← h, hraw]
    obtain ⟨after, hafter, rfl⟩ := Option.map_eq_some_iff.mp hvalue
    refine ⟨before ++ (idWith application version newFp ++ after), ?_, ?_, ?_⟩
    · have hpatched : patchFingerprint oldFp raw newFp =
          u ++ (idWith application version newFp ++ rest) := by
        rw [hpatch, hnew, patch_unmatched hrest]
      rw [hpatched, between hex', hafter]
      rfl
    · rw [idWith_normalized hno happ hver hex', idWith_normalized hno happ hver hfp]
    · unfold idWith
      simp

end

end KnxRs.Sign
