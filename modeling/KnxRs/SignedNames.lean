import KnxRs.HashTrees
import KnxRs.Signing

set_option autoImplicit false

/-!
# The names of signed application programs

The file is renamed by replacing the fingerprint wherever its digits stand in the name, the ids
by a pattern that looks at its place.
-/
namespace KnxRs.Sign
open Texts Patterns Codecs

/-! ## Ids of application programs -/

def IsHex (n : Nat) (s : Text) : Prop := s.length = n ∧ ∀ c ∈ s, isHexDigit c = true

instance (n : Nat) (s : Text) : Decidable (IsHex n s) :=
  @instDecidableAnd _ _ _ (List.decidableBAll _ s)

/-- `M-XXXX_A-NNNN-VV-FFFF`. -/
structure ProgramId where
  manufacturer : Text
  application : Text
  version : Text
  fingerprint : Text
  manufacturer_hex : IsHex 4 manufacturer
  application_hex : IsHex 4 application
  version_hex : IsHex 2 version
  fingerprint_hex : IsHex 4 fingerprint

namespace ProgramId
variable (id : ProgramId)

def stem : Text :=
  "_A-".toList ++ id.application ++ "-".toList ++ id.version ++ "-".toList

def text : Text := "M-".toList ++ id.manufacturer ++ id.stem ++ id.fingerprint

def filename : Text := id.text ++ ".xml".toList

end ProgramId

theorem fingerprintHex_hex (hash : Hash.AppProgramHash) : IsHex 4 (fingerprintHex hash) := by
  have hdigit : ∀ d < 16, isHexDigit (Author.upperDigit d) = true := by decide +kernel
  refine ⟨by simp [fingerprintHex, Author.upperHex], fun c hc => ?_⟩
  obtain ⟨i, -, rfl⟩ := List.mem_map.mp hc
  exact hdigit _ (Nat.mod_lt _ (by decide))

/-- The last four digits are those of the new fingerprint. -/
def ProgramId.patched (id : ProgramId) (hash : Hash.AppProgramHash) : ProgramId :=
  { id with fingerprint := fingerprintHex hash, fingerprint_hex := fingerprintHex_hex hash }

/-! ## Digits -/

theorem isHexDigit_ascii {c : Char} (h : isHexDigit c = true) : c.toNat < 0x80 := by
  have h : (((decide ('0'.val ≤ c.val) && decide (c.val ≤ '9'.val)) ||
      (decide ('A'.val ≤ c.val) && decide (c.val ≤ 'F'.val))) ||
      (decide ('a'.val ≤ c.val) && decide (c.val ≤ 'f'.val))) = true := h
  simp only [Bool.or_eq_true, decide_eq_true_eq, Bool.and_eq_true, UInt32.le_iff_toNat_le] at h
  have hval : c.toNat = c.val.toNat := rfl
  rw [hval]
  rcases h with (h | h) | h <;> exact Nat.lt_of_le_of_lt h.2 (by decide)

theorem hexDigit_induction {P : Char → Prop}
    (h : ∀ n, n < 0x80 → isHexDigit (Char.ofNat n) = true → P (Char.ofNat n)) {c : Char}
    (hc : isHexDigit c = true) : P c := by
  have hofNat : Char.ofNat c.toNat = c := Char.ofNat_toNat c
  have := h c.toNat (isHexDigit_ascii hc) (hofNat.symm ▸ hc)
  rwa [hofNat] at this

theorem isHexDigit_toLower {c : Char} (h : isHexDigit c = true) : isHexDigit c.toLower = true :=
  hexDigit_induction (P := fun c => isHexDigit c.toLower = true) (by decide +kernel) h

theorem IsHex.not_mem {n : Nat} {s : Text} (h : IsHex n s) {c : Char} (hc : isHexDigit c = false) :
    c ∉ s := by
  intro hmem
  rw [h.2 c hmem] at hc
  cases hc

/-! ## Patterns of texts -/

theorem matches_exactly {s t : Text} : Matches (exactly s) t ↔ t = s := by
  unfold Matches exactly
  rw [List.forall₂_map_left_iff]
  constructor
  · intro h
    induction h with
    | nil => rfl
    | cons hc _ ih => rw [beq_iff_eq.mp hc, ih]
  · rintro rfl
    exact List.forall₂_same.mpr fun c _ => beq_self_eq_true c

theorem matches_anyCase (s : Text) : Matches (anyCase s) s := by
  unfold Matches anyCase
  rw [List.forall₂_map_left_iff]
  exact List.forall₂_same.mpr fun c _ => beq_self_eq_true _

theorem matches_hexDigits {n : Nat} {s : Text} : Matches (hexDigits n) s ↔ IsHex n s :=
  matches_replicate

theorem anyCase_length (s : Text) : (anyCase s).length = s.length := List.length_map _

theorem exactly_foreign {s : Text} {c : Char} (h : c ∉ s) : ∀ k ∈ exactly s, k c = false := by
  intro k hk
  obtain ⟨d, hd, rfl⟩ := List.mem_map.mp hk
  exact beq_eq_false_iff_ne.mpr fun he => h (he ▸ hd)

theorem anyCase_foreign {s : Text} {c : Char} (h : c.toLower ∉ s.map Char.toLower) :
    ∀ k ∈ anyCase s, k c = false := by
  intro k hk
  obtain ⟨d, hd, rfl⟩ := List.mem_map.mp hk
  exact beq_eq_false_iff_ne.mpr fun he => h (he ▸ List.mem_map_of_mem hd)

/-! ## The pattern of a fingerprint -/

section
variable {oldFp newFp : Text}

def opens (c : Char) : Bool := c.toLower == '_'.toLower

theorem fingerprintRegex_opening : ∀ p ∈ fingerprintRegex oldFp, ∃ ks, p = opens :: ks := by
  intro p hp
  rcases List.mem_pair.mp hp with rfl | rfl
  · exact ⟨_, rfl⟩
  · exact ⟨_, rfl⟩

theorem hexDigits_foreign {n : Nat} {c : Char} (h : isHexDigit c = false) :
    ∀ k ∈ hexDigits n, k c = false := by
  intro k hk
  rw [List.eq_of_mem_replicate hk]
  exact h

theorem fingerprintRegex_foreign (hex : IsHex 4 oldFp) {c : Char} (hc : isHexDigit c = false)
    (hlower : isHexDigit c.toLower = false) (hletter : c.toLower ∉ "_ahp-".toList) :
    ∀ p ∈ fingerprintRegex oldFp, ∀ k ∈ p, k c = false := by
  have hfp : c.toLower ∉ oldFp.map Char.toLower := by
    intro hmem
    obtain ⟨d, hd, he⟩ := List.mem_map.mp hmem
    rw [← he, isHexDigit_toLower (hex.2 d hd)] at hlower
    cases hlower
  have hany {s : Text} (h : s.map Char.toLower ⊆ "_ahp-".toList) : ∀ k ∈ anyCase s, k c = false :=
    anyCase_foreign fun hm => hletter (h hm)
  have hstem {kind : Text} (h : ("_".toList ++ kind ++ "-".toList).map Char.toLower ⊆ "_ahp-".toList) :
      ∀ k ∈ stemPattern kind ++ anyCase oldFp, k c = false := by
    intro k hk
    unfold stemPattern at hk
    simp only [List.mem_append] at hk
    rcases hk with ((((hk | hk) | hk) | hk) | hk) | hk
    · exact hany h k (by simpa only [anyCase, List.map_append, List.mem_append] using hk)
    · exact hexDigits_foreign hc k hk
    · exact hany (by decide) k hk
    · exact hexDigits_foreign hc k hk
    · exact hany (by decide) k hk
    · exact anyCase_foreign hfp k hk
  intro p hp
  rcases List.mem_pair.mp hp with rfl | rfl
  · exact hstem (by decide)
  · exact hstem (by decide)

theorem opens_hex {c : Char} (h : isHexDigit c = true) : opens c = false :=
  hexDigit_induction (P := fun c => opens c = false) (by decide +kernel) h

theorem fingerprintRegex_found (hex : IsHex 4 oldFp) {p : Pattern Char}
    (hp : p ∈ fingerprintRegex oldFp) {found : Text} (h : Matches p found) :
    ∃ kind stem fp, (kind = "A".toList ∨ kind = "HP".toList) ∧ Matches (stemPattern kind) stem ∧
      fp.length = 4 ∧ found = stem ++ fp := by
  have hsplit (kind : Text) (h : Matches (stemPattern kind ++ anyCase oldFp) found) :
      ∃ stem fp, Matches (stemPattern kind) stem ∧ fp.length = 4 ∧ found = stem ++ fp := by
    obtain ⟨stem, fp, rfl, hstem, hfp⟩ := h.split
    refine ⟨stem, fp, hstem, ?_, rfl⟩
    rw [← hfp.length_eq, anyCase_length, hex.1]
  rcases List.mem_pair.mp hp with rfl | rfl
  · obtain ⟨stem, fp, hs, hfp, rfl⟩ := hsplit _ h
    exact ⟨_, stem, fp, .inl rfl, hs, hfp, rfl⟩
  · obtain ⟨stem, fp, hs, hfp, rfl⟩ := hsplit _ h
    exact ⟨_, stem, fp, .inr rfl, hs, hfp, rfl⟩

theorem rewritten_found {stem fp : Text} (hex : IsHex 4 oldFp) (hfp : fp.length = 4) :
    (stem ++ fp).take ((stem ++ fp).length - oldFp.length) ++ newFp = stem ++ newFp := by
  rw [List.length_append, hfp, hex.1, Nat.add_sub_cancel, List.take_left]

theorem patchFingerprint_length (hex : IsHex 4 oldFp) (hex' : IsHex 4 newFp) (s : Text) :
    (patchFingerprint oldFp s newFp).length = s.length := by
  refine rewriteAll_length (nonempty_of_opening fingerprintRegex_opening) ?_ s
  intro p hp found h
  obtain ⟨_, stem, fp, -, -, hfp, rfl⟩ := fingerprintRegex_found hex hp h
  rw [rewritten_found hex hfp, List.length_append, List.length_append, hex'.1, hfp]

theorem patchFingerprint_foreign (hex : IsHex 4 oldFp) {c : Char} (hc : isHexDigit c = false)
    (hlower : isHexDigit c.toLower = false) (hletter : c.toLower ∉ "_ahp-".toList) (u v : Text) :
    patchFingerprint oldFp (u ++ c :: v) newFp =
      patchFingerprint oldFp u newFp ++ c :: patchFingerprint oldFp v newFp :=
  rewriteAll_foreign (nonempty_of_opening fingerprintRegex_opening)
    (fingerprintRegex_foreign hex hc hlower hletter) u v

end

/-! ## The patched ids -/

namespace ProgramId
variable (id : ProgramId)

theorem stem_matches : Matches (stemPattern "A".toList) id.stem :=
  ((((matches_anyCase "_A-".toList).append (matches_hexDigits.mpr id.application_hex)).append
    (matches_anyCase "-".toList)).append (matches_hexDigits.mpr id.version_hex)).append
    (matches_anyCase "-".toList)

theorem stem_length : id.stem.length = 11 := id.stem_matches.length_eq.symm

theorem tail_found (rest : Text) : matchFirst (fingerprintRegex id.fingerprint)
    (id.stem ++ id.fingerprint ++ rest) = some (id.stem ++ id.fingerprint, rest) := by
  unfold matchFirst fingerprintRegex
  rw [List.findSome?_cons, matchAt_append (id.stem_matches.append (matches_anyCase _))]

theorem manufacturer_plain : ∀ c ∈ '-' :: id.manufacturer, opens c = false := by
  intro c hc
  rcases List.mem_cons.mp hc with rfl | hc
  · decide
  · exact opens_hex (id.manufacturer_hex.2 c hc)

def tail : Text :=
  'A' :: '-' :: (id.application ++ '-' :: (id.version ++ '-' :: id.fingerprint))

theorem tail_eq : id.stem ++ id.fingerprint = '_' :: id.tail := by
  unfold stem tail
  simp

theorem tail_plain : ∀ c ∈ id.tail, opens c = false := by
  intro c hc
  unfold tail at hc
  simp only [List.mem_cons, List.mem_append] at hc
  rcases hc with rfl | rfl | hc | rfl | hc | rfl | hc
  · decide
  · decide
  · exact opens_hex (id.application_hex.2 c hc)
  · decide
  · exact opens_hex (id.version_hex.2 c hc)
  · decide
  · exact opens_hex (id.fingerprint_hex.2 c hc)

theorem text_eq : id.text = 'M' :: (('-' :: id.manufacturer) ++ (id.stem ++ id.fingerprint)) := by
  unfold text
  rw [List.append_assoc]
  rfl

/-- Wherever the id stands the patched id stands afterwards. -/
theorem patch_text (hash : Hash.AppProgramHash) (u v : Text) :
    patchFingerprint id.fingerprint (u ++ id.text ++ v) (fingerprintHex hash) =
      patchFingerprint id.fingerprint u (fingerprintHex hash) ++ (id.patched hash).text ++
        patchFingerprint id.fingerprint v (fingerprintHex hash) := by
  have hsplit : u ++ id.text ++ v =
      u ++ 'M' :: (('-' :: id.manufacturer) ++ (id.stem ++ id.fingerprint ++ v)) := by
    rw [id.text_eq]
    simp
  have htail : patchFingerprint id.fingerprint
      (('-' :: id.manufacturer) ++ (id.stem ++ id.fingerprint ++ v)) (fingerprintHex hash) =
      ('-' :: id.manufacturer) ++ (id.stem ++ fingerprintHex hash ++
        patchFingerprint id.fingerprint v (fingerprintHex hash)) := by
    unfold patchFingerprint
    rw [rewriteAll_plain fingerprintRegex_opening id.manufacturer_plain,
      rewriteAll_found (nonempty_of_opening fingerprintRegex_opening) (id.tail_found v),
      rewritten_found id.fingerprint_hex id.fingerprint_hex.1]
  rw [hsplit, patchFingerprint_foreign id.fingerprint_hex (by decide) (by decide) (by decide),
    htail, (id.patched hash).text_eq]
  have hmanufacturer : (id.patched hash).manufacturer = id.manufacturer := rfl
  have hstem : (id.patched hash).stem = id.stem := rfl
  have hfingerprint : (id.patched hash).fingerprint = fingerprintHex hash := rfl
  rw [hmanufacturer, hstem, hfingerprint]
  simp only [List.append_assoc, List.cons_append]

theorem infix_skip {c : Char} {s u v : Text} (h : c ∉ u) (hin : c :: s <:+: u ++ v) :
    c :: s <:+: v := by
  induction u with
  | nil => exact hin
  | cons d u ih =>
    rw [List.cons_append, List.infix_cons_iff] at hin
    rcases hin with ⟨rest, hprefix⟩ | hin
    · exact absurd (List.cons.inj hprefix).1 (List.ne_of_not_mem_cons h)
    · exact ih (List.not_mem_of_not_mem_cons h) hin

theorem rewritten_opens {oldFp newFp : Text} (hex : IsHex 4 oldFp) : ∀ p ∈ fingerprintRegex oldFp,
    ∀ found, Matches p found → ∃ c out,
      found.take (found.length - oldFp.length) ++ newFp = c :: out ∧ opens c = true := by
  intro p hp found h
  obtain ⟨kind, stem, fp, -, hstem, hfp, rfl⟩ := fingerprintRegex_found hex hp h
  obtain ⟨c, out, hc, -, rfl⟩ := List.forall₂_cons_left_iff.mp
    (show List.Forall₂ _ (_ :: _) stem from hstem)
  exact ⟨c, out ++ newFp, rewritten_found hex hfp, hc⟩

theorem rewritten_letter {oldFp newFp : Text} (hex : IsHex 4 oldFp) (hex' : IsHex 4 newFp)
    {p : Pattern Char} (hp : p ∈ fingerprintRegex oldFp) {found : Text} (h : Matches p found) :
    'M' ∉ found.take (found.length - oldFp.length) ++ newFp := by
  intro hmem
  rcases List.mem_append.mp hmem with hmem | hmem
  · obtain ⟨k, hk, hletter⟩ := h.class_of_mem (List.mem_of_mem_take hmem)
    rw [fingerprintRegex_foreign hex (by decide) (by decide) (by decide) p hp k hk] at hletter
    cases hletter
  · exact hex'.not_mem (by decide) hmem

/-- Where a patched text continues with the stem and the old fingerprint, the new one is the
    same. -/
theorem tail_stale (hash : Hash.AppProgramHash) {s rest : Text}
    (h : patchFingerprint id.fingerprint s (fingerprintHex hash) =
      id.stem ++ id.fingerprint ++ rest) : id.fingerprint = fingerprintHex hash := by
  have hopening : ∀ p ∈ fingerprintRegex id.fingerprint, _ := fingerprintRegex_opening
  cases hm : matchFirst (fingerprintRegex id.fingerprint) s with
  | none =>
    -- The tail was there before, and it is a match.
    cases s with
    | nil => cases h
    | cons c s =>
      have hkept : patchFingerprint id.fingerprint (c :: s) (fingerprintHex hash) =
          c :: patchFingerprint id.fingerprint s (fingerprintHex hash) := rewriteAll_kept hm
      rw [hkept, id.tail_eq, List.cons_append] at h
      obtain ⟨hc, hs⟩ := List.cons.inj h
      obtain ⟨t, ht, -⟩ := rewriteAll_peel hopening (rewritten_opens id.fingerprint_hex)
        id.tail_plain hs
      have hfound := id.tail_found t
      rw [id.tail_eq, List.cons_append, ← ht, ← hc, hm] at hfound
      cases hfound
  | some m =>
    -- The stems have the kind `_A-`, so that they end together.
    obtain ⟨found, rest'⟩ := m
    obtain ⟨-, p, hp, hfound⟩ := matchFirst_eq hm
    obtain ⟨kind, stem, fp, hkind, hstem, hfp, rfl⟩ :=
      fingerprintRegex_found id.fingerprint_hex hp hfound
    have hpatched : patchFingerprint id.fingerprint s (fingerprintHex hash) = _ :=
      rewriteAll_found (nonempty_of_opening hopening) hm
    rw [hpatched, rewritten_found id.fingerprint_hex hfp, List.append_assoc, List.append_assoc] at h
    rcases hkind with rfl | rfl
    · have hlength : stem.length = id.stem.length := by
        rw [id.stem_length, ← hstem.length_eq]
        rfl
      have hfps := (List.append_inj h hlength).2
      have hfour : (fingerprintHex hash).length = id.fingerprint.length := by
        rw [(fingerprintHex_hex hash).1, id.fingerprint_hex.1]
      exact (List.append_inj hfps hfour).1.symm
    · obtain ⟨c, out, -, hout, rfl⟩ := List.forall₂_cons_left_iff.mp
        (show List.Forall₂ _ (_ :: _) stem from hstem)
      obtain ⟨d, out, hd, -, rfl⟩ := List.forall₂_cons_left_iff.mp
        (show List.Forall₂ _ (_ :: _) out from hout)
      obtain ⟨rfl, -⟩ := List.cons.inj (List.cons.inj h).2
      cases hd

/-- The old id stands nowhere in a patched text. -/
theorem text_stale (hash : Hash.AppProgramHash) (hne : id.fingerprint ≠ fingerprintHex hash)
    (s : Text) : ¬ id.text <:+: patchFingerprint id.fingerprint s (fingerprintHex hash) := by
  have hopening : ∀ p ∈ fingerprintRegex id.fingerprint, _ := fingerprintRegex_opening
  induction s using rewriting_induction (nonempty_of_opening hopening) with
  | nil =>
    intro h
    have hlength := h.length_le
    rw [id.text_eq] at hlength
    cases hlength
  | kept c s hnone ih =>
    intro h
    have hkept : patchFingerprint id.fingerprint (c :: s) (fingerprintHex hash) =
        c :: patchFingerprint id.fingerprint s (fingerprintHex hash) := rewriteAll_kept hnone
    rw [hkept, List.infix_cons_iff] at h
    rcases h with ⟨rest, hprefix⟩ | h
    · have hs : patchFingerprint id.fingerprint s (fingerprintHex hash) =
          ('-' :: id.manufacturer) ++ (id.stem ++ id.fingerprint ++ rest) := by
        rw [id.text_eq] at hprefix
        rw [← (List.cons.inj hprefix).2]
        exact List.append_assoc _ _ rest
      obtain ⟨t, -, ht⟩ := rewriteAll_peel hopening
        (rewritten_opens id.fingerprint_hex) id.manufacturer_plain hs
      exact hne (id.tail_stale hash ht)
    · exact ih h
  | found s m rest hsome ih =>
    intro h
    obtain ⟨-, p, hp, hm⟩ := matchFirst_eq hsome
    have hletter := rewritten_letter id.fingerprint_hex (fingerprintHex_hex hash) hp hm
    have hfound : patchFingerprint id.fingerprint s (fingerprintHex hash) = _ :=
      rewriteAll_found (nonempty_of_opening hopening) hsome
    rw [hfound, id.text_eq] at h
    exact ih (id.text_eq ▸ infix_skip hletter h)

end ProgramId

/-- Wherever the first id stands the second one stands afterwards, at the same place, and where they
    differ the first one is gone. -/
structure Repointed (id id' s s' : Text) : Prop where
  moved : ∀ u v, s = u ++ id ++ v → ∃ u' v', s' = u' ++ id' ++ v' ∧ u'.length = u.length
  gone : id ≠ id' → ¬ id <:+: s'

theorem ProgramId.repointed (id : ProgramId) (hash : Hash.AppProgramHash) (s : Text) :
    Repointed id.text (id.patched hash).text s
      (patchFingerprint id.fingerprint s (fingerprintHex hash)) := by
  refine ⟨fun u v hs => ?_, fun hne => id.text_stale hash ?_ s⟩
  · subst hs
    exact ⟨_, _, id.patch_text hash u v,
      patchFingerprint_length id.fingerprint_hex (fingerprintHex_hex hash) u⟩
  · intro he
    refine hne ?_
    show _ ++ id.fingerprint = _ ++ fingerprintHex hash
    rw [he]
    rfl

/-! ## The patched name -/

theorem ProgramId.extractFingerprint_filename (id : ProgramId) :
    extractFingerprint id.filename = some id.fingerprint := by
  have hplain : ∀ c ∈ "M-".toList ++ id.manufacturer, (c == '_') = false := by
    intro c hc
    rcases List.mem_append.mp hc with hc | hc
    · exact beq_eq_false_iff_ne.mpr fun he => absurd (he ▸ hc) (by decide)
    · exact beq_eq_false_iff_ne.mpr fun he => id.manufacturer_hex.not_mem (by decide) (he ▸ hc)
  have hmatches : Matches fingerprintPattern (id.stem ++ id.fingerprint) :=
    (((((matches_exactly.mpr rfl).append (matches_hexDigits.mpr id.application_hex)).append
      (matches_exactly.mpr rfl)).append (matches_hexDigits.mpr id.version_hex)).append
      (matches_exactly.mpr rfl)).append (matches_hexDigits.mpr id.fingerprint_hex)
  have hsplit : id.filename = ("M-".toList ++ id.manufacturer) ++
      ((id.stem ++ id.fingerprint) ++ ".xml".toList) := by
    unfold filename text
    simp only [List.append_assoc]
  have hsearch : search fingerprintPattern id.filename = some (id.stem ++ id.fingerprint) := by
    rw [hsplit]
    exact (search_plain hplain _).trans (search_found hmatches _)
  unfold extractFingerprint
  rw [hsearch, Option.map_some, ← id.stem_length, List.drop_left]

section
variable {old new : Text} (hne : old ≠ [])
include hne

theorem exactly_nonempty : ∀ p ∈ [exactly old], p ≠ [] := by
  intro p hp
  rw [List.mem_singleton.mp hp]
  exact fun h => hne (List.map_eq_nil_iff.mp h)

theorem replace_short {s : Text} (h : s.length < old.length) : replace old new s = s := by
  refine rewriteAll_short (exactly_nonempty hne) fun p hp => ?_
  rw [List.mem_singleton.mp hp]
  exact (List.length_map _).symm ▸ h

theorem replace_foreign {c : Char} (h : c ∉ old) (u v : Text) :
    replace old new (u ++ c :: v) = replace old new u ++ c :: replace old new v := by
  refine rewriteAll_foreign (exactly_nonempty hne) (fun p hp => ?_) u v
  rw [List.mem_singleton.mp hp]
  exact exactly_foreign h

theorem replace_block {s : Text} (h : s.length = old.length) :
    replace old new s = if s = old then new else s := by
  have hmatch (rest : Text) {found : Text} (hfound : matchFirst [exactly old] s = some (found, rest)) :
      s = old := by
    obtain ⟨rfl, p, hp, hm⟩ := matchFirst_eq hfound
    rw [List.mem_singleton.mp hp] at hm
    obtain rfl := matches_exactly.mp hm
    rw [List.length_append] at h
    rw [List.length_eq_zero_iff.mp (by omega : rest.length = 0), List.append_nil]
  split_ifs with hs
  · subst hs
    have hfound : matchFirst [exactly s] s = some (s, []) := by
      unfold matchFirst
      rw [List.findSome?_cons, matchAt_iff.mpr ⟨(List.append_nil s).symm, matches_exactly.mpr rfl⟩]
    have hreplaced : replace s new s = new ++ replace s new [] :=
      rewriteAll_found (exactly_nonempty hne) hfound
    exact hreplaced.trans (List.append_nil new)
  · cases s with
    | nil => rfl
    | cons c s =>
      have hnone : matchFirst [exactly old] (c :: s) = none := by
        cases hm : matchFirst [exactly old] (c :: s) with
        | none => rfl
        | some m => exact absurd (hmatch m.2 hm) hs
      have hkept : replace old new (c :: s) = c :: replace old new s := rewriteAll_kept hnone
      rw [hkept, replace_short hne]
      rw [← h]
      exact Nat.lt_succ_self _

end

namespace ProgramId
variable (id : ProgramId)

theorem filename_eq : id.filename = [] ++ 'M' :: ([] ++ '-' :: (id.manufacturer ++ '_' ::
    (['A'] ++ '-' :: (id.application ++ '-' :: (id.version ++ '-' :: (id.fingerprint ++ '.' ::
      "xml".toList)))))) := by
  unfold filename text stem
  simp

theorem replace_filename (new : Text) : replace id.fingerprint new id.filename =
    "M-".toList ++ (if id.manufacturer = id.fingerprint then new else id.manufacturer) ++
      ("_A-".toList ++ (if id.application = id.fingerprint then new else id.application) ++
        "-".toList ++ id.version ++ "-".toList) ++ new ++ ".xml".toList := by
  have hne : id.fingerprint ≠ [] := by
    intro h
    have hlength := id.fingerprint_hex.1
    rw [h] at hlength
    cases hlength
  have hother {c : Char} (hc : isHexDigit c = false) : c ∉ id.fingerprint :=
    id.fingerprint_hex.not_mem hc
  have hrow {s : Text} (h : IsHex 4 s) :
      replace id.fingerprint new s = if s = id.fingerprint then new else s :=
    replace_block hne (h.1.trans id.fingerprint_hex.1.symm)
  have hshort {s : Text} (h : s.length < 4) : replace id.fingerprint new s = s :=
    replace_short hne (id.fingerprint_hex.1.symm ▸ h)
  rw [filename_eq, replace_foreign hne (hother (by decide)), replace_foreign hne (hother (by decide)),
    replace_foreign hne (hother (by decide)), replace_foreign hne (hother (by decide)),
    replace_foreign hne (hother (by decide)), replace_foreign hne (hother (by decide)),
    replace_foreign hne (hother (by decide)), hrow id.manufacturer_hex, hrow id.application_hex,
    hrow id.fingerprint_hex, if_pos rfl, hshort (by decide), hshort (by decide),
    hshort (id.version_hex.1.symm ▸ by decide), hshort (by decide)]
  simp

/-- The file is named after the patched id unless the old fingerprint also stands elsewhere in the
    name and is not the new one. -/
theorem renamed_iff (hash : Hash.AppProgramHash) :
    replace id.fingerprint (fingerprintHex hash) id.filename = (id.patched hash).filename ↔
      id.fingerprint = fingerprintHex hash ∨
        id.fingerprint ≠ id.manufacturer ∧ id.fingerprint ≠ id.application := by
  have hnew := fingerprintHex_hex hash
  have hrow {s : Text} (h : IsHex 4 s) :
      (if s = id.fingerprint then fingerprintHex hash else s).length = s.length := by
    split_ifs
    · rw [hnew.1, h.1]
    · rfl
  have hname : (id.patched hash).filename = "M-".toList ++ id.manufacturer ++
      ("_A-".toList ++ id.application ++ "-".toList ++ id.version ++ "-".toList) ++
        fingerprintHex hash ++ ".xml".toList := rfl
  rw [replace_filename, hname]
  constructor
  · intro h
    simp only [List.append_assoc, List.append_cancel_left_eq] at h
    obtain ⟨hmanufacturer, hrest⟩ := List.append_inj h (hrow id.manufacturer_hex)
    have happlication := (List.append_inj (List.append_cancel_left hrest)
      (hrow id.application_hex)).1
    refine or_iff_not_imp_left.mpr fun hne => ⟨fun he => hne ?_, fun he => hne ?_⟩
    · rw [if_pos he.symm] at hmanufacturer
      rw [he, hmanufacturer]
    · rw [if_pos he.symm] at happlication
      rw [he, happlication]
  · rintro (h | ⟨hm, ha⟩)
    · rw [← h, ite_eq_right_iff.mpr fun he => he.symm, ite_eq_right_iff.mpr fun he => he.symm]
    · rw [if_neg (Ne.symm hm), if_neg (Ne.symm ha)]

end ProgramId
/-! ## The signed product -/

/-- The file of the program has the name of its patched id, and the files of the product refer to
    the program by it. -/
structure Renamed (newHash : Text) (dir dir' : Directory) (split split' : SplitResult)
    (id id' : ProgramId) : Prop where
  named : split'.application = id'.filename
  application : ∃ xml signed, dir.read split.application = .ok xml ∧
    dir'.read split'.application = .ok signed ∧
      Repointed id.text id'.text (patchHashAttribute xml newHash) signed
  others : ∀ name, name = split.catalog ∨ name = split.hardware → ∀ s, dir.read name = .ok s →
    ∃ s', dir'.read name = .ok s' ∧ Repointed id.text id'.text s s'

/-- A signed product has one id of its program exactly where the digits of the old fingerprint are
    neither those of the manufacturer nor of the application number, or are signed again. -/
theorem signed_renamed_iff {lib : Hash.Library} {reader : Text → List Hash.Event}
    {dir dir' : Directory} {split split' : SplitResult} (id : ProgramId)
    (named : split.application = id.filename) (catalog : split.catalog = "Catalog.xml".toList)
    (hardware : split.hardware = "Hardware.xml".toList)
    (signed : signApplication lib reader dir split = .ok (dir', split')) :
    ∃ xml hash, dir.read split.application = .ok xml ∧
      Hash.hashApplicationProgram lib reader xml = .ok hash ∧
        (Renamed (hashBase64 lib hash) dir dir' split split' id (id.patched hash) ↔
          id.fingerprint = fingerprintHex hash ∨
            id.fingerprint ≠ id.manufacturer ∧ id.fingerprint ≠ id.application) := by
  obtain ⟨oldFp, xml, hash, result, -⟩ := signApplication_ok signed
  have hold : oldFp = id.fingerprint := by
    have hextracted := result.old
    rw [named, id.extractFingerprint_filename] at hextracted
    exact (Option.some.inj hextracted).symm
  subst hold
  have hrenamed : split'.application = replace id.fingerprint (fingerprintHex hash) id.filename := by
    rw [result.renamed, named]
  refine ⟨xml, hash, result.given, result.hashed, ?_⟩
  rw [← id.renamed_iff hash, ← hrenamed]
  refine ⟨Renamed.named, fun hname => ⟨hname, ⟨xml, _, result.given, result.written,
    id.repointed hash _⟩, fun name hother s hs => ?_⟩⟩
  have hletter : ∃ c rest, name = c :: rest ∧ c ≠ 'M' ∧ isXml name = true := by
    rcases hother with rfl | rfl
    · exact ⟨'C', "atalog.xml".toList, catalog, by decide, catalog ▸ by decide⟩
    · exact ⟨'H', "ardware.xml".toList, hardware, by decide, hardware ▸ by decide⟩
  obtain ⟨c, rest, rfl, hc, hxml⟩ := hletter
  refine ⟨_, result.siblings _ s ?_ ?_ hxml hs, id.repointed hash s⟩
  · rw [named, ProgramId.filename_eq]
    exact fun he => hc (List.cons.inj he).1
  · rw [hname, ProgramId.filename_eq]
    exact fun he => hc (List.cons.inj he).1

/-! ## Two programs -/

/-- An application file that declares its program only, and what the reader reports of it. -/
def programDocument (id : Text) : Text × List Hash.Node :=
  ("<ApplicationPrograms><ApplicationProgram Id=\"".toList ++ id ++ "\"/></ApplicationPrograms>".toList,
    Hash.applicationProgramsOf
      [.emptyElement ⟨"ApplicationProgram".toList, [("Id".toList, id)]⟩])

/-- A library that knows the digest of one program. -/
def digestLibrary (md5 : Hash.Octets) (base64 : Text) : Hash.Library :=
  { Hash.libraryOf [] with
    md5 := fun _ => md5
    encode := fun _ => base64 }

def productOf (id : ProgramId) (h : [id.filename, "Catalog.xml".toList, "Hardware.xml".toList].Nodup) :
    Directory where
  entries := [(id.filename, .file (programDocument id.text).1),
    ("Catalog.xml".toList, .file "<Catalog/>".toList),
    ("Hardware.xml".toList, .file ("<ApplicationProgramRef RefId=\"".toList ++ id.text ++ "\"/>".toList))]
  distinct := h

def splitOf (id : ProgramId) : SplitResult :=
  ⟨"Catalog.xml".toList, "Hardware.xml".toList, id.filename⟩

def ProgramId.of (application : Text) (h : IsHex 4 application) : ProgramId where
  manufacturer := "00FA".toList
  application := application
  version := "01".toList
  fingerprint := "0000".toList
  manufacturer_hex := by decide
  application_hex := h
  version_hex := by decide
  fingerprint_hex := by decide

def signProduct (lib : Hash.Library) (id : ProgramId)
    (h : [id.filename, "Catalog.xml".toList, "Hardware.xml".toList].Nodup) :
    Except SigningError (Directory × SplitResult) :=
  signApplication lib (Hash.readerOf [programDocument id.text]) (productOf id h) (splitOf id)

def firstId : ProgramId := .of "0001".toList (by decide)

def firstHash : Hash.AppProgramHash :=
  ⟨[141, 145, 63, 130, 69, 186, 139, 71, 13, 35, 177, 195, 213, 9, 190, 107], 0x8d6b⟩

def firstLibrary : Hash.Library := digestLibrary firstHash.md5 "jZE/gkW6i0cNI7HD1Qm+aw==".toList

/-- The program 0000 and its digest: its number has the digits of the fingerprint. -/
def zeroId : ProgramId := .of "0000".toList (by decide)

def zeroHash : Hash.AppProgramHash :=
  ⟨[15, 14, 254, 166, 64, 103, 164, 174, 66, 153, 39, 73, 129, 26, 57, 185], 0x0fb9⟩

def zeroLibrary : Hash.Library := digestLibrary zeroHash.md5 "Dw7+pkBnpK5CmSdJgRo5uQ==".toList

theorem first_program_hash : Hash.hashApplicationProgram firstLibrary
    (Hash.readerOf [programDocument firstId.text]) (programDocument firstId.text).1 =
      .ok firstHash := by decide +kernel

theorem first_program_signed : (signProduct firstLibrary firstId (by decide +kernel)).map
    (fun r => r.2.application) = .ok (firstId.patched firstHash).filename := by decide +kernel

theorem first_program_renamed : ∃ dir' split',
    signProduct firstLibrary firstId (by decide +kernel) = .ok (dir', split') ∧
      Renamed (hashBase64 firstLibrary firstHash) (productOf firstId (by decide +kernel)) dir'
        (splitOf firstId) split' firstId (firstId.patched firstHash) := by
  obtain ⟨⟨dir', split'⟩, hsigned, -⟩ := map_ok first_program_signed
  obtain ⟨xml, hash, hread, hhash, hiff⟩ := signed_renamed_iff firstId rfl rfl rfl hsigned
  have hxml : (productOf firstId (by decide +kernel)).read (splitOf firstId).application =
      .ok (programDocument firstId.text).1 := by decide +kernel
  obtain rfl := Except.ok.inj (hread.symm.trans hxml)
  obtain rfl := Except.ok.inj (hhash.symm.trans first_program_hash)
  exact ⟨dir', split', hsigned, hiff.mpr (.inr ⟨by decide, by decide⟩)⟩

/-- The file of a program whose number has the digits of the fingerprint is named after another
    program. -/
theorem zero_program_misnamed : ∃ dir' split',
    signProduct zeroLibrary zeroId (by decide +kernel) = .ok (dir', split') ∧
      split'.application = "M-00FA_A-0FB9-01-0FB9.xml".toList ∧
      (zeroId.patched zeroHash).filename = "M-00FA_A-0000-01-0FB9.xml".toList ∧
      ¬ Renamed (hashBase64 zeroLibrary zeroHash) (productOf zeroId (by decide +kernel)) dir'
        (splitOf zeroId) split' zeroId (zeroId.patched zeroHash) := by
  have hsigned : (signProduct zeroLibrary zeroId (by decide +kernel)).map
      (fun r => r.2.application) = .ok "M-00FA_A-0FB9-01-0FB9.xml".toList := by decide +kernel
  obtain ⟨⟨dir', split'⟩, hsigned, hname⟩ := map_ok hsigned
  refine ⟨dir', split', hsigned, hname, by decide +kernel, fun renamed => ?_⟩
  have hnamed := renamed.named
  rw [hname] at hnamed
  exact absurd hnamed (by decide +kernel)

end KnxRs.Sign
