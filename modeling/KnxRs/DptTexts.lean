import KnxRs.DptRoundTrip
import Mathlib.Data.List.TakeWhile

set_option autoImplicit false

/-!
# What a text is read back as, and every value

The string types and the multi-field types against their decoders, and with the
numbers the two dispatchers.
-/
namespace KnxRs.DptTexts
open CoreTypes DptCodec DptConvert DptRoundTrip Codecs DptValue
open DptNumeric hiding decode encode

variable {octets rest : List UInt8}

/-! ## Terminated text -/

theorem terminated_append (h : ∀ octet ∈ octets, octet ≠ 0) (rest : List UInt8) :
    terminated (octets ++ 0 :: rest) = octets := by
  rw [terminated, List.takeWhile_append_of_pos (fun octet ho => decide_eq_true (h octet ho)),
    List.takeWhile_cons_of_neg (by simp), List.append_nil]

theorem ofUInt8_ofNat {ch : Char} (h : ch.toNat ≤ 0xFF) : Char.ofUInt8 (UInt8.ofNat ch.toNat) = ch := by
  have hval : (UInt8.ofNat ch.toNat).toNat = ch.toNat := by
    rw [UInt8.toNat_ofNat', Nat.mod_eq_of_lt (by omega)]
  apply Char.toNat_inj.mp
  exact hval

theorem ofNat_ne_zero {ch : Char} (h : ch.toNat ≤ 0xFF) (hnul : ch ≠ nul) :
    UInt8.ofNat ch.toNat ≠ 0 := by
  intro hzero
  refine hnul ?_
  rw [← ofUInt8_ofNat h, hzero]
  rfl

theorem latin1Octets_ok {chars : List Char} (h : latin1Octets chars = .ok octets) :
    (∀ octet ∈ octets, octet ≠ 0) ∧ octets.map Char.ofUInt8 = chars := by
  induction chars generalizing octets with
  | nil =>
    cases h
    exact ⟨nofun, rfl⟩
  | cons ch chars ih =>
    unfold latin1Octets at h
    split_ifs at h with hnul hrange
    obtain ⟨more, hmore, rfl⟩ := map_ok h
    obtain ⟨hne, hmap⟩ := ih hmore
    have hle := Nat.le_of_not_lt hrange
    refine ⟨List.forall_mem_cons.mpr ⟨ofNat_ne_zero hle hnul, hne⟩, ?_⟩
    rw [List.map_cons, ofUInt8_ofNat hle, hmap]

theorem decodeDpt24_append {s : String} (h : encodeDpt24 s = .ok octets) (rest : List UInt8) :
    decodeDpt24 (octets ++ rest) = s := by
  obtain ⟨text, htext, rfl⟩ := map_ok h
  obtain ⟨hne, hmap⟩ := latin1Octets_ok htext
  rw [decodeDpt24, List.append_assoc, List.singleton_append, terminated_append hne, ofLatin1, hmap,
    String.ofList_toList]

/-! ## UTF-8 -/

theorem utf8EncodeChar_ne_zero {ch : Char} (h : ch ≠ nul) :
    ∀ octet ∈ String.utf8EncodeChar ch, octet ≠ 0 := by
  have hpos : ch.val.toNat ≠ 0 := fun hzero => h (Char.toNat_inj.mp hzero)
  have nonzero {n : Nat} (hn : n % 256 ≠ 0) : UInt8.ofNat n ≠ 0 := by
    intro hzero
    have := congrArg UInt8.toNat hzero
    rw [UInt8.toNat_ofNat'] at this
    exact hn this
  intro octet hoctet
  unfold String.utf8EncodeChar at hoctet
  dsimp only at hoctet
  split_ifs at hoctet with h1 h2 h3
  · obtain rfl := List.mem_singleton.mp hoctet
    exact nonzero (by omega)
  all_goals
    simp only [List.mem_cons, List.not_mem_nil, or_false] at hoctet
  · rcases hoctet with rfl | rfl
    · exact nonzero (by omega)
    · exact nonzero (by omega)
  · rcases hoctet with rfl | rfl | rfl
    · exact nonzero (by omega)
    · exact nonzero (by omega)
    · exact nonzero (by omega)
  · rcases hoctet with rfl | rfl | rfl | rfl
    · exact nonzero (by omega)
    · exact nonzero (by omega)
    · exact nonzero (by omega)
    · exact nonzero (by omega)

theorem toUTF8_octets (s : String) :
    s.toUTF8.data.toList = s.toList.flatMap String.utf8EncodeChar := by
  rw [String.toUTF8_eq_toByteArray, ← String.utf8Encode_toList, List.utf8Encode]
  exact congrArg Array.toList List.data_toByteArray

theorem toUTF8_ne_zero {s : String} (h : nul ∉ s.toList) :
    ∀ octet ∈ s.toUTF8.data.toList, octet ≠ 0 := by
  rw [toUTF8_octets]
  intro octet hoctet
  obtain ⟨ch, hch, hmem⟩ := List.mem_flatMap.mp hoctet
  exact utf8EncodeChar_ne_zero (fun hnul => h (hnul ▸ hch)) octet hmem

theorem fromUTF8?_toUTF8 (s : String) : String.fromUTF8? s.toUTF8 = some s := by
  unfold String.fromUTF8?
  rw [String.toUTF8_eq_toByteArray, dif_pos s.isValidUTF8]
  rfl

theorem decodeDpt28_append {s : String} (h : encodeDpt28 s = .ok octets) (rest : List UInt8) :
    decodeDpt28 (octets ++ rest) = .ok s := by
  unfold encodeDpt28 at h
  split_ifs at h with hnul
  cases h
  unfold decodeDpt28
  rw [if_neg (by simp), List.append_assoc, List.singleton_append,
    terminated_append (toUTF8_ne_zero hnul)]
  have hbytes : (⟨s.toUTF8.data.toList.toArray⟩ : ByteArray) = s.toUTF8 := rfl
  rw [hbytes, fromUTF8?_toUTF8]

/-! ## Text of fourteen octets -/

theorem terminated_padded (h : ∀ octet ∈ octets, octet ≠ 0) (n : Nat) :
    terminated (octets ++ List.replicate n 0) = octets := by
  cases n with
  | zero =>
    rw [List.replicate_zero, List.append_nil]
    exact List.takeWhile_eq_self_iff.mpr fun octet ho => decide_eq_true (h octet ho)
  | succ n => exact terminated_append h _

def charLimit (dpt : Dpt) : Nat := if dpt.sub = 0 then 0x7F else 0xFF

theorem charLimit_le (dpt : Dpt) : charLimit dpt ≤ 0xFF := by
  unfold charLimit
  split_ifs <;> decide

theorem le_charLimit (dpt : Dpt) : 0x7F ≤ charLimit dpt := by
  unfold charLimit
  split_ifs <;> decide

/-- The octets of a text that fit the character set and end no text. -/
structure Printable (dpt : Dpt) (octets : List UInt8) : Prop where
  short : octets.length ≤ dpt16Len
  nonzero : ∀ octet ∈ octets, octet ≠ 0
  inSet : ∀ octet ∈ octets, octet.toNat ≤ charLimit dpt

theorem charOctet_bounds (dpt : Dpt) {ch : Char} (h : ch ≠ nul) :
    charOctet (charLimit dpt) ch ≠ 0 ∧ (charOctet (charLimit dpt) ch).toNat ≤ charLimit dpt := by
  have hlimit := charLimit_le dpt
  unfold charOctet
  split_ifs with hle
  · refine ⟨ofNat_ne_zero (Nat.le_trans hle hlimit) h, ?_⟩
    rw [UInt8.toNat_ofNat', Nat.mod_eq_of_lt (by omega)]
    exact hle
  · exact ⟨by decide, Nat.le_trans (by decide) (le_charLimit dpt)⟩

theorem charOctet_ofUInt8 {dpt : Dpt} {octet : UInt8} (h : octet.toNat ≤ charLimit dpt) :
    charOctet (charLimit dpt) (Char.ofUInt8 octet) = octet := by
  unfold charOctet
  have hval : (Char.ofUInt8 octet).toNat = octet.toNat := rfl
  rw [hval, if_pos h, UInt8.ofNat_toNat]

def dpt16Text (dpt : Dpt) (s : String) : List UInt8 :=
  ((s.toList.takeWhile (· ≠ nul)).take dpt16Len).map (charOctet (charLimit dpt))

theorem encodeDpt16_eq (dpt : Dpt) (s : String) : encodeDpt16 dpt s =
    dpt16Text dpt s ++ List.replicate (dpt16Len - (dpt16Text dpt s).length) 0 := rfl

theorem dpt16Text_printable (dpt : Dpt) (s : String) : Printable dpt (dpt16Text dpt s) := by
  have bounds : ∀ octet ∈ dpt16Text dpt s, octet ≠ 0 ∧ octet.toNat ≤ charLimit dpt := by
    intro octet hoctet
    obtain ⟨ch, hch, rfl⟩ := List.mem_map.mp hoctet
    have hkept := List.mem_takeWhile_imp (List.mem_of_mem_take hch)
    exact charOctet_bounds dpt (of_decide_eq_true hkept)
  refine ⟨?_, fun octet ho => (bounds octet ho).1, fun octet ho => (bounds octet ho).2⟩
  rw [dpt16Text, List.length_map, List.length_take]
  exact Nat.min_le_left _ _

theorem encodeDpt16_length (dpt : Dpt) (s : String) : (encodeDpt16 dpt s).length = dpt16Len := by
  have := (dpt16Text_printable dpt s).short
  rw [encodeDpt16_eq, List.length_append, List.length_replicate]
  omega

theorem dpt16Text_ofLatin1 {dpt : Dpt} (h : Printable dpt octets) :
    dpt16Text dpt (ofLatin1 octets) = octets := by
  have nonnul : ∀ ch ∈ octets.map Char.ofUInt8, decide (ch ≠ nul) = true := by
    intro ch hch
    obtain ⟨octet, ho, rfl⟩ := List.mem_map.mp hch
    refine decide_eq_true fun hnul => h.nonzero octet ho (UInt8.toNat_inj.mp ?_)
    exact congrArg Char.toNat hnul
  have hshort : (octets.map Char.ofUInt8).length ≤ dpt16Len := by
    rw [List.length_map]
    exact h.short
  rw [dpt16Text, ofLatin1, String.toList_ofList, List.takeWhile_eq_self_iff.mpr nonnul,
    List.take_of_length_le hshort, List.map_map]
  refine (List.map_congr_left fun octet ho => ?_).trans (List.map_id octets)
  exact charOctet_ofUInt8 (h.inSet octet ho)

theorem decodeDpt16_append (dpt : Dpt) (s : String) (rest : List UInt8) :
    decodeDpt16 dpt (encodeDpt16 dpt s ++ rest) = .ok (ofLatin1 (dpt16Text dpt s)) := by
  have hlen := encodeDpt16_length dpt s
  have text := dpt16Text_printable dpt s
  have hterminated : terminated ((encodeDpt16 dpt s ++ rest).take dpt16Len) = dpt16Text dpt s := by
    rw [← hlen, List.take_left, encodeDpt16_eq]
    exact terminated_padded text.nonzero _
  have hascii : ¬(dpt.sub = 0 ∧ (dpt16Text dpt s).any (fun b => b > 0x7F) = true) := by
    rintro ⟨hsub, hany⟩
    obtain ⟨octet, ho, hgt⟩ := List.any_eq_true.mp hany
    have hle := text.inSet octet ho
    rw [charLimit, if_pos hsub] at hle
    exact absurd (of_decide_eq_true hgt) (UInt8.not_lt.mpr hle)
  unfold decodeDpt16
  dsimp only
  rw [if_neg (by rw [List.length_append]; omega), hterminated, if_neg hascii]

theorem encodeDpt16_again (dpt : Dpt) (s : String) :
    encodeDpt16 dpt (ofLatin1 (dpt16Text dpt s)) = encodeDpt16 dpt s := by
  rw [encodeDpt16_eq, dpt16Text_ofLatin1 (dpt16Text_printable dpt s), encodeDpt16_eq]

/-! ## Values of several fields -/

variable {dpt : Dpt} {v : DptValue} {b : List UInt8}

theorem compound_recovers (hvariable : dpt.main ≠ dpt267) (h : encodeCompound dpt v = .ok b) :
    Recovers (decodeCompound dpt) (encodeCompound dpt) variant v b := by
  cases v with
  | bytes octets =>
    have hencode := h
    unfold encodeCompound at h
    dsimp only at h
    rw [if_neg hvariable] at h
    split at h
    · cases h
    · next n hn =>
      split_ifs at h with hlen
      cases h
      have hlen := not_not.mp hlen
      have reads (rest : List UInt8) : decodeCompound dpt (b ++ rest) = .ok (.bytes b) := by
        unfold decodeCompound
        rw [if_neg hvariable, hn]
        dsimp only
        rw [if_neg (by rw [List.length_append]; omega), ← hlen, List.take_left]
      exact .ofOctets reads hencode (fun _ => rfl)
  | _ => cases h

theorem dpt267_read (hvariable : dpt.main = dpt267) (h : encodeCompound dpt v = .ok b) :
    v = .bytes b ∧ decodeCompound dpt b = .ok (.bytes b) := by
  cases v with
  | bytes octets =>
    unfold encodeCompound at h
    dsimp only at h
    rw [if_pos hvariable] at h
    split_ifs at h with hshort hnul
    · cases h
      refine ⟨rfl, ?_⟩
      unfold decodeCompound
      rw [if_pos hvariable, if_neg hshort]
  | _ => cases h

/-! ## Every value -/

def Scaled (dpt : Dpt) : Prop :=
  dpt.main = 9 ∨ dpt.main = 14 ∨ dpt.main = 5 ∧ (dpt.sub = 1 ∨ dpt.sub = 3)

theorem low_mask {mask octet : UInt8} (n : Nat) (hmask : mask.toNat = 2 ^ n - 1)
    (h : octet ≤ mask) : octet &&& mask = octet := by
  rw [UInt8.le_iff_toNat_le, hmask] at h
  have hpos : 0 < 2 ^ n := Nat.two_pow_pos n
  apply UInt8.toNat_inj.mp
  rw [UInt8.toNat_and, hmask, Nat.and_two_pow_sub_one_eq_mod]
  exact Nat.mod_eq_of_lt (by omega)

theorem numeric_recovers (unscaled : ¬Scaled dpt) (h : DptNumeric.encode dpt v = .ok b) :
    Recovers (DptNumeric.decode dpt) (DptNumeric.encode dpt) variant v b := by
  unfold DptNumeric.decode DptNumeric.encode at *
  split at h
  · exact dpt1_recovers h
  · exact masked_recovers (fun _ => low_mask 2 rfl) h
  · exact masked_recovers (fun _ => low_mask 4 rfl) h
  · exact dpt4_recovers dpt h
  · next hmain =>
    exact dpt5_recovers (fun hsub => unscaled (.inr (.inr ⟨hmain, .inl hsub⟩)))
      (fun hsub => unscaled (.inr (.inr ⟨hmain, .inr hsub⟩))) h
  · exact dpt6_recovers dpt h
  · exact dpt7_recovers h
  · exact dpt8_recovers h
  · next hmain => exact absurd (.inl hmain) unscaled
  · exact dpt10_recovers h
  · exact dpt12_recovers h
  · exact dpt13_recovers h
  · next hmain => exact absurd (.inr (.inl hmain)) unscaled
  · exact dpt15_recovers h
  · exact masked_recovers (fun _ => low_mask 6 rfl) h
  · exact dpt18_recovers h
  · exact masked_recovers (fun _ => low_mask 7 rfl) h
  · exact dpt27_recovers h
  · exact dpt29_recovers h
  · exact dpt232_recovers h
  · exact masked_recovers (fun _ => low_mask 8 rfl) h
  · exact masked_recovers (fun _ => low_mask 8 rfl) h
  · exact masked_recovers (fun _ => low_mask 8 rfl) h
  · exact masked_recovers (fun _ => low_mask 8 rfl) h
  · exact masked_recovers (fun _ => low_mask 8 rfl) h
  · exact uintBe_recovers (.inl rfl) h
  · exact uintBe_recovers (.inr rfl) h
  · exact masked_recovers (fun _ => low_mask 2 rfl) h
  · exact masked_recovers (fun _ => low_mask 3 rfl) h
  · cases h

/-- A value is read back, and encoded again, as what it was encoded as. -/
def ReadBack (dpt : Dpt) (v : DptValue) (b : List UInt8) (v' : DptValue) : Prop :=
  decode dpt b = .ok v' ∧ encode dpt v' = .ok b ∧
    (v.variant = v'.variant → dpt.main ≠ 16 → v' = v) ∧
    (dpt.main ≠ dpt267 → ∀ rest, decode dpt (b ++ rest) = .ok v')

theorem ReadBack.of_reads {v' : DptValue} (reads : ∀ rest, decode dpt (b ++ rest) = .ok v')
    (again : encode dpt v' = .ok b)
    (same : v.variant = v'.variant → dpt.main ≠ 16 → v' = v) : ReadBack dpt v b v' := by
  have hexact := reads []
  rw [List.append_nil] at hexact
  exact ⟨hexact, again, same, fun _ => reads⟩

theorem decode_string (hmain : dpt.main = 16 ∨ dpt.main = 24 ∨ dpt.main = 28)
    (payload : List UInt8) : decode dpt payload = decodeString dpt payload := by
  unfold decode
  rcases hmain with hmain | hmain | hmain
  all_goals
    rw [hmain]
    rfl

theorem encode_string (hmain : dpt.main = 16 ∨ dpt.main = 24 ∨ dpt.main = 28) (v : DptValue) :
    encode dpt v = encodeString dpt v := by
  unfold encode
  rcases hmain with hmain | hmain | hmain
  all_goals
    rw [hmain]
    rfl

theorem string16_readBack (hmain : dpt.main = 16) (s : String) :
    ReadBack dpt (.text s) (encodeDpt16 dpt s) (.text (ofLatin1 (dpt16Text dpt s))) := by
  have hencode (s : String) : encode dpt (.text s) = .ok (encodeDpt16 dpt s) := by
    rw [encode_string (.inl hmain), encodeString, hmain]
    rfl
  refine .of_reads (fun rest => ?_) ?_ (fun _ hne => absurd hmain hne)
  · have hdecode : decode dpt (encodeDpt16 dpt s ++ rest) =
        (decodeDpt16 dpt (encodeDpt16 dpt s ++ rest)).map .text := by
      rw [decode_string (.inl hmain), decodeString, hmain]
      rfl
    rw [hdecode, decodeDpt16_append]
    rfl
  · rw [hencode, encodeDpt16_again]

theorem string_readBack (hmain : dpt.main = 16 ∨ dpt.main = 24 ∨ dpt.main = 28)
    (h : encodeString dpt v = .ok b) : ∃ v', ReadBack dpt v b v' := by
  have again := (encode_string hmain v).trans h
  have hdecode := decode_string hmain
  cases v with
  | text s =>
    unfold encodeString at h
    rcases hmain with hmain | hmain | hmain
    · rw [hmain] at h
      obtain rfl := Except.ok.inj h
      exact ⟨_, string16_readBack hmain s⟩
    · rw [hmain] at h
      have hread (payload : List UInt8) :
          decode dpt payload = .ok (.text (decodeDpt24 payload)) := by
        rw [hdecode, decodeString, hmain]
        rfl
      refine ⟨.text s, .of_reads (fun rest => ?_) again (fun _ _ => rfl)⟩
      rw [hread, decodeDpt24_append h]
    · rw [hmain] at h
      have hread (payload : List UInt8) :
          decode dpt payload = (decodeDpt28 payload).map .text := by
        rw [hdecode, decodeString, hmain]
        rfl
      refine ⟨.text s, .of_reads (fun rest => ?_) again (fun _ _ => rfl)⟩
      rw [hread, decodeDpt28_append h]
      rfl
  | _ => cases h

theorem decode_other (hmain : ¬(dpt.main = 16 ∨ dpt.main = 24 ∨ dpt.main = 28)) :
    decode dpt =
      if handles dpt.main then decodeCompound dpt else DptNumeric.decode dpt := by
  funext payload
  simp only [not_or] at hmain
  unfold decode
  split
  · exact absurd ‹_› hmain.1
  · exact absurd ‹_› hmain.2.1
  · exact absurd ‹_› hmain.2.2
  · split_ifs <;> rfl

theorem encode_other (hmain : ¬(dpt.main = 16 ∨ dpt.main = 24 ∨ dpt.main = 28)) :
    encode dpt =
      if handles dpt.main then encodeCompound dpt else DptNumeric.encode dpt := by
  funext v
  simp only [not_or] at hmain
  unfold encode
  split
  · exact absurd ‹_› hmain.1
  · exact absurd ‹_› hmain.2.1
  · exact absurd ‹_› hmain.2.2
  · split_ifs <;> rfl

theorem encoded_readBack (unscaled : ¬Scaled dpt) (h : encode dpt v = .ok b) :
    ∃ v', ReadBack dpt v b v' := by
  by_cases hmain : dpt.main = 16 ∨ dpt.main = 24 ∨ dpt.main = 28
  · exact string_readBack hmain ((encode_string hmain v).symm.trans h)
  · have hdecode := decode_other hmain
    have hencode := encode_other hmain
    have recovered (hrec : Recovers (decode dpt) (encode dpt) variant v b) :
        ∃ v', ReadBack dpt v b v' := by
      obtain ⟨v', reads, again, same⟩ := hrec
      exact ⟨v', .of_reads reads again (fun hform _ => same hform)⟩
    by_cases hhandles : handles dpt.main = true
    · rw [if_pos hhandles] at hdecode hencode
      rw [hencode] at h
      by_cases hvariable : dpt.main = dpt267
      · obtain ⟨rfl, hread⟩ := dpt267_read hvariable h
        refine ⟨.bytes b, ?_, ?_, fun _ _ => rfl, fun hne => absurd hvariable hne⟩
        · rw [hdecode]
          exact hread
        · rw [hencode]
          exact h
      · refine recovered ?_
        rw [hdecode, hencode]
        exact compound_recovers hvariable h
    · rw [if_neg hhandles] at hdecode hencode
      rw [hencode] at h
      refine recovered ?_
      rw [hdecode, hencode]
      exact numeric_recovers unscaled h

/-- 14:30:00 in seconds is read back as its octets. -/
theorem time_readBack :
    encode ⟨10, 1, 0⟩ (.uint 52200) = .ok [14, 30, 0] ∧
      ∃ v', ReadBack ⟨10, 1, 0⟩ (.uint 52200) [14, 30, 0] v' :=
  ⟨rfl, encoded_readBack (by unfold Scaled; decide) rfl⟩

end KnxRs.DptTexts
