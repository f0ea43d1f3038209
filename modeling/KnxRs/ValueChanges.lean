import KnxRs.GroupFrames
import KnxRs.GroupValues

set_option autoImplicit false

/-!
# Values that are set only if they changed

How many octets a value takes, what is read of an object whose buffer has another number
of octets, and when a change is noticed and stored.
-/
namespace KnxRs.ValueChanges
open CoreTypes DptCodec DptConvert DptRoundTrip DptTexts GroupFrames GroupObjects Octets
open DptNumeric hiding decode encode

variable {dpt : Dpt} {v : DptValue} {b payload : List UInt8}

/-! ## Octets of a value -/

/-- The octets that a value of a datapoint type takes: a text of any length and its
terminator, a date and time with a text as it is, and a fixed number of octets else. -/
def encodedSize (dpt : Dpt) : DptValue → Nat
  | .text s =>
    if dpt.main = 24 then s.length + 1
    else if dpt.main = 28 then s.utf8ByteSize + 1 else dpt.dataLength.toNat
  | .bytes octets => if dpt.main = dpt267 then octets.length else dpt.dataLength.toNat
  | _ => dpt.dataLength.toNat

def variableSize (dpt : Dpt) : Prop := dpt.main = 24 ∨ dpt.main = 28 ∨ dpt.main = dpt267

instance (dpt : Dpt) : Decidable (variableSize dpt) :=
  inferInstanceAs (Decidable (dpt.main = 24 ∨ dpt.main = 28 ∨ dpt.main = dpt267))

theorem dataLength_of {main : UInt16} (h : dpt.main = main) :
    dpt.dataLength = (⟨main, 0, 0⟩ : Dpt).dataLength := by
  unfold Dpt.dataLength
  rw [wireSize_of h]

theorem variableSize_iff : dpt.wireSize = .variableBytes ↔ variableSize dpt := by
  constructor
  · intro h
    unfold Dpt.wireSize at h
    split at h
    · next row hfind =>
      have hfound := List.find?_some hfind
      have hmain := List.contains_iff_mem.mp hfound
      have hrow := List.mem_of_find?_eq_some hfind
      have each : ∀ row ∈ wireSizes, row.2 = .variableBytes → row.1 = [24, 28, 267] := by decide
      rw [each row hrow h] at hmain
      have hmain : dpt.main ∈ [24, 28, dpt267] := hmain
      simpa only [variableSize, List.mem_cons, List.not_mem_nil, or_false] using hmain
    · cases h
  · rintro (h | h | h)
    · exact (wireSize_of h).trans rfl
    · exact (wireSize_of h).trans rfl
    · exact (wireSize_of h).trans rfl

theorem encodedSize_fixed (hfixed : ¬variableSize dpt) (v : DptValue) :
    encodedSize dpt v = dpt.dataLength.toNat := by
  unfold variableSize at hfixed
  simp only [not_or] at hfixed
  obtain ⟨h24, h28, h267⟩ := hfixed
  unfold encodedSize
  split
  · rw [if_neg h24, if_neg h28]
  · rw [if_neg h267]
  · rfl

theorem fixed_length (hfixed : ¬variableSize dpt) (h : encode dpt v = .ok b) :
    b.length = dpt.dataLength.toNat := by
  by_cases hfunctional : dpt.main = 31
  · rw [encode_other (by rw [hfunctional]; decide), hfunctional] at h
    have hb : DptNumeric.encode dpt v = .ok b := h
    unfold DptNumeric.encode at hb
    rw [hfunctional] at hb
    rw [encodeMasked_length hb, dataLength_of hfunctional]
    rfl
  · have hsize := encode_size hfunctional h
    unfold Dpt.dataLength
    cases hwire : dpt.wireSize with
    | bits n =>
      rw [hwire] at hsize
      obtain ⟨value, rfl, _⟩ := hsize
      rfl
    | bytes n =>
      rw [hwire] at hsize
      exact hsize
    | variableBytes => exact absurd (variableSize_iff.mp hwire) hfixed
    | unknown =>
      rw [hwire] at hsize
      exact hsize.elim

theorem latin1Octets_length {chars : List Char} (h : latin1Octets chars = .ok b) :
    b.length = chars.length := by
  have hmap := (latin1Octets_ok h).2
  rw [← hmap, List.length_map]

theorem encode24 (hmain : dpt.main = 24) (h : encode dpt v = .ok b) :
    ∃ s text, v = .text s ∧ latin1Octets s.toList = .ok text ∧ b = text ++ [0] := by
  rw [encode_string (.inr (.inl hmain)), encodeString] at h
  cases v with
  | text s =>
    rw [hmain] at h
    obtain ⟨text, htext, hb⟩ := Codecs.map_ok h
    exact ⟨s, text, rfl, htext, hb.symm⟩
  | _ => cases h

theorem encode28 (hmain : dpt.main = 28) (h : encode dpt v = .ok b) :
    ∃ s, v = .text s ∧ nul ∉ s.toList ∧ b = s.toUTF8.data.toList ++ [0] := by
  rw [encode_string (.inr (.inr hmain)), encodeString] at h
  cases v with
  | text s =>
    rw [hmain] at h
    have h : encodeDpt28 s = .ok b := h
    unfold encodeDpt28 at h
    split_ifs at h with hnul
    exact ⟨s, rfl, hnul, (Except.ok.inj h).symm⟩
  | _ => cases h

theorem encode267 (hmain : dpt.main = dpt267) (h : encode dpt v = .ok b) : v = .bytes b := by
  rw [encode_other (by rw [hmain]; decide), hmain] at h
  exact (dpt267_read hmain h).1

theorem encode_length (h : encode dpt v = .ok b) : b.length = encodedSize dpt v := by
  by_cases hvariable : variableSize dpt
  · rcases hvariable with hmain | hmain | hmain
    · obtain ⟨s, text, rfl, htext, rfl⟩ := encode24 hmain h
      rw [encodedSize, if_pos hmain, List.length_append, latin1Octets_length htext,
        String.length_toList]
      rfl
    · obtain ⟨s, rfl, _, rfl⟩ := encode28 hmain h
      rw [encodedSize, if_neg (by rw [hmain]; decide), if_pos hmain, List.length_append]
      rfl
    · obtain rfl := encode267 hmain h
      rw [encodedSize, if_pos hmain]
  · rw [encodedSize_fixed hvariable, fixed_length hvariable h]

/-! ## What is read of more octets, and of fewer -/

theorem decodeDpt5_reads (dpt : Dpt) (x : UInt8) :
    ∃ v', ∀ rest, decodeDpt5 dpt (x :: rest) = .ok v' := by
  have same (rest : List UInt8) : decodeDpt5 dpt (x :: rest) = decodeDpt5 dpt [x] := by
    unfold decodeDpt5
    rw [checkLen_ok (Nat.le_add_left 1 rest.length), checkLen_ok (Nat.le_refl 1)]
    rfl
  have hread : ∃ v', decodeDpt5 dpt [x] = .ok v' := by
    unfold decodeDpt5
    rw [checkLen_ok (Nat.le_refl 1)]
    dsimp only [bind, Except.bind]
    split_ifs
    · exact ⟨_, rfl⟩
    · exact ⟨_, rfl⟩
    · exact ⟨_, rfl⟩
  exact hread.imp fun v' hv rest => (same rest).trans hv

theorem decodeDpt9_reads (x y : UInt8) : ∃ v', ∀ rest, decodeDpt9 (x :: y :: rest) = .ok v' := by
  have same (rest : List UInt8) : decodeDpt9 (x :: y :: rest) = decodeDpt9 [x, y] := by
    unfold decodeDpt9
    rw [checkLen_ok (Nat.le_add_left 2 rest.length), checkLen_ok (Nat.le_refl 2)]
    rfl
  have hread : ∃ v', decodeDpt9 [x, y] = .ok v' := by
    unfold decodeDpt9
    rw [checkLen_ok (Nat.le_refl 2)]
    dsimp only [bind, Except.bind]
    split_ifs
    · exact ⟨_, rfl⟩
    · exact ⟨_, rfl⟩
    · exact ⟨_, rfl⟩
  exact hread.imp fun v' hv rest => (same rest).trans hv

theorem decodeDpt14_reads (h : b.length = 4) : ∃ v', ∀ rest, decodeDpt14 (b ++ rest) = .ok v' := by
  refine ⟨.float (Float32.ofBits (be32At b)).toFloat, fun rest => ?_⟩
  have hat : be32At (b ++ rest) = be32At b := by
    obtain ⟨w, x, y, z, rfl⟩ : ∃ w x y z, b = [w, x, y, z] := by
      match b, h with
      | [w, x, y, z], _ => exact ⟨w, x, y, z, rfl⟩
    rfl
  unfold decodeDpt14
  rw [checkLen_ok (by rw [List.length_append]; omega), hat]
  rfl

theorem scaled_reads (scaled : Scaled dpt) (h : encode dpt v = .ok b) :
    ∃ v', ∀ rest, decode dpt (b ++ rest) = .ok v' := by
  have hlen {main : UInt16} (hmain : dpt.main = main) (hfixed : ¬variableSize ⟨main, 0, 0⟩) :
      b.length = (⟨main, 0, 0⟩ : Dpt).dataLength.toNat := by
    rw [← dataLength_of hmain]
    refine fixed_length (fun hvariable => hfixed ?_) h
    unfold variableSize at hvariable ⊢
    rwa [hmain] at hvariable
  have hread {main : UInt16} (hmain : dpt.main = main)
      (hother : ¬(main = 16 ∨ main = 24 ∨ main = 28)) (hsimple : handles main = false) :
      decode dpt = DptNumeric.decode dpt := by
    rw [decode_other (by rw [hmain]; exact hother), hmain, hsimple]
    rfl
  rcases scaled with hmain | hmain | ⟨hmain, _⟩
  · obtain ⟨x, y, rfl⟩ := List.length_eq_two.mp (hlen hmain (by decide))
    rw [hread hmain (by decide) (by decide)]
    unfold DptNumeric.decode
    rw [hmain]
    exact decodeDpt9_reads x y
  · rw [hread hmain (by decide) (by decide)]
    unfold DptNumeric.decode
    rw [hmain]
    exact decodeDpt14_reads (hlen hmain (by decide))
  · obtain ⟨x, rfl⟩ := List.length_eq_one_iff.mp (hlen hmain (by decide))
    rw [hread hmain (by decide) (by decide)]
    unfold DptNumeric.decode
    rw [hmain]
    exact decodeDpt5_reads dpt x

theorem encoded_reads (hmain : dpt.main ≠ dpt267) (h : encode dpt v = .ok b) :
    ∃ v', ∀ rest, decode dpt (b ++ rest) = .ok v' := by
  by_cases scaled : Scaled dpt
  · exact scaled_reads scaled h
  · obtain ⟨v', _, _, _, reads⟩ := encoded_readBack scaled h
    exact ⟨v', reads hmain⟩

theorem checkLen_short {α : Type} {n : Nat} {f : Unit → Except DptError α}
    (h : payload.length < n) : (checkLen payload n >>= f) = .error .payloadTooShort := by
  unfold checkLen
  rw [if_pos h]
  rfl

theorem numeric_short (haccepted : DptNumeric.encode dpt v = .ok b)
    (h : payload.length < dpt.dataLength.toNat) :
    DptNumeric.decode dpt payload = .error .payloadTooShort := by
  have short {α : Type} {main : UInt16} {f : Unit → Except DptError α} (hmain : dpt.main = main) :
      (checkLen payload (⟨main, 0, 0⟩ : Dpt).dataLength.toNat >>= f) = .error .payloadTooShort := by
    rw [← dataLength_of hmain]
    exact checkLen_short h
  unfold DptNumeric.encode at haccepted
  unfold DptNumeric.decode
  split at haccepted
  case h_30 => cases haccepted
  all_goals
    rename_i hmain
    exact short hmain

theorem fixed_short (hfixed : ¬variableSize dpt) (haccepted : encode dpt v = .ok b)
    (h : payload.length < dpt.dataLength.toNat) : decode dpt payload = .error .payloadTooShort := by
  have hlen := fixed_length hfixed haccepted
  have hmains := hfixed
  unfold variableSize at hmains
  simp only [not_or] at hmains
  obtain ⟨h24, h28, h267⟩ := hmains
  by_cases h16 : dpt.main = 16
  · rw [dataLength_of h16] at h
    rw [decode_string (.inl h16), decodeString, h16]
    show (decodeDpt16 dpt payload).map _ = _
    rw [decodeDpt16, if_pos (show payload.length < dpt16Len from h)]
    rfl
  · have hother : ¬(dpt.main = 16 ∨ dpt.main = 24 ∨ dpt.main = 28) := by
      simp only [not_or]
      exact ⟨h16, h24, h28⟩
    rw [encode_other hother] at haccepted
    rw [decode_other hother]
    by_cases hhandles : handles dpt.main = true
    · rw [if_pos hhandles] at haccepted ⊢
      unfold decodeCompound
      unfold encodeCompound at haccepted
      cases v with
      | bytes octets =>
        dsimp only at haccepted
        rw [if_neg h267] at haccepted ⊢
        cases hn : DptConvert.len dpt.main with
        | none =>
          rw [hn] at haccepted
          cases haccepted
        | some n =>
          rw [hn] at haccepted
          dsimp only at haccepted ⊢
          split_ifs at haccepted with hcount
          cases haccepted
          rw [if_pos (by omega)]
      | _ => cases haccepted
    · rw [if_neg hhandles] at haccepted ⊢
      exact numeric_short haccepted h

theorem terminated_self (h : ∀ octet ∈ payload, octet ≠ 0) : terminated payload = payload := by
  unfold terminated
  rw [List.takeWhile_eq_self_iff]
  exact fun octet hoctet => decide_eq_true (h octet hoctet)

theorem decodeDpt24_prefix_iff {text : List UInt8} (hne : ∀ octet ∈ text, octet ≠ 0) (n : Nat) :
    decodeDpt24 (text.take n) = ofLatin1 text ↔ text.length ≤ n := by
  have hread : decodeDpt24 (text.take n) = ofLatin1 (text.take n) := by
    rw [decodeDpt24, terminated_self fun octet hoctet => hne octet (List.mem_of_mem_take hoctet)]
  rw [hread]
  constructor
  · intro heq
    have hlen := congrArg String.length heq
    rw [ofLatin1, ofLatin1, String.length_ofList, String.length_ofList, List.length_map,
      List.length_map, List.length_take] at hlen
    omega
  · intro hle
    rw [List.take_of_length_le hle]

theorem decodeDpt28_octets {s : String} (h : decodeDpt28 payload = .ok s) :
    s.toUTF8.data.toList = terminated payload := by
  unfold decodeDpt28 at h
  split_ifs at h with hnil
  · cases h
    rw [hnil]
    rfl
  · cases hutf : String.fromUTF8? ⟨(terminated payload).toArray⟩ with
    | none =>
      rw [hutf] at h
      cases h
    | some text =>
      rw [hutf] at h
      cases h
      unfold String.fromUTF8? at hutf
      split_ifs at hutf
      cases hutf
      rfl

theorem decodeDpt28_prefix_iff {s : String} (hnul : nul ∉ s.toList) (n : Nat) :
    decodeDpt28 (s.toUTF8.data.toList.take n) = .ok s ↔ s.toUTF8.data.toList.length ≤ n := by
  have hne := toUTF8_ne_zero hnul
  constructor
  · intro h
    have hlen := congrArg List.length (decodeDpt28_octets h)
    rw [terminated_self fun octet hoctet => hne octet (List.mem_of_mem_take hoctet),
      List.length_take] at hlen
    omega
  · intro hle
    rw [List.take_of_length_le hle]
    unfold decodeDpt28
    split_ifs with hnil
    · have hempty : s.toUTF8 = "".toUTF8 := by
        apply ByteArray.ext
        exact Array.toList_inj.mp hnil
      rw [String.toUTF8_eq_toByteArray, String.toUTF8_eq_toByteArray, String.toByteArray_inj]
        at hempty
      rw [hempty]
    · rw [terminated_self hne]
      have hbytes : (⟨s.toUTF8.data.toList.toArray⟩ : ByteArray) = s.toUTF8 := rfl
      rw [hbytes, fromUTF8?_toUTF8]

/-- A prefix of a text is read as that text only if all but the terminator is there. -/
theorem text_prefix_iff (htext : dpt.main = 24 ∨ dpt.main = 28) (h : encode dpt v = .ok b) {n : Nat}
    (hn : n < b.length) : decode dpt (b.take n) = decode dpt b ↔ b.length ≤ n + 1 := by
  rcases htext with hmain | hmain
  · obtain ⟨s, text, rfl, htext, rfl⟩ := encode24 hmain h
    obtain ⟨hne, hmap⟩ := latin1Octets_ok htext
    have hread (payload : List UInt8) :
        decode dpt payload = .ok (.text (decodeDpt24 payload)) := by
      rw [decode_string (.inr (.inl hmain)), decodeString, hmain]
      rfl
    rw [List.length_append, List.length_singleton] at hn ⊢
    rw [List.take_append_of_le_length (Nat.le_of_lt_succ hn), hread, hread, decodeDpt24,
      decodeDpt24, terminated_append hne, Nat.add_le_add_iff_right]
    rw [← decodeDpt24_prefix_iff hne n, decodeDpt24]
    constructor
    · intro heq
      injection heq with heq
      injection heq
    · intro heq
      rw [heq]
  · obtain ⟨s, rfl, hnul, rfl⟩ := encode28 hmain h
    have hread (payload : List UInt8) :
        decode dpt payload = (decodeDpt28 payload).map .text := by
      rw [decode_string (.inr (.inr hmain)), decodeString, hmain]
      rfl
    have hwhole : decodeDpt28 (s.toUTF8.data.toList ++ [0]) = .ok s := by
      have hencode : encodeDpt28 s = .ok (s.toUTF8.data.toList ++ [0]) := by
        rw [encodeDpt28, if_neg hnul]
      have hread := decodeDpt28_append hencode []
      rwa [List.append_nil] at hread
    rw [List.length_append, List.length_singleton] at hn ⊢
    rw [List.take_append_of_le_length (Nat.le_of_lt_succ hn), hread, hread, hwhole,
      Nat.add_le_add_iff_right, ← decodeDpt28_prefix_iff hnul n]
    cases decodeDpt28 (s.toUTF8.data.toList.take n) with
    | error e =>
      constructor
      · intro heq
        cases heq
      · intro heq
        cases heq
    | ok text =>
      constructor
      · intro heq
        cases heq
        rfl
      · intro heq
        cases heq
        rfl

theorem whole_iff (hmain : dpt.main = dpt267) (h : encode dpt v = .ok b) :
    decode dpt payload = decode dpt b ↔ payload = b := by
  have hread (payload : List UInt8) : decode dpt payload =
      if payload.length ≤ dpt267Header then .error .payloadTooShort else .ok (.bytes payload) := by
    rw [decode_other (by rw [hmain]; decide), hmain, if_pos (by decide), decodeCompound,
      if_pos hmain]
  have hb : decode dpt b = .ok (.bytes b) := by
    rw [encode_other (by rw [hmain]; decide), hmain, if_pos (by decide)] at h
    rw [decode_other (by rw [hmain]; decide), hmain, if_pos (by decide)]
    exact (dpt267_read hmain h).2
  constructor
  · rw [hb, hread]
    intro heq
    split_ifs at heq
    cases heq
    rfl
  · rintro rfl
    rfl

/-- How many octets an object must have for a value to be read of them after they were
overwritten with it. -/
def Room (dpt : Dpt) (v : DptValue) (room : Nat) : Prop :=
  if dpt.main = dpt267 then room = encodedSize dpt v
  else if variableSize dpt then encodedSize dpt v ≤ room + 1
  else encodedSize dpt v ≤ room

instance (dpt : Dpt) (v : DptValue) (room : Nat) : Decidable (Room dpt v room) := by
  unfold Room
  infer_instance

theorem copyFrom_split (go : GroupObject) (octets : List UInt8) :
    (go.copyFrom octets).data = octets.take go.data.length ++ go.data.drop octets.length := by
  unfold GroupObject.copyFrom overwrite
  rcases Nat.le_total octets.length go.data.length with h | h
  · rw [Nat.min_eq_left h, List.take_length, List.take_of_length_le h, List.take_zero,
      List.nil_append, Nat.zero_add]
  · rw [Nat.min_eq_right h, List.take_zero, List.nil_append, Nat.zero_add, List.length_take,
      Nat.min_eq_left h, List.drop_eq_nil_of_le h, List.drop_length]

/-- After a value was copied into a buffer, what is read of the buffer is what the value
reads as only if there was room for it. -/
theorem copyFrom_reads_iff (go : GroupObject) (h : encode dpt v = .ok b) :
    decode dpt (go.copyFrom b).data = decode dpt b ↔ Room dpt v go.data.length := by
  have hlen := encode_length h
  unfold Room
  rw [← hlen]
  by_cases h267 : dpt.main = dpt267
  · rw [if_pos h267, whole_iff h267 h]
    constructor
    · intro heq
      rw [← heq, GroupObject.copyFrom_length]
    · exact GroupObject.copyFrom_data
  · rw [if_neg h267, copyFrom_split]
    rcases Nat.lt_or_ge go.data.length b.length with hshort | hroom
    · rw [List.drop_eq_nil_of_le hshort.le, List.append_nil]
      by_cases hvariable : variableSize dpt
      · rw [if_pos hvariable]
        have htext : dpt.main = 24 ∨ dpt.main = 28 := by
          rcases hvariable with hmain | hmain | hmain
          · exact .inl hmain
          · exact .inr hmain
          · exact absurd hmain h267
        exact text_prefix_iff htext h hshort
      · rw [if_neg hvariable]
        have hfixed := fixed_length hvariable h
        have hle : (b.take go.data.length).length < dpt.dataLength.toNat := by
          rw [List.length_take]
          omega
        obtain ⟨v', hread⟩ := encoded_reads h267 h
        have hwhole := hread []
        rw [List.append_nil] at hwhole
        rw [fixed_short hvariable h hle, hwhole]
        exact ⟨nofun, fun hge => absurd hge (Nat.not_le.mpr hshort)⟩
    · obtain ⟨v', hread⟩ := encoded_reads h267 h
      have hwhole := hread []
      rw [List.append_nil] at hwhole
      rw [List.take_of_length_le hroom, hread, hwhole]
      refine iff_of_true rfl ?_
      split_ifs
      · omega
      · exact hroom

/-! ## Changes -/

/-- The call says that the value is another one only if the object held another one, and then
the object holds it and is to be sent: `same` says when octets hold what was encoded. -/
def Takes (go : GroupObject) (v : DptValue) (octets : List UInt8)
    (same : List UInt8 → List UInt8 → Prop) : Prop :=
  ∃ go' changed, go.setValueIfChanged v = .ok (go', changed) ∧
    (changed = false → same go.data octets) ∧
    (changed = true → same go'.data octets ∧ go'.commFlag = .writeRequest)

/-- Whether a change is noticed or not, the object would hold the same octets after a copy. -/
theorem takes_iff {go : GroupObject} (hdpt : go.dpt = some dpt) (h : encode dpt v = .ok b)
    (same : List UInt8 → List UInt8 → Prop) :
    Takes go v b same ↔ same (go.copyFrom b).data b := by
  have hcall : go.setValueIfChanged v =
      if go.data.take (min b.length go.data.length) = b.take (min b.length go.data.length) then
        .ok (go, false)
      else .ok (go.writeValue b, true) := by
    unfold GroupObject.setValueIfChanged
    rw [hdpt]
    dsimp only
    rw [h]
    dsimp only [Except.map]
    split_ifs
    · rfl
    · rfl
  unfold Takes
  rw [hcall]
  split_ifs with hsame
  · have hkept : (go.copyFrom b).data = go.data := by
      unfold GroupObject.copyFrom
      dsimp only
      rw [← hsame]
      exact overwrite_self _ _
    rw [hkept]
    constructor
    · rintro ⟨go', changed, heq, hunchanged, _⟩
      cases heq
      exact hunchanged rfl
    · intro hheld
      exact ⟨go, false, rfl, fun _ => hheld, nofun⟩
  · constructor
    · rintro ⟨go', changed, heq, _, hchanged⟩
      cases heq
      exact (hchanged rfl).1
    · intro hheld
      exact ⟨_, true, rfl, nofun, fun _ => ⟨hheld, rfl⟩⟩

/-- A change is noticed and stored octet for octet exactly where the object has as many octets
as the value, and so that the value is read of it exactly where the object has room. -/
theorem setValueIfChanged_takes_iff {go : GroupObject} (hdpt : go.dpt = some dpt)
    (haccepted : encode dpt v = .ok b) :
    (Takes go v b (fun held octets => held = octets) ↔ go.data.length = encodedSize dpt v) ∧
      (Takes go v b (fun held octets => decode dpt held = decode dpt octets) ↔
        Room dpt v go.data.length) := by
  rw [takes_iff hdpt haccepted, takes_iff hdpt haccepted, ← encode_length haccepted]
  refine ⟨⟨?_, GroupObject.copyFrom_data⟩, copyFrom_reads_iff go haccepted⟩
  intro heq
  rw [← GroupObject.copyFrom_length go b, heq]

/-- A length of 2 m is set in an object of its four octets. -/
theorem length_taken :
    (Takes ⟨1, .ok, [0, 0, 0, 1], some ⟨12, 1, 0⟩⟩ (.uint 2) [0, 0, 0, 2]
        (fun held octets => held = octets) ↔ [0, 0, 0, 1].length = encodedSize ⟨12, 1, 0⟩ (.uint 2)) ∧
      (Takes ⟨1, .ok, [0, 0, 0, 1], some ⟨12, 1, 0⟩⟩ (.uint 2) [0, 0, 0, 2]
        (fun held octets => decode ⟨12, 1, 0⟩ held = decode ⟨12, 1, 0⟩ octets) ↔
          Room ⟨12, 1, 0⟩ (.uint 2) [0, 0, 0, 1].length) :=
  setValueIfChanged_takes_iff rfl rfl

/-- In an object for a text of any length, as `withDpt` makes it, only the first character is
stored of a text that is said to be set, and another text with that character is no change. -/
theorem longer_text_not_taken :
    ((GroupObject.withDpt 1 ⟨24, 1, 0⟩).setValueIfChanged (.text "hello") =
        .ok (⟨1, .writeRequest, [0x68], some ⟨24, 1, 0⟩⟩, true) ∧
      decode ⟨24, 1, 0⟩ [0x68] = .ok (.text "h")) ∧
    (⟨1, .writeRequest, [0x68], some ⟨24, 1, 0⟩⟩ : GroupObject).setValueIfChanged (.text "help") =
        .ok (⟨1, .writeRequest, [0x68], some ⟨24, 1, 0⟩⟩, false) ∧
      encode ⟨24, 1, 0⟩ (.text "help") = .ok [0x68, 0x65, 0x6C, 0x70, 0] ∧
      ¬Takes ⟨1, .writeRequest, [0x68], some ⟨24, 1, 0⟩⟩ (.text "help") [0x68, 0x65, 0x6C, 0x70, 0]
        (fun held octets => held = octets) ∧
      ¬Takes ⟨1, .writeRequest, [0x68], some ⟨24, 1, 0⟩⟩ (.text "help") [0x68, 0x65, 0x6C, 0x70, 0]
        (fun held octets => decode ⟨24, 1, 0⟩ held = decode ⟨24, 1, 0⟩ octets) := by
  have accepted : encode ⟨24, 1, 0⟩ (.text "help") = .ok [0x68, 0x65, 0x6C, 0x70, 0] := by rfl
  refine ⟨⟨by rfl, by rfl⟩, by rfl, accepted, ?_, ?_⟩
  · rw [takes_iff rfl accepted]
    decide
  · rw [takes_iff rfl accepted]
    have first : decode ⟨24, 1, 0⟩ [0x68] = .ok (.text "h") := by rfl
    have whole : decode ⟨24, 1, 0⟩ [0x68, 0x65, 0x6C, 0x70, 0] = .ok (.text "help") := by rfl
    intro heq
    have heq : decode ⟨24, 1, 0⟩ [0x68] = _ := heq
    rw [first, whole] at heq
    injection heq with heq
    injection heq with heq
    exact absurd heq (by decide)

end KnxRs.ValueChanges
