import KnxRs.AppEncode
import KnxRs.AppParse
import KnxRs.CemiCodec

set_option autoImplicit false

/-!
# APDUs encoded again

What decoding an APDU and encoding it again gives, for the encoder of the core crate and
for the one that hands an APDU to the transport layer.
-/
namespace KnxRs.ApduRoundTrip
open CoreTypes ApduCodec AppParse AppEncode CemiCodec

/-! ## The code of a service in its header -/

theorem tpci_masked (x h : UInt8) : (x &&& 0xFC ||| h &&& 0x03) &&& 0x03 = h &&& 0x03 := by
  apply UInt8.toNat_inj.mp
  simp only [UInt8.toNat_and, UInt8.toNat_or]
  rw [Nat.and_or_distrib_right, Nat.and_assoc, Nat.and_assoc]
  have hzero : (0xFC : UInt8).toNat &&& (0x03 : UInt8).toNat = 0 := rfl
  have hmask : (0x03 : UInt8).toNat &&& (0x03 : UInt8).toNat = (0x03 : UInt8).toNat := rfl
  rw [hzero, hmask, Nat.and_zero, Nat.zero_or]

theorem be16_masked (hi lo : UInt8) : be16 hi lo &&& apciMask = be16 (hi &&& 0x03) lo := by
  apply UInt16.toNat_inj.mp
  have hmask : hi.toNat &&& (0x03 : UInt8).toNat = hi.toNat % 4 :=
    Nat.and_two_pow_sub_one_eq_mod hi.toNat 2
  have hapci (n : Nat) : n &&& apciMask.toNat = n % 1024 := Nat.and_two_pow_sub_one_eq_mod n 10
  have := hi.toNat_lt
  have := lo.toNat_lt
  simp only [be16, UInt16.toNat_and, UInt16.toNat_ofNat', hapci, UInt8.toNat_and, hmask]
  omega

theorem masked_lt (hi lo : UInt8) : (be16 hi lo &&& apciMask).toNat < 1024 := by
  rw [UInt16.toNat_and]
  have : (be16 hi lo).toNat &&& apciMask.toNat = (be16 hi lo).toNat % 1024 :=
    Nat.and_two_pow_sub_one_eq_mod _ 10
  omega

theorem normalizeApci_short (hi lo : UInt8) :
    isShortApci (normalizeApci (be16 hi lo &&& apciMask)) = isShortApci (be16 hi lo &&& apciMask) ∧
      normalizeApci (be16 hi lo &&& apciMask) >>> 8 = (be16 hi lo &&& apciMask) >>> 8 := by
  have codes : ∀ n : Fin 1024, isShortApci (normalizeApci (UInt16.ofNat n)) =
      isShortApci (UInt16.ofNat n) ∧
        normalizeApci (UInt16.ofNat n) >>> 8 = UInt16.ofNat n >>> 8 := by decide +kernel
  have h := codes ⟨_, masked_lt hi lo⟩
  rwa [UInt16.ofNat_toNat] at h

/-- What an APDU is decoded to, by the code of its service. -/
theorem parse_of_code {hi lo : UInt8} {t : ApduType}
    (h : normalizeApci (be16 hi lo &&& apciMask) = t.raw) (rest : List UInt8) (n : UInt8) :
    Apdu.parse (hi :: lo :: rest) n =
      if isShortApci t.raw ∧ n ≤ 1 then some ⟨t, [lo &&& apciShortDataMask]⟩
      else if t.keepsLowOctet then some ⟨t, lo :: rest⟩
      else some ⟨t, rest⟩ := by
  unfold Apdu.parse
  dsimp only
  rw [← (normalizeApci_short hi lo).1, h, matchApduType_raw]

theorem code_of_parse {payload : List UInt8} {n : UInt8} {apdu : Apdu}
    (h : Apdu.parse payload n = some apdu) : ∃ hi lo rest, payload = hi :: lo :: rest ∧
      normalizeApci (be16 hi lo &&& apciMask) = apdu.apduType.raw := by
  rcases payload with _ | ⟨hi, _ | ⟨lo, rest⟩⟩
  · cases h
  · cases h
  · refine ⟨hi, lo, rest, rfl, ?_⟩
    unfold Apdu.parse at h
    dsimp only at h
    split at h
    · cases h
    · next t ht =>
      split_ifs at h <;> cases h <;> exact matchApduType_some ht

/-! ## Headers that are written -/

theorem header_code (t : ApduType) (tpci : UInt8) :
    normalizeApci (be16 (encodeApciHeader t tpci).1 (encodeApciHeader t tpci).2 &&& apciMask) =
      t.raw := by
  rw [be16_masked]
  unfold encodeApciHeader
  dsimp only
  rw [tpci_masked]
  cases t <;> rfl

theorem header_inline_code {t : ApduType} (h : isShortApci t.raw = true) (tpci : UInt8)
    {value : UInt8} (hvalue : value ≤ apciShortDataMask) :
    normalizeApci (be16 (encodeApciHeader t tpci).1
        (((encodeApciHeader t tpci).2 &&& 0xC0) ||| value) &&& apciMask) = t.raw ∧
      (((encodeApciHeader t tpci).2 &&& 0xC0) ||| value) &&& apciShortDataMask = value := by
  rw [be16_masked]
  unfold encodeApciHeader
  dsimp only
  rw [tpci_masked]
  have hlt : value.toNat < 64 := Nat.lt_succ_of_le (UInt8.le_iff_toNat_le.mp hvalue)
  have inline : ∀ v : Fin 64,
      normalizeApci (be16 ((t.raw >>> 8).toUInt8 &&& 0x03)
          ((t.raw.toUInt8 &&& 0xC0) ||| UInt8.ofNat v)) = t.raw ∧
        ((t.raw.toUInt8 &&& 0xC0) ||| UInt8.ofNat v) &&& apciShortDataMask = UInt8.ofNat v := by
    revert h
    cases t <;> decide +kernel
  have h := inline ⟨value.toNat, hlt⟩
  rwa [UInt8.ofNat_toNat] at h

/-! ## The encoder of the core crate -/

theorem octetCount_le_one {n : Nat} (h : n ≤ 256) : UInt8.ofNat (n - 1) ≤ 1 ↔ n ≤ 2 := by
  rw [UInt8.le_iff_toNat_le, UInt8.toNat_ofNat', Nat.mod_eq_of_lt (by omega)]
  have : (1 : UInt8).toNat = 1 := rfl
  omega

theorem usesShortForm_iff (apci : UInt16) (data : List UInt8) :
    usesShortForm apci data = true ↔ isShortApci apci = true ∧ data.length ≤ 1 ∧
      data.headD 0 ≤ apciShortDataMask := by
  unfold usesShortForm
  cases isShortApci apci with
  | false => simp
  | true => rcases data with _ | ⟨value, _ | ⟨other, rest⟩⟩ <;> simp

theorem keepsLowOctet_short {t : ApduType} (h : t.keepsLowOctet = true) (hne : t ≠ .adcResponse) :
    isShortApci t.raw = true := by
  revert h hne
  cases t <;> decide

theorem parse_toBytes_inline {apdu : Apdu}
    (h : usesShortForm apdu.apduType.raw apdu.data = true) (tpci : UInt8) :
    Apdu.parse (apdu.toBytes tpci) (UInt8.ofNat ((apdu.toBytes tpci).length - 1)) =
      some ⟨apdu.apduType, [apdu.data.headD 0]⟩ := by
  obtain ⟨hshort, -, hvalue⟩ := (usesShortForm_iff _ _).mp h
  obtain ⟨hcode, hinline⟩ := header_inline_code hshort tpci hvalue
  have hmasked : apdu.data.headD 0 &&& apciShortDataMask = apdu.data.headD 0 := by
    apply UInt8.toNat_inj.mp
    have hlt : (apdu.data.headD 0).toNat < 64 :=
      Nat.lt_succ_of_le (UInt8.le_iff_toNat_le.mp hvalue)
    rw [UInt8.toNat_and]
    exact (Nat.and_two_pow_sub_one_eq_mod _ 6).trans (Nat.mod_eq_of_lt hlt)
  have hbytes : apdu.toBytes tpci = [(encodeApciHeader apdu.apduType tpci).1,
      ((encodeApciHeader apdu.apduType tpci).2 &&& 0xC0) ||| apdu.data.headD 0] := by
    unfold Apdu.toBytes
    dsimp only
    rw [if_pos h, hmasked]
  rw [hbytes, parse_of_code hcode, if_pos ⟨hshort, (octetCount_le_one (by simp)).mpr (by simp)⟩,
    hinline]

/-- A long form is decoded to the octets after its header, or with the second header octet
    before them. -/
theorem parse_toBytes_long {apdu : Apdu} (h : usesShortForm apdu.apduType.raw apdu.data = false)
    (hlong : isShortApci apdu.apduType.raw = true → apdu.data ≠ []) (tpci : UInt8)
    (hlen : (apdu.toBytes tpci).length ≤ 256) :
    Apdu.parse (apdu.toBytes tpci) (UInt8.ofNat ((apdu.toBytes tpci).length - 1)) =
      some (if apdu.apduType.keepsLowOctet
        then ⟨apdu.apduType, (encodeApciHeader apdu.apduType tpci).2 :: apdu.data⟩ else apdu) := by
  have hbytes : apdu.toBytes tpci = (encodeApciHeader apdu.apduType tpci).1 ::
      (encodeApciHeader apdu.apduType tpci).2 :: apdu.data := by
    unfold Apdu.toBytes
    dsimp only
    rw [h, if_neg Bool.false_ne_true]
  rw [hbytes] at hlen ⊢
  rw [parse_of_code (header_code apdu.apduType tpci), if_neg]
  · split_ifs <;> rfl
  · rintro ⟨hshort, hcount⟩
    refine hlong hshort (List.length_eq_zero_iff.mp ?_)
    have := (octetCount_le_one hlen).mp hcount
    simp only [List.length_cons] at this
    omega

theorem parse_toBytes_one {apdu : Apdu} (h : usesShortForm apdu.apduType.raw apdu.data = true)
    (hdata : apdu.data ≠ []) (tpci : UInt8) :
    Apdu.parse (apdu.toBytes tpci) (UInt8.ofNat ((apdu.toBytes tpci).length - 1)) = some apdu := by
  rw [parse_toBytes_inline h tpci]
  obtain ⟨-, hone, -⟩ := (usesShortForm_iff _ _).mp h
  obtain ⟨t, data⟩ := apdu
  rcases data with _ | ⟨value, _ | ⟨other, rest⟩⟩
  · exact absurd rfl hdata
  · rfl
  · exact absurd hone (by simp)

/-- The encoder undoes the decoder exactly for the APDUs that keep no data in their second
    octet, or keep nothing else and belong to a short service. -/
theorem parse_toBytes_iff {payload : List UInt8} (hmin : 2 ≤ payload.length)
    (hmax : payload.length ≤ 255) {apdu : Apdu}
    (h : Apdu.parse payload (UInt8.ofNat (payload.length - 1)) = some apdu) (tpci : UInt8)
    (hlen : (apdu.toBytes tpci).length ≤ 256) :
    Apdu.parse (apdu.toBytes tpci) (UInt8.ofNat ((apdu.toBytes tpci).length - 1)) = some apdu ↔
      (apdu.apduType.keepsLowOctet = true →
        payload.length = 2 ∧ apdu.apduType ≠ .adcResponse) := by
  obtain ⟨hi, lo, rest, rfl, hcode⟩ := code_of_parse h
  rw [parse_of_code hcode] at h
  have hcount : UInt8.ofNat ((hi :: lo :: rest).length - 1) ≤ 1 ↔
      (hi :: lo :: rest).length ≤ 2 := octetCount_le_one (by omega)
  by_cases hinline : isShortApci apdu.apduType.raw = true ∧
      UInt8.ofNat ((hi :: lo :: rest).length - 1) ≤ 1
  · rw [if_pos hinline] at h
    have hdata : [lo &&& apciShortDataMask] = apdu.data := congrArg Apdu.data (Option.some.inj h)
    have hform : usesShortForm apdu.apduType.raw apdu.data = true := by
      rw [usesShortForm_iff, ← hdata]
      refine ⟨hinline.1, Nat.le_refl 1, ?_⟩
      rw [UInt8.le_iff_toNat_le, List.headD_cons, UInt8.toNat_and]
      exact Nat.and_le_right
    refine ⟨fun _ _ => ⟨Nat.le_antisymm (hcount.mp hinline.2) hmin, fun he => ?_⟩,
      fun _ => parse_toBytes_one hform (hdata ▸ List.cons_ne_nil _ _) tpci⟩
    rw [he] at hinline
    exact absurd hinline.1 (by decide)
  · rw [if_neg hinline] at h
    cases hkeeps : apdu.apduType.keepsLowOctet with
    | true =>
      rw [hkeeps, if_pos rfl] at h
      have hdata : lo :: rest = apdu.data := congrArg Apdu.data (Option.some.inj h)
      have hform : usesShortForm apdu.apduType.raw apdu.data = false := by
        rw [Bool.eq_false_iff, Ne, usesShortForm_iff, ← hdata]
        rintro ⟨hshort, hone, -⟩
        exact hinline ⟨hshort, hcount.mpr (Nat.succ_le_succ hone)⟩
      rw [parse_toBytes_long hform (fun _ => hdata ▸ List.cons_ne_nil lo rest) tpci hlen, hkeeps,
        if_pos rfl]
      constructor
      · intro hsame
        have := congrArg (fun a => (Apdu.data a).length) (Option.some.inj hsame)
        simp at this
      · intro hcond
        obtain ⟨htwo, hne⟩ := hcond rfl
        exact absurd ⟨keepsLowOctet_short hkeeps hne, hcount.mpr (Nat.le_of_eq htwo)⟩ hinline
    | false =>
      rw [hkeeps, if_neg Bool.false_ne_true] at h
      have hdata : rest = apdu.data := congrArg Apdu.data (Option.some.inj h)
      refine ⟨fun _ => nofun, fun _ => ?_⟩
      cases hform : usesShortForm apdu.apduType.raw apdu.data with
      | true =>
        refine parse_toBytes_one hform (fun hnil => hinline ?_) tpci
        rw [← hdata] at hnil
        exact ⟨((usesShortForm_iff _ _).mp hform).1, hcount.mpr (by rw [hnil]; exact Nat.le_refl 2)⟩
      | false =>
        have nonempty (hshort : isShortApci apdu.apduType.raw = true) : apdu.data ≠ [] := by
          intro hnil
          rw [← hdata] at hnil
          exact hinline ⟨hshort, hcount.mpr (by rw [hnil]; exact Nat.le_refl 2)⟩
        rw [parse_toBytes_long hform nonempty tpci hlen, hkeeps, if_neg Bool.false_ne_true]

theorem memory_write_parses_back : ∃ payload apdu, payload.length = 2 ∧
    Apdu.parse payload (UInt8.ofNat (payload.length - 1)) = some apdu ∧
    apdu = ⟨.memoryWrite, [0x05]⟩ ∧
    Apdu.parse (apdu.toBytes 0x44) (UInt8.ofNat ((apdu.toBytes 0x44).length - 1)) = some apdu :=
  ⟨[0x42, 0x85], ⟨.memoryWrite, [0x05]⟩, rfl, by decide, rfl,
    (parse_toBytes_iff (by decide) (by decide)
      (show Apdu.parse [0x42, 0x85] 1 = some ⟨.memoryWrite, [0x05]⟩ by decide) 0x44
      (by decide)).mpr fun _ => ⟨rfl, by decide⟩⟩

/-- The second octet of a memory read is written twice. -/
theorem memory_read_changed : ∃ payload apdu bytes, payload.length = 4 ∧
    Apdu.parse payload (UInt8.ofNat (payload.length - 1)) = some apdu ∧
    apdu = ⟨.memoryRead, [0x04, 0x10, 0x00]⟩ ∧ apdu.toBytes 0x00 = bytes ∧
    Apdu.parse bytes (UInt8.ofNat (bytes.length - 1)) =
      some ⟨.memoryRead, [0x00, 0x04, 0x10, 0x00]⟩ :=
  ⟨[0x02, 0x04, 0x10, 0x00], ⟨.memoryRead, [0x04, 0x10, 0x00]⟩, [0x02, 0x00, 0x04, 0x10, 0x00],
    rfl, by decide, rfl, by decide, by decide⟩

/-! ## The encoder for the transport layer -/

theorem service_code (t : ApduType) :
    normalizeApci (be16 (apciHi t) (apciLo t) &&& apciMask) = t.raw := by
  cases t <;> rfl

theorem apciHi_of_code {hi lo : UInt8} {t : ApduType}
    (h : normalizeApci (be16 hi lo &&& apciMask) = t.raw) : apciHi t = hi &&& 0x03 := by
  unfold apciHi
  rw [← h, (normalizeApci_short hi lo).2, be16_masked]
  apply UInt8.toNat_inj.mp
  have hshift : (be16 (hi &&& 0x03) lo >>> 8).toNat =
      (be16 (hi &&& 0x03) lo).toNat / 2 ^ 8 := Nat.shiftRight_eq_div_pow _ 8
  have hmask : (hi &&& 0x03).toNat = hi.toNat % 4 := by
    rw [UInt8.toNat_and]
    exact Nat.and_two_pow_sub_one_eq_mod hi.toNat 2
  have := lo.toNat_lt
  rw [UInt16.toNat_toUInt8, hshift]
  simp only [be16, UInt16.toNat_ofNat', hmask]
  omega

theorem parseRawApdu_of_code {hi lo : UInt8} {t : ApduType}
    (h : normalizeApci (be16 hi lo &&& apciMask) = t.raw) {rest : List UInt8}
    (hlen : rest.length ≤ 254) :
    parseRawApdu (hi :: lo :: rest) =
      if isShortApci t.raw = true ∧ rest = [] then parseIndication t [lo &&& apciShortDataMask]
      else parseIndication t (if t.keepsLowOctet then lo :: rest else rest) := by
  have hcount : UInt8.ofNat ((hi :: lo :: rest).length - 1) ≤ 1 ↔ rest = [] := by
    rw [octetCount_le_one (by simp only [List.length_cons]; omega), ← List.length_eq_zero_iff]
    simp
  have hfits : (hi :: lo :: rest).length - 1 ≤ 255 := by
    simp only [List.length_cons]
    omega
  unfold parseRawApdu
  dsimp only
  rw [if_pos hfits, parse_of_code h]
  by_cases hinline : isShortApci t.raw = true ∧ rest = []
  · rw [if_pos hinline, if_pos ⟨hinline.1, hcount.mpr hinline.2⟩]
  · rw [if_neg hinline, if_neg (fun hc => hinline ⟨hc.1, hcount.mp hc.2⟩)]
    split_ifs <;> rfl

/-- A two-octet request of a service with data in its second octet loses its code. -/
theorem truncated_agrees_iff {t : ApduType} (hshort : isShortApci t.raw = true)
    (hkeeps : t.keepsLowOctet = true) {value : UInt8} (hvalue : value ≤ apciShortDataMask) :
    parseRawApdu (encodeRawApdu ⟨t, [value]⟩) = parseIndication t [value] ↔
      ¬ (t = .adcRead ∨ t = .memoryResponse) := by
  have codes : ∀ v : Fin 64,
      normalizeApci (be16 0x02 (UInt8.ofNat v) &&& apciMask) = ApduType.memoryRead.raw ∧
        normalizeApci (be16 0x01 (UInt8.ofNat v) &&& apciMask) =
          ApduType.individualAddressRead.raw := by
    decide +kernel
  have hcodes := codes ⟨value.toNat, Nat.lt_succ_of_le (UInt8.le_iff_toNat_le.mp hvalue)⟩
  rw [UInt8.ofNat_toNat] at hcodes
  have memory : parseRawApdu [0x02, value] = .error (.truncatedPayload 3 1) := by
    rw [parseRawApdu_of_code hcodes.1 (Nat.zero_le _)]
    rfl
  have address : parseRawApdu [0x01, value] = .ok .individualAddressRead := by
    rw [parseRawApdu_of_code hcodes.2 (Nat.zero_le _)]
    rfl
  have hencode : encodeRawApdu ⟨t, [value]⟩ = [apciHi t, value] := by
    unfold encodeRawApdu
    rw [if_pos ⟨hkeeps, List.cons_ne_nil value []⟩]
  rw [hencode]
  cases t with
  | memoryRead | memoryWrite =>
    refine ⟨fun _ => by simp, fun _ => ?_⟩
    exact memory
  | memoryResponse =>
    rw [show apciHi .memoryResponse = 0x02 from rfl, memory]
    exact ⟨nofun, fun h => absurd (.inr rfl) h⟩
  | adcRead =>
    rw [show apciHi .adcRead = 0x01 from rfl, address]
    exact ⟨nofun, fun h => absurd (.inl rfl) h⟩
  | adcResponse => exact absurd hshort (by decide)
  | _ => cases hkeeps

/-- For the payload of a frame, decoding over a connection gives what decoding without one
    gives, but for two services without the octets that follow the header. -/
theorem connected_decoding_agrees_iff {payload : List UInt8} {npduLength : UInt8}
    (hlen : payload.length = payloadLen npduLength) {apdu : Apdu}
    (h : Apdu.parse payload npduLength = some apdu) :
    parseRawApdu (encodeRawApdu apdu) = parseIndication apdu.apduType apdu.data ↔
      ¬ (payload.length = 2 ∧ (apdu.apduType = .adcRead ∨ apdu.apduType = .memoryResponse)) := by
  obtain ⟨hi, lo, rest, rfl, hcode⟩ := code_of_parse h
  rw [parse_of_code hcode] at h
  have hrest : rest.length ≤ 254 := by
    have := npduLength.toNat_lt
    unfold payloadLen at hlen
    simp only [List.length_cons] at hlen
    omega
  have hcount : npduLength ≤ 1 ↔ rest = [] := by
    rw [UInt8.le_iff_toNat_le, ← List.length_eq_zero_iff]
    have : (1 : UInt8).toNat = 1 := rfl
    unfold payloadLen at hlen
    simp only [List.length_cons] at hlen
    omega
  have htwo : (hi :: lo :: rest).length = 2 ↔ rest = [] := by
    rw [← List.length_eq_zero_iff]
    simp
  rw [htwo]
  by_cases hinline : isShortApci apdu.apduType.raw = true ∧ npduLength ≤ 1
  · rw [if_pos hinline] at h
    obtain ⟨t, data⟩ := apdu
    obtain rfl : [lo &&& apciShortDataMask] = data := congrArg Apdu.data (Option.some.inj h)
    have hnil := hcount.mp hinline.2
    cases hkeeps : t.keepsLowOctet with
    | true =>
      have hvalue : lo &&& apciShortDataMask ≤ apciShortDataMask := by
        rw [UInt8.le_iff_toNat_le, UInt8.toNat_and]
        exact Nat.and_le_right
      rw [truncated_agrees_iff hinline.1 hkeeps hvalue]
      exact ⟨fun hne hboth => hne hboth.2, fun hne heither => hne ⟨hnil, heither⟩⟩
    | false =>
      refine ⟨fun _ hboth => ?_, fun _ => ?_⟩
      · rcases hboth.2 with rfl | rfl <;> cases hkeeps
      · unfold encodeRawApdu
        rw [hkeeps, if_neg (fun hc => Bool.false_ne_true hc.1), service,
          parseRawApdu_of_code (service_code t) (by simp), if_neg (by simp), hkeeps,
          if_neg Bool.false_ne_true]
  · rw [if_neg hinline] at h
    have houtside : ¬ (isShortApci apdu.apduType.raw = true ∧ rest = []) :=
      fun hc => hinline ⟨hc.1, hcount.mpr hc.2⟩
    refine ⟨fun _ hboth => houtside ⟨?_, hboth.1⟩, fun _ => ?_⟩
    · rcases hboth.2 with ht | ht <;> rw [ht] <;> rfl
    · cases hkeeps : apdu.apduType.keepsLowOctet with
      | true =>
        rw [hkeeps, if_pos rfl] at h
        have hdata : lo :: rest = apdu.data := congrArg Apdu.data (Option.some.inj h)
        have hhigh : normalizeApci (be16 (apciHi apdu.apduType) lo &&& apciMask) =
            apdu.apduType.raw := by
          have hsame : be16 (apciHi apdu.apduType) lo &&& apciMask = be16 hi lo &&& apciMask := by
            rw [be16_masked, be16_masked hi, apciHi_of_code hcode]
            congr 1
            apply UInt8.toNat_inj.mp
            rw [UInt8.toNat_and, UInt8.toNat_and, Nat.and_assoc, Nat.and_self]
          rw [hsame, hcode]
        unfold encodeRawApdu
        rw [hkeeps, ← hdata, if_pos ⟨rfl, List.cons_ne_nil lo rest⟩,
          parseRawApdu_of_code hhigh hrest, if_neg houtside, hkeeps, if_pos rfl]
      | false =>
        rw [hkeeps, if_neg Bool.false_ne_true] at h
        have hdata : rest = apdu.data := congrArg Apdu.data (Option.some.inj h)
        unfold encodeRawApdu
        rw [hkeeps, ← hdata, if_neg (fun hc => Bool.false_ne_true hc.1), service,
          parseRawApdu_of_code (service_code apdu.apduType) hrest, if_neg houtside, hkeeps,
          if_neg Bool.false_ne_true]

theorem group_write_agrees : ∃ payload apdu, payload = [0x00, 0x81] ∧
    Apdu.parse payload 1 = some apdu ∧ parseRawApdu (encodeRawApdu apdu) =
      parseIndication apdu.apduType apdu.data ∧
    parseIndication apdu.apduType apdu.data = .ok (.groupValueWrite 0 [0x01]) :=
  ⟨[0x00, 0x81], ⟨.groupValueWrite, [0x01]⟩, rfl, by decide,
    (connected_decoding_agrees_iff (by decide)
      (show Apdu.parse [0x00, 0x81] 1 = some ⟨.groupValueWrite, [0x01]⟩ by decide)).mpr
      (by decide), by decide⟩

/-- A truncated ADC read over a connection is served as a read of the individual address. -/
theorem truncated_adc_read_differs : ∃ payload apdu, payload = [0x01, 0x85] ∧
    Apdu.parse payload 1 = some apdu ∧ apdu = ⟨.adcRead, [0x05]⟩ ∧
    parseIndication apdu.apduType apdu.data = .error (.truncatedPayload 2 1) ∧
    parseRawApdu (encodeRawApdu apdu) = .ok .individualAddressRead :=
  ⟨[0x01, 0x85], ⟨.adcRead, [0x05]⟩, rfl, by decide, rfl, by decide, by decide⟩

end KnxRs.ApduRoundTrip
