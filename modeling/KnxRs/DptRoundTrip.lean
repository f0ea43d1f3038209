import KnxRs.Codecs
import KnxRs.DptConvert

set_option autoImplicit false

/-!
# What a number is read back as

Every numeric encoder against its own decoder.
-/
namespace KnxRs.DptRoundTrip
open CoreTypes DptCodec DptNumeric DptConvert Codecs DptValue

/-! ## Fields -/

theorem valBool_field : Field variant valBool .bool where
  again _ := rfl
  same := by
    intro v x h hform
    cases v with
    | bool w => exact congrArg _ (Except.ok.inj h).symm
    | _ => cases hform

theorem valU32_field : Field variant valU32 .uint where
  again _ := rfl
  same := by
    intro v x h hform
    cases v with
    | uint w => exact congrArg _ (Except.ok.inj h).symm
    | _ => cases hform

theorem valI32_field : Field variant valI32 .int where
  again _ := rfl
  same := by
    intro v x h hform
    cases v with
    | int w => exact congrArg _ (Except.ok.inj h).symm
    | _ => cases hform

theorem valI64_field : Field variant valI64 .int64 where
  again _ := rfl
  same := by
    intro v x h hform
    cases v with
    | int64 w => exact congrArg _ (Except.ok.inj h).symm
    | _ => cases hform

theorem valU32Max_ok {v : DptValue} {max x : UInt32} (h : valU32Max v max = .ok x) :
    valU32 v = .ok x ∧ x ≤ max := by
  obtain ⟨y, hy, hle⟩ := bind_ok h
  split_ifs at hle with hgt
  cases hle
  exact ⟨hy, Nat.le_of_not_lt hgt⟩

theorem valI32Range_ok {v : DptValue} {min max x : Int32} (h : valI32Range v min max = .ok x) :
    valI32 v = .ok x ∧ min ≤ x ∧ x ≤ max := by
  obtain ⟨y, hy, hle⟩ := bind_ok h
  split_ifs at hle with hin
  · cases hle
    exact ⟨hy, hin⟩

theorem valU32Max_field (max : UInt32) :
    Field variant (fun v => valU32Max v max) .uint where
  again := by
    intro v x h
    obtain ⟨_, hle⟩ := valU32Max_ok h
    exact if_neg (Nat.not_lt.mpr hle)
  same h := valU32_field.same (valU32Max_ok h).1

theorem valI32Range_field (min max : Int32) :
    Field variant (fun v => valI32Range v min max) .int where
  again := by
    intro v x h
    obtain ⟨_, hle⟩ := valI32Range_ok h
    exact if_neg (not_not.mpr hle)
  same h := valI32_field.same (valI32Range_ok h).1

/-! ## Octets of numbers -/

theorem checkLen_ok {payload : List UInt8} {min : Nat} (h : min ≤ payload.length) :
    checkLen payload min = .ok () :=
  if_neg (Nat.not_lt.mpr h)

theorem lowU8_toNat {x : UInt32} (h : x ≤ 0xFF) : (lowU8 x).toNat = x.toNat := by
  rw [UInt32.le_iff_toNat_le] at h
  have hmax : (0xFF : UInt32).toNat = 2 ^ 8 - 1 := rfl
  rw [lowU8, UInt32.toNat_toUInt8, UInt32.toNat_and, hmax, Nat.and_two_pow_sub_one_eq_mod]
  omega

theorem lowU8_toUInt32 {x : UInt32} (h : x ≤ 0xFF) : (lowU8 x).toUInt32 = x := by
  apply UInt32.toNat_inj.mp
  rw [UInt8.toNat_toUInt32, lowU8_toNat h]

theorem lowU16_toUInt32 {x : UInt32} (h : x ≤ 65535) : (lowU16 x).toUInt32 = x := by
  apply UInt32.toNat_inj.mp
  rw [UInt32.le_iff_toNat_le] at h
  have hmax : (0xFFFF : UInt32).toNat = 2 ^ 16 - 1 := rfl
  rw [UInt16.toNat_toUInt32, lowU16, UInt32.toNat_toUInt16, UInt32.toNat_and, hmax,
    Nat.and_two_pow_sub_one_eq_mod]
  omega

theorem lowI8_toInt32 {x : Int32} (hmin : -128 ≤ x) (hmax : x ≤ 127) :
    (lowI8 x).toUInt8.toInt8.toInt32 = x := by
  apply Int32.toInt_inj.mp
  rw [Int32.le_iff_toInt_le] at hmin hmax
  rw [Int8.toInt8_toUInt8, Int8.toInt_toInt32, lowI8, Int32.toInt_toInt8]
  exact Int.bmod_eq_of_le hmin (Int.lt_of_le_of_lt hmax (by decide))

theorem lowI16_toInt32 {x : Int32} (hmin : -32768 ≤ x) (hmax : x ≤ 32767) :
    (lowI16 x).toUInt16.toInt16.toInt32 = x := by
  apply Int32.toInt_inj.mp
  rw [Int32.le_iff_toInt_le] at hmin hmax
  rw [Int16.toInt16_toUInt16, Int16.toInt_toInt32, lowI16, Int32.toInt_toInt16]
  exact Int.bmod_eq_of_le hmin (Int.lt_of_le_of_lt hmax (by decide))

theorem be64_be64Bytes (v : UInt64) :
    be64 (UInt32.ofNat (v.toNat / 2 ^ 32)) (UInt32.ofNat v.toNat) = v := by
  apply UInt64.toNat_inj.mp
  have := v.toNat_lt
  simp only [be64, UInt64.toNat_ofNat', UInt32.toNat_ofNat']
  omega

theorem be32At_append (v : UInt32) (rest : List UInt8) : be32At (be32Bytes v ++ rest) = v :=
  be32_be32Bytes v

theorem be64Bytes_length (v : UInt64) : (be64Bytes v).length = 8 := by
  rw [be64Bytes, List.length_append]
  rfl

theorem be64At_append (v : UInt64) (rest : List UInt8) :
    be64 (be32At (be64Bytes v ++ rest)) (be32At ((be64Bytes v ++ rest).drop 4)) = v := by
  have hlow : (be64Bytes v ++ rest).drop 4 = be32Bytes (UInt32.ofNat v.toNat) ++ rest := rfl
  rw [hlow, be32At_append, be64Bytes, List.append_assoc, be32At_append]
  exact be64_be64Bytes v

theorem shift_or {acc : UInt32} {b : UInt8} (h : acc.toNat < 2 ^ 24) :
    ((acc <<< 8) ||| b.toUInt32).toNat = acc.toNat * 256 + b.toNat := by
  have hb := b.toNat_lt
  have hshift : (acc <<< 8).toNat = acc.toNat <<< 8 := by
    rw [UInt32.toNat_shiftLeft]
    have h8 : (8 : UInt32).toNat % 32 = 8 := rfl
    rw [h8, Nat.shiftLeft_eq, Nat.mod_eq_of_lt (by omega)]
  rw [UInt32.toNat_or, hshift, UInt8.toNat_toUInt32, ← Nat.shiftLeft_add_eq_or_of_lt hb,
    Nat.shiftLeft_eq]

/-! ## Numbers -/

variable {v : DptValue} {b : List UInt8}

theorem dpt1_recovers (h : encodeDpt1 v = .ok b) : Recovers decodeDpt1 encodeDpt1 variant v b := by
  refine .ofField (fun x => .ok [if x then 1 else 0]) valBool_field (fun _ => rfl) ?_ h
  intro v x bs _ hput rest
  cases hput
  have hbit : decide ((if x then 1 else 0 : UInt8) &&& 0x01 ≠ 0) = x := by
    cases x <;> decide
  exact congrArg (fun y => Except.ok (DptValue.bool y)) hbit

theorem masked_recovers {mask : UInt8} (hmask : ∀ octet : UInt8, octet ≤ mask → octet &&& mask = octet)
    (h : encodeMasked v mask = .ok b) :
    Recovers (fun payload => decodeMasked payload mask) (fun v => encodeMasked v mask) variant
      v b := by
  refine .ofField (fun x => .ok [lowU8 x]) (valU32Max_field mask.toUInt32)
    (fun _ => rfl) ?_ h
  intro v x bs hx hput rest
  cases hput
  have hle := (valU32Max_ok hx).2
  have hoctet : x ≤ 0xFF := by
    have := mask.toNat_lt
    rw [UInt32.le_iff_toNat_le, UInt8.toNat_toUInt32] at hle
    rw [UInt32.le_iff_toNat_le]
    exact Nat.le_trans hle (Nat.le_of_lt_succ this)
  have hlow : lowU8 x ≤ mask := by
    rw [UInt8.le_iff_toNat_le, lowU8_toNat hoctet]
    exact hle
  change Except.ok (DptValue.uint (lowU8 x &&& mask).toUInt32) = _
  rw [hmask _ hlow, lowU8_toUInt32 hoctet]

theorem octet_recovers {decode : List UInt8 → Except DptError DptValue}
    {encode : DptValue → Except DptError (List UInt8)} (max : UInt32)
    (put : UInt32 → Except DptError (List UInt8)) (hmax : max ≤ 0xFF)
    (splits : ∀ v, encode v = valU32Max v max >>= put)
    (puts : ∀ {x bs}, put x = .ok bs → bs = [lowU8 x])
    (reads : ∀ octet rest, decode (octet :: rest) = .ok (.uint octet.toUInt32))
    (h : encode v = .ok b) : Recovers decode encode variant v b := by
  refine .ofField put (valU32Max_field max) splits ?_ h
  intro v x bs hx hput rest
  rw [puts hput]
  refine (reads _ _).trans ?_
  rw [lowU8_toUInt32 (UInt32.le_trans (valU32Max_ok hx).2 hmax)]

theorem dpt4_recovers (dpt : Dpt) (h : encodeDpt4 dpt v = .ok b) :
    Recovers decodeDpt4 (encodeDpt4 dpt) variant v b := by
  refine octet_recovers (if dpt.sub = 1 then 0x7F else 0xFF) _ ?_ (fun _ => rfl)
    (fun hput => (Except.ok.inj hput).symm) (fun _ _ => rfl) h
  split_ifs <;> decide

theorem dpt5_recovers {dpt : Dpt} (hscaling : dpt.sub ≠ 1) (hangle : dpt.sub ≠ 3)
    (h : encodeDpt5 dpt v = .ok b) :
    Recovers (decodeDpt5 dpt) (encodeDpt5 dpt) variant v b := by
  have reads (octet : UInt8) (rest : List UInt8) :
      decodeDpt5 dpt (octet :: rest) = .ok (.uint octet.toUInt32) := by
    unfold decodeDpt5
    rw [checkLen_ok (by simp)]
    simp only [hscaling, hangle, ↓reduceIte]
    rfl
  refine octet_recovers (if dpt.sub = 6 then 254 else 255) (fun x => .ok [lowU8 x]) ?_ ?_
    (fun hput => (Except.ok.inj hput).symm) reads h
  · split_ifs <;> decide
  · intro v
    unfold encodeDpt5
    rw [if_neg hscaling, if_neg hangle]
    split_ifs <;> rfl

theorem dpt6_recovers (dpt : Dpt) (h : encodeDpt6 dpt v = .ok b) :
    Recovers (decodeDpt6 dpt) (encodeDpt6 dpt) variant v b := by
  by_cases hmode : dpt.sub = dpt6StatusMode
  · have reads (octet : UInt8) (rest : List UInt8) :
        decodeDpt6 dpt (octet :: rest) = .ok (.uint octet.toUInt32) := by
      unfold decodeDpt6
      rw [checkLen_ok (by simp), if_pos hmode]
      rfl
    refine octet_recovers 0xFF _ (by decide)
      (fun _ => by unfold encodeDpt6; rw [if_pos hmode]) ?_ reads h
    intro x bs hput
    dsimp only at hput
    split_ifs at hput
    exact (Except.ok.inj hput).symm
  · refine .ofField (fun x => .ok [(lowI8 x).toUInt8]) (valI32Range_field (-128) 127)
      (fun _ => by unfold encodeDpt6; rw [if_neg hmode]) ?_ h
    intro v x bs hx hput rest
    cases hput
    obtain ⟨_, hmin, hmax⟩ := valI32Range_ok hx
    unfold decodeDpt6
    rw [checkLen_ok (by simp), if_neg hmode]
    exact congrArg (fun y => Except.ok (DptValue.int y)) (lowI8_toInt32 hmin hmax)

theorem dpt18_recovers (h : encodeDpt18 v = .ok b) :
    Recovers decodeDpt18 encodeDpt18 variant v b := by
  refine octet_recovers 0xFF _ (by decide) (fun _ => rfl) ?_ (fun _ _ => rfl) h
  intro x bs hput
  split_ifs at hput
  exact (Except.ok.inj hput).symm

theorem dpt7_recovers (h : encodeDpt7 v = .ok b) : Recovers decodeDpt7 encodeDpt7 variant v b := by
  refine .ofField (fun x => .ok (be16Bytes (lowU16 x))) (valU32Max_field 65535)
    (fun _ => rfl) ?_ h
  intro v x bs hx hput rest
  cases hput
  refine (congrArg (fun y => Except.ok (DptValue.uint y.toUInt32)) (be16_be16Bytes _)).trans ?_
  rw [lowU16_toUInt32 (valU32Max_ok hx).2]

theorem dpt8_recovers (h : encodeDpt8 v = .ok b) : Recovers decodeDpt8 encodeDpt8 variant v b := by
  refine .ofField (fun x => .ok (be16Bytes (lowI16 x).toUInt16))
    (valI32Range_field (-32768) 32767) (fun _ => rfl) ?_ h
  intro v x bs hx hput rest
  cases hput
  obtain ⟨_, hmin, hmax⟩ := valI32Range_ok hx
  refine (congrArg (fun y => Except.ok (DptValue.int y.toInt16.toInt32)) (be16_be16Bytes _)).trans ?_
  rw [lowI16_toInt32 hmin hmax]

theorem word_recovers {decode : List UInt8 → Except DptError DptValue}
    {encode : DptValue → Except DptError (List UInt8)}
    (splits : ∀ v, encode v = valU32 v >>= fun x => .ok (be32Bytes x))
    (reads : ∀ x rest, decode (be32Bytes x ++ rest) =
      .ok (.uint (be32At (be32Bytes x ++ rest))))
    (h : encode v = .ok b) : Recovers decode encode variant v b := by
  refine .ofField _ valU32_field splits ?_ h
  intro v x bs _ hput rest
  cases hput
  rw [reads, be32At_append]

theorem dpt12_recovers (h : encodeDpt12 v = .ok b) :
    Recovers decodeDpt12 encodeDpt12 variant v b :=
  word_recovers (fun _ => rfl) (fun _ _ => rfl) h

theorem dpt27_recovers (h : encodeDpt27 v = .ok b) :
    Recovers decodeDpt27 encodeDpt27 variant v b :=
  word_recovers (fun _ => rfl) (fun _ _ => rfl) h

theorem dpt13_recovers (h : encodeDpt13 v = .ok b) :
    Recovers decodeDpt13 encodeDpt13 variant v b := by
  refine .ofField (fun x => .ok (be32Bytes x.toUInt32)) valI32_field (fun _ => rfl) ?_ h
  intro v x bs _ hput rest
  cases hput
  have hread : decodeDpt13 (be32Bytes x.toUInt32 ++ rest) =
      .ok (.int (be32At (be32Bytes x.toUInt32 ++ rest)).toInt32) := rfl
  rw [hread, be32At_append, Int32.toInt32_toUInt32]

theorem dpt29_reads (x : Int64) (rest : List UInt8) :
    decodeDpt29 (be64Bytes x.toUInt64 ++ rest) = .ok (.int64 x) := by
  have hlen : 8 ≤ (be64Bytes x.toUInt64 ++ rest).length := by
    rw [List.length_append, be64Bytes_length]
    exact Nat.le_add_right 8 _
  unfold decodeDpt29
  rw [checkLen_ok hlen, be64At_append, Int64.toInt64_toUInt64]
  rfl

theorem dpt29_recovers (h : encodeDpt29 v = .ok b) :
    Recovers decodeDpt29 encodeDpt29 variant v b := by
  have splits (v : DptValue) :
      encodeDpt29 v = valI64 v >>= fun x => .ok (be64Bytes x.toUInt64) := rfl
  refine .ofField _ valI64_field splits ?_ h
  intro v x bs _ hput rest
  rw [← Except.ok.inj hput]
  exact dpt29_reads x rest

/-! ## Big-endian numbers of two and three octets -/

theorem foldl_be {octets : List UInt8} {acc : UInt32}
    (h : (acc.toNat + 1) * 256 ^ octets.length ≤ 2 ^ 32) :
    (octets.foldl (fun (acc : UInt32) b => (acc <<< 8) ||| b.toUInt32) acc).toNat =
      octets.foldl (fun acc b => acc * 256 + b.toNat) acc.toNat := by
  induction octets generalizing acc with
  | nil => rfl
  | cons octet octets ih =>
    rw [List.length_cons, Nat.pow_succ] at h
    have hpow : 0 < 256 ^ octets.length := Nat.pow_pos (by decide)
    have hacc : acc.toNat < 2 ^ 24 := by
      by_contra hge
      have hle : (2 ^ 24 + 1) * (1 * 256) ≤ (acc.toNat + 1) * (256 ^ octets.length * 256) :=
        Nat.mul_le_mul (by omega) (Nat.mul_le_mul_right _ hpow)
      omega
    have hoctet := octet.toNat_lt
    have hnext := shift_or (b := octet) hacc
    rw [List.foldl_cons, List.foldl_cons, ih, hnext]
    rw [hnext]
    have hle : (acc.toNat * 256 + octet.toNat + 1) * 256 ^ octets.length ≤
        ((acc.toNat + 1) * 256) * 256 ^ octets.length := Nat.mul_le_mul_right _ (by omega)
    have hassoc : (acc.toNat + 1) * 256 * 256 ^ octets.length =
        (acc.toNat + 1) * (256 ^ octets.length * 256) := by
      rw [Nat.mul_assoc, Nat.mul_comm 256]
    omega

theorem uintBe_recovers {len : Nat} (hlen : len = 2 ∨ len = 3) (h : encodeUintBe v len = .ok b) :
    Recovers (fun payload => decodeUintBe payload len) (fun v => encodeUintBe v len) variant
      v b := by
  refine .ofField (fun x => .ok ((be32Bytes x).drop (4 - len))) (valU32Max_field _)
    (fun _ => rfl) ?_ h
  intro v x bs hx hput rest
  cases hput
  have hle := (valU32Max_ok hx).2
  have hx' := x.toNat_lt
  have hoctets : ((be32Bytes x).drop (4 - len)).length = len := by
    rcases hlen with rfl | rfl <;> rfl
  unfold decodeUintBe
  rw [checkLen_ok (by rw [List.length_append]; omega),
    List.take_append_of_le_length (Nat.le_of_eq hoctets.symm),
    List.take_of_length_le (Nat.le_of_eq hoctets)]
  refine congrArg (fun y => Except.ok (DptValue.uint y)) (UInt32.toNat_inj.mp ?_)
  rw [UInt32.le_iff_toNat_le] at hle
  rcases hlen with rfl | rfl
  · have hmax : x.toNat ≤ 65535 := hle
    have hfit : ((0 : UInt32).toNat + 1) * 256 ^ ((be32Bytes x).drop (4 - 2)).length ≤ 2 ^ 32 := by
      rw [hoctets]
      decide
    rw [foldl_be hfit]
    simp only [be32Bytes, List.drop_succ_cons, List.drop_zero, List.foldl_cons, List.foldl_nil,
      UInt8.toNat_ofNat']
    have hzero : (0 : UInt32).toNat = 0 := rfl
    omega
  · have hmax : x.toNat ≤ 16777215 := hle
    have hfit : ((0 : UInt32).toNat + 1) * 256 ^ ((be32Bytes x).drop (4 - 3)).length ≤ 2 ^ 32 := by
      rw [hoctets]
      decide
    rw [foldl_be hfit]
    simp only [be32Bytes, List.drop_succ_cons, List.drop_zero, List.foldl_cons, List.foldl_nil,
      UInt8.toNat_ofNat']
    have hzero : (0 : UInt32).toNat = 0 := rfl
    omega

theorem lowU8_shift (x s : UInt32) (hs : s.toNat < 32) :
    (lowU8 ((x >>> s) &&& 0xFF)).toNat = x.toNat / 2 ^ s.toNat % 256 := by
  have hmax : (0xFF : UInt32).toNat = 2 ^ 8 - 1 := rfl
  rw [lowU8, UInt32.toNat_toUInt8, UInt32.toNat_and, UInt32.toNat_and, UInt32.toNat_shiftRight,
    hmax, Nat.and_two_pow_sub_one_eq_mod, Nat.and_two_pow_sub_one_eq_mod, Nat.mod_eq_of_lt hs,
    Nat.shiftRight_eq_div_pow, Nat.mod_mod, Nat.mod_mod]

theorem rgb_toNat (r g b : UInt8) :
    ((r.toUInt32 <<< 16) ||| (g.toUInt32 <<< 8) ||| b.toUInt32).toNat =
      (r.toNat * 256 + g.toNat) * 256 + b.toNat := by
  have hr := r.toNat_lt
  have hg := g.toNat_lt
  have hb := b.toNat_lt
  have h16 : (16 : UInt32).toNat % 32 = 16 := rfl
  have h8 : (8 : UInt32).toNat % 32 = 8 := rfl
  have hlow : g.toNat <<< 8 < 2 ^ 16 := by
    rw [Nat.shiftLeft_eq]
    omega
  have hhigh : r.toNat <<< 16 + g.toNat <<< 8 = (r.toNat * 256 + g.toNat) <<< 8 := by
    simp only [Nat.shiftLeft_eq]
    omega
  have hred : (r.toNat <<< 16) % 2 ^ 32 = r.toNat <<< 16 := by
    rw [Nat.shiftLeft_eq]
    exact Nat.mod_eq_of_lt (by omega)
  have hgreen : (g.toNat <<< 8) % 2 ^ 32 = g.toNat <<< 8 :=
    Nat.mod_eq_of_lt (Nat.lt_trans hlow (by decide))
  rw [UInt32.toNat_or, UInt32.toNat_or, UInt32.toNat_shiftLeft, UInt32.toNat_shiftLeft, h16, h8,
    UInt8.toNat_toUInt32, UInt8.toNat_toUInt32, UInt8.toNat_toUInt32, hred, hgreen,
    ← Nat.shiftLeft_add_eq_or_of_lt hlow, hhigh, ← Nat.shiftLeft_add_eq_or_of_lt hb,
    Nat.shiftLeft_eq]

theorem dpt232_recovers (h : encodeDpt232 v = .ok b) :
    Recovers decodeDpt232 encodeDpt232 variant v b := by
  refine .ofField _ (valU32Max_field 0x00FFFFFF) (fun _ => rfl) ?_ h
  intro v x bs hx hput rest
  rw [← Except.ok.inj hput]
  refine congrArg (fun y => Except.ok (DptValue.uint y)) (UInt32.toNat_inj.mp ?_)
  have hle := (valU32Max_ok hx).2
  rw [UInt32.le_iff_toNat_le] at hle
  have hmax : (0x00FFFFFF : UInt32).toNat = 2 ^ 24 - 1 := rfl
  have hred := lowU8_shift x 16 (by decide)
  have hgreen := lowU8_shift x 8 (by decide)
  have hblue := lowU8_shift x 0 (by decide)
  rw [show (16 : UInt32).toNat = 16 from rfl] at hred
  rw [show (8 : UInt32).toNat = 8 from rfl] at hgreen
  rw [show (0 : UInt32).toNat = 0 from rfl, UInt32.shiftRight_zero] at hblue
  refine (rgb_toNat _ _ _).trans ?_
  change (UInt8.toNat _ * 256 + UInt8.toNat _) * 256 + (lowU8 (x &&& 0xFF)).toNat = _
  refine (congrArg₂ (fun r g => (r * 256 + g) * 256 + _) hred hgreen).trans ?_
  rw [hblue]
  omega

/-! ## Times of day and access data -/

theorem decodeDpt10_append {octets : List UInt8} (h : octets.length = 3) (rest : List UInt8) :
    decodeDpt10 (octets ++ rest) = .ok (.bytes octets) := by
  unfold decodeDpt10
  rw [checkLen_ok (by rw [List.length_append]; omega), ← h, List.take_left]
  rfl

theorem dpt10_recovers (h : encodeDpt10 v = .ok b) :
    Recovers decodeDpt10 encodeDpt10 variant v b := by
  have kept {octets : List UInt8} (hlen : octets.length = 3) :
      encodeDpt10 (.bytes octets) = .ok octets := if_pos hlen
  cases v with
  | bytes octets =>
    unfold encodeDpt10 at h
    dsimp only at h
    split_ifs at h with hlen
    cases h
    exact .ofOctets (decodeDpt10_append hlen) (kept hlen) (fun _ => rfl)
  | uint secs =>
    unfold encodeDpt10 at h
    dsimp only at h
    split_ifs at h
    cases h
    exact .ofOctets (decodeDpt10_append rfl) (kept rfl) (fun hform => by cases hform)
  | _ => cases h

theorem decodeDpt15_append {octets : List UInt8} (h : octets.length = 4)
    (digits : bcdDigitsValid (octets.take 3) = true) (rest : List UInt8) :
    decodeDpt15 (octets ++ rest) = .ok (.bytes octets) := by
  unfold decodeDpt15
  rw [checkLen_ok (by rw [List.length_append]; omega), List.take_append_of_le_length (by omega),
    ← h, List.take_left, if_neg (not_not.mpr digits)]
  rfl

theorem encodeDpt15_bytes {octets : List UInt8} (h : octets.length = 4)
    (digits : bcdDigitsValid (octets.take 3) = true) :
    encodeDpt15 (.bytes octets) = .ok octets := by
  unfold encodeDpt15
  dsimp only
  rw [if_pos h, if_neg (not_not.mpr digits)]

def digit (x : UInt32) : UInt8 := lowU8 (x % 10)

theorem digit_le (x : UInt32) : (digit x).toNat < 10 := by
  have h10 : (10 : UInt32).toNat = 10 := rfl
  have hlt : (x % 10).toNat < 10 := by
    rw [UInt32.toNat_mod, h10]
    omega
  have hoctet : x % 10 ≤ 0xFF := by
    rw [UInt32.le_iff_toNat_le]
    exact Nat.le_trans (Nat.le_of_lt hlt) (by decide)
  rw [digit, lowU8_toNat hoctet]
  exact hlt

def bcdOctet (high low : UInt8) : UInt8 := ((0 : UInt8) ||| low) ||| (high <<< 4)

theorem bcdOctet_valid {high low : UInt8} (hhigh : high.toNat < 10) (hlow : low.toNat < 10) :
    bcdOctet high low >>> 4 ≤ 9 ∧ bcdOctet high low &&& 0x0F ≤ 9 := by
  have all : ∀ m n : Fin 10, bcdOctet (UInt8.ofNat m) (UInt8.ofNat n) >>> 4 ≤ 9 ∧
      bcdOctet (UInt8.ofNat m) (UInt8.ofNat n) &&& 0x0F ≤ 9 := by decide
  have h := all ⟨high.toNat, hhigh⟩ ⟨low.toNat, hlow⟩
  rwa [UInt8.ofNat_toNat, UInt8.ofNat_toNat] at h

theorem bcd_octets (x : UInt32) : ([5, 4, 3, 2, 1, 0].foldl bcdRound (x, [0, 0, 0, 0])).2 =
    [bcdOctet (digit (x / 10 / 10 / 10 / 10 / 10)) (digit (x / 10 / 10 / 10 / 10)),
      bcdOctet (digit (x / 10 / 10 / 10)) (digit (x / 10 / 10)),
      bcdOctet (digit (x / 10)) (digit x), 0] := rfl

theorem bcd_valid (x : UInt32) :
    bcdDigitsValid (([5, 4, 3, 2, 1, 0].foldl bcdRound (x, [0, 0, 0, 0])).2.take 3) = true := by
  rw [bcd_octets]
  refine List.all_eq_true.mpr fun octet hoctet => decide_eq_true ?_
  rcases List.mem_cons.mp hoctet with rfl | hoctet
  · exact bcdOctet_valid (digit_le _) (digit_le _)
  rcases List.mem_cons.mp hoctet with rfl | hoctet
  · exact bcdOctet_valid (digit_le _) (digit_le _)
  rcases List.mem_cons.mp hoctet with rfl | hoctet
  · exact bcdOctet_valid (digit_le _) (digit_le _)
  · cases hoctet

theorem encodeDpt15_ok (h : encodeDpt15 v = .ok b) :
    b.length = 4 ∧ bcdDigitsValid (b.take 3) = true ∧ (v.variant = .bytes → .bytes b = v) := by
  have number (value : DptValue)
      (h : (valU32Max value 999999 >>= fun x =>
        .ok ([5, 4, 3, 2, 1, 0].foldl bcdRound (x, [0, 0, 0, 0])).2) = Except.ok b) :
      b.length = 4 ∧ bcdDigitsValid (b.take 3) = true := by
    obtain ⟨x, _, hb⟩ := bind_ok h
    rw [← Except.ok.inj hb]
    exact ⟨rfl, bcd_valid x⟩
  cases v with
  | bytes octets =>
    unfold encodeDpt15 at h
    dsimp only at h
    split_ifs at h with hlen hdigits
    · cases h
      exact ⟨hlen, hdigits, fun _ => rfl⟩
  | _ =>
    obtain ⟨hlen, hdigits⟩ := number _ h
    exact ⟨hlen, hdigits, fun hform => by cases hform⟩

theorem dpt15_recovers (h : encodeDpt15 v = .ok b) :
    Recovers decodeDpt15 encodeDpt15 variant v b := by
  obtain ⟨hlen, hdigits, hsame⟩ := encodeDpt15_ok h
  exact .ofOctets (decodeDpt15_append hlen hdigits) (encodeDpt15_bytes hlen hdigits) hsame

end KnxRs.DptRoundTrip
