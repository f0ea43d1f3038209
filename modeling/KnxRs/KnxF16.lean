import KnxRs.DptNumeric
import KnxRs.Rounding
import Mathlib.Data.Nat.Bitwise
import Mathlib.Data.Rat.Floor
import Mathlib.Tactic.Ring
import Mathlib.Tactic.NormNum

set_option autoImplicit false

/-!
# KNX F16 over the rationals

The codec of the sixteen-bit float with its arithmetic taken as exact: an encoded number
is decoded to a nearest one of all that can be decoded.
-/
namespace KnxRs.KnxF16
open CoreTypes DptCodec DptNumeric Rounding

/-- `decode_dpt9`; the marker for invalid data is read as no number. -/
def decodeDpt9 (payload : List UInt8) : Except DptError (Option ℚ) := do
  checkLen payload 2
  let raw := be16 (payload.getD 0 0) (payload.getD 1 0)
  if raw = dpt9Invalid then .ok none
  else
    let exponent := (raw >>> 11) &&& 0x0F
    let m : Int32 := (raw &&& 0x07FF).toUInt32.toInt32
    let mantissa := if raw &&& 0x8000 ≠ 0 then m - 0x0800 else m
    .ok (some (1 / 100 * mantissa.toInt * ((1 : UInt32) <<< exponent.toUInt32).toNat))

def rawOf (exponent : UInt16) (m : Int32) : UInt16 :=
  let sign : UInt16 := if m < 0 then 0x8000 else 0
  sign ||| (exponent <<< 11) ||| lowU16 (m &&& 0x07FF).toUInt32

/-- The loop of `encode_dpt9` over the exponents that are left. -/
def encodeF16 (hundredths : ℚ) : List UInt16 → Except DptError (List UInt8)
  | [] => .error (.outOfRange "KNX F16 range is -671088.64 ..= 670433.28")
  | exponent :: exponents =>
    let mantissa := roundAway (hundredths / ((1 : UInt32) <<< exponent.toUInt32).toNat)
    if ¬(-2048 ≤ mantissa ∧ mantissa ≤ 2047) then encodeF16 hundredths exponents
    else
      let m := Int32.ofInt mantissa
      if exponent = 15 ∧ m = 2047 then
        .error (.outOfRange "KNX F16 range is -671088.64 ..= 670433.28")
      else .ok (be16Bytes (rawOf exponent m))

def encodeDpt9 (value : Option ℚ) : Except DptError (List UInt8) :=
  match value with
  | none => .ok (be16Bytes dpt9Invalid)
  | some v => encodeF16 (v * 100) [0, 1, 2, 3, 4, 5, 6, 7, 8, 9, 10, 11, 12, 13, 14, 15]

/-! ## Fields of the wire value -/

theorem shift_toNat {exponent : UInt16} (h : exponent.toNat ≤ 15) :
    ((1 : UInt32) <<< exponent.toUInt32).toNat = 2 ^ exponent.toNat := by
  rw [UInt32.toNat_shiftLeft, UInt16.toNat_toUInt32, show (1 : UInt32).toNat = 1 from rfl,
    Nat.one_shiftLeft, Nat.mod_eq_of_lt (show exponent.toNat < 32 by omega)]
  exact Nat.mod_eq_of_lt (Nat.pow_lt_pow_right one_lt_two (by omega))

theorem exponent_toNat (raw : UInt16) :
    ((raw >>> 11) &&& 0x0F).toNat = raw.toNat / 2048 % 16 := by
  rw [UInt16.toNat_and, UInt16.toNat_shiftRight, show (0x0F : UInt16).toNat = 2 ^ 4 - 1 from rfl,
    Nat.and_two_pow_sub_one_eq_mod, show (11 : UInt16).toNat % 16 = 11 from rfl,
    Nat.shiftRight_eq_div_pow]

theorem low_toNat (raw : UInt16) : (raw &&& 0x07FF).toNat = raw.toNat % 2048 := by
  rw [UInt16.toNat_and, show (0x07FF : UInt16).toNat = 2 ^ 11 - 1 from rfl,
    Nat.and_two_pow_sub_one_eq_mod]

theorem sign_iff (raw : UInt16) : raw &&& 0x8000 ≠ 0 ↔ 32768 ≤ raw.toNat := by
  have hraw := raw.toNat_lt
  rw [Ne, ← UInt16.toNat_inj, UInt16.toNat_and, show (0x8000 : UInt16).toNat = 2 ^ 15 from rfl,
    Nat.and_two_pow, Nat.testBit_eq_decide_div_mod_eq, show (0 : UInt16).toNat = 0 from rfl]
  by_cases hsign : 32768 ≤ raw.toNat
  · rw [decide_eq_true (by omega)]
    simpa using hsign
  · rw [decide_eq_false (by omega)]
    simpa using hsign

def mantissaOf (raw : UInt16) : ℤ :=
  if 32768 ≤ raw.toNat then (raw.toNat % 2048 : ℤ) - 2048 else raw.toNat % 2048

def exponentOf (raw : UInt16) : ℕ := raw.toNat / 2048 % 16

theorem toInt32_toInt {x : UInt32} (h : x.toNat < 2 ^ 31) : x.toInt32.toInt = x.toNat := by
  have hbits : x.toInt32.toInt = (x.toNat : ℤ).bmod (2 ^ 32) := BitVec.toInt_eq_toNat_bmod _
  rw [hbits, Int.bmod_eq_of_le] <;> omega

theorem mantissa_toInt (raw : UInt16) :
    (if raw &&& 0x8000 ≠ 0 then (raw &&& 0x07FF).toUInt32.toInt32 - 0x0800
      else (raw &&& 0x07FF).toUInt32.toInt32).toInt = mantissaOf raw := by
  have hlow : (raw &&& 0x07FF).toUInt32.toInt32.toInt = (raw.toNat % 2048 : ℤ) := by
    have hsmall : (raw &&& 0x07FF).toUInt32.toNat = raw.toNat % 2048 := by
      rw [UInt16.toNat_toUInt32, low_toNat]
    rw [toInt32_toInt (by omega), hsmall]
    rfl
  unfold mantissaOf
  by_cases hsign : 32768 ≤ raw.toNat
  · rw [if_pos ((sign_iff raw).mpr hsign), if_pos hsign, Int32.toInt_sub, hlow,
      show (0x0800 : Int32).toInt = 2048 from rfl, Int.bmod_eq_of_le] <;> omega
  · rw [if_neg (fun h => hsign ((sign_iff raw).mp h)), if_neg hsign, hlow]

theorem mantissaOf_range (raw : UInt16) : -2048 ≤ mantissaOf raw ∧ mantissaOf raw ≤ 2047 := by
  unfold mantissaOf
  split_ifs <;> omega

theorem exponentOf_range (raw : UInt16) : exponentOf raw ≤ 15 := by
  unfold exponentOf
  omega

def valueOf (mantissa : ℤ) (exponent : ℕ) : ℚ := mantissa * 2 ^ exponent / 100

theorem decodeDpt9_bytes (raw : UInt16) (rest : List UInt8) :
    decodeDpt9 (be16Bytes raw ++ rest) =
      .ok (if raw = dpt9Invalid then none
        else some (valueOf (mantissaOf raw) (exponentOf raw))) := by
  unfold decodeDpt9
  rw [checkLen, if_neg (by simp [be16Bytes])]
  dsimp only [bind, Except.bind]
  have hraw : be16 ((be16Bytes raw ++ rest).getD 0 0) ((be16Bytes raw ++ rest).getD 1 0) = raw :=
    be16_be16Bytes raw
  rw [hraw]
  by_cases hmark : raw = dpt9Invalid
  · rw [if_pos hmark, if_pos hmark]
  · rw [if_neg hmark, if_neg hmark, mantissa_toInt, shift_toNat, exponent_toNat]
    · unfold valueOf exponentOf
      push_cast
      ring_nf
    · rw [exponent_toNat]
      omega

theorem lowU16_toNat (m : Int32) :
    (lowU16 (m &&& 0x07FF).toUInt32).toNat = m.toUInt32.toNat % 2048 := by
  have hand : (m &&& 0x07FF).toUInt32.toNat = m.toUInt32.toNat % 2048 := by
    rw [Int32.toUInt32_and, UInt32.toNat_and,
      show (0x07FF : Int32).toUInt32.toNat = 2 ^ 11 - 1 from rfl, Nat.and_two_pow_sub_one_eq_mod]
  rw [lowU16, UInt32.toNat_toUInt16, UInt32.toNat_and, hand,
    show (0xFFFF : UInt32).toNat = 2 ^ 16 - 1 from rfl, Nat.and_two_pow_sub_one_eq_mod]
  omega

theorem ofInt_lt_zero {k : ℤ} (hlow : -2048 ≤ k) (hhigh : k ≤ 2047) :
    Int32.ofInt k < 0 ↔ k < 0 := by
  rw [Int32.lt_iff_toInt_lt, Int32.toInt_ofInt_of_le (by omega) (by omega)]
  rfl

theorem ofInt_toUInt32 (k : ℤ) : (Int32.ofInt k).toUInt32.toNat = (k % 2 ^ 32).toNat :=
  BitVec.toNat_ofInt k

theorem rawOf_toNat {exponent : UInt16} {k : ℤ} (he : exponent.toNat ≤ 15)
    (hlow : -2048 ≤ k) (hhigh : k ≤ 2047) :
    (rawOf exponent (Int32.ofInt k)).toNat =
      (if k < 0 then 32768 else 0) + exponent.toNat * 2048 + (k % 2048).toNat := by
  have hshift : (exponent <<< 11).toNat = exponent.toNat <<< 11 := by
    rw [UInt16.toNat_shiftLeft, show (11 : UInt16).toNat % 16 = 11 from rfl, Nat.shiftLeft_eq]
    exact Nat.mod_eq_of_lt (by omega)
  have hm : (Int32.ofInt k).toUInt32.toNat % 2048 = (k % 2048).toNat := by
    rw [ofInt_toUInt32]
    omega
  have hmantissa : (k % 2048).toNat < 2 ^ 11 := by omega
  have hfields : exponent.toNat <<< 11 ||| (k % 2048).toNat =
      exponent.toNat * 2048 + (k % 2048).toNat := by
    rw [← Nat.shiftLeft_add_eq_or_of_lt hmantissa, Nat.shiftLeft_eq]
  unfold rawOf
  rw [UInt16.toNat_or, UInt16.toNat_or, Nat.or_assoc, lowU16_toNat, hshift, hm, hfields]
  by_cases hsign : k < 0
  · have hfit : exponent.toNat * 2048 + (k % 2048).toNat < 2 ^ 15 := by omega
    rw [if_pos ((ofInt_lt_zero hlow hhigh).mpr hsign), if_pos hsign,
      show (0x8000 : UInt16).toNat = 1 <<< 15 from rfl, ← Nat.shiftLeft_add_eq_or_of_lt hfit,
      Nat.shiftLeft_eq]
    omega
  · rw [if_neg (fun h => hsign ((ofInt_lt_zero hlow hhigh).mp h)), if_neg hsign,
      show (0 : UInt16).toNat = 0 from rfl, Nat.zero_or, Nat.zero_add]

theorem rawOf_fields {exponent : UInt16} {k : ℤ} (he : exponent.toNat ≤ 15)
    (hlow : -2048 ≤ k) (hhigh : k ≤ 2047) :
    mantissaOf (rawOf exponent (Int32.ofInt k)) = k ∧
      exponentOf (rawOf exponent (Int32.ofInt k)) = exponent.toNat := by
  have hraw := rawOf_toNat he hlow hhigh
  unfold mantissaOf exponentOf
  rw [hraw]
  by_cases hsign : k < 0
  · rw [if_pos hsign, if_pos (by omega)]
    omega
  · rw [if_neg hsign, if_neg (by omega)]
    omega

theorem rawOf_marker {exponent : UInt16} {k : ℤ} (he : exponent.toNat ≤ 15)
    (hlow : -2048 ≤ k) (hhigh : k ≤ 2047) :
    rawOf exponent (Int32.ofInt k) = dpt9Invalid ↔ exponent = 15 ∧ k = 2047 := by
  have hraw := rawOf_toNat he hlow hhigh
  rw [← UInt16.toNat_inj, hraw, show dpt9Invalid.toNat = 32767 from rfl, ← UInt16.toNat_inj,
    show (15 : UInt16).toNat = 15 from rfl]
  split_ifs <;> omega

/-! ## The loop -/

def mantissaAt (hundredths : ℚ) (exponent : ℕ) : ℤ := roundAway (hundredths / 2 ^ exponent)

def Fits (hundredths : ℚ) (exponent : ℕ) : Prop :=
  -2048 ≤ mantissaAt hundredths exponent ∧ mantissaAt hundredths exponent ≤ 2047

theorem fits_iff (h : ℚ) (e : ℕ) :
    Fits h e ↔ -4097 * 2 ^ e < 2 * h ∧ 2 * h < 4095 * 2 ^ e := by
  have hpos : (0 : ℚ) < 2 ^ e := by positivity
  unfold Fits mantissaAt
  rw [le_roundAway_iff (by omega), roundAway_le_iff (by omega), lt_div_iff₀ hpos,
    div_lt_iff₀ hpos]
  push_cast
  constructor <;> rintro ⟨hlow, hhigh⟩ <;> constructor <;> linarith

/-- The octets of what fits, the marker excepted. -/
def encodeAt (hundredths : ℚ) (exponent : ℕ) : Except DptError (List UInt8) :=
  if exponent = 15 ∧ mantissaAt hundredths exponent = 2047 then
    .error (.outOfRange "KNX F16 range is -671088.64 ..= 670433.28")
  else
    .ok (be16Bytes (rawOf (UInt16.ofNat exponent) (Int32.ofInt (mantissaAt hundredths exponent))))

theorem ofNat_toNat {e : ℕ} (he : e ≤ 15) : (UInt16.ofNat e).toNat = e := by
  rw [UInt16.toNat_ofNat']
  omega

theorem encodeF16_cons {h : ℚ} {e : ℕ} (he : e ≤ 15) (exponents : List UInt16) :
    (Fits h e → encodeF16 h (UInt16.ofNat e :: exponents) = encodeAt h e) ∧
      (¬Fits h e → encodeF16 h (UInt16.ofNat e :: exponents) = encodeF16 h exponents) := by
  have hmantissa : roundAway
      (h / (((1 : UInt32) <<< (UInt16.ofNat e).toUInt32).toNat : ℚ)) = mantissaAt h e := by
    rw [shift_toNat (by rw [ofNat_toNat he]; exact he), ofNat_toNat he]
    unfold mantissaAt
    push_cast
    rfl
  rw [encodeF16, hmantissa]
  refine ⟨fun hfits => ?_, fun hfits => if_pos hfits⟩
  obtain ⟨hlow, hhigh⟩ := hfits
  rw [if_neg (not_not.mpr ⟨hlow, hhigh⟩)]
  have htop : UInt16.ofNat e = 15 ↔ e = 15 := by
    rw [← UInt16.toNat_inj, ofNat_toNat he]
    rfl
  have hlast : Int32.ofInt (mantissaAt h e) = 2047 ↔ mantissaAt h e = 2047 := by
    rw [← Int32.toInt_inj, Int32.toInt_ofInt_of_le (by omega) (by omega)]
    rfl
  exact if_congr (and_congr htop hlast) rfl rfl

/-- The loop stops at the first exponent that fits. -/
theorem encodeF16_from (h : ℚ) (start left : ℕ) (hleft : start + left = 16) :
    ((∀ e, start ≤ e → e ≤ 15 → ¬Fits h e) ∧
      encodeF16 h ((List.range' start left).map UInt16.ofNat) =
        .error (.outOfRange "KNX F16 range is -671088.64 ..= 670433.28")) ∨
    ∃ e, e ≤ 15 ∧ Fits h e ∧ (∀ f, start ≤ f → f < e → ¬Fits h f) ∧
      encodeF16 h ((List.range' start left).map UInt16.ofNat) = encodeAt h e := by
  induction left generalizing start with
  | zero => exact .inl ⟨fun e hstart hlast => by omega, rfl⟩
  | succ left ih =>
    rw [List.range'_succ, List.map_cons]
    obtain ⟨hstop, hgo⟩ := encodeF16_cons (h := h) (show start ≤ 15 by omega)
      ((List.range' (start + 1) left).map UInt16.ofNat)
    by_cases hfits : Fits h start
    · exact .inr ⟨start, by omega, hfits, fun f hstart hlt => by omega, hstop hfits⟩
    · have hnext {f : ℕ} (hle : start ≤ f) (hrest : start + 1 ≤ f → ¬Fits h f) : ¬Fits h f := by
        rcases Nat.eq_or_lt_of_le hle with rfl | hlt
        · exact hfits
        · exact hrest hlt
      rw [hgo hfits]
      obtain ⟨hnone, herror⟩ | ⟨e, he, hfound, hbefore, hencoded⟩ := ih (start + 1) (by omega)
      · exact .inl ⟨fun e hle hlast => hnext hle fun hlt => hnone e hlt hlast, herror⟩
      · exact .inr ⟨e, he, hfound, fun f hle hlt => hnext hle fun h' => hbefore f h' hlt, hencoded⟩

/-! ## Nearest values -/

def representable : Set ℚ := {y | ∃ payload, decodeDpt9 payload = .ok (some y)}

theorem representable_fields {y : ℚ} (hy : y ∈ representable) :
    ∃ n e, -2048 ≤ n ∧ n ≤ 2047 ∧ e ≤ 15 ∧ y = valueOf n e := by
  obtain ⟨payload, hread⟩ := hy
  rcases payload with _ | ⟨a, _ | ⟨b, rest⟩⟩
  · cases hread
  · cases hread
  · have hbytes : a :: b :: rest = be16Bytes (be16 a b) ++ rest := by
      rw [be16Bytes_be16]
      rfl
    rw [hbytes, decodeDpt9_bytes] at hread
    split_ifs at hread
    · cases hread
    · cases hread
      obtain ⟨hlow, hhigh⟩ := mantissaOf_range (be16 a b)
      exact ⟨_, _, hlow, hhigh, exponentOf_range _, rfl⟩

theorem roundAway_grid (h : ℚ) (e : ℕ) (z : ℤ) :
    |h - mantissaAt h e * 2 ^ e| ≤ |h - z * 2 ^ e| := by
  have hpos : (0 : ℚ) < 2 ^ e := by positivity
  have scaled (x : ℤ) : |h - x * 2 ^ e| = |h / 2 ^ e - x| * 2 ^ e := by
    rw [← abs_of_pos hpos, ← abs_mul, abs_of_pos hpos, sub_mul, div_mul_cancel₀ h hpos.ne']
  rw [scaled, scaled]
  exact mul_le_mul_of_nonneg_right (roundAway_le (h / 2 ^ e) z) hpos.le

/-- Under the first exponent that fits no value of the format is nearer. -/
theorem nearest_hundredths {h : ℚ} {e : ℕ} (hfirst : ∀ f, f < e → ¬Fits h f) {n : ℤ} {f : ℕ}
    (hlow : -2048 ≤ n) (hhigh : n ≤ 2047) :
    |h - mantissaAt h e * 2 ^ e| ≤ |h - n * 2 ^ f| := by
  rcases Nat.lt_or_ge f e with hlt | hge
  · obtain ⟨d, rfl⟩ := Nat.exists_eq_succ_of_ne_zero (Nat.ne_of_gt (Nat.zero_lt_of_lt hlt))
    -- a finer value is on the near side of the last one of the coarser grid
    have hout := hfirst d (Nat.lt_succ_self d)
    rw [fits_iff, not_and_or, not_lt, not_lt] at hout
    have hunit : (0 : ℚ) < 2 ^ d := by positivity
    have hf : (0 : ℚ) < 2 ^ f := by positivity
    have hfd : (2 : ℚ) ^ f ≤ 2 ^ d := pow_le_pow_right₀ one_le_two (Nat.lt_succ_iff.mp hlt)
    have hlow' : (-2048 : ℚ) ≤ n := by exact_mod_cast hlow
    have hhigh' : (n : ℚ) ≤ 2047 := by exact_mod_cast hhigh
    have habove : (n : ℚ) * 2 ^ f ≤ 2047 * 2 ^ d := by nlinarith
    have hbelow : -2048 * 2 ^ d ≤ (n : ℚ) * 2 ^ f := by nlinarith
    have hsucc : (2 : ℚ) ^ (d + 1) = 2 * 2 ^ d := by ring
    rcases hout with hneg | hpos
    · refine (roundAway_grid h (d + 1) (-1024)).trans ?_
      rw [hsucc, abs_of_nonpos (by push_cast; linarith), abs_of_nonpos (by linarith)]
      push_cast
      linarith
    · refine (roundAway_grid h (d + 1) 1024).trans ?_
      rw [hsucc, abs_of_nonneg (a := h - n * 2 ^ f) (by linarith), abs_le]
      push_cast
      constructor <;> linarith
  · have hmultiple : (n : ℚ) * 2 ^ f = ((n * 2 ^ (f - e) : ℤ) : ℚ) * 2 ^ e := by
      push_cast
      rw [mul_assoc, ← pow_add, Nat.sub_add_cancel hge]
    rw [hmultiple]
    exact roundAway_grid h e _

def topMantissa (v : ℚ) : ℤ := roundAway (v * 100 / 2 ^ 15)

/-- The nearest value under the largest exponent is the marker, or beyond the range. -/
def OutOfRange (v : ℚ) : Prop := 2047 ≤ topMantissa v ∨ topMantissa v < -2048

theorem outOfRange_iff (v : ℚ) :
    OutOfRange v ↔ 4093 * 2 ^ 15 ≤ 2 * (v * 100) ∨ 2 * (v * 100) ≤ -4097 * 2 ^ 15 := by
  have hmarker : 2047 ≤ topMantissa v ↔ ¬topMantissa v ≤ 2046 := by omega
  unfold OutOfRange
  rw [hmarker, ← not_le, topMantissa, roundAway_le_iff (by omega), le_roundAway_iff (by omega),
    not_lt, not_lt, le_div_iff₀ (by positivity), div_le_iff₀ (by positivity)]
  push_cast
  constructor <;> rintro (h | h)
  · exact .inl (by linarith)
  · exact .inr (by linarith)
  · exact .inl (by linarith)
  · exact .inr (by linarith)

theorem encodeAt_read {h : ℚ} {e : ℕ} (he : e ≤ 15) (hfits : Fits h e)
    (hmarker : ¬(e = 15 ∧ mantissaAt h e = 2047)) :
    ∃ raw, encodeAt h e = .ok (be16Bytes raw) ∧ raw ≠ dpt9Invalid ∧
      decodeDpt9 (be16Bytes raw) = .ok (some (valueOf (mantissaAt h e) e)) := by
  obtain ⟨hlow, hhigh⟩ := hfits
  have hrange : (UInt16.ofNat e).toNat ≤ 15 := by rw [ofNat_toNat he]; exact he
  have hraw : rawOf (UInt16.ofNat e) (Int32.ofInt (mantissaAt h e)) ≠ dpt9Invalid := by
    rw [Ne, rawOf_marker hrange hlow hhigh, ← UInt16.toNat_inj, ofNat_toNat he]
    exact hmarker
  obtain ⟨hmantissa, hexponent⟩ := rawOf_fields hrange hlow hhigh
  have hread := decodeDpt9_bytes (rawOf (UInt16.ofNat e) (Int32.ofInt (mantissaAt h e))) []
  rw [List.append_nil, if_neg hraw, hmantissa, hexponent, ofNat_toNat he] at hread
  exact ⟨_, if_neg hmarker, hraw, hread⟩

theorem fits_inRange {v : ℚ} {e : ℕ} (he : e ≤ 15) (hfits : Fits (v * 100) e)
    (hmarker : ¬(e = 15 ∧ mantissaAt (v * 100) e = 2047)) : ¬OutOfRange v := by
  rcases Nat.eq_or_lt_of_le he with rfl | hlt
  · obtain ⟨hlow, hhigh⟩ := hfits
    have htop : topMantissa v = mantissaAt (v * 100) 15 := rfl
    rintro (hout | hout)
    · exact hmarker ⟨rfl, by omega⟩
    · omega
  · obtain ⟨hlow, hhigh⟩ := (fits_iff _ _).mp hfits
    have hpow : (2 : ℚ) ^ e ≤ 2 ^ 14 := pow_le_pow_right₀ one_le_two (by omega)
    rw [outOfRange_iff]
    rintro (hout | hout) <;> linarith

theorem nearest_value {v : ℚ} {e : ℕ} (hfirst : ∀ f, f < e → ¬Fits (v * 100) f)
    (hmem : valueOf (mantissaAt (v * 100) e) e ∈ representable) :
    Nearest representable v (valueOf (mantissaAt (v * 100) e) e) := by
  refine ⟨hmem, fun y hy => ?_⟩
  obtain ⟨n, f, hlow, hhigh, _, rfl⟩ := representable_fields hy
  have scaled (x : ℚ) : |v - x / 100| = |v * 100 - x| / 100 := by
    rw [show v * 100 - x = (v - x / 100) * 100 by ring, abs_mul,
      abs_of_pos (show (0 : ℚ) < 100 by norm_num), mul_div_cancel_right₀ _ (by norm_num)]
  unfold valueOf
  rw [scaled, scaled]
  exact div_le_div_of_nonneg_right (nearest_hundredths hfirst hlow hhigh) (by norm_num)

/-- A number is encoded, as a nearest value, exactly when it is in range. -/
theorem encodeDpt9_cases (v : ℚ) :
    (OutOfRange v ∧ ∃ error, encodeDpt9 (some v) = .error error) ∨
      ¬OutOfRange v ∧ ∃ raw, encodeDpt9 (some v) = .ok (be16Bytes raw) ∧ raw ≠ dpt9Invalid ∧
        ∃ r, decodeDpt9 (be16Bytes raw) = .ok (some r) ∧ Nearest representable v r := by
  have hloop := encodeF16_from (v * 100) 0 16 rfl
  have hencode : encodeDpt9 (some v) =
    encodeF16 (v * 100) ((List.range' 0 16).map UInt16.ofNat) := rfl
  rw [← hencode] at hloop
  obtain ⟨hnone, herror⟩ | ⟨e, he, hfits, hfirst, hencoded⟩ := hloop
  · refine .inl ⟨?_, _, herror⟩
    have hout := hnone 15 (Nat.zero_le _) (le_refl _)
    rw [fits_iff, not_and_or, not_lt, not_lt] at hout
    rw [outOfRange_iff]
    exact hout.symm.imp (fun h => by linarith) id
  · by_cases hmarker : e = 15 ∧ mantissaAt (v * 100) e = 2047
    · refine .inl ⟨.inl ?_, _, hencoded.trans (if_pos hmarker)⟩
      exact (hmarker.1 ▸ hmarker.2).ge
    · obtain ⟨raw, hok, hraw, hread⟩ := encodeAt_read he hfits hmarker
      refine .inr ⟨fits_inRange he hfits hmarker, raw, hencoded.trans hok, hraw, _, hread, ?_⟩
      exact nearest_value (fun f hf => hfirst f (Nat.zero_le _) hf) ⟨_, hread⟩

/-- From the smallest value up to where the marker is nearest, every number is encoded and
read back as a nearest value; the order is kept, and the other numbers are errors. -/
theorem dpt9_nearest :
    (∀ v : ℚ, -671088.64 ≤ v → topMantissa v < 2047 →
      ∃ raw, encodeDpt9 (some v) = .ok (be16Bytes raw) ∧ raw ≠ dpt9Invalid ∧
        ∃ r, decodeDpt9 (be16Bytes raw) = .ok (some r) ∧ Nearest representable v r) ∧
    (∀ (v w r s : ℚ) (written later : List UInt8), v ≤ w →
      encodeDpt9 (some v) = .ok written → encodeDpt9 (some w) = .ok later →
      decodeDpt9 written = .ok (some r) → decodeDpt9 later = .ok (some s) → r ≤ s) ∧
    ∀ v : ℚ, OutOfRange v ↔ ∃ error, encodeDpt9 (some v) = .error error := by
  refine ⟨fun v hmin hmax => ?_, fun v w r s written later hle hv hw hr hs => ?_, fun v => ?_⟩
  · rcases encodeDpt9_cases v with ⟨hout, _⟩ | ⟨_, hencoded⟩
    · have hlow : -2048 ≤ topMantissa v := by
        rw [topMantissa, le_roundAway_iff (by omega), lt_div_iff₀ (by positivity)]
        push_cast
        linarith
      rcases hout with hmarked | hbelow
      · exact absurd hmax (not_lt.mpr hmarked)
      · exact absurd hbelow (not_lt.mpr hlow)
    · exact hencoded
  · have nearest {x y : ℚ} {octets : List UInt8} (hx : encodeDpt9 (some x) = .ok octets)
        (hy : decodeDpt9 octets = .ok (some y)) : Nearest representable x y := by
      obtain ⟨_, error, herror⟩ | ⟨_, raw, hok, _, z, hz, hnear⟩ := encodeDpt9_cases x
      · rw [hx] at herror
        cases herror
      · cases hx.symm.trans hok
        cases hy.symm.trans hz
        exact hnear
    rcases hle.eq_or_lt with rfl | hlt
    · cases hv.symm.trans hw
      cases hr.symm.trans hs
      exact le_refl _
    · exact (nearest hv hr).mono (nearest hw hs) hlt
  · obtain ⟨hout, herror⟩ | ⟨hin, raw, hok, _⟩ := encodeDpt9_cases v
    · exact iff_of_true hout herror
    · refine iff_of_false hin ?_
      rintro ⟨error, herror⟩
      rw [hok] at herror
      cases herror

end KnxRs.KnxF16
