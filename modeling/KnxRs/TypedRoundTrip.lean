import KnxRs.TypedDpts
import Mathlib.Data.Nat.Bitwise

set_option autoImplicit false

/-!
# Round trips of the typed datapoint types

A struct that can be written is read back from its octets. The other way round the octets
come back with their reserved bits cleared, except for the years of a date above 99.
-/
namespace KnxRs.TypedDpts
open CoreTypes DptCodec

/-! ## Flags of an octet -/

theorem flag_testBit {octet n : UInt8} (hn : n < 8) :
    flag octet n = octet.toNat.testBit n.toNat := by
  have hn' : n.toNat < 8 := UInt8.lt_iff_toNat_lt.mp hn
  have hbit : ((octet >>> n) &&& 1).toNat = octet.toNat / 2 ^ n.toNat % 2 := by
    rw [UInt8.toNat_and, UInt8.toNat_shiftRight, Nat.mod_eq_of_lt hn',
      show (1 : UInt8).toNat = 1 from rfl, Nat.and_one_is_mod, Nat.shiftRight_eq_div_pow]
  rw [flag, Nat.testBit_eq_decide_div_mod_eq, ← hbit]
  exact decide_eq_decide.mpr ⟨fun h => congrArg UInt8.toNat h, fun h => UInt8.toNat_inj.mp h⟩

theorem flag_or {x y n : UInt8} (hn : n < 8) : flag (x ||| y) n = (flag x n || flag y n) := by
  rw [flag_testBit hn, flag_testBit hn, flag_testBit hn, UInt8.toNat_or, Nat.testBit_or]

theorem one_shiftLeft {n : UInt8} (hn : n.toNat < 8) :
    ((1 : UInt8) <<< n).toNat = 2 ^ n.toNat := by
  rw [UInt8.toNat_shiftLeft, Nat.mod_eq_of_lt hn, show (1 : UInt8).toNat = 1 from rfl,
    Nat.one_shiftLeft]
  exact Nat.mod_eq_of_lt (Nat.pow_lt_pow_right Nat.one_lt_two hn)

theorem flag_bit {set : Bool} {m n : UInt8} (hm : m < 8) (hn : n < 8) :
    flag (bit set m) n = (set && decide (m = n)) := by
  have hone := one_shiftLeft (UInt8.lt_iff_toNat_lt.mp hm)
  rw [flag_testBit hn]
  cases set with
  | false => simp [bit]
  | true =>
    rw [bit, if_pos rfl, hone, Nat.testBit_two_pow, Bool.true_and]
    exact decide_eq_decide.mpr UInt8.toNat_inj

theorem bit_flag (octet : UInt8) {n : UInt8} (hn : n < 8) :
    bit (flag octet n) n = octet &&& (1 <<< n) := by
  have hone := one_shiftLeft (UInt8.lt_iff_toNat_lt.mp hn)
  refine UInt8.toNat_inj.mp ?_
  rw [UInt8.toNat_and, hone, Nat.and_two_pow, flag_testBit hn]
  cases octet.toNat.testBit n.toNat with
  | false => simp [bit]
  | true => simp [bit, hone]

theorem and_or_and (octet a b : UInt8) : octet &&& a ||| octet &&& b = octet &&& (a ||| b) := by
  apply UInt8.toNat_inj.mp
  simp only [UInt8.toNat_or, UInt8.toNat_and, Nat.and_or_distrib_left]

theorem bits_two (octet : UInt8) :
    bit (flag octet 1) 1 ||| bit (flag octet 0) 0 = octet &&& 0x03 := by
  simp only [bit_flag octet, and_or_and, UInt8.reduceLT]
  rfl

theorem bits_four (octet : UInt8) :
    bit (flag octet 0) 0 ||| bit (flag octet 1) 1 ||| bit (flag octet 2) 2 |||
      bit (flag octet 3) 3 = octet &&& 0x0F := by
  simp only [bit_flag octet, and_or_and, UInt8.reduceLT]
  rfl

theorem bits_four_down (octet : UInt8) :
    bit (flag octet 3) 3 ||| bit (flag octet 2) 2 ||| bit (flag octet 1) 1 |||
      bit (flag octet 0) 0 = octet &&& 0x0F := by
  simp only [bit_flag octet, and_or_and, UInt8.reduceLT]
  rfl

theorem bits_five (octet : UInt8) :
    bit (flag octet 0) 0 ||| bit (flag octet 1) 1 ||| bit (flag octet 2) 2 |||
      bit (flag octet 3) 3 ||| bit (flag octet 4) 4 = octet &&& 0x1F := by
  simp only [bit_flag octet, and_or_and, UInt8.reduceLT]
  rfl

theorem bits_eight (octet : UInt8) :
    bit (flag octet 0) 0 ||| bit (flag octet 1) 1 ||| bit (flag octet 2) 2 |||
      bit (flag octet 3) 3 ||| bit (flag octet 4) 4 ||| bit (flag octet 5) 5 |||
      bit (flag octet 6) 6 ||| bit (flag octet 7) 7 = octet &&& 0xFF := by
  simp only [bit_flag octet, and_or_and, UInt8.reduceLT]
  rfl

theorem bits_eight_down (octet : UInt8) :
    bit (flag octet 7) 7 ||| bit (flag octet 6) 6 ||| bit (flag octet 5) 5 |||
      bit (flag octet 4) 4 ||| bit (flag octet 3) 3 ||| bit (flag octet 2) 2 |||
      bit (flag octet 1) 1 ||| bit (flag octet 0) 0 = octet &&& 0xFF := by
  simp only [bit_flag octet, and_or_and, UInt8.reduceLT]
  rfl

theorem bits_high (octet : UInt8) :
    bit (flag octet 7) 7 ||| bit (flag octet 6) 6 = octet &&& 0xC0 := by
  simp only [bit_flag octet, and_or_and, UInt8.reduceLT]
  rfl

theorem and_ones (octet : UInt8) : octet &&& 0xFF = octet := UInt8.and_neg_one

theorem and_mask {octet mask : UInt8} {k : Nat} (hmask : mask.toNat = 2 ^ k - 1)
    (h : octet ≤ mask) : octet &&& mask = octet := by
  have hle : octet.toNat ≤ 2 ^ k - 1 := hmask ▸ UInt8.le_iff_toNat_le.mp h
  have hpos : 0 < 2 ^ k := Nat.two_pow_pos k
  apply UInt8.toNat_inj.mp
  rw [UInt8.toNat_and, hmask, Nat.and_two_pow_sub_one_eq_mod]
  exact Nat.mod_eq_of_lt (by omega)

theorem ensure_ok {α : Type} {ok : Bool} {context : String} {next : Unit → Except DptError α}
    {x : α} : (ensure ok context >>= next) = .ok x ↔ ok = true ∧ next () = .ok x := by
  cases ok with
  | false =>
    constructor
    · intro h
      cases h
    · rintro ⟨hfalse, _⟩
      cases hfalse
  | true =>
    constructor
    · exact fun h => ⟨rfl, h⟩
    · exact fun h => h.2

theorem checked_ok {α : Type} {valid ok : Bool} {context : String} {x y : α} :
    (if valid = true then ensure ok context >>= fun _ => .ok y else .ok y) = Except.ok x ↔
      (valid = true → ok = true) ∧ y = x := by
  cases valid with
  | false =>
    rw [if_neg (by decide)]
    exact ⟨fun h => ⟨Bool.noConfusion, Except.ok.inj h⟩, fun h => congrArg _ h.2⟩
  | true =>
    rw [if_pos rfl, ensure_ok]
    exact ⟨fun h => ⟨fun _ => h.1, Except.ok.inj h.2⟩, fun h => ⟨h.1 rfl, congrArg _ h.2⟩⟩

/-! ## What a format keeps -/

/-- The octets of a format in a payload, with the bits outside of `mask` cleared. -/
def cleared (mask payload : List UInt8) : List UInt8 :=
  List.zipWith (fun kept octet => octet &&& kept) mask payload

/-- The struct and the octets agree: `mask` has the bits that are not reserved, and only the
payloads of `Strays` are read as something that is written differently. -/
structure Agrees (α : Type) [TypedDpt α] (wire : α → List UInt8) (mask : List UInt8)
    (Strays : List UInt8 → Prop) : Prop where
  written : ∀ {x : α} {b}, TypedDpt.encode x = .ok b → b = wire x
  length : ∀ x : α, (wire x).length = TypedDpt.len α
  reads : ∀ {x : α} {b}, TypedDpt.encode x = .ok b → ∀ rest,
    TypedDpt.decode (wire x ++ rest) = .ok x
  returns : ∀ {x : α} {payload}, TypedDpt.decode payload = .ok x → ¬Strays payload →
    wire x = cleared mask payload

section Attributes

theorem StatusBuc.agrees :
    Agrees StatusBuc StatusBuc.wire [0xFF, 0x0F] (fun _ => False) where
  written h := by
    obtain ⟨_, h⟩ := ensure_ok.mp h
    cases h
    rfl
  length _ := rfl
  reads {x b} h rest := by
    obtain ⟨hpower, _⟩ := ensure_ok.mp h
    refine checked_ok.mpr ⟨fun _ => hpower, ?_⟩
    simp (disch := decide) [flag_or, flag_bit]
  returns {x payload} h _ := by
    rcases payload with _ | ⟨power, _ | ⟨attributes, rest⟩⟩
    · cases h
    · cases h
    · obtain ⟨_, rfl⟩ := checked_ok.mp h
      simp [StatusBuc.wire, cleared, bits_four, and_ones]

theorem StatusAct.agrees :
    Agrees StatusAct StatusAct.wire [0xFF, 0x1F] (fun _ => False) where
  written h := by
    obtain ⟨_, h⟩ := ensure_ok.mp h
    cases h
    rfl
  length _ := rfl
  reads {x b} h rest := by
    obtain ⟨hposition, _⟩ := ensure_ok.mp h
    refine ensure_ok.mpr ⟨hposition, ?_⟩
    simp (disch := decide) [flag_or, flag_bit]
  returns {x payload} h _ := by
    rcases payload with _ | ⟨position, _ | ⟨attributes, rest⟩⟩
    · cases h
    · cases h
    · obtain ⟨_, h⟩ := ensure_ok.mp h
      cases h
      simp [StatusAct.wire, cleared, bits_five, and_ones]

theorem StatusLightingActuator.agrees :
    Agrees StatusLightingActuator StatusLightingActuator.wire [0xFF, 0xFF] (fun _ => False) where
  written h := by
    cases h
    rfl
  length _ := rfl
  reads {x b} h rest := by
    refine congrArg Except.ok ?_
    simp (disch := decide) [flag_or, flag_bit]
  returns {x payload} h _ := by
    rcases payload with _ | ⟨value, _ | ⟨attributes, rest⟩⟩
    · cases h
    · cases h
    · cases h
      simp [StatusLightingActuator.wire, cleared, bits_eight, and_ones]

theorem Rgbw.agrees :
    Agrees Rgbw Rgbw.wire [0xFF, 0xFF, 0xFF, 0xFF, 0x00, 0x0F] (fun _ => False) where
  written h := by
    cases h
    rfl
  length _ := rfl
  reads {x b} h rest := by
    refine congrArg Except.ok ?_
    simp (disch := decide) [flag_or, flag_bit]
  returns {x payload} h _ := by
    rcases payload with _ | ⟨r, _ | ⟨g, _ | ⟨b, _ | ⟨w, _ | ⟨reserved, _ | ⟨valid, rest⟩⟩⟩⟩⟩⟩
    · cases h
    · cases h
    · cases h
    · cases h
    · cases h
    · cases h
    · cases h
      simp [Rgbw.wire, cleared, bits_four_down, and_ones]

theorem beI32_bytes (v : Int32) (rest : List UInt8) :
    ∃ b0 b1 b2 b3, beI32Bytes v ++ rest = b0 :: b1 :: b2 :: b3 :: rest ∧ beI32 b0 b1 b2 b3 = v := by
  refine ⟨_, _, _, _, rfl, ?_⟩
  rw [beI32, be32_be32Bytes]
  exact Int32.toInt32_toUInt32 v

theorem beI32Bytes_of (b0 b1 b2 b3 : UInt8) : beI32Bytes (beI32 b0 b1 b2 b3) = [b0, b1, b2, b3] := by
  have h0 := b0.toNat_lt
  have h1 := b1.toNat_lt
  have h2 := b2.toNat_lt
  have h3 := b3.toNat_lt
  have hvalue : (be32 b0 b1 b2 b3).toNat =
      ((b0.toNat * 256 + b1.toNat) * 256 + b2.toNat) * 256 + b3.toNat := by
    rw [be32, UInt32.toNat_ofNat']
    omega
  rw [beI32Bytes, beI32, UInt32.toUInt32_toInt32, be32Bytes, hvalue]
  simp only [List.cons.injEq, and_true, ← UInt8.toNat_inj, UInt8.toNat_ofNat']
  omega

theorem z8_fromOctet (x : Z8Status) : Z8Status.fromOctet x.toOctet = x := by
  simp (disch := decide) [Z8Status.fromOctet, Z8Status.toOctet, flag_or, flag_bit]

theorem MeteringValue.agrees :
    Agrees MeteringValue MeteringValue.wire [0xFF, 0xFF, 0xFF, 0xFF, 0xFF, 0x1F]
      (fun _ => False) where
  written h := by
    cases h
    rfl
  length _ := rfl
  reads {x b} h rest := by
    obtain ⟨b0, b1, b2, b3, hbytes, hcount⟩ :=
      beI32_bytes x.count (x.valueInfoField :: x.status.toOctet :: rest)
    have hwire : x.wire ++ rest =
      beI32Bytes x.count ++ x.valueInfoField :: x.status.toOctet :: rest := rfl
    rw [hwire, hbytes]
    refine congrArg Except.ok ?_
    rw [hcount, z8_fromOctet]
  returns {x payload} h _ := by
    rcases payload with _ | ⟨c0, _ | ⟨c1, _ | ⟨c2, _ | ⟨c3, _ | ⟨info, _ | ⟨status, rest⟩⟩⟩⟩⟩⟩
    · cases h
    · cases h
    · cases h
    · cases h
    · cases h
    · cases h
    · cases h
      simp [MeteringValue.wire, cleared, beI32Bytes_of, Z8Status.toOctet, Z8Status.fromOctet, bits_five,
        and_ones]

theorem TariffActiveEnergy.agrees :
    Agrees TariffActiveEnergy TariffActiveEnergy.wire [0xFF, 0xFF, 0xFF, 0xFF, 0xFF, 0x03]
      (fun _ => False) where
  written h := by
    obtain ⟨_, h⟩ := ensure_ok.mp h
    cases h
    rfl
  length _ := rfl
  reads {x b} h rest := by
    obtain ⟨htariff, _⟩ := ensure_ok.mp h
    obtain ⟨b0, b1, b2, b3, hbytes, henergy⟩ := beI32_bytes x.energy
      (x.tariff :: (bit (!x.energyValid) 1 ||| bit (!x.tariffValid) 0) :: rest)
    have hwire : x.wire ++ rest = beI32Bytes x.energy ++
      x.tariff :: (bit (!x.energyValid) 1 ||| bit (!x.tariffValid) 0) :: rest := rfl
    rw [hwire, hbytes]
    refine checked_ok.mpr ⟨fun _ => htariff, ?_⟩
    simp (disch := decide) [henergy, flag_or, flag_bit]
  returns {x payload} h _ := by
    rcases payload with _ | ⟨e0, _ | ⟨e1, _ | ⟨e2, _ | ⟨e3, _ | ⟨tariff, _ | ⟨valid, rest⟩⟩⟩⟩⟩⟩
    · cases h
    · cases h
    · cases h
    · cases h
    · cases h
    · cases h
    · obtain ⟨_, rfl⟩ := checked_ok.mp h
      simp [TariffActiveEnergy.wire, cleared, beI32Bytes_of, bits_two, and_ones]

end Attributes

/-! ## Date -/

namespace Date

structure Valid (x : Date) : Prop where
  day : 1 ≤ x.day ∧ x.day ≤ 31
  month : 1 ≤ x.month ∧ x.month ≤ 12
  year : 1990 ≤ x.year ∧ x.year ≤ 2089

theorem validate_ok {α : Type} {x : Date} {next : Unit → Except DptError α} {y : α} :
    (x.validate >>= next) = .ok y ↔ x.Valid ∧ next () = .ok y := by
  simp only [validate, bind_assoc, ensure_ok, decide_eq_true_eq]
  exact ⟨fun ⟨hday, hmonth, hyear, h⟩ => ⟨⟨hday, hmonth, hyear⟩, h⟩,
    fun ⟨⟨hday, hmonth, hyear⟩, h⟩ => ⟨hday, hmonth, hyear, h⟩⟩

def yearOf (year : UInt8) : UInt16 :=
  if (year &&& 0x7F).toUInt16 ≥ 90 then 1900 + (year &&& 0x7F).toUInt16
  else 2000 + (year &&& 0x7F).toUInt16

theorem yearOf_valid : ∀ year, 1990 ≤ yearOf year ∧ yearOf year ≤ 2089 :=
  forall_octet (by decide +kernel)

theorem yearOf_octet : ∀ year,
    (yearOf year % 100).toUInt8 = year &&& 0x7F ↔ year &&& 0x7F < 100 :=
  forall_octet (by decide +kernel)

theorem yearOf_century {year : UInt16} (hmin : 1990 ≤ year) (hmax : year ≤ 2089) :
    yearOf (year % 100).toUInt8 = year := by
  have century : ∀ n : Fin 100,
      yearOf (UInt16.ofNat (1990 + n) % 100).toUInt8 = UInt16.ofNat (1990 + n) := by
    decide +kernel
  rw [UInt16.le_iff_toNat_le] at hmin hmax
  have hlow : (1990 : UInt16).toNat = 1990 := rfl
  have hhigh : (2089 : UInt16).toNat = 2089 := rfl
  have hyear := century ⟨year.toNat - 1990, by omega⟩
  rwa [show 1990 + (year.toNat - 1990) = year.toNat by omega, UInt16.ofNat_toNat] at hyear

theorem day_masked : ∀ day : UInt8, day ≤ 31 → day &&& 0x1F = day :=
  fun _ => and_mask (k := 5) rfl

theorem month_masked : ∀ month : UInt8, month ≤ 15 → month &&& 0x0F = month :=
  fun _ => and_mask (k := 4) rfl

theorem day_le (day : UInt8) : day &&& 0x1F ≤ 31 := by
  rw [UInt8.le_iff_toNat_le, UInt8.toNat_and]
  exact Nat.and_le_right

/-- A day and a month with a year octet of three digits. -/
def Strays : List UInt8 → Prop
  | day :: month :: year :: _ =>
    1 ≤ day &&& 0x1F ∧ 1 ≤ month &&& 0x0F ∧ month &&& 0x0F ≤ 12 ∧ 100 ≤ year &&& 0x7F
  | _ => False

theorem agrees : Agrees Date wire [0x1F, 0x0F, 0x7F] Strays where
  written h := by
    obtain ⟨_, h⟩ := validate_ok.mp h
    cases h
    rfl
  length _ := rfl
  reads {x b} h rest := by
    obtain ⟨hvalid, _⟩ := validate_ok.mp h
    obtain ⟨v, hread, rfl⟩ : ∃ v : Date,
        TypedDpt.decode (x.wire ++ rest) = (v.validate >>= fun _ => .ok v) ∧ v = x := by
      refine ⟨⟨x.day &&& 0x1F, x.month &&& 0x0F, yearOf (x.year % 100).toUInt8⟩, rfl, ?_⟩
      have hmonth : x.month ≤ 15 := UInt8.le_trans hvalid.month.2 (by decide)
      rw [day_masked _ hvalid.day.2, month_masked _ hmonth,
        yearOf_century hvalid.year.1 hvalid.year.2]
    exact hread.trans (validate_ok.mpr ⟨hvalid, rfl⟩)
  returns {x payload} h hstays := by
    rcases payload with _ | ⟨day, _ | ⟨month, _ | ⟨year, rest⟩⟩⟩
    · cases h
    · cases h
    · cases h
    · obtain ⟨hvalid, h⟩ := validate_ok.mp h
      cases h
      have hyear : year &&& 0x7F < 100 := by
        by_contra hlate
        exact hstays ⟨hvalid.day.1, hvalid.month.1, hvalid.month.2, UInt8.not_lt.mp hlate⟩
      exact congrArg (fun octet => [day &&& 0x1F, month &&& 0x0F, octet])
        ((yearOf_octet year).mpr hyear)

theorem strays_altered {payload : List UInt8} (h : Strays payload) :
    ∃ x b, decode payload = .ok x ∧ encode x = .ok b ∧
      b ≠ cleared [0x1F, 0x0F, 0x7F] payload := by
  rcases payload with _ | ⟨day, _ | ⟨month, _ | ⟨year, rest⟩⟩⟩
  · exact h.elim
  · exact h.elim
  · exact h.elim
  · obtain ⟨hday, hmonth, hmonth', hlate⟩ := h
    have hvalid : Valid ⟨day &&& 0x1F, month &&& 0x0F, yearOf year⟩ :=
      ⟨⟨hday, day_le day⟩, ⟨hmonth, hmonth'⟩, yearOf_valid year⟩
    refine ⟨_, _, validate_ok.mpr ⟨hvalid, rfl⟩, validate_ok.mpr ⟨hvalid, rfl⟩, fun hsame => ?_⟩
    have hyear : (yearOf year % 100).toUInt8 = year &&& 0x7F :=
      List.head_eq_of_cons_eq (List.tail_eq_of_cons_eq (List.tail_eq_of_cons_eq hsame))
    exact UInt8.not_lt.mpr hlate ((yearOf_octet year).mp hyear)

end Date

/-! ## Date and time -/

namespace DateTime

/-- Every field fits its bits, and is in its range where its flag says that it carries
something. -/
structure Valid (x : DateTime) : Prop where
  year : 1900 ≤ x.year ∧ x.year ≤ 2155
  dayOfWeek : x.dayOfWeek ≤ 7
  date : if x.dateInvalid then x.month ≤ 15 ∧ x.day ≤ 31
    else (1 ≤ x.month ∧ x.month ≤ 12) ∧ 1 ≤ x.day ∧ x.day ≤ 31
  time : if x.timeInvalid then x.hour ≤ 31 ∧ x.minute ≤ 63 ∧ x.second ≤ 63
    else x.hour ≤ 24 ∧ x.minute ≤ 59 ∧ x.second ≤ 59 ∧
      (x.hour < 24 ∨ x.minute = 0 ∧ x.second = 0)

theorem validate_ok {α : Type} {x : DateTime} {next : Unit → Except DptError α} {y : α} :
    (x.validate >>= next) = .ok y ↔ x.Valid ∧ next () = .ok y := by
  have fields : x.Valid ↔ (1900 ≤ x.year ∧ x.year ≤ 2155) ∧ x.dayOfWeek ≤ 7 ∧
      (if x.dateInvalid then x.month ≤ 15 ∧ x.day ≤ 31
        else (1 ≤ x.month ∧ x.month ≤ 12) ∧ 1 ≤ x.day ∧ x.day ≤ 31) ∧
      (if x.timeInvalid then x.hour ≤ 31 ∧ x.minute ≤ 63 ∧ x.second ≤ 63
        else x.hour ≤ 24 ∧ x.minute ≤ 59 ∧ x.second ≤ 59 ∧
          (x.hour < 24 ∨ x.minute = 0 ∧ x.second = 0)) :=
    ⟨fun ⟨hyear, hweek, hdate, htime⟩ => ⟨hyear, hweek, hdate, htime⟩,
      fun ⟨hyear, hweek, hdate, htime⟩ => ⟨hyear, hweek, hdate, htime⟩⟩
  rw [fields]
  unfold validate
  cases x.dateInvalid <;> cases x.timeInvalid <;>
    simp [bind_assoc, ensure_ok, and_assoc]

/-- What fits its bits is not changed by the masks of the decoder. -/
structure Masked (x : DateTime) : Prop where
  month : x.month &&& 0x0F = x.month
  day : x.day &&& 0x1F = x.day
  hour : x.hour ≤ 31
  minute : x.minute &&& 0x3F = x.minute
  second : x.second &&& 0x3F = x.second

theorem minute_masked : ∀ minute : UInt8, minute ≤ 63 → minute &&& 0x3F = minute :=
  fun _ => and_mask (k := 6) rfl

theorem Valid.masked {x : DateTime} (h : x.Valid) : x.Masked := by
  have hdate : x.month ≤ 15 ∧ x.day ≤ 31 := by
    have hdate := h.date
    split_ifs at hdate
    · exact hdate
    · exact ⟨UInt8.le_trans hdate.1.2 (by decide), hdate.2.2⟩
  have htime : x.hour ≤ 31 ∧ x.minute ≤ 63 ∧ x.second ≤ 63 := by
    have htime := h.time
    split_ifs at htime
    · exact htime
    · exact ⟨UInt8.le_trans htime.1 (by decide), UInt8.le_trans htime.2.1 (by decide),
        UInt8.le_trans htime.2.2.1 (by decide)⟩
  exact ⟨Date.month_masked _ hdate.1, Date.day_masked _ hdate.2, htime.1,
    minute_masked _ htime.2.1, minute_masked _ htime.2.2⟩

theorem dayOfWeek_hour {week hour : UInt8} (hweek : week ≤ 7) (hhour : hour ≤ 31) :
    ((week <<< 5) ||| hour) >>> 5 = week ∧ ((week <<< 5) ||| hour) &&& 0x1F = hour := by
  have hweek' : week.toNat ≤ 7 := UInt8.le_iff_toNat_le.mp hweek
  have hhour' : hour.toNat < 2 ^ 5 := Nat.lt_succ_of_le (UInt8.le_iff_toNat_le.mp hhour)
  have hfive : (5 : UInt8).toNat % 8 = 5 := rfl
  have hshift : (week <<< 5).toNat = week.toNat <<< 5 := by
    rw [UInt8.toNat_shiftLeft, hfive, Nat.shiftLeft_eq]
    exact Nat.mod_eq_of_lt (by omega)
  have hboth : ((week <<< 5) ||| hour).toNat = week.toNat * 32 + hour.toNat := by
    rw [UInt8.toNat_or, hshift, ← Nat.shiftLeft_add_eq_or_of_lt hhour', Nat.shiftLeft_eq]
  constructor
  · refine UInt8.toNat_inj.mp ?_
    rw [UInt8.toNat_shiftRight, hfive, hboth, Nat.shiftRight_eq_div_pow]
    omega
  · refine UInt8.toNat_inj.mp ?_
    rw [UInt8.toNat_and, hboth, show (0x1F : UInt8).toNat = 2 ^ 5 - 1 from rfl,
      Nat.and_two_pow_sub_one_eq_mod]
    omega

theorem weekHour_octet : ∀ octet : UInt8, ((octet >>> 5) <<< 5) ||| (octet &&& 0x1F) = octet :=
  forall_octet (by decide +kernel)

theorem year_octet (octet : UInt8) : (1900 + octet.toUInt16 - 1900).toUInt8 = octet := by
  rw [UInt16.add_comm, UInt16.add_sub_cancel, UInt8.toUInt8_toUInt16]

theorem year_century {year : UInt16} (hmin : 1900 ≤ year) (hmax : year ≤ 2155) :
    1900 + (year - 1900).toUInt8.toUInt16 = year := by
  have hsub := UInt16.toNat_sub_of_le _ _ hmin
  rw [UInt16.le_iff_toNat_le] at hmin hmax
  have hlow : (1900 : UInt16).toNat = 1900 := rfl
  have hhigh : (2155 : UInt16).toNat = 2155 := rfl
  refine UInt16.toNat_inj.mp ?_
  rw [UInt16.toNat_add, UInt8.toNat_toUInt16, UInt16.toNat_toUInt8, hsub]
  omega

theorem agrees :
    Agrees DateTime wire [0xFF, 0x0F, 0x1F, 0xFF, 0x3F, 0x3F, 0xFF, 0xC0] (fun _ => False) where
  written h := by
    obtain ⟨_, h⟩ := validate_ok.mp h
    cases h
    rfl
  length _ := rfl
  reads {x b} h rest := by
    obtain ⟨hvalid, _⟩ := validate_ok.mp h
    obtain ⟨v, hread, rfl⟩ : ∃ v : DateTime,
        TypedDpt.decode (x.wire ++ rest) = (v.validate >>= fun _ => .ok v) ∧ v = x := by
      refine ⟨_, rfl, ?_⟩
      obtain ⟨hmonth, hday, hhour, hminute, hsecond⟩ := hvalid.masked
      obtain ⟨hweek, hclock⟩ := dayOfWeek_hour hvalid.dayOfWeek hhour
      have hyear := year_century hvalid.year.1 hvalid.year.2
      simp only [hyear]
      simp (disch := decide) [hmonth, hday, hminute, hsecond, hweek, hclock, flags, clock,
        flag_or, flag_bit]
    exact hread.trans (validate_ok.mpr ⟨hvalid, rfl⟩)
  returns {x payload} h _ := by
    rcases payload with _ | ⟨year, _ | ⟨month, _ | ⟨day, _ | ⟨weekHour, _ | ⟨minute, _ | ⟨second,
      _ | ⟨marks, _ | ⟨quality, rest⟩⟩⟩⟩⟩⟩⟩⟩
    · cases h
    · cases h
    · cases h
    · cases h
    · cases h
    · cases h
    · cases h
    · cases h
    · obtain ⟨_, h⟩ := validate_ok.mp h
      cases h
      have hmarks := (bits_eight_down marks).trans (and_ones marks)
      have hquality := bits_high quality
      simp only [wire, cleared, flags, clock, List.zipWith, year_octet, weekHour_octet, hmarks,
        hquality, and_ones]

end DateTime

/-! ## All formats -/

inductive Format where
  | date | dateTime | statusBuc | statusAct | statusLightingActuator | meteringValue
  | tariffActiveEnergy | rgbw
  deriving DecidableEq

namespace Format

def Value : Format → Type
  | date => Date
  | dateTime => DateTime
  | statusBuc => StatusBuc
  | statusAct => StatusAct
  | statusLightingActuator => StatusLightingActuator
  | meteringValue => MeteringValue
  | tariffActiveEnergy => TariffActiveEnergy
  | rgbw => Rgbw

instance (f : Format) : TypedDpt f.Value :=
  match f with
  | date => inferInstanceAs (TypedDpt Date)
  | dateTime => inferInstanceAs (TypedDpt DateTime)
  | statusBuc => inferInstanceAs (TypedDpt StatusBuc)
  | statusAct => inferInstanceAs (TypedDpt StatusAct)
  | statusLightingActuator => inferInstanceAs (TypedDpt StatusLightingActuator)
  | meteringValue => inferInstanceAs (TypedDpt MeteringValue)
  | tariffActiveEnergy => inferInstanceAs (TypedDpt TariffActiveEnergy)
  | rgbw => inferInstanceAs (TypedDpt Rgbw)

def used : Format → List UInt8
  | date => [0x1F, 0x0F, 0x7F]
  | dateTime => [0xFF, 0x0F, 0x1F, 0xFF, 0x3F, 0x3F, 0xFF, 0xC0]
  | statusBuc => [0xFF, 0x0F]
  | statusAct => [0xFF, 0x1F]
  | statusLightingActuator => [0xFF, 0xFF]
  | meteringValue => [0xFF, 0xFF, 0xFF, 0xFF, 0xFF, 0x1F]
  | tariffActiveEnergy => [0xFF, 0xFF, 0xFF, 0xFF, 0xFF, 0x03]
  | rgbw => [0xFF, 0xFF, 0xFF, 0xFF, 0x00, 0x0F]

/-- A date in range but for a year field of three digits. -/
def LateYear (f : Format) (payload : List UInt8) : Prop := f = date ∧ Date.Strays payload

theorem agrees (f : Format) : ∃ wire, Agrees f.Value wire f.used (f.LateYear) := by
  have never {α : Type} [TypedDpt α] {wire : α → List UInt8} {mask : List UInt8}
      {Strays : List UInt8 → Prop} (h : Agrees α wire mask (fun _ => False)) :
      Agrees α wire mask Strays :=
    ⟨h.written, h.length, h.reads, fun hread _ => h.returns hread id⟩
  cases f with
  | date =>
    obtain ⟨hwritten, hlength, hreads, hreturns⟩ := Date.agrees
    exact ⟨Date.wire, hwritten, hlength, hreads,
      fun h hstays => hreturns h fun hs => hstays ⟨rfl, hs⟩⟩
  | dateTime => exact ⟨_, never DateTime.agrees⟩
  | statusBuc => exact ⟨_, never StatusBuc.agrees⟩
  | statusAct => exact ⟨_, never StatusAct.agrees⟩
  | statusLightingActuator => exact ⟨_, never StatusLightingActuator.agrees⟩
  | meteringValue => exact ⟨_, never MeteringValue.agrees⟩
  | tariffActiveEnergy => exact ⟨_, never TariffActiveEnergy.agrees⟩
  | rgbw => exact ⟨_, never Rgbw.agrees⟩

end Format

/-- What is written is read back. What is read comes back with the reserved bits cleared, and
no two contents are read as one value, exactly where no year field has three digits. -/
theorem typed_fields (f : Format) :
    (∀ (x : f.Value) (b rest : List UInt8), TypedDpt.encode x = .ok b →
      b.length = TypedDpt.len f.Value ∧ TypedDpt.decode (b ++ rest) = .ok x) ∧
    (∀ payload, (∀ (x : f.Value) (b : List UInt8), TypedDpt.decode payload = .ok x →
      TypedDpt.encode x = .ok b → b = cleared f.used payload) ↔ ¬f.LateYear payload) ∧
    ∀ (payload other : List UInt8) (x : f.Value), ¬f.LateYear payload → ¬f.LateYear other →
      TypedDpt.decode payload = .ok x → TypedDpt.decode other = .ok x →
      cleared f.used payload = cleared f.used other := by
  obtain ⟨wire, hagrees⟩ := f.agrees
  refine ⟨fun x b rest h => ?_, fun payload => ⟨?_, ?_⟩, ?_⟩
  · rw [hagrees.written h]
    exact ⟨hagrees.length x, hagrees.reads h rest⟩
  · rintro hkept ⟨rfl, hstrays⟩
    obtain ⟨x, b, hread, hwritten, hne⟩ := Date.strays_altered hstrays
    exact hne (hkept x b hread hwritten)
  · intro hstays x b hread hwritten
    rw [hagrees.written hwritten, hagrees.returns hread hstays]
  · intro payload other x hstays hstays' hread hread'
    rw [← hagrees.returns hread hstays, ← hagrees.returns hread' hstays']

/-- November 2000, with a year field of 100, is written back with a year of 0. -/
theorem late_year_altered :
    ¬∀ (f : Format) (payload b : List UInt8) (x : f.Value), TypedDpt.decode payload = .ok x →
      TypedDpt.encode x = .ok b → b = cleared f.used payload := by
  intro h
  have hsame := h .date [1, 11, 100] [1, 11, 0] (⟨1, 11, 2000⟩ : Date) rfl rfl
  exact absurd hsame (by decide)

end KnxRs.TypedDpts
