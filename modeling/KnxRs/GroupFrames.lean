import KnxRs.ApduRoundTrip
import KnxRs.DptTexts
import KnxRs.LDataFrames

set_option autoImplicit false

/-!
# Group values in frames

The frame a datapoint value is sent in, by the wire size of its type, and what a
receiver reads from it.
-/
namespace KnxRs.GroupFrames
open CoreTypes DptCodec ApduCodec TpduCodec CemiCodec AppEncode ApduRoundTrip DptConvert DptTexts
open DptNumeric hiding decode encode

/-! ## Building -/

def tpciDataGroup : UInt8 := 0x00

/-- The errors of the three encoders that build a frame. -/
inductive KnxIpError where
  | dpt (error : DptError)
  | apdu (error : ApduEncodeError)
  | cemi (error : CemiError)

def withPayload (s : GroupValueService) (payload : GroupValuePayload) : GroupValueApdu :=
  match s with
  | .response => .response payload
  | .write => .write payload

def buildCemiGroupFrame (ga : GroupAddress) (payload : List UInt8) : Except KnxIpError CemiFrame :=
  (CemiFrame.tryNewLData .lDataReq ⟨0⟩ (.group ga) .low payload).mapError .cemi

def buildGroupValueFrame (ga : GroupAddress) (apdu : GroupValueApdu) :
    Except KnxIpError CemiFrame := do
  let payload ← (apdu.tryToBytes tpciDataGroup).mapError .apdu
  buildCemiGroupFrame ga payload

def buildDptGroupFrame (ga : GroupAddress) (s : GroupValueService) (dpt : Dpt)
    (value : DptValue) : Except KnxIpError CemiFrame := do
  let encoded ← (encode dpt value).mapError .dpt
  let payload ← (GroupValuePayload.fromDptEncoded dpt encoded).mapError .apdu
  buildGroupValueFrame ga (withPayload s payload)

/-! ## Reading -/

def asGroupWrite (frame : CemiFrame) : Option (GroupAddress × List UInt8) :=
  if frame.addressType ≠ .group then none
  else match frame.tpdu with
  | some (.data _ _ apdu) =>
    if apdu.apduType = .groupValueWrite ∨ apdu.apduType = .groupValueResponse then
      some (⟨frame.destinationAddressRaw⟩, apdu.data)
    else none
  | _ => none

/-! ## Wire sizes -/

def OfSize (b : List UInt8) : DptWireSize → Prop
  | .bits n => ∃ value : UInt8, b = [value] ∧ value.toNat < 2 ^ n.toNat
  | .bytes n => b.length = n.toNat
  | .variableBytes => b ≠ []
  | .unknown => False

variable {dpt : Dpt} {v : DptValue} {b : List UInt8}

theorem wireSize_of {main : UInt16} (h : dpt.main = main) :
    dpt.wireSize = (⟨main, 0, 0⟩ : Dpt).wireSize := by
  unfold Dpt.wireSize
  rw [h]

theorem encodeDpt1_octet (h : encodeDpt1 v = .ok b) :
    ∃ value : UInt8, b = [value] ∧ value.toNat < 2 := by
  obtain ⟨x, _, hb⟩ := Codecs.bind_ok h
  refine ⟨_, (Except.ok.inj hb).symm, ?_⟩
  cases x <;> decide

theorem encodeMasked_octet {mask : UInt8} (h : encodeMasked v mask = .ok b) :
    ∃ value : UInt8, b = [value] ∧ value.toNat ≤ mask.toNat := by
  obtain ⟨x, hx, hb⟩ := Codecs.bind_ok h
  have hle := (DptRoundTrip.valU32Max_ok hx).2
  rw [UInt32.le_iff_toNat_le, UInt8.toNat_toUInt32] at hle
  have hoctet : x ≤ 0xFF := by
    have := mask.toNat_lt
    rw [UInt32.le_iff_toNat_le]
    exact Nat.le_trans hle (Nat.le_of_lt_succ this)
  refine ⟨_, (Except.ok.inj hb).symm, ?_⟩
  rw [DptRoundTrip.lowU8_toNat hoctet]
  exact hle

theorem put_length {α : Type} {n : Nat} {e : Except DptError α}
    {put : α → Except DptError (List UInt8)} (h : e >>= put = .ok b)
    (puts : ∀ {x bs}, put x = .ok bs → bs.length = n) : b.length = n := by
  obtain ⟨x, _, hb⟩ := Codecs.bind_ok h
  exact puts hb

theorem plain_length {α : Type} {n : Nat} {e : Except DptError α} {octets : α → List UInt8}
    (h : (e >>= fun x => .ok (octets x)) = .ok b) (hlen : ∀ x, (octets x).length = n) :
    b.length = n :=
  put_length h fun hput => Except.ok.inj hput ▸ hlen _

theorem encodeMasked_length {mask : UInt8} (h : encodeMasked v mask = .ok b) : b.length = 1 := by
  obtain ⟨value, rfl, _⟩ := encodeMasked_octet h
  rfl

theorem encodeScaled_length {limit : Float → Prop} [DecidablePred limit] {scale : Float → Float}
    {context : String}
    (h : (valF64 v >>= fun x => if ¬limit x then Except.error (DptError.outOfRange context)
      else f64ToU8 (scale x) >>= fun octet => .ok [octet]) = .ok b) : b.length = 1 := by
  refine put_length h ?_
  intro x bs hput
  split_ifs at hput
  · exact plain_length hput fun _ => rfl

theorem encodeDpt5_length (h : encodeDpt5 dpt v = .ok b) : b.length = 1 := by
  unfold encodeDpt5 at h
  split_ifs at h
  · exact encodeScaled_length h
  · exact encodeScaled_length h
  · exact plain_length h fun _ => rfl
  · exact plain_length h fun _ => rfl

theorem encodeDpt6_length (h : encodeDpt6 dpt v = .ok b) : b.length = 1 := by
  unfold encodeDpt6 at h
  split_ifs at h
  · refine put_length h ?_
    intro x bs hput
    dsimp only at hput
    split_ifs at hput
    cases hput
    rfl
  · exact plain_length h fun _ => rfl

theorem encodeDpt18_length (h : encodeDpt18 v = .ok b) : b.length = 1 := by
  refine put_length h ?_
  intro x bs hput
  split_ifs at hput
  cases hput
  rfl

theorem encodeF16_length {hundredths : Float} {exponents : List UInt16}
    (h : encodeF16 hundredths exponents = .ok b) : b.length = 2 := by
  induction exponents with
  | nil => cases h
  | cons exponent exponents ih =>
    unfold encodeF16 at h
    dsimp only at h
    split_ifs at h with hrange
    · cases h
      rfl
    · cases h
      rfl
    · exact ih h

theorem encodeDpt9_length (h : encodeDpt9 v = .ok b) : b.length = 2 := by
  refine put_length h ?_
  intro x bs hput
  split_ifs at hput
  · cases hput
    rfl
  · exact encodeF16_length hput

theorem encodeUintBe_length {len : Nat} (h : encodeUintBe v len = .ok b) (hlen : len ≤ 4) :
    b.length = len := by
  refine plain_length h fun x => ?_
  rw [List.length_drop, be32Bytes_length]
  omega

theorem encodeDpt10_length (h : encodeDpt10 v = .ok b) : b.length = 3 := by
  unfold encodeDpt10 at h
  cases v with
  | bytes octets =>
    dsimp only at h
    split_ifs at h with hlen
    cases h
    exact hlen
  | uint secs =>
    dsimp only at h
    split_ifs at h
    cases h
    rfl
  | _ => cases h

theorem encodeDpt14_length (h : encodeDpt14 v = .ok b) : b.length = 4 := by
  refine put_length h ?_
  intro x bs hput
  dsimp only at hput
  split_ifs at hput
  · cases hput
    rfl

theorem numeric_size (hfunctional : dpt.main ≠ 31) (h : DptNumeric.encode dpt v = .ok b) :
    OfSize b dpt.wireSize := by
  have octets {n : UInt8} (hsize : dpt.wireSize = .bytes n) (hlen : b.length = n.toNat) :
      OfSize b dpt.wireSize := by
    rw [hsize]
    exact hlen
  have bits {n : UInt8} (hsize : dpt.wireSize = .bits n)
      (hvalue : ∃ value : UInt8, b = [value] ∧ value.toNat < 2 ^ n.toNat) :
      OfSize b dpt.wireSize := by
    rw [hsize]
    exact hvalue
  have masked {mask n : UInt8} (hmask : mask.toNat < 2 ^ n.toNat)
      (h : encodeMasked v mask = .ok b) :
      ∃ value : UInt8, b = [value] ∧ value.toNat < 2 ^ n.toNat := by
    obtain ⟨value, hb, hle⟩ := encodeMasked_octet h
    exact ⟨value, hb, Nat.lt_of_le_of_lt hle hmask⟩
  unfold DptNumeric.encode at h
  split at h
  · exact bits (n := 1) ((wireSize_of ‹_›).trans rfl) (encodeDpt1_octet h)
  · exact bits (n := 2) ((wireSize_of ‹_›).trans rfl) (masked (by decide) h)
  · exact bits (n := 4) ((wireSize_of ‹_›).trans rfl) (masked (by decide) h)
  · exact octets (n := 1) ((wireSize_of ‹_›).trans rfl) (plain_length h fun _ => rfl)
  · exact octets (n := 1) ((wireSize_of ‹_›).trans rfl) (encodeDpt5_length h)
  · exact octets (n := 1) ((wireSize_of ‹_›).trans rfl) (encodeDpt6_length h)
  · exact octets (n := 2) ((wireSize_of ‹_›).trans rfl) (plain_length h fun _ => rfl)
  · exact octets (n := 2) ((wireSize_of ‹_›).trans rfl) (plain_length h fun _ => rfl)
  · exact octets (n := 2) ((wireSize_of ‹_›).trans rfl) (encodeDpt9_length h)
  · exact octets (n := 3) ((wireSize_of ‹_›).trans rfl) (encodeDpt10_length h)
  · exact octets (n := 4) ((wireSize_of ‹_›).trans rfl) (plain_length h fun _ => rfl)
  · exact octets (n := 4) ((wireSize_of ‹_›).trans rfl) (plain_length h fun _ => rfl)
  · exact octets (n := 4) ((wireSize_of ‹_›).trans rfl) (encodeDpt14_length h)
  · exact octets (n := 4) ((wireSize_of ‹_›).trans rfl) (DptRoundTrip.encodeDpt15_ok h).1
  · exact octets (n := 1) ((wireSize_of ‹_›).trans rfl) (encodeMasked_length h)
  · exact octets (n := 1) ((wireSize_of ‹_›).trans rfl) (encodeDpt18_length h)
  · exact octets (n := 1) ((wireSize_of ‹_›).trans rfl) (encodeMasked_length h)
  · exact octets (n := 4) ((wireSize_of ‹_›).trans rfl) (plain_length h fun _ => rfl)
  · exact octets (n := 8) ((wireSize_of ‹_›).trans rfl)
      (plain_length h fun _ => DptRoundTrip.be64Bytes_length _)
  · exact octets (n := 3) ((wireSize_of ‹_›).trans rfl) (plain_length h fun _ => rfl)
  · exact octets (n := 1) ((wireSize_of ‹_›).trans rfl) (encodeMasked_length h)
  · exact octets (n := 1) ((wireSize_of ‹_›).trans rfl) (encodeMasked_length h)
  · exact octets (n := 1) ((wireSize_of ‹_›).trans rfl) (encodeMasked_length h)
  · exact octets (n := 1) ((wireSize_of ‹_›).trans rfl) (encodeMasked_length h)
  · exact octets (n := 1) ((wireSize_of ‹_›).trans rfl) (encodeMasked_length h)
  · exact octets (n := 2) ((wireSize_of ‹_›).trans rfl) (encodeUintBe_length h (by decide))
  · exact octets (n := 3) ((wireSize_of ‹_›).trans rfl) (encodeUintBe_length h (by decide))
  · exact bits (n := 2) ((wireSize_of ‹_›).trans rfl) (masked (by decide) h)
  · exact absurd ‹_› hfunctional
  · cases h

theorem lens_wireSize : ∀ row ∈ lens, ∀ main ∈ row.1,
    (⟨main, 0, 0⟩ : Dpt).wireSize = .bytes (UInt8.ofNat row.2) ∧ row.2 < 256 := by
  have each : (lens.all fun row => row.1.all fun main =>
      (⟨main, 0, 0⟩ : Dpt).wireSize = .bytes (UInt8.ofNat row.2) ∧ row.2 < 256) = true := by decide
  intro row hrow main hmain
  exact of_decide_eq_true (List.all_eq_true.mp (List.all_eq_true.mp each row hrow) main hmain)

theorem compound_size (h : encodeCompound dpt v = .ok b) : OfSize b dpt.wireSize := by
  unfold encodeCompound at h
  cases v with
  | bytes octets =>
    dsimp only at h
    split_ifs at h with hmain hlength hlast
    · have hsize : dpt.wireSize = .variableBytes := (wireSize_of hmain).trans rfl
      rw [hsize, ← Except.ok.inj h]
      intro hnil
      rw [hnil] at hlength
      exact hlength (Nat.zero_le _)
    · split at h
      · cases h
      · next n hlen =>
        split_ifs at h with hcount
        unfold len at hlen
        obtain ⟨row, hfind, rfl⟩ := Option.map_eq_some_iff.mp hlen
        have hmem := List.mem_of_find?_eq_some hfind
        have hmain := List.find?_some hfind
        obtain ⟨hsize, hlt⟩ := lens_wireSize row hmem dpt.main (List.contains_iff_mem.mp hmain)
        rw [wireSize_of (rfl : dpt.main = dpt.main), hsize]
        cases h
        show b.length = (UInt8.ofNat row.2).toNat
        rw [UInt8.toNat_ofNat', Nat.mod_eq_of_lt hlt]
        exact Decidable.not_not.mp hcount
  | _ => cases h

theorem string_size (h : encodeString dpt v = .ok b) : OfSize b dpt.wireSize := by
  unfold encodeString at h
  split at h
  · cases h
  · next s _ =>
    split at h
    · have hsize : dpt.wireSize = .bytes 14 := (wireSize_of ‹_›).trans rfl
      rw [hsize, ← Except.ok.inj h]
      exact encodeDpt16_length dpt s
    · have hsize : dpt.wireSize = .variableBytes := (wireSize_of ‹_›).trans rfl
      obtain ⟨octets, _, hb⟩ := Codecs.map_ok h
      rw [hsize, ← hb]
      exact List.append_ne_nil_of_right_ne_nil octets (List.cons_ne_nil 0 [])
    · have hsize : dpt.wireSize = .variableBytes := (wireSize_of ‹_›).trans rfl
      unfold encodeDpt28 at h
      split_ifs at h
      rw [hsize, ← Except.ok.inj h]
      exact List.append_ne_nil_of_right_ne_nil _ (List.cons_ne_nil 0 [])
    · cases h

theorem encode_size (hfunctional : dpt.main ≠ 31) (h : encode dpt v = .ok b) :
    OfSize b dpt.wireSize := by
  by_cases hmain : dpt.main = 16 ∨ dpt.main = 24 ∨ dpt.main = 28
  · rw [encode_string hmain] at h
    exact string_size h
  · rw [encode_other hmain] at h
    split_ifs at h
    · exact compound_size h
    · exact numeric_size hfunctional h

/-! ## Payloads -/

def Sendable : DptWireSize → Bool
  | .bits n => 1 ≤ n ∧ n ≤ 6
  | .bytes n => 1 ≤ n
  | .variableBytes => true
  | .unknown => false

theorem wireSizes_sendable : ∀ row ∈ wireSizes, Sendable row.2 = true := by decide

theorem wireSize_sendable (h : OfSize b dpt.wireSize) : Sendable dpt.wireSize = true := by
  unfold Dpt.wireSize at h ⊢
  split at h
  · next row hfind => exact wireSizes_sendable row (List.mem_of_find?_eq_some hfind)
  · cases h

/-- Octets as a payload: in the header of the service, or after it. -/
inductive Packed (b : List UInt8) : GroupValuePayload → Prop
  | inline {value : UInt8} (hb : b = [value]) (hle : value ≤ apciShortDataMask) :
      Packed b (.inline value)
  | bytes (hb : b ≠ []) : Packed b (.bytes b)

theorem inline_le {n value : UInt8} (hn : 1 ≤ n ∧ n ≤ 6) (h : value.toNat < 2 ^ n.toNat) :
    value ≤ apciShortDataMask >>> (6 - n) ∧ value ≤ apciShortDataMask := by
  have widths : ∀ k : Fin 7, 1 ≤ k.val → (apciShortDataMask >>> (6 - UInt8.ofNat k)).toNat + 1 =
      2 ^ k.val ∧ 2 ^ k.val ≤ apciShortDataMask.toNat + 1 := by decide
  have hlow := UInt8.le_iff_toNat_le.mp hn.1
  have hhigh := UInt8.le_iff_toNat_le.mp hn.2
  have hk : n.toNat < 7 := Nat.lt_succ_of_le hhigh
  have hwidth := widths ⟨n.toNat, hk⟩ hlow
  dsimp only at hwidth
  rw [UInt8.ofNat_toNat] at hwidth
  rw [UInt8.le_iff_toNat_le, UInt8.le_iff_toNat_le]
  omega

theorem fromDptEncoded_packed (hfunctional : dpt.main ≠ 31) (h : OfSize b dpt.wireSize) :
    ∃ payload, GroupValuePayload.fromDptEncoded dpt b = .ok payload ∧ Packed b payload := by
  have hsendable := wireSize_sendable h
  unfold GroupValuePayload.fromDptEncoded
  rw [if_neg hfunctional]
  cases hsize : dpt.wireSize with
  | bits n =>
    rw [hsize] at h hsendable
    have hn : 1 ≤ n ∧ n ≤ 6 := of_decide_eq_true hsendable
    obtain ⟨value, rfl, hvalue⟩ := h
    obtain ⟨hmax, hmask⟩ := inline_le hn hvalue
    dsimp only
    rw [if_pos hn, if_neg (UInt8.not_lt.mpr hmax)]
    exact ⟨_, rfl, .inline rfl hmask⟩
  | bytes n =>
    rw [hsize] at h hsendable
    have hn : 1 ≤ n := of_decide_eq_true hsendable
    have hlength : b.length = n.toNat := h
    dsimp only
    rw [if_pos hlength]
    refine ⟨_, rfl, .bytes ?_⟩
    rintro rfl
    have := UInt8.le_iff_toNat_le.mp hn
    rw [← hlength] at this
    exact absurd this (by decide)
  | variableBytes =>
    rw [hsize] at h
    exact ⟨_, rfl, .bytes h⟩
  | unknown =>
    rw [hsize] at h
    cases h

def serviceType : GroupValueService → ApduType
  | .response => .groupValueResponse
  | .write => .groupValueWrite

/-- The octets of a group value are decoded to its service and its data. -/
theorem tryToBytes_parse (s : GroupValueService) {payload : GroupValuePayload}
    (packed : Packed b payload) (hb : b.length ≤ 254) :
    ∃ lo rest, (withPayload s payload).tryToBytes tpciDataGroup = .ok (0 :: lo :: rest) ∧
      (0 :: lo :: rest).length ≤ 256 ∧
      Apdu.parse (0 :: lo :: rest) (UInt8.ofNat ((0 :: lo :: rest).length - 1)) =
        some ⟨serviceType s, b⟩ := by
  have hhigh : (encodeApciHeader (serviceType s) tpciDataGroup).1 = 0 := by cases s <;> rfl
  have hlow : (encodeApciHeader (serviceType s) tpciDataGroup).2 &&& 0xC0 =
      (encodeApciHeader (serviceType s) tpciDataGroup).2 := by cases s <;> rfl
  have hshort : isShortApci (serviceType s).raw = true := by cases s <;> rfl
  cases packed with
  | @inline value hvalue hle =>
    obtain ⟨hcode, hdata⟩ := header_inline_code hshort tpciDataGroup hle
    rw [hhigh, hlow] at hcode
    rw [hlow] at hdata
    refine ⟨(encodeApciHeader (serviceType s) tpciDataGroup).2 ||| value, [], ?_, by simp, ?_⟩
    · cases s <;> exact if_neg (UInt8.not_lt.mpr hle)
    · rw [parse_of_code hcode, if_pos ⟨hshort, (UInt8.le_refl 1 : UInt8.ofNat 1 ≤ 1)⟩, hdata, hvalue]
  | bytes hne =>
    have hcode := header_code (serviceType s) tpciDataGroup
    rw [hhigh] at hcode
    have hlength : (0 :: (encodeApciHeader (serviceType s) tpciDataGroup).2 :: b).length ≤ 256 := by
      simp only [List.length_cons]
      omega
    have hlong : ¬(isShortApci (serviceType s).raw = true ∧
        UInt8.ofNat ((0 :: (encodeApciHeader (serviceType s) tpciDataGroup).2 :: b).length - 1)
          ≤ 1) := by
      rintro ⟨_, hone⟩
      have := (octetCount_le_one hlength).mp hone
      have := List.length_pos_iff.mpr hne
      simp only [List.length_cons] at *
      omega
    refine ⟨(encodeApciHeader (serviceType s) tpciDataGroup).2, b, ?_, hlength, ?_⟩
    · cases s <;> exact if_neg hne
    · rw [parse_of_code hcode, if_neg hlong]
      cases s <;> rfl

/-! ## What is read from a frame -/

theorem asGroupWrite_built {messageCode : MessageCode} {source : IndividualAddress}
    {ga : GroupAddress} {priority : Priority} {frame : CemiFrame} {lo : UInt8}
    {rest : List UInt8} {s : GroupValueService}
    (built : BuiltFrom messageCode source (.group ga) priority (0 :: lo :: rest) frame)
    (parses : Apdu.parse (0 :: lo :: rest) (UInt8.ofNat ((0 :: lo :: rest).length - 1)) =
      some ⟨serviceType s, b⟩) : asGroupWrite frame = some (ga, b) := by
  have htwo : 2 ≤ (0 :: lo :: rest).length := by
    simp only [List.length_cons]
    omega
  have hgroup : frame.addressType = .group := built.addressType_eq
  have hdestination : frame.destinationAddressRaw = ga.raw := built.destination_eq
  obtain ⟨t, n, htpdu⟩ : ∃ t n, frame.tpdu = some (.data t n ⟨serviceType s, b⟩) := by
    rw [built.tpdu_eq htwo]
    unfold Tpdu.parse
    dsimp only
    rw [parses]
    exact ⟨_, _, rfl⟩
  unfold asGroupWrite
  rw [if_neg (fun hne => hne hgroup), htpdu, hdestination]
  cases s <;> rfl

/-- A value that can be encoded is sent to a group in its declared size and read there as the
same octets. -/
theorem encoded_sent {dpt : Dpt} {v : DptValue} {b : List UInt8} (hfunctional : dpt.main ≠ 31)
    (h : encode dpt v = .ok b) (hb : b.length ≤ 254) (s : GroupValueService)
    (ga : GroupAddress) :
    OfSize b dpt.wireSize ∧ ∃ frame, buildDptGroupFrame ga s dpt v = .ok frame ∧
      asGroupWrite frame = some (ga, b) := by
  have hsize := encode_size hfunctional h
  obtain ⟨payload, hpayload, packed⟩ := fromDptEncoded_packed hfunctional hsize
  obtain ⟨lo, rest, hbytes, hlength, hparse⟩ := tryToBytes_parse s packed hb
  obtain ⟨frame, hframe⟩ := tryNewLData_ok .lDataReq ⟨0⟩ (.group ga) .low hlength
  refine ⟨hsize, frame, ?_, asGroupWrite_built (tryNewLData_built hframe) hparse⟩
  unfold buildDptGroupFrame
  rw [h]
  show (GroupValuePayload.fromDptEncoded dpt b).mapError KnxIpError.apdu >>= _ = _
  rw [hpayload]
  show ((withPayload s payload).tryToBytes tpciDataGroup).mapError KnxIpError.apdu >>= _ = _
  rw [hbytes]
  show (CemiFrame.tryNewLData _ _ _ _ _).mapError KnxIpError.cemi = _
  rw [hframe]
  rfl

theorem scene_sent : ∃ frame,
    buildDptGroupFrame ⟨0x0801⟩ .write ⟨17, 1, 0⟩ (.uint 63) = .ok frame ∧
      asGroupWrite frame = some (⟨0x0801⟩, [63]) :=
  (@encoded_sent ⟨17, 1, 0⟩ (.uint 63) [63] (by decide) rfl (by decide) .write ⟨0x0801⟩).2

end KnxRs.GroupFrames
