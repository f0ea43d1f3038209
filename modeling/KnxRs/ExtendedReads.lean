import KnxRs.DptTexts
import KnxRs.ExtendedWrites

set_option autoImplicit false

/-!
# Extended property reads

The two services that read a property, and where they give the same answer.
-/
namespace KnxRs.Properties
open Octets

/-! ## What is stored -/

def sharedMaxLen : Nat := 246

def sharedMaxCount : Nat := 15

namespace DataProperty

variable {d : DataProperty} {count : UInt8} {octets : List UInt8}

/-- The first element, and the only one to be read, has the given octets. -/
def StoresOnly (d : DataProperty) (count : UInt8) (octets : List UInt8) : Prop :=
  if d.elementSize = 0 then d.data = octets
  else octets.length = d.elementSize ∧ octets <+: d.data ∧
    (count = 1 ∨ 0 < count.toNat ∧ d.data.length < 2 * d.elementSize)

theorem read_one_iff {start : UInt16} (hstart : start.toNat ≤ 1) :
    d.read start count = (1, octets) ↔ d.StoresOnly count octets := by
  unfold StoresOnly
  rcases Nat.eq_zero_or_pos d.elementSize with hsize | hsize
  · rw [if_pos hsize, read_whole hsize, Prod.mk.injEq]
    exact and_iff_right rfl
  · have hplace : place start = 0 := Nat.sub_eq_zero_of_le hstart
    have hreadable : d.readable start count = min count.toNat d.elements := by
      rw [readable, hplace, Nat.sub_zero]
    have hn := readable_le d start count
    have hone : UInt8.ofNat (d.readable start count) = 1 ↔ d.readable start count = 1 := by
      rw [← UInt8.toNat_inj, hn]
      rfl
    have hcount : count = 1 ↔ count.toNat = 1 := by
      rw [← UInt8.toNat_inj]
      rfl
    have hshort : d.data.length < 2 * d.elementSize ↔ d.elements < 2 := by
      rw [elements, Nat.div_lt_iff_lt_mul hsize]
    have hfirst : ∀ xs : List UInt8, d.readable start count = 1 →
        (slice d.data 0 d.elementSize = xs ↔ xs.length = d.elementSize ∧ xs <+: d.data) := by
      intro xs hread
      have hfit : d.elementSize ≤ d.data.length := by
        have := elements_fit (p := d) (n := 1) (by omega)
        rwa [Nat.one_mul] at this
      rw [slice, List.drop_zero]
      constructor
      · intro h
        rw [← h, List.length_take, Nat.min_eq_left hfit]
        exact ⟨rfl, List.take_prefix _ _⟩
      · intro h
        rw [← h.1]
        exact (List.prefix_iff_eq_take.mp h.2).symm
    rw [if_neg (by omega), read_eq hsize, Prod.mk.injEq, hone, hplace, Nat.zero_mul, hcount, hshort]
    constructor
    · rintro ⟨hread, hslice⟩
      rw [hread, Nat.one_mul, hfirst octets hread] at hslice
      exact ⟨hslice.1, hslice.2, by omega⟩
    · rintro ⟨hlen, hprefix, hcounts⟩
      have hthere : 1 ≤ d.elements := by
        refine (Nat.le_div_iff_mul_le hsize).mpr ?_
        rw [Nat.one_mul, ← hlen]
        exact hprefix.length_le
      have hread : d.readable start count = 1 := by omega
      rw [hread, Nat.one_mul, hfirst octets hread]
      exact ⟨rfl, hlen, hprefix⟩

end DataProperty

namespace Property

variable {p : Property} {start : UInt16} {count : UInt8} {octets : List UInt8}

/-- The count that a callback's octets are reported with, and how large it is. -/
theorem reported_toNat (n : Nat) :
    (if n ≤ 255 then UInt8.ofNat n else 255).toNat = min n 255 := by
  split_ifs with h
  · rw [UInt8.toNat_ofNat', Nat.mod_eq_of_lt (Nat.lt_succ_of_le h), Nat.min_eq_left h]
  · rw [Nat.min_eq_right (by omega)]
    rfl

theorem reported_eq_one (n : Nat) : (if n ≤ 255 then UInt8.ofNat n else 255) = 1 ↔ n = 1 := by
  have hone : (1 : UInt8).toNat = 1 := rfl
  rw [← UInt8.toNat_inj, reported_toNat, hone]
  omega

/-- The property as it is stored gives the octets as its only element, or its callback does. -/
def StoresOnly (p : Property) (start : UInt16) (count : UInt8) (octets : List UInt8) : Prop :=
  match p.storage with
  | .data d => d.StoresOnly count octets
  | .callback state readFn _ => readFn state start count = octets ∧
      (p.dataType.size.toNat = 0 ∨ octets.length / p.dataType.size.toNat = 1)

theorem read_one_iff (hstart : start.toNat ≤ 1) (hne : octets ≠ []) :
    p.read start count = (1, octets) ↔ p.StoresOnly start count octets := by
  unfold read StoresOnly
  cases hs : p.storage with
  | data d => exact DataProperty.read_one_iff hstart
  | callback state readFn writeFn =>
    dsimp only
    by_cases hempty : readFn state start count = []
    · rw [if_pos hempty, hempty, Prod.mk.injEq]
      exact iff_of_false (fun h => hne h.2.symm) fun h => hne h.1.symm
    · rw [if_neg hempty, Prod.mk.injEq, reported_eq_one, and_comm]
      refine and_congr_right fun hoctets => ?_
      rw [hoctets]
      split_ifs with hsize
      · exact iff_of_true rfl (.inl hsize)
      · exact (or_iff_right hsize).symm

def Shareable (p : Property) (start : UInt16) (count : UInt8) : Prop :=
  match p.storage with
  | .data d => d.elementSize = 0 → d.data.length ≤ sharedMaxLen
  | .callback state readFn _ => (readFn state start count).length ≤ sharedMaxLen ∧
      (p.dataType.size.toNat = 0 ∨
        (readFn state start count).length / p.dataType.size.toNat ≤ sharedMaxCount)

theorem read_shareable_iff (hcount : count.toNat ≤ sharedMaxCount) :
    ((p.read start count).1.toNat ≤ sharedMaxCount ∧
      (p.read start count).2.length ≤ sharedMaxLen) ↔ p.Shareable start count := by
  have hone : (1 : UInt8).toNat ≤ sharedMaxCount := by decide
  unfold read Shareable
  cases hs : p.storage with
  | data d =>
    dsimp only
    rcases Nat.eq_zero_or_pos d.elementSize with hsize | hsize
    · rw [DataProperty.read_whole hsize]
      exact ⟨fun h _ => h.2, fun h => ⟨hone, h hsize⟩⟩
    · have hsound := DataProperty.read_sound hsize start count
      have hlarge : d.elementSize ≤ 10 := by
        unfold DataProperty.elementSize
        cases d.dataType <;> decide
      refine iff_of_true ⟨Nat.le_trans hsound.asked hcount, ?_⟩ fun h => by omega
      rw [hsound.agrees]
      calc (d.read start count).1.toNat * d.elementSize
          ≤ sharedMaxCount * 10 := Nat.mul_le_mul (Nat.le_trans hsound.asked hcount) hlarge
        _ ≤ sharedMaxLen := by decide
  | callback state readFn writeFn =>
    dsimp only
    by_cases hempty : readFn state start count = []
    · rw [if_pos hempty, hempty, List.length_nil, Nat.zero_div]
      exact iff_of_true ⟨Nat.zero_le _, Nat.zero_le _⟩ ⟨Nat.zero_le _, .inr (Nat.zero_le _)⟩
    · rw [if_neg hempty, reported_toNat, and_comm]
      refine and_congr_right fun _ => ?_
      have hlimit : sharedMaxCount < 255 := by decide
      split_ifs with hsize
      · exact iff_of_true (Nat.le_trans (Nat.min_le_left _ _) hone) (.inl hsize)
      · rw [or_iff_right hsize]
        omega

end Property
end KnxRs.Properties

namespace KnxRs.AppEncode
open CoreTypes AppParse

/-! ## What a response says -/

theorem be16Bytes_inj {v w : UInt16} (h : be16Bytes v = be16Bytes w) : v = w := by
  have hoctets := List.cons.inj h
  rw [← be16_be16Bytes v, ← be16_be16Bytes w, hoctets.1, (List.cons.inj hoctets.2).1]

theorem countStart_count (count : UInt8) (start : UInt16) :
    (((count &&& mask4Bit).toUInt16 <<< 12) ||| (start &&& mask12Bit)).toNat / 2 ^ 12 =
      count.toNat % 2 ^ 4 := by
  have hcount : (count &&& mask4Bit).toNat = count.toNat % 2 ^ 4 := by
    rw [UInt8.toNat_and, show mask4Bit.toNat = 2 ^ 4 - 1 from rfl, Nat.and_two_pow_sub_one_eq_mod]
  have hstart : (start &&& mask12Bit).toNat < 2 ^ 12 := by
    rw [UInt16.toNat_and, show mask12Bit.toNat = 2 ^ 12 - 1 from rfl,
      Nat.and_two_pow_sub_one_eq_mod]
    exact Nat.mod_lt _ (by decide)
  have hshift : ((count &&& mask4Bit).toUInt16 <<< 12).toNat = (count.toNat % 2 ^ 4) <<< 12 := by
    rw [UInt16.toNat_shiftLeft, UInt8.toNat_toUInt16, hcount,
      show (12 : UInt16).toNat % 16 = 12 from rfl, Nat.shiftLeft_eq, Nat.mod_eq_of_lt]
    have := Nat.mod_lt count.toNat (show 0 < 2 ^ 4 by decide)
    omega
  rw [UInt16.toNat_or, hshift, ← Nat.shiftLeft_add_eq_or_of_lt hstart, Nat.shiftLeft_eq]
  omega

theorem propertyResponse_inj {objectIndex propertyId n m : UInt8} {start : UInt16}
    {data data' : List UInt8} (h : encodePropertyResponse objectIndex propertyId n start data =
      encodePropertyResponse objectIndex propertyId m start data') :
    n.toNat % 2 ^ 4 = m.toNat % 2 ^ 4 ∧ data = data' := by
  unfold encodePropertyResponse service at h
  have htail := (List.cons.inj (List.cons.inj (List.cons.inj (List.cons.inj h).2).2).2).2
  obtain ⟨hword, hdata⟩ := List.append_inj htail
    ((be16Bytes_length _).trans (be16Bytes_length _).symm)
  refine ⟨?_, hdata⟩
  rw [← countStart_count n start, ← countStart_count m start, be16Bytes_inj hword]

theorem propertyExtResponse_inj {objectType objectInstance propertyId : UInt16} {n m : UInt8}
    {start : UInt16} {data data' : List UInt8}
    (h : encodePropertyValueExtResponse objectType objectInstance propertyId n start data =
      encodePropertyValueExtResponse objectType objectInstance propertyId m start data') :
    n = m ∧ data = data' := by
  unfold encodePropertyValueExtResponse service encodeExtPropertyHeader at h
  have htail := (List.cons.inj (List.cons.inj h).2).2
  rw [List.append_assoc, List.append_assoc] at htail
  have hrest := List.append_cancel_left htail
  obtain ⟨hcount, hrest⟩ := List.cons.inj hrest
  exact ⟨hcount, List.append_cancel_left hrest⟩

theorem propertyResponse_length (objectIndex propertyId n : UInt8) (start : UInt16)
    (data : List UInt8) :
    (encodePropertyResponse objectIndex propertyId n start data).length = data.length + 6 := by
  simp [encodePropertyResponse, service, be16Bytes_length]
  omega

end KnxRs.AppEncode

namespace KnxRs.DeviceState.Device
open Properties InterfaceObjects CoreTypes TableObjects TableObject AppEncode

variable {d : Device} {idx : UInt8}

/-! ## The two answers -/

theorem findObjectFrom_object {target : ObjectType} {instanceNo : UInt16}
    {os : List InterfaceObject} {i : Nat} {n : UInt16}
    (h : findObjectFrom target instanceNo os i n = some idx) :
    i ≤ idx.toNat ∧ ∃ o, os[idx.toNat - i]? = some o := by
  induction os generalizing i n with
  | nil => cases h
  | cons o os ih =>
    unfold findObjectFrom at h
    have later : i + 1 ≤ idx.toNat ∧ (∃ o, os[idx.toNat - (i + 1)]? = some o) →
        i ≤ idx.toNat ∧ ∃ o', (o :: os)[idx.toNat - i]? = some o' := by
      rintro ⟨hle, o', ho'⟩
      refine ⟨by omega, o', ?_⟩
      rw [show idx.toNat - i = idx.toNat - (i + 1) + 1 by omega, List.getElem?_cons_succ]
      exact ho'
    split_ifs at h with hlarge htype hcount
    · have hidx : idx.toNat = i := by
        rw [← Option.some_inj.mp h, UInt8.toNat_ofNat', Nat.mod_eq_of_lt (by omega)]
      refine ⟨Nat.le_of_eq hidx.symm, o, ?_⟩
      rw [hidx, Nat.sub_self, List.getElem?_cons_zero]
    · exact later (ih h)
    · exact later (ih h)

theorem findObjectByType_object {objectType instanceNo : UInt16}
    (h : d.findObjectByType objectType instanceNo = some idx) : ∃ o, d.object idx = some o := by
  unfold findObjectByType at h
  cases ht : ObjectType.tryFrom objectType with
  | none =>
    rw [ht] at h
    cases h
  | some target =>
    rw [ht] at h
    exact (findObjectFrom_object h).2

/-- What the standard service says of its own accord: the number of elements at start index 0,
and the load state, the reference, the control block and the error code of a table. -/
def ownAnswer (d : Device) (idx : UInt8) (o : InterfaceObject) (id : PropertyId)
    (start : UInt16) : Option (List UInt8) :=
  if start = 0 then some (be16Bytes (((o.property id).map Property.maxElements).getD 0))
  else d.tryInterceptTableProperty idx id start

def standardAnswer (d : Device) (idx : UInt8) (o : InterfaceObject) (id : PropertyId)
    (count : UInt8) (start : UInt16) : UInt8 × List UInt8 :=
  match d.ownAnswer idx o id start with
  | some octets => (1, octets)
  | none => o.readProperty id start count

theorem ownAnswer_fits {o : InterfaceObject} {id : PropertyId} {start : UInt16}
    {octets : List UInt8} (h : d.ownAnswer idx o id start = some octets) :
    octets ≠ [] ∧ octets.length ≤ 8 ∧ start.toNat ≤ 1 := by
  suffices hlen : (0 < octets.length ∧ octets.length ≤ 8) ∧ start.toNat ≤ 1 from
    ⟨List.ne_nil_of_length_pos hlen.1.1, hlen.1.2, hlen.2⟩
  unfold ownAnswer at h
  split_ifs at h with hzero
  · rw [← Option.some_inj.mp h, hzero, be16Bytes_length]
    decide
  · unfold tryInterceptTableProperty at h
    by_cases hone : start = 1
    · rw [if_neg (not_not_intro hone)] at h
      refine ⟨?_, by rw [hone]; decide⟩
      cases ht : d.tableObject idx with
      | none =>
        rw [ht] at h
        cases h
      | some t =>
        rw [ht] at h
        cases id <;> cases h
        · exact ⟨Nat.one_pos, show 1 ≤ 8 by decide⟩
        · exact ⟨Nat.succ_pos 3, show 4 ≤ 8 by decide⟩
        · unfold mcbTable
          split_ifs
          · exact ⟨Nat.succ_pos 7, Nat.le_refl 8⟩
          · exact ⟨Nat.succ_pos 7, Nat.le_refl 8⟩
        · exact ⟨Nat.one_pos, show 1 ≤ 8 by decide⟩
    · rw [if_pos hone] at h
      cases h

/-- When the two services read a property alike: what the standard service says of its own
accord is the one element that the property has stored, and everything else fits in both. -/
def ReadsAlike (d : Device) (idx propertyId count : UInt8) (start : UInt16) : Prop :=
  ∀ id ∈ PropertyId.tryFrom propertyId, ∀ o ∈ d.object idx,
    match d.ownAnswer idx o id start with
    | some octets => ∃ p ∈ o.property id, p.StoresOnly start count octets
    | none => ∀ p ∈ o.property id, p.Shareable start count

end KnxRs.DeviceState.Device

namespace KnxRs.BusAccessUnit
open CoreTypes Properties InterfaceObjects DeviceState AppEncode CemiCodec

/-- Both services answer every requester, by whichever way the request came, with the same
number of elements and the same octets. -/
def ReadsAgree (b : Bau) (objectType objectInstance : UInt16) (idx propertyId count : UInt8)
    (start : UInt16) : Prop :=
  ∃ (n : UInt8) (data : List UInt8), n.toNat ≤ sharedMaxCount ∧
    ∀ c : Bau, c.toDevice = b.toDevice → ∀ source,
      Replies c source (encodePropertyResponse idx propertyId n start data)
        (c.handlePropertyRead source idx propertyId count start) ∧
      Replies c source
        (encodePropertyValueExtResponse objectType objectInstance propertyId.toUInt16 n start data)
        (c.handlePropertyValueExtRead source objectType objectInstance propertyId.toUInt16 count
          start)

variable {b c : Bau} {source : IndividualAddress} {idx propertyId count : UInt8}
  {objectType objectInstance start : UInt16} {o : InterfaceObject} {id : PropertyId}

theorem handlePropertyRead_eq (ho : c.object idx = some o)
    (hid : PropertyId.tryFrom propertyId = some id) :
    c.handlePropertyRead source idx propertyId count start =
      c.queueIndividualFrame source .system (encodePropertyResponse idx propertyId
        (c.standardAnswer idx o id count start).1 start
        (c.standardAnswer idx o id count start).2) := by
  unfold Bau.handlePropertyRead Device.standardAnswer Device.ownAnswer
  rw [hid]
  dsimp only
  by_cases hzero : start = 0
  · have hnone : c.tryInterceptTableProperty idx id start = none := by
      unfold Device.tryInterceptTableProperty
      rw [hzero]
      exact if_pos (by decide)
    rw [hnone, ho, if_pos hzero, hzero]
    dsimp only
    rw [if_pos rfl]
    rfl
  · rw [if_neg hzero]
    cases c.tryInterceptTableProperty idx id start with
    | some octets => rfl
    | none =>
      dsimp only
      rw [ho]
      dsimp only
      rw [if_neg hzero]
      rfl

theorem propertyIdOfWord_octet (propertyId : UInt8) :
    propertyIdOfWord propertyId.toUInt16 = PropertyId.tryFrom propertyId := by
  unfold propertyIdOfWord
  rw [if_pos (by rw [UInt8.toNat_toUInt16]; exact propertyId.toNat_lt), UInt8.toUInt8_toUInt16]

theorem handlePropertyValueExtRead_eq
    (found : c.findObjectByType objectType objectInstance = some idx)
    (ho : c.object idx = some o) (hid : PropertyId.tryFrom propertyId = some id) :
    c.handlePropertyValueExtRead source objectType objectInstance propertyId.toUInt16 count start =
      c.queueIndividualFrame source .system (encodePropertyValueExtResponse objectType
        objectInstance propertyId.toUInt16 (o.readProperty id start count).1 start
        (o.readProperty id start count).2) := by
  unfold Bau.handlePropertyValueExtRead
  dsimp only
  rw [found]
  dsimp only
  rw [propertyIdOfWord_octet, hid]
  dsimp only
  rw [ho]

theorem queued_payload (answering : b.answeringConnection = none) {payload payload' : List UInt8}
    (two : 2 ≤ payload.length) (two' : 2 ≤ payload'.length)
    (h : Replies b source payload (b.queueIndividualFrame source .system payload')) :
    payload' = payload := by
  obtain ⟨hqueued, hfits⟩ := h
  unfold Bau.queueIndividualFrame at hqueued
  rw [answering, if_neg (by simp), if_neg (by simp)] at hqueued
  unfold Bau.pushFrame at hqueued
  obtain ⟨frame, hframe⟩ := @newLData_ok .lDataReq b.individualAddress (.individual source)
    .system _ hfits
  rw [hframe] at hqueued
  cases hframe' : CemiFrame.newLData .lDataReq b.individualAddress (.individual source) .system
      payload' with
  | error e =>
    rw [hframe'] at hqueued
    cases hqueued
  | ok frame' =>
    rw [hframe'] at hqueued
    have hout := congrArg Bau.outbox (Except.ok.inj hqueued)
    have hsame := (List.cons.inj (List.append_cancel_left hout)).1
    rw [← (newLData_built hframe).payload_whole two, ← (newLData_built hframe').payload_whole two',
      hsame]

theorem ReadsAgree.answers (h : ReadsAgree b objectType objectInstance idx propertyId count start)
    (found : b.findObjectByType objectType objectInstance = some idx)
    (ho : b.object idx = some o) (hid : PropertyId.tryFrom propertyId = some id) :
    ∃ (n : UInt8) (data : List UInt8), n.toNat ≤ sharedMaxCount ∧ data.length ≤ sharedMaxLen ∧
      o.readProperty id start count = (n, data) ∧
      (b.standardAnswer idx o id count start).1.toNat % 2 ^ 4 = n.toNat % 2 ^ 4 ∧
      (b.standardAnswer idx o id count start).2 = data := by
  obtain ⟨n, data, hn, all⟩ := h
  obtain ⟨standard, extended⟩ := all { b with answeringConnection := none } rfl ⟨0⟩
  rw [handlePropertyRead_eq (c := { b with answeringConnection := none }) ho hid] at standard
  rw [handlePropertyValueExtRead_eq (c := { b with answeringConnection := none }) found ho hid]
    at extended
  have hfits := extended.fits
  rw [encodePropertyValueExtResponse_length] at hfits
  have hstandard := propertyResponse_inj (queued_payload rfl
    (by rw [propertyResponse_length]; omega) (by rw [propertyResponse_length]; omega) standard)
  have hextended := propertyExtResponse_inj (queued_payload rfl
    (by rw [encodePropertyValueExtResponse_length]; omega)
    (by rw [encodePropertyValueExtResponse_length]; omega) extended)
  refine ⟨n, data, hn, ?_, Prod.ext hextended.1 hextended.2, hstandard.1, hstandard.2⟩
  unfold sharedMaxLen
  omega

theorem ReadsAgree.of_answers {n : UInt8} {data : List UInt8} (hn : n.toNat ≤ sharedMaxCount)
    (hdata : data.length ≤ sharedMaxLen)
    (found : b.findObjectByType objectType objectInstance = some idx)
    (ho : b.object idx = some o) (hid : PropertyId.tryFrom propertyId = some id)
    (hstandard : b.standardAnswer idx o id count start = (n, data))
    (hextended : o.readProperty id start count = (n, data)) :
    ReadsAgree b objectType objectInstance idx propertyId count start := by
  refine ⟨n, data, hn, fun c hc source => ⟨⟨?_, ?_⟩, ⟨?_, ?_⟩⟩⟩
  · rw [← hc] at ho hstandard
    rw [handlePropertyRead_eq ho hid, hstandard]
  · rw [propertyResponse_length]
    unfold sharedMaxLen at hdata
    omega
  · rw [← hc] at found ho
    rw [handlePropertyValueExtRead_eq found ho hid, hextended]
  · rw [encodePropertyValueExtResponse_length]
    unfold sharedMaxLen at hdata
    omega

theorem ReadsAgree.unknown (found : b.findObjectByType objectType objectInstance = some idx)
    (hid : PropertyId.tryFrom propertyId = none) :
    ReadsAgree b objectType objectInstance idx propertyId count start := by
  refine ⟨0, [], Nat.zero_le _, fun c hc source => ⟨⟨?_, ?_⟩, ⟨?_, ?_⟩⟩⟩
  · unfold Bau.handlePropertyRead
    rw [hid]
    rfl
  · rw [propertyResponse_length]
    decide
  · rw [← hc] at found
    unfold Bau.handlePropertyValueExtRead
    dsimp only
    rw [found]
    dsimp only
    rw [propertyIdOfWord_octet, hid]
    rfl
  · rw [encodePropertyValueExtResponse_length]
    decide

/-- Where the standard service answers for the device itself, the property has to store that. -/
theorem reads_own_iff {octets : List UInt8}
    (found : b.findObjectByType objectType objectInstance = some idx)
    (ho : b.object idx = some o) (hid : PropertyId.tryFrom propertyId = some id)
    (hown : b.ownAnswer idx o id start = some octets) :
    ReadsAgree b objectType objectInstance idx propertyId count start ↔
      ∃ p ∈ o.property id, p.StoresOnly start count octets := by
  obtain ⟨hne, hshort, hstart⟩ := Device.ownAnswer_fits hown
  have hstandard : b.standardAnswer idx o id count start = (1, octets) := by
    unfold Device.standardAnswer
    rw [hown]
  constructor
  · intro h
    obtain ⟨n, data, hn, _, hread, hcounts, hoctets⟩ := h.answers found ho hid
    rw [hstandard] at hcounts hoctets
    dsimp only at hcounts hoctets
    have hone : n = 1 := by
      apply UInt8.toNat_inj.mp
      unfold sharedMaxCount at hn
      have : (1 : UInt8).toNat = 1 := rfl
      omega
    rw [hone, ← hoctets] at hread
    unfold InterfaceObject.readProperty at hread
    cases hp : o.property id with
    | none =>
      rw [hp] at hread
      cases hread
    | some p =>
      rw [hp] at hread
      exact ⟨p, rfl, (Property.read_one_iff hstart hne).mp hread⟩
  · rintro ⟨p, hp, hstores⟩
    refine .of_answers (by decide : (1 : UInt8).toNat ≤ sharedMaxCount)
      (Nat.le_trans hshort (by decide)) found ho hid hstandard ?_
    unfold InterfaceObject.readProperty
    rw [Option.mem_def.mp hp]
    exact (Property.read_one_iff hstart hne).mpr hstores

/-- Otherwise both services read the property, and what is read has to fit both answers. -/
theorem reads_stored_iff (hcount : count.toNat ≤ sharedMaxCount)
    (found : b.findObjectByType objectType objectInstance = some idx)
    (ho : b.object idx = some o) (hid : PropertyId.tryFrom propertyId = some id)
    (hown : b.ownAnswer idx o id start = none) :
    ReadsAgree b objectType objectInstance idx propertyId count start ↔
      ∀ p ∈ o.property id, p.Shareable start count := by
  have hstandard : b.standardAnswer idx o id count start = o.readProperty id start count := by
    unfold Device.standardAnswer
    rw [hown]
  constructor
  · intro h p hp
    obtain ⟨n, data, hn, hdata, hread, _, _⟩ := h.answers found ho hid
    unfold InterfaceObject.readProperty at hread
    rw [Option.mem_def.mp hp] at hread
    refine (Property.read_shareable_iff hcount).mp ?_
    rw [show p.read start count = (n, data) from hread]
    exact ⟨hn, hdata⟩
  · intro h
    have hshare : (o.readProperty id start count).1.toNat ≤ sharedMaxCount ∧
        (o.readProperty id start count).2.length ≤ sharedMaxLen := by
      unfold InterfaceObject.readProperty
      cases hp : o.property id with
      | none => exact ⟨Nat.zero_le _, Nat.zero_le _⟩
      | some p => exact (Property.read_shareable_iff hcount).mpr (h p hp)
    exact .of_answers hshare.1 hshare.2 found ho hid hstandard rfl

/-- The two services read a property of an object that both reach alike exactly where the one
has nothing to say that the other does not have stored. -/
theorem reads_agree_iff (b : Bau) (found : b.findObjectByType objectType objectInstance = some idx)
    (propertyId : UInt8) (hcount : count.toNat ≤ sharedMaxCount) (start : UInt16) :
    ReadsAgree b objectType objectInstance idx propertyId count start ↔
      b.toDevice.ReadsAlike idx propertyId count start := by
  obtain ⟨o, ho⟩ := Device.findObjectByType_object found
  unfold Device.ReadsAlike
  cases hid : PropertyId.tryFrom propertyId with
  | none =>
    refine iff_of_true (.unknown found hid) ?_
    intro id h
    cases h
  | some id =>
    have honly : ∀ P : PropertyId → InterfaceObject → Prop,
        (∀ id' ∈ some id, ∀ o' ∈ b.object idx, P id' o') ↔ P id o := by
      intro P
      rw [ho]
      constructor
      · exact fun h => h id rfl o rfl
      · intro h id' hid' o' ho'
        rwa [← Option.some_inj.mp hid', ← Option.some_inj.mp ho']
    rw [honly]
    cases hown : b.ownAnswer idx o id start with
    | some octets => exact reads_own_iff found ho hid hown
    | none => exact reads_stored_iff hcount found ho hid hown

/-- The type of the device object is read alike. -/
theorem device_type_agrees : ReadsAgree standardBau 0 1 0 1 1 1 := by
  have hfound : standardBau.findObjectByType 0 1 = some 0 := by decide +kernel
  refine (reads_agree_iff standardBau hfound 1 (by decide) 1).mpr ?_
  intro id hid o ho
  obtain rfl : PropertyId.objectType = id := Option.some_inj.mp hid
  have hnone : standardBau.ownAnswer 0 o .objectType 1 = none := rfl
  rw [hnone]
  intro p hp
  obtain rfl := Option.some_inj.mp ho
  obtain rfl := Option.some_inj.mp hp
  exact fun h => absurd h (by decide)

/-- The load state of the address table is read by the standard service only. -/
theorem load_state_disagrees : standardBau.findObjectByType 1 1 = some 1 ∧
    ¬ReadsAgree standardBau 1 1 1 5 1 1 := by
  have hfound : standardBau.findObjectByType 1 1 = some 1 := by decide +kernel
  refine ⟨hfound, fun h => ?_⟩
  obtain ⟨n, data, _, _, hread, _, hoctets⟩ := h.answers (o := .new .addressTable)
    hfound rfl (rfl : PropertyId.tryFrom 5 = some .loadStateControl)
  have hempty : data = [] := (congrArg Prod.snd hread).symm
  rw [hempty] at hoctets
  exact absurd hoctets (show ¬[0] = ([] : List UInt8) from List.cons_ne_nil _ _)

end KnxRs.BusAccessUnit
