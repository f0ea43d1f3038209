import KnxRs.DeliveryScope
import KnxRs.GroupReads
import KnxRs.GroupWrites
import KnxRs.ValueChanges

set_option autoImplicit false

/-!
# Group services

Which objects take a value that is received for a group address, and with what a read of
one is answered, said of the entries of the tables.
-/
namespace KnxRs.GroupTables.AssociationTable

/-- What the entry at an index associates with the TSAP. -/
def entryFor (t : AssociationTable) (tsap idx : UInt16) : Option UInt16 :=
  if t.getTsap idx = some tsap then t.getAsap idx else none

/-- The objects of a TSAP, in the order of the entries. -/
def entriesFor (t : AssociationTable) (tsap : UInt16) : List UInt16 :=
  (indices 0 t.entryCount).filterMap (t.entryFor tsap)

variable {t : AssociationTable} {tsap asap idx : UInt16}

theorem succ_toNat {idx count : UInt16} (h : idx < count) : (idx + 1).toNat = idx.toNat + 1 := by
  rw [UInt16.lt_iff_toNat_lt] at h
  have := count.toNat_lt
  have hone : (1 : UInt16).toNat = 1 := rfl
  rw [UInt16.toNat_add]
  omega

theorem indices_cons {idx count : UInt16} (h : idx < count) :
    indices idx count = idx :: indices (idx + 1) count := by
  have hlt := UInt16.lt_iff_toNat_lt.mp h
  unfold indices
  rw [succ_toNat h, show count.toNat - idx.toNat = count.toNat - (idx.toNat + 1) + 1 by omega,
    List.range'_succ, List.map_cons, UInt16.ofNat_toNat]

theorem indices_nil {idx count : UInt16} (h : ¬idx < count) : indices idx count = [] := by
  rw [UInt16.lt_iff_toNat_lt] at h
  unfold indices
  rw [show count.toNat - idx.toNat = 0 by omega]
  rfl

theorem nextAsap_end (h : ¬idx < t.entryCount) : t.nextAsap tsap idx = none := by
  unfold nextAsap
  rw [indices_nil h]
  rfl

theorem nextAsap_skip (h : idx < t.entryCount) (hother : t.getTsap idx ≠ some tsap) :
    t.nextAsap tsap idx = t.nextAsap tsap (idx + 1) := by
  unfold nextAsap
  rw [indices_cons h, List.find?_cons_of_neg (by simpa using hother)]

theorem nextAsap_found (h : idx < t.entryCount) (hsame : t.getTsap idx = some tsap) :
    t.nextAsap tsap idx = (t.getAsap idx).map fun asap => (asap, idx + 1) := by
  unfold nextAsap
  rw [indices_cons h, List.find?_cons_of_pos (by simpa using hsame)]
  dsimp only
  cases t.getAsap idx with
  | none => rfl
  | some asap => rfl

theorem entryFor_after {i : UInt16} (h : t.getAsap idx = none) (hi : idx < i) :
    t.entryFor tsap i = none := by
  have hlt := UInt16.lt_iff_toNat_lt.mp hi
  have hshort : t.data.length < tsapOffset + idx.toNat * entrySize + tsapOffset + 2 := by
    by_contra hlong
    unfold getAsap at h
    rw [wordAt_some (Nat.not_lt.mp hlong)] at h
    cases h
  have hnone : t.getTsap i = none := by
    refine wordAt_none ?_
    dsimp only [tsapOffset, entrySize] at hshort ⊢
    omega
  unfold entryFor
  rw [hnone, if_neg (by simp)]

theorem asapsFrom_eq {rounds : Nat} (h : t.entryCount.toNat < idx.toNat + rounds) :
    t.asapsFrom tsap rounds idx = (indices idx t.entryCount).filterMap (t.entryFor tsap) := by
  induction hn : t.entryCount.toNat - idx.toNat generalizing idx rounds with
  | zero =>
    have hend : ¬idx < t.entryCount := by
      rw [UInt16.lt_iff_toNat_lt]
      omega
    rw [indices_nil hend]
    cases rounds with
    | zero => rfl
    | succ rounds =>
      unfold asapsFrom
      rw [nextAsap_end hend]
      rfl
  | succ n ih =>
    have hlt : idx < t.entryCount := by
      rw [UInt16.lt_iff_toNat_lt]
      omega
    have hsucc := succ_toNat hlt
    cases rounds with
    | zero => omega
    | succ rounds =>
      rw [indices_cons hlt, List.filterMap_cons]
      by_cases hsame : t.getTsap idx = some tsap
      · unfold asapsFrom
        rw [nextAsap_found hlt hsame, entryFor, if_pos hsame]
        cases hasap : t.getAsap idx with
        | none =>
          dsimp only [Option.map_none]
          symm
          rw [List.filterMap_eq_nil_iff]
          intro i hi
          refine entryFor_after hasap ?_
          have hle := UInt16.le_iff_toNat_le.mp (indices_mem hi).1
          rw [UInt16.lt_iff_toNat_lt]
          omega
        | some asap =>
          dsimp only [Option.map_some]
          rw [ih (by omega) (by omega)]
      · have hskip : t.asapsFrom tsap (rounds + 1) idx = t.asapsFrom tsap (rounds + 1) (idx + 1) := by
          unfold asapsFrom
          rw [nextAsap_skip hlt hsame]
        rw [hskip, entryFor, if_neg hsame]
        exact ih (by omega) (by omega)

theorem asapsForTsap_eq (t : AssociationTable) (tsap : UInt16) :
    t.asapsForTsap tsap = t.entriesFor tsap := by
  refine asapsFrom_eq ?_
  have hzero : (0 : UInt16).toNat = 0 := rfl
  omega

def Associates (t : AssociationTable) (tsap asap : UInt16) : Prop :=
  ∃ idx, idx < t.entryCount ∧ t.getTsap idx = some tsap ∧ t.getAsap idx = some asap

theorem mem_indices {i count : UInt16} : i ∈ indices 0 count ↔ i < count := by
  constructor
  · exact fun h => (indices_mem h).2
  · intro h
    refine List.mem_map.mpr ⟨i.toNat, List.mem_range'_1.mpr ⟨Nat.zero_le _, ?_⟩, UInt16.ofNat_toNat⟩
    have hzero : (0 : UInt16).toNat = 0 := rfl
    have := UInt16.lt_iff_toNat_lt.mp h
    omega

theorem mem_asapsForTsap : asap ∈ t.asapsForTsap tsap ↔ t.Associates tsap asap := by
  rw [asapsForTsap_eq, entriesFor, List.mem_filterMap]
  constructor
  · rintro ⟨idx, hidx, hentry⟩
    unfold entryFor at hentry
    split_ifs at hentry with htsap
    exact ⟨idx, mem_indices.mp hidx, htsap, hentry⟩
  · rintro ⟨idx, hidx, htsap, hasap⟩
    refine ⟨idx, mem_indices.mpr hidx, ?_⟩
    rw [entryFor, if_pos htsap, hasap]

end KnxRs.GroupTables.AssociationTable

namespace KnxRs.BusAccessUnit
open CoreTypes GroupObjects InterfaceObjects ApduCodec TpduCodec CemiCodec AppParse AppEncode
open DptCodec GroupTables Transport MemoryStore DeviceState GroupFrames Fallible Runs

/-! ## What is to happen -/

def Linked (d : Device) (dst asap : UInt16) : Prop :=
  ∃ tsap, d.addressTable.getTsap dst = some tsap ∧ d.associationTable.Associates tsap asap

def Permits (d : Device) (flag : GroupObjectDescriptor → Bool) (asap : UInt16) : Prop :=
  ∀ desc, d.groupObjectTable.getDescriptor asap = some desc →
    desc.communicationEnable = true ∧ flag desc = true

/-- A value was received: the objects that are linked and permit it have taken it, as many of
its octets as they have room for, and nothing else has changed. -/
structure Received (d : Device) (dst : UInt16) (data : List UInt8)
    (flag : GroupObjectDescriptor → Bool) (d' : Device) : Prop where
  taken : ∀ asap go, d.groupObjects.get asap = some go → Linked d dst asap →
    Permits d flag asap → d'.groupObjects.get asap = some { go with
      data := data.take go.data.length ++ go.data.drop data.length
      commFlag := .updated }
  kept : ∀ asap, ¬(Linked d dst asap ∧ Permits d flag asap) →
    d'.groupObjects.get asap = d.groupObjects.get asap
  absent : ∀ asap, d.groupObjects.get asap = none → d'.groupObjects.get asap = none
  rest : d' = { d with groupObjects := d'.groupObjects }

def Readable (d : Device) (asap : UInt16) (go : GroupObject) : Prop :=
  d.groupObjects.get asap = some go ∧ go.initialized = true ∧
    Permits d GroupObjectDescriptor.readEnable asap

def FirstReadable (d : Device) (dst : UInt16) (go : GroupObject) : Prop :=
  ∃ tsap before asap after, d.addressTable.getTsap dst = some tsap ∧
    d.associationTable.entriesFor tsap = before ++ asap :: after ∧ Readable d asap go ∧
    ∀ earlier ∈ before, ∀ go, ¬Readable d earlier go

/-- The frame is a response to the group with the value of the object: as it is encoded, and,
but for a value of no octets, as it is decoded. -/
structure Responds (b : Bau) (dst : UInt16) (go : GroupObject) (frame : CemiFrame) : Prop where
  request : frame.messageCodeRaw = MessageCode.lDataReq.raw
  encoded : AnswersWith b dst go frame
  decoded : go.data ≠ [] → frame.addressType = .group ∧ frame.destinationAddressRaw = dst ∧
    ∃ tpduType seqNo, frame.tpdu = some (.data tpduType seqNo ⟨.groupValueResponse, go.data⟩)

/-- A read was received: it has changed nothing but that a response may be queued. -/
inductive Answered (b : Bau) (dst : UInt16) : Bau → Prop
  | silent (none : ∀ asap go, Linked b.toDevice dst asap → ¬Readable b.toDevice asap go) :
      Answered b dst b
  | unencodable {go : GroupObject} {e : ApduEncodeError} (first : FirstReadable b.toDevice dst go)
      (error : encodeGroupValueResponseForDpt go.dpt go.data = .error e) : Answered b dst b
  | response {go : GroupObject} {frame : CemiFrame} (first : FirstReadable b.toDevice dst go)
      (responds : Responds b dst go frame) :
      Answered b dst { b with outbox := b.outbox ++ [frame] }

/-- What an indication of a group service does. -/
def GroupServed (b : Bau) (dst : UInt16) : AppIndication → Bau → Prop
  | .groupValueWrite _ data, b' =>
    Received b.toDevice dst data GroupObjectDescriptor.writeEnable b'.toDevice ∧
      b' = { b with toDevice := b'.toDevice }
  | .groupValueResponse _ data, b' =>
    Received b.toDevice dst data GroupObjectDescriptor.updateEnable b'.toDevice ∧
      b' = { b with toDevice := b'.toDevice }
  | .groupValueRead _, b' => Answered b dst b'
  | _, _ => True

def carriesValue : AppIndication → Bool
  | .groupValueWrite .. | .groupValueResponse .. => true
  | _ => false

/-- A frame to a group, not the broadcast address, with an indication of a group service. -/
structure GroupIndication (frame : CemiFrame) (indication : AppIndication) : Prop where
  received : isConfirmation frame = false
  group : frame.addressType = .group
  destination : frame.destinationAddressRaw ≠ 0
  service : Bau.requiredScope indication = .group
  carried : ∃ tpduType seqNo apdu, frame.tpdu = some (.data tpduType seqNo apdu) ∧
    tpduType ≠ .dataConnected ∧ parseIndication apdu.apduType apdu.data = .ok indication

/-! ## Values -/

variable {b : Bau} {d : Device} {frame : CemiFrame} {dst asap : UInt16}
  {flag : GroupObjectDescriptor → Bool}

theorem accepts_iff : d.accepts asap flag = true ↔ Permits d flag asap := by
  unfold Device.accepts Permits
  cases d.groupObjectTable.getDescriptor asap with
  | none => simp
  | some desc => simp

theorem receives_iff : receives d dst flag asap = true ↔
    Linked d dst asap ∧ Permits d flag asap := by
  unfold receives Linked
  cases d.addressTable.getTsap dst with
  | none => simp
  | some tsap =>
    simp only [decide_eq_true_eq, AssociationTable.mem_asapsForTsap, accepts_iff,
      Option.some.injEq, exists_eq_left']

theorem valueFromBus_eq (go : GroupObject) (data : List UInt8) : go.valueFromBus data = { go with
    data := data.take go.data.length ++ go.data.drop data.length, commFlag := .updated } := by
  have hsplit := ValueChanges.copyFrom_split go data
  unfold GroupObject.copyFrom at hsplit
  unfold GroupObject.valueFromBus
  rw [← hsplit]

theorem updateGroupObjectFromBus_received (d : Device) (dst : UInt16) (data : List UInt8)
    (flag : GroupObjectDescriptor → Bool) :
    Received d dst data flag (d.updateGroupObjectFromBus dst data flag) where
  taken := by
    intro asap go hgo hlinked hpermits
    rw [updateGroupObjectFromBus_get, if_pos (receives_iff.mpr ⟨hlinked, hpermits⟩), hgo,
      Option.map_some, valueFromBus_eq]
  kept := by
    intro asap hother
    rw [updateGroupObjectFromBus_get, if_neg (fun h => hother (receives_iff.mp h))]
  absent := by
    intro asap hnone
    rw [updateGroupObjectFromBus_get, hnone]
    split_ifs <;> rfl
  rest := by
    unfold Device.updateGroupObjectFromBus
    cases d.addressTable.getTsap dst with
    | none => rfl
    | some tsap => rfl

/-! ## Reads -/

theorem readableObject_iff (d : Device) (tsap : UInt16) :
    d.readableObject tsap = (d.associationTable.entriesFor tsap).findSome? fun asap =>
      if d.accepts asap GroupObjectDescriptor.readEnable then
        (d.groupObjects.get asap).filter GroupObject.initialized
      else none := by
  unfold Device.readableObject
  rw [AssociationTable.asapsForTsap_eq]

theorem readable_iff {go : GroupObject} :
    (if d.accepts asap GroupObjectDescriptor.readEnable then
      (d.groupObjects.get asap).filter GroupObject.initialized else none) = some go ↔
        Readable d asap go := by
  unfold Readable
  rw [← accepts_iff]
  split_ifs with haccepts
  · rw [Option.filter_eq_some_iff]
    constructor
    · rintro ⟨hget, hinit⟩
      exact ⟨hget, hinit, haccepts⟩
    · rintro ⟨hget, hinit, _⟩
      exact ⟨hget, hinit⟩
  · exact ⟨nofun, fun h => absurd h.2.2 haccepts⟩

theorem mem_entriesFor {t : AssociationTable} {tsap : UInt16} :
    asap ∈ t.entriesFor tsap ↔ t.Associates tsap asap := by
  rw [← AssociationTable.asapsForTsap_eq, AssociationTable.mem_asapsForTsap]

theorem readableObject_none {tsap : UInt16} (htsap : d.addressTable.getTsap dst = some tsap)
    (h : d.readableObject tsap = none) :
    ∀ asap go, Linked d dst asap → ¬Readable d asap go := by
  rintro asap go ⟨tsap', htsap', hentry⟩ hreadable
  obtain rfl := Option.some.inj (htsap.symm.trans htsap')
  rw [readableObject_iff, List.findSome?_eq_none_iff] at h
  have hnone := h asap (mem_entriesFor.mpr hentry)
  rw [readable_iff.mpr hreadable] at hnone
  cases hnone

theorem readableObject_first {tsap : UInt16} {go : GroupObject}
    (htsap : d.addressTable.getTsap dst = some tsap) (h : d.readableObject tsap = some go) :
    FirstReadable d dst go := by
  rw [readableObject_iff] at h
  obtain ⟨before, asap, after, hentries, hgo, hbefore⟩ := List.findSome?_eq_some_iff.mp h
  refine ⟨tsap, before, asap, after, htsap, hentries, readable_iff.mp hgo, ?_⟩
  intro earlier hearlier go' hreadable
  have hnone := hbefore earlier hearlier
  rw [readable_iff.mpr hreadable] at hnone
  cases hnone

/-! ## Responses -/

theorem packed_of {dpt : Dpt} {data : List UInt8} {payload : GroupValuePayload}
    (hdata : data ≠ []) (h : GroupValuePayload.fromDptEncoded dpt data = .ok payload) :
    Packed data payload := by
  cases payload with
  | bytes octets =>
    obtain rfl := GroupValuePayload.fromDptEncoded_bytes h
    exact .bytes hdata
  | inline value =>
    unfold GroupValuePayload.fromDptEncoded at h
    split_ifs at h
    cases hwire : dpt.wireSize with
    | bits n =>
      rw [hwire] at h
      dsimp only at h
      split_ifs at h
      match data, h with
      | [octet], h =>
        dsimp only at h
        split_ifs at h with hmax
        cases h
        refine .inline rfl ?_
        rw [gt_iff_lt, UInt8.not_lt] at hmax
        refine UInt8.le_trans hmax ?_
        rw [UInt8.le_iff_toNat_le, UInt8.toNat_shiftRight]
        exact Nat.shiftRight_le _ _
    | bytes n =>
      rw [hwire] at h
      dsimp only at h
      split_ifs at h
      cases h
    | variableBytes =>
      rw [hwire] at h
      cases h
    | unknown =>
      rw [hwire] at h
      cases h

theorem encodeGroupValueResponse_packed {data : List UInt8} (hdata : data ≠ []) :
    ∃ payload, Packed data payload ∧
      (withPayload .response payload).tryToBytes tpciDataGroup = .ok (encodeGroupValueResponse data) := by
  have plain (h : encodeGroupValueResponse data = service .groupValueResponse data) :
      ∃ payload, Packed data payload ∧ (withPayload .response payload).tryToBytes tpciDataGroup =
        .ok (encodeGroupValueResponse data) := by
    refine ⟨.bytes data, .bytes hdata, ?_⟩
    rw [h]
    exact if_neg hdata
  match data with
  | [] => exact absurd rfl hdata
  | [octet] =>
    by_cases hshort : octet ≤ apciShortDataMask
    · refine ⟨.inline octet, .inline rfl hshort, ?_⟩
      have hmask : octet &&& mask6Bit = octet := DptTexts.low_mask 6 rfl hshort
      have hencode : encodeGroupValueResponse [octet] =
          [apciHi .groupValueResponse, apciLo .groupValueResponse ||| octet] := by
        unfold encodeGroupValueResponse encodeGroupValue
        dsimp only
        rw [if_pos (show octet ≤ mask6Bit from hshort), hmask]
      rw [hencode]
      exact if_neg (UInt8.not_lt.mpr hshort)
    · refine plain ?_
      unfold encodeGroupValueResponse encodeGroupValue
      exact if_neg hshort
  | _ :: _ :: _ => exact plain rfl

theorem response_packed {go : GroupObject} {octets : List UInt8} (hdata : go.data ≠ [])
    (h : encodeGroupValueResponseForDpt go.dpt go.data = .ok octets) :
    ∃ payload, Packed go.data payload ∧
      (withPayload .response payload).tryToBytes tpciDataGroup = .ok octets := by
  unfold encodeGroupValueResponseForDpt encodeGroupValueForDpt at h
  cases hdpt : go.dpt with
  | none =>
    rw [hdpt] at h
    cases h
    exact encodeGroupValueResponse_packed hdata
  | some dpt =>
    rw [hdpt] at h
    dsimp only at h
    cases hpayload : GroupValuePayload.fromDptEncoded dpt go.data with
    | error e =>
      rw [hpayload] at h
      cases h
    | ok payload =>
      rw [hpayload] at h
      exact ⟨payload, packed_of hdata hpayload, h⟩

theorem answer_responds {go : GroupObject} {octets : List UInt8}
    (hoctets : encodeGroupValueResponseForDpt go.dpt go.data = .ok octets)
    (hframe : CemiFrame.newLData .lDataReq b.individualAddress (.group ⟨dst⟩) .low octets =
      .ok frame) : Responds b dst go frame where
  request := (newLData_built hframe).messageCodeRaw_eq
  encoded := ⟨octets, hoctets, hframe⟩
  decoded := by
    intro hdata
    have built := newLData_built hframe
    refine ⟨built.addressType_eq, built.destination_eq, ?_⟩
    obtain ⟨payload, packed, hbytes⟩ := response_packed hdata hoctets
    have hroom : go.data.length ≤ 254 := by
      have hlength := built.length
      cases packed with
      | inline hvalue _ =>
        rw [hvalue]
        exact Nat.le_add_left 1 253
      | bytes hne =>
        have hbytes : (if go.data = [] then Except.error ApduEncodeError.emptyBytePayload
          else .ok (_ :: _ :: go.data)) = .ok octets := hbytes
        rw [if_neg hne] at hbytes
        cases hbytes
        simp only [List.length_cons] at hlength
        omega
    obtain ⟨lo, rest, hparsed, _, hparse⟩ := tryToBytes_parse .response packed hroom
    obtain rfl : octets = 0 :: lo :: rest := Except.ok.inj (hbytes.symm.trans hparsed)
    rw [built.tpdu_eq (by simp only [List.length_cons]; omega)]
    unfold Tpdu.parse
    dsimp only
    rw [hparse]
    exact ⟨_, _, rfl⟩

/-! ## Indications -/

theorem handleGroupValueRead_answered (b : Bau) (frame : CemiFrame) :
    Yields False (Answered b frame.destinationAddressRaw) (b.handleGroupValueRead frame) := by
  unfold Bau.handleGroupValueRead
  dsimp only
  cases htsap : b.addressTable.getTsap frame.destinationAddressRaw with
  | none =>
    refine .ok (.silent ?_)
    rintro asap go ⟨tsap, htsap', _⟩
    rw [htsap] at htsap'
    cases htsap'
  | some tsap =>
    dsimp only
    cases hgo : b.readableObject tsap with
    | none => exact .ok (.silent (readableObject_none htsap hgo))
    | some go =>
      have first := readableObject_first htsap hgo
      dsimp only [Bau.queueGroupValueResponse]
      cases hoctets : encodeGroupValueResponseForDpt go.dpt go.data with
      | error e => exact .ok (.unencodable first hoctets)
      | ok octets =>
        dsimp only [Bau.queueGroupFrame, Bau.pushFrame]
        refine Yields.map (Q := fun answer => CemiFrame.newLData .lDataReq b.individualAddress
          (.group ⟨frame.destinationAddressRaw⟩) .low octets = .ok answer)
          ⟨fun _ h => h, False.elim⟩ fun answer hanswer => ?_
        exact .response first (answer_responds hoctets hanswer)

theorem dispatchIndication_served (b : Bau) (frame : CemiFrame) (source : IndividualAddress)
    (indication : AppIndication) (service : Bau.requiredScope indication = .group) :
    Yields (carriesValue indication = true) (GroupServed b frame.destinationAddressRaw indication)
      (b.dispatchIndication frame source indication) := by
  cases indication with
  | groupValueWrite asap data =>
    exact .ok ⟨updateGroupObjectFromBus_received b.toDevice _ data _, rfl⟩
  | groupValueResponse asap data =>
    exact .ok ⟨updateGroupObjectFromBus_received b.toDevice _ data _, rfl⟩
  | groupValueRead asap =>
    exact ⟨(handleGroupValueRead_answered b frame).post, nofun⟩
  | _ => cases service

theorem answered_transport {b' : Bau} (h : Answered b dst b') : b'.transport = b.transport := by
  cases h with
  | silent => rfl
  | unencodable => rfl
  | response => rfl

theorem served_transport {indication : AppIndication} {b' : Bau}
    (service : Bau.requiredScope indication = .group) (h : GroupServed b dst indication b') :
    b'.transport = b.transport := by
  cases indication with
  | groupValueWrite asap data =>
    rw [h.2]
  | groupValueResponse asap data =>
    rw [h.2]
  | groupValueRead asap => exact answered_transport h
  | _ => cases service

/-- A group-addressed indication gives its value to exactly the objects that are linked to the
address and permit it, or answers with the first readable object's value, and does nothing
else: in the handlers of every unit, and in a whole call on every unit that can be reached. -/
theorem group_indication_served {frame : CemiFrame} {indication : AppIndication}
    (h : GroupIndication frame indication) :
    (∀ (b : Bau) source, Yields (carriesValue indication = true)
      (GroupServed b frame.destinationAddressRaw indication)
      (b.dispatchIndication frame source indication)) ∧
    ∀ b : Bau, Reachable b → ∀ nowMs, Yields (carriesValue indication = true)
      (GroupServed { b with nowMs := nowMs } frame.destinationAddressRaw indication)
      (b.processFrame frame nowMs) := by
  refine ⟨fun b source => dispatchIndication_served b frame source indication h.service, ?_⟩
  intro b reachable nowMs
  obtain ⟨tpduType, seqNo, apdu, htpdu, hplain, hparse⟩ := h.carried
  have hscope : Bau.indicationInScope { b with nowMs := nowMs } frame indication = true := by
    unfold Bau.indicationInScope
    rw [h.service]
    exact Bool.and_eq_true_iff.mpr ⟨decide_eq_true h.group, decide_eq_true h.destination⟩
  unfold Bau.processFrame
  dsimp only
  rw [if_neg (of_decide_eq_false h.received), htpdu]
  dsimp only [Bau.processDataTpdu]
  rw [if_neg hplain, hparse]
  dsimp only
  rw [if_pos hscope]
  have served := dispatchIndication_served { b with nowMs := nowMs } frame frame.sourceAddress
    indication h.service
  refine Yields.bind served fun c hc => ?_
  have hidle : c.transport.actions = [] := by
    rw [served_transport h.service hc]
    exact reachable.ready.idle
  rw [show Bau.drainRounds = 2 + 1 from rfl, drain_idle 2 hidle]
  exact .ok hc

def groupWrite : CemiFrame :=
  ⟨[0x29, 0x00, 0xBC, 0xE0, 0x11, 0x02, 0x08, 0x01, 0x01, 0x00, 0xAA], 2, withoutInfo rfl, rfl⟩

theorem linked_object_takes : ∃ b', linkedBau.processFrame groupWrite 0 = .ok b' ∧
    b'.groupObjects.get 1 = some ⟨1, .updated, [42], none⟩ := by
  have indication : GroupIndication groupWrite (.groupValueWrite 0 [42]) := by
    refine ⟨by decide, by decide, by decide, rfl, .dataGroup, 0, ⟨.groupValueWrite, [42]⟩, ?_, ?_, ?_⟩
    · rfl
    · decide
    · rfl
  have served := (group_indication_served indication).2 linkedBau (reachable_device linkedDevice) 0
  obtain ⟨b', hb'⟩ := served.total rfl
  have received := (served.post b' hb').1
  have linked : Linked linkedDevice 0x0801 1 := ⟨1, rfl, 0, by decide, rfl, rfl⟩
  refine ⟨b', hb', received.taken 1 ⟨1, .uninitialized, [0], none⟩ rfl linked ?_⟩
  intro desc hdesc
  cases hdesc

end KnxRs.BusAccessUnit
