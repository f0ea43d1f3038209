import KnxRs.ApduRoundTrip
import KnxRs.LDataFrames
import KnxRs.TpStreams

set_option autoImplicit false

/-!
# Frames sent and received

When the octets of a frame made from a cEMI frame are received as that frame.
-/
namespace KnxRs.TpUart
open CoreTypes CemiCodec Transducers

/-! ## Octets that are received as one frame -/

/-- An octet that starts a frame and is no indication of the chip. -/
structure StartOctet (byte : UInt8) : Prop where
  notReset : byte ≠ uResetInd
  notState : byte &&& uStateMask ≠ uStateInd
  notConfirm : byte &&& uFrameStateMask ≠ uFrameStateInd
  start : isFrameStart byte = true

theorem StartOctet.receive {byte : UInt8} (h : StartOctet byte) :
    receive [] byte = (none, [byte]) := by
  unfold TpUart.receive
  rw [if_pos rfl, if_neg h.notReset, if_neg h.notState, if_neg h.notConfirm, if_pos h.start]

theorem receive_waits {since : List UInt8} {byte : UInt8} (h : since ≠ [])
    (hwaits : Incomplete (since ++ [byte])) : receive since byte = (none, since ++ [byte]) := by
  unfold receive complete
  rw [if_neg h]
  dsimp only
  split_ifs with hshort hlong hopen
  · rfl
  · exact absurd (hwaits (Nat.le_of_not_lt hshort)).2 (Nat.not_le.mpr hlong)
  · rfl
  · exact absurd (hwaits (Nat.le_of_not_lt hshort)).1 hopen

theorem receive_completes {since : List UInt8} {byte : UInt8} (h : since ≠ [])
    (hlen : (since ++ [byte]).length = declaredLen (since ++ [byte]))
    (hmax : (since ++ [byte]).length ≤ maxFrameLen) :
    receive since byte = (some (.frame (since ++ [byte])), []) := by
  have hgt := declaredLen_gt (since ++ [byte])
  unfold receive complete
  rw [if_neg h]
  dsimp only
  rw [if_neg (by omega), if_neg (by omega), if_neg (by omega)]

/-- Octets of one frame, the first of them its control octet. -/
structure OneFrame (octets : List UInt8) : Prop where
  start : ∃ byte rest, octets = byte :: rest ∧ StartOctet byte
  declared : declaredLen octets = octets.length
  fits : octets.length ≤ maxFrameLen

variable {octets : List UInt8}

theorem OneFrame.incomplete_take (h : OneFrame octets) {n : Nat} (hn : n < octets.length) :
    Incomplete (octets.take n) := by
  intro hlong
  have hlen : (octets.take n).length = n := List.length_take_of_le (Nat.le_of_lt hn)
  rw [hlen] at hlong ⊢
  rw [declaredLen_take hlong, h.declared]
  exact ⟨hn, h.fits⟩

theorem OneFrame.run_take (h : OneFrame octets) {n : Nat} (hpos : 0 < n) (hn : n < octets.length) :
    run receive [] (octets.take n) = (List.replicate n none, octets.take n) := by
  induction n with
  | zero => exact absurd hpos (Nat.lt_irrefl 0)
  | succ n ih =>
    have hlt : n < octets.length := Nat.lt_of_succ_lt hn
    have hstep : octets.take (n + 1) = octets.take n ++ [octets[n]] :=
      List.take_succ_eq_append_getElem hlt
    rcases Nat.eq_zero_or_pos n with rfl | hpos'
    · obtain ⟨byte, rest, rfl, hstart⟩ := h.start
      show ([(receive [] byte).1], (receive [] byte).2) = _
      rw [hstart.receive]
      rfl
    · have hopen : octets.take n ≠ [] := by
        intro hnil
        have := congrArg List.length hnil
        rw [List.length_take_of_le (Nat.le_of_lt hlt), List.length_nil] at this
        omega
      have hwaits := h.incomplete_take hn
      rw [hstep] at hwaits ⊢
      rw [run_append, ih hpos' hlt]
      show (_ ++ [(receive (octets.take n) octets[n]).1],
        (receive (octets.take n) octets[n]).2) = _
      rw [receive_waits hopen hwaits, ← List.replicate_succ']

theorem OneFrame.run_eq (h : OneFrame octets) : run receive [] octets =
    (List.replicate (octets.length - 1) none ++ [some (.frame octets)], []) := by
  have hgt := declaredLen_gt octets
  have hmin : headerStd + crcLen < octets.length := h.declared ▸ hgt
  have hmin : 7 < octets.length := hmin
  obtain ⟨n, hn⟩ : ∃ n, octets.length = n + 1 := ⟨octets.length - 1, by omega⟩
  have hlt : n < octets.length := by omega
  have hsplit : octets = octets.take n ++ [octets[n]] := by
    have := List.take_succ_eq_append_getElem hlt
    rwa [← hn, List.take_length] at this
  have hopen : octets.take n ≠ [] := by
    intro hnil
    have := congrArg List.length hnil
    rw [List.length_take_of_le (Nat.le_of_lt hlt), List.length_nil] at this
    omega
  have hwhole : receive (octets.take n) octets[n] = (some (.frame octets), []) := by
    have := @receive_completes (octets.take n) octets[n] hopen
    rw [← hsplit] at this
    exact this h.declared.symm h.fits
  have hrun := h.run_take (n := n) (by omega) hlt
  calc run receive [] octets = run receive [] (octets.take n ++ [octets[n]]) :=
        congrArg (run receive []) hsplit
    _ = _ := by
        rw [run_append, hrun]
        show (_ ++ [(receive (octets.take n) octets[n]).1],
          (receive (octets.take n) octets[n]).2) = _
        rw [hwhole, hn]
        rfl

/-! ## Delivery -/

/-- The octets of a frame, one at a time, give one frame event, with the last octet and with
exactly these octets, and leave the receiver idle. -/
def Delivered (protocol : TpUartProtocol) (frame : TpFrame) : Prop :=
  ∃ events received protocol', feed processOctet protocol frame.asBytes =
      some (events ++ [some (.frame received)], protocol') ∧
    (∀ event ∈ events, ∀ other, event ≠ some (.frame other)) ∧
    received.asBytes = frame.asBytes ∧ Idle protocol'

theorem event_frame {indication : Option TpIndication}
    (h : indication.map TpIndication.event = some (.frame octets)) :
    ∃ received, indication = some (.frame received) ∧ received.asBytes = octets := by
  obtain ⟨indication, rfl, hevent⟩ := Option.map_eq_some_iff.mp h
  cases indication with
  | frame received => exact ⟨received, rfl, Event.frame.inj hevent⟩
  | _ => cases hevent

variable {protocol : TpUartProtocol} {frame : TpFrame}

theorem delivered_of_oneFrame (h : OneFrame frame.asBytes) (idle : Idle protocol) :
    Delivered protocol frame := by
  obtain ⟨outputs, protocol', hfeed, hevents, holds⟩ :=
    feed_holds (holds_nil_iff.mpr idle) frame.asBytes
  rw [h.run_eq] at hevents
  obtain ⟨events, lasts, rfl, hnone, hlasts⟩ := List.map_eq_append_iff.mp hevents
  obtain ⟨last, rfl, hlast⟩ := List.map_eq_singleton_iff.mp hlasts
  obtain ⟨received, rfl, hbytes⟩ := event_frame hlast
  refine ⟨events, received, protocol', hfeed, ?_, hbytes, ?_⟩
  · rintro event hevent other rfl
    have hmem := List.mem_map_of_mem (f := Option.map TpIndication.event) hevent
    rw [hnone] at hmem
    cases List.eq_of_mem_replicate hmem
  · have hheld : held [] frame.asBytes = [] := by
      unfold held
      rw [h.run_eq]
    exact holds_nil_iff.mp (hheld ▸ holds)

/-- A frame that declares fewer octets than it has is received before its end. -/
theorem not_delivered_of_longer (start : ∃ byte rest, frame.asBytes = byte :: rest ∧
      StartOctet byte) (hlong : declaredLen frame.asBytes < frame.asBytes.length)
    (hfits : frame.asBytes.length ≤ maxFrameLen) (idle : Idle protocol) :
    ¬Delivered protocol frame := by
  rintro ⟨events, received, protocol', hfeed, hnone, _, _⟩
  generalize hoctets : frame.asBytes = octets at *
  obtain ⟨n, hn⟩ : ∃ n, declaredLen octets = n := ⟨_, rfl⟩
  rw [hn] at hlong
  have hgt : headerStd + crcLen < n := hn ▸ declaredLen_gt octets
  have htaken : (octets.take n).length = n := List.length_take_of_le (Nat.le_of_lt hlong)
  have hfirst : OneFrame (octets.take n) := by
    refine ⟨?_, ?_, ?_⟩
    · obtain ⟨byte, rest, rfl, hstart⟩ := start
      obtain ⟨k, rfl⟩ := Nat.exists_eq_add_one_of_ne_zero (Nat.ne_of_gt (Nat.zero_lt_of_lt hgt))
      exact ⟨byte, rest.take k, List.take_succ_cons, hstart⟩
    · rw [declaredLen_take (Nat.le_of_lt hgt), hn, htaken]
    · omega
  obtain ⟨outputs, protocol'', hfeed', hevents, _⟩ := feed_holds (holds_nil_iff.mpr idle) octets
  cases hfeed'.symm.trans hfeed
  have hsplit : run receive [] (octets.take n ++ octets.drop n) = _ := run_append (octets.drop n)
  rw [List.take_append_drop] at hsplit
  rw [hsplit, hfirst.run_eq, List.map_append] at hevents
  have hrest : (run receive [] (octets.drop n)).1 ≠ [] := by
    intro hnil
    have := congrArg List.length hnil
    rw [run_outputs_length, List.length_drop, List.length_nil] at this
    omega
  have hbefore := congrArg List.dropLast hevents
  rw [List.map_singleton, List.dropLast_concat, List.dropLast_append_of_ne_nil hrest] at hbefore
  have hmem : some (Event.frame (octets.take n)) ∈
      events.map (Option.map TpIndication.event) := by
    rw [hbefore]
    exact List.mem_append_left _ (List.mem_append_right _ (List.mem_singleton_self _))
  obtain ⟨event, hevent, heq⟩ := List.mem_map.mp hmem
  obtain ⟨other, rfl, _⟩ := event_frame heq
  exact hnone _ hevent other rfl

/-! ## Frames made from a cEMI frame -/

theorem sealed_asBytes (octets : List UInt8) (h : octets.length + crcLen ≤ maxFrameLen) :
    (TpFrame.sealed octets h).asBytes = octets ++ [calcCrcTp octets] := by
  have hlen : octets.length + crcLen = (octets ++ [calcCrcTp octets]).length := by
    rw [List.length_append]
    rfl
  exact List.take_left' hlen.symm

theorem apduLen_masked (hi n : UInt8) :
    ((hi &&& 0xF0) ||| (n &&& apduLenMask)) &&& apduLenMask = n &&& apduLenMask := by
  apply UInt8.toNat_inj.mp
  simp only [UInt8.toNat_and, UInt8.toNat_or]
  rw [Nat.and_or_distrib_right, Nat.and_assoc, Nat.and_assoc]
  have hzero : (0xF0 : UInt8).toNat &&& apduLenMask.toNat = 0 := rfl
  have hmask : apduLenMask.toNat &&& apduLenMask.toNat = apduLenMask.toNat := rfl
  rw [hzero, hmask, Nat.and_zero, Nat.zero_or]

theorem apduLen_of_le {n : UInt8} (h : n ≤ apduLenMask) : n &&& apduLenMask = n := by
  revert h
  exact forall_octet (P := fun n => n ≤ apduLenMask → n &&& apduLenMask = n) (by decide +kernel) n

theorem ctrl_start (priority : Priority) :
    (StartOctet ((0x80 ||| 0x20 ||| 0x10 ||| priority.raw) ||| ctrlFrameType) ∧
      isExtendedCtrl ((0x80 ||| 0x20 ||| 0x10 ||| priority.raw) ||| ctrlFrameType) = false) ∧
    StartOctet ((0x80 ||| 0x20 ||| 0x10 ||| priority.raw) &&& ~~~ctrlFrameType) ∧
      isExtendedCtrl ((0x80 ||| 0x20 ||| 0x10 ||| priority.raw) &&& ~~~ctrlFrameType) = true := by
  cases priority
  all_goals exact ⟨⟨⟨by decide, by decide, by decide, by decide⟩, by decide⟩,
    ⟨by decide, by decide, by decide, by decide⟩, by decide⟩

variable {messageCode : MessageCode} {source : IndividualAddress}
  {destination : DestinationAddress} {priority : Priority} {payload : List UInt8}
  {cemi : CemiFrame}

/-- The two lengths of a frame: the one it has and the one that it declares. -/
structure Lengths (cemi : CemiFrame) (frame : TpFrame) (header : Nat) : Prop where
  start : ∃ byte rest, frame.asBytes = byte :: rest ∧ StartOctet byte
  length : frame.asBytes.length = header + payloadLen cemi.npduLength + crcLen
  declared : declaredLen frame.asBytes = header + cemi.npduLength.toNat + 1 + crcLen

theorem fromCemi_lengths (built : BuiltFrom messageCode source destination priority payload cemi)
    (h : TpFrame.fromCemi cemi = some frame) :
    ∃ header, Lengths cemi frame header ∧ frame.asBytes.length ≤ maxFrameLen := by
  have hctrl : cemi.data.getD 2 0 = 0x80 ||| 0x20 ||| 0x10 ||| priority.raw := by
    rw [built.data]
    rfl
  obtain ⟨⟨hstart, hstandard⟩, hstart', hextended⟩ := ctrl_start priority
  unfold TpFrame.fromCemi at h
  split_ifs at h with hshort hlong hlong
  · cases h
    refine ⟨headerStd, ⟨?_, ?_, ?_⟩, ?_⟩
    · rw [sealed_asBytes]
      exact ⟨_, _, rfl, hctrl ▸ hstart⟩
    · rw [sealed_asBytes, List.length_append, TpFrame.standardOctets_length, cemi.payload_length]
      rfl
    · have hfirst : isExtendedCtrl (cemi.data.getD 2 0 ||| ctrlFrameType) = false :=
        hctrl ▸ hstandard
      rw [sealed_asBytes]
      show (if isExtendedCtrl (cemi.data.getD 2 0 ||| ctrlFrameType) then _ else _) +
        (if isExtendedCtrl (cemi.data.getD 2 0 ||| ctrlFrameType) then _ else
          (((cemi.data.getD 3 0 &&& 0xF0) ||| (cemi.npduLength &&& apduLenMask)) &&&
            apduLenMask).toNat) + 1 + crcLen = _
      rw [hfirst, apduLen_masked, apduLen_of_le hshort]
      rfl
    · rw [sealed_asBytes, List.length_append, TpFrame.standardOctets_length]
      exact Nat.le_of_not_lt hlong
  · cases h
    refine ⟨headerExt, ⟨?_, ?_, ?_⟩, ?_⟩
    · rw [sealed_asBytes]
      exact ⟨_, _, rfl, hctrl ▸ hstart'⟩
    · rw [sealed_asBytes, List.length_append, TpFrame.extendedOctets_length, cemi.payload_length]
      rfl
    · have hfirst : isExtendedCtrl (cemi.data.getD 2 0 &&& ~~~ctrlFrameType) = true :=
        hctrl ▸ hextended
      rw [sealed_asBytes]
      show (if isExtendedCtrl (cemi.data.getD 2 0 &&& ~~~ctrlFrameType) then _ else _) +
        (if isExtendedCtrl (cemi.data.getD 2 0 &&& ~~~ctrlFrameType) then
          cemi.npduLength.toNat else _) + 1 + crcLen = _
      rw [hfirst]
      rfl
    · rw [sealed_asBytes, List.length_append, TpFrame.extendedOctets_length]
      exact Nat.le_of_not_lt hlong

theorem built_delivered_iff
    (built : BuiltFrom messageCode source destination priority payload cemi)
    (h : TpFrame.fromCemi cemi = some frame) (idle : Idle protocol) :
    Delivered protocol frame ↔ 2 ≤ payload.length := by
  obtain ⟨header, lengths, hfits⟩ := fromCemi_lengths built h
  have hlength := lengths.length
  have hdeclared := lengths.declared
  have hnpdu : cemi.npduLength.toNat = payload.length - 1 := by
    have := built.length
    rw [built.npduLength_eq, UInt8.toNat_ofNat', Nat.mod_eq_of_lt (by omega)]
  rw [payloadLen] at hlength
  by_cases htwo : 2 ≤ payload.length
  · refine iff_of_true (delivered_of_oneFrame ⟨lengths.start, ?_, hfits⟩ idle) htwo
    omega
  · refine iff_of_false (not_delivered_of_longer lengths.start ?_ hfits idle) htwo
    omega

/-- A frame is received as it was sent exactly if its payload is more than its first octet. -/
theorem delivered_iff (hbuilt : CemiFrame.tryNewLData messageCode source destination priority
      payload = .ok cemi) (h : TpFrame.fromCemi cemi = some frame) (idle : Idle protocol) :
    Delivered protocol frame ↔ 2 ≤ payload.length :=
  built_delivered_iff (tryNewLData_built hbuilt) h idle

theorem groupWrite_delivered : ∃ cemi frame,
    CemiFrame.tryNewLData .lDataReq ⟨0x1101⟩ (.group ⟨0x0801⟩) .low [0x00, 0x81] = .ok cemi ∧
      TpFrame.fromCemi cemi = some frame ∧ Delivered (.new .ncn5120) frame := by
  refine ⟨_, _, rfl, rfl, ?_⟩
  exact (@delivered_iff _ _ .lDataReq ⟨0x1101⟩ (.group ⟨0x0801⟩) .low [0x00, 0x81] _ rfl rfl
    ⟨rfl, rfl⟩).mpr (by decide)

theorem connect_not_delivered : ∃ cemi frame,
    CemiFrame.tryNewLData .lDataReq ⟨0x1101⟩ (.individual ⟨0x1102⟩) .system [0x80] = .ok cemi ∧
      TpFrame.fromCemi cemi = some frame ∧ ¬Delivered (.new .ncn5120) frame := by
  have hshort : ¬2 ≤ ([0x80] : List UInt8).length := by decide
  refine ⟨_, _, rfl, rfl, ?_⟩
  rwa [@built_delivered_iff _ _ .lDataReq ⟨0x1101⟩ (.individual ⟨0x1102⟩) .system [0x80] _
    (tryNewLData_built rfl) rfl ⟨rfl, rfl⟩]

end KnxRs.TpUart
