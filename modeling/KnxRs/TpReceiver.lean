import KnxRs.TpUart

set_option autoImplicit false

/-!
# What the receiver holds

The receiver as the list of octets since it was last idle, that the code simulates it,
and what follows for every stream of octets.
-/
namespace KnxRs.TpUart
open Transducers

inductive Event where
  | reset
  | state (byte : UInt8)
  | frame (octets : List UInt8)
  | transmitConfirm (success : Bool)
  | overrun
  deriving DecidableEq

def TpIndication.event : TpIndication → Event
  | .reset => .reset
  | .state byte => .state byte
  | .frame received => .frame received.asBytes
  | .transmitConfirm success => .transmitConfirm success
  | .overrun => .overrun

def declaredLen (octets : List UInt8) : Nat :=
  let isExt := isExtendedCtrl (octets.getD 0 0)
  (if isExt then headerExt else headerStd) +
    (if isExt then (octets.getD 6 0).toNat else (octets.getD 5 0 &&& apduLenMask).toNat) + 1 + crcLen

/-- The octets of a frame whose length is known: they are all there, or more are to come. -/
def complete (octets : List UInt8) : Option Event × List UInt8 :=
  if octets.length < declaredLen octets then (none, octets) else (some (.frame octets), [])

/-- One octet, by the octets received since the receiver was idle. -/
def receive (since : List UInt8) (byte : UInt8) : Option Event × List UInt8 :=
  if since = [] then
    if byte = uResetInd then (some .reset, [])
    else if byte &&& uStateMask = uStateInd then (some (.state byte), [])
    else if byte &&& uFrameStateMask = uFrameStateInd then
      (some (.transmitConfirm (byte &&& lDataConSuccessMask = 0)), [])
    else (none, if isFrameStart byte then [byte] else [])
  else
    let octets := since ++ [byte]
    if octets.length < headerStd + crcLen then (none, octets)
    else if declaredLen octets > maxFrameLen then (some .overrun, [])
    else complete octets

/-- Octets of a frame that is not complete, and that has room once its length is known. -/
def Incomplete (since : List UInt8) : Prop :=
  headerStd + crcLen ≤ since.length →
    since.length < declaredLen since ∧ declaredLen since ≤ maxFrameLen

variable {since octets : List UInt8} {byte : UInt8} {protocol : TpUartProtocol}

/-! ## Declared lengths -/

theorem declaredLen_congr {xs ys : List UInt8} (h : ∀ i < headerStd + crcLen,
    xs.getD i 0 = ys.getD i 0) : declaredLen xs = declaredLen ys := by
  unfold declaredLen
  rw [h 0 (by decide), h 5 (by decide), h 6 (by decide)]

theorem declaredLen_append (h : headerStd + crcLen ≤ since.length) (rest : List UInt8) :
    declaredLen (since ++ rest) = declaredLen since := by
  apply declaredLen_congr
  intro i hi
  rw [List.getD_eq_getElem?_getD, List.getD_eq_getElem?_getD,
    List.getElem?_append_left (Nat.lt_of_lt_of_le hi h)]

theorem declaredLen_take {xs : List UInt8} {n : Nat} (h : headerStd + crcLen ≤ n) :
    declaredLen (xs.take n) = declaredLen xs := by
  apply declaredLen_congr
  intro i hi
  rw [List.getD_eq_getElem?_getD, List.getD_eq_getElem?_getD,
    List.getElem?_take_of_lt (Nat.lt_of_lt_of_le hi h)]

theorem declaredLen_gt (octets : List UInt8) : headerStd + crcLen < declaredLen octets := by
  unfold declaredLen headerStd headerExt crcLen
  dsimp only
  split_ifs
  · omega
  · omega

/-! ## One octet -/

theorem receive_state (since : List UInt8) (byte : UInt8) :
    (receive since byte).2 = since ++ [byte] ∨ (receive since byte).2 = [] := by
  unfold receive complete
  dsimp only
  split_ifs with hidle
  · exact .inr rfl
  · exact .inr rfl
  · exact .inr rfl
  · rw [hidle]
    exact .inl rfl
  · exact .inr rfl
  · exact .inl rfl
  · exact .inr rfl
  · exact .inl rfl
  · exact .inr rfl

theorem receive_frame (h : (receive since byte).1 = some (.frame octets)) :
    octets = since ++ [byte] ∧ declaredLen octets ≤ octets.length := by
  unfold receive complete at h
  dsimp only at h
  split_ifs at h with hidle _ _ _ _ _ hshort
  all_goals cases h
  exact ⟨rfl, Nat.le_of_not_lt hshort⟩

theorem incomplete_short (h : since.length < headerStd + crcLen) : Incomplete since := by
  intro hlong
  exact absurd h (Nat.not_lt.mpr hlong)

theorem Incomplete.receive (_ : Incomplete since) (byte : UInt8) :
    Incomplete (receive since byte).2 := by
  have hnone : Incomplete [] := incomplete_short (by decide)
  unfold TpUart.receive complete
  dsimp only
  split_ifs with _ _ _ _ _ hshort hlong hopen
  · exact hnone
  · exact hnone
  · exact hnone
  · exact incomplete_short (show 1 < headerStd + crcLen by decide)
  · exact hnone
  · exact incomplete_short hshort
  · exact hnone
  · exact fun _ => ⟨hopen, Nat.le_of_not_lt hlong⟩
  · exact hnone

theorem Incomplete.length_lt (h : Incomplete since) : since.length < maxFrameLen := by
  by_cases hlong : headerStd + crcLen ≤ since.length
  · exact Nat.lt_of_lt_of_le (h hlong).1 (h hlong).2
  · exact Nat.lt_of_lt_of_le (Nat.lt_of_not_le hlong) (by decide)

theorem Incomplete.frame_length (h : Incomplete since)
    (hframe : (TpUart.receive since byte).1 = some (.frame octets)) :
    octets = since ++ [byte] ∧ octets.length = declaredLen octets ∧
      headerStd + crcLen ≤ octets.length ∧ octets.length ≤ maxFrameLen := by
  obtain ⟨rfl, hle⟩ := receive_frame hframe
  have hlen : (since ++ [byte]).length = since.length + 1 := List.length_append
  have hgt := declaredLen_gt (since ++ [byte])
  have hlt := h.length_lt
  by_cases hlong : headerStd + crcLen ≤ since.length
  · have hdeclared := declaredLen_append hlong [byte]
    have hopen := (h hlong).1
    exact ⟨rfl, by omega, by omega, by omega⟩
  · omega

/-! ## The code holds the same octets -/

/-- The receiver has these octets of a frame in its buffer. -/
structure Holds (protocol : TpUartProtocol) (since : List UInt8) : Prop where
  position : protocol.rxPos = since.length
  octets : protocol.rxBuf.val.take since.length = since
  expected : protocol.rxExpected =
    if since.length < headerStd + crcLen then 0 else declaredLen since
  incomplete : Incomplete since

structure Idle (protocol : TpUartProtocol) : Prop where
  position : protocol.rxPos = 0
  expected : protocol.rxExpected = 0

theorem holds_nil_iff : Holds protocol [] ↔ Idle protocol :=
  ⟨fun h => ⟨h.position, h.expected⟩,
    fun h => ⟨h.position, rfl, h.expected, incomplete_short (by decide)⟩⟩

theorem Holds.bounds (h : Holds protocol since) :
    protocol.rxPos ≤ maxFrameLen ∧ protocol.rxExpected ≤ maxFrameLen := by
  refine ⟨?_, ?_⟩
  · rw [h.position]
    exact Nat.le_of_lt h.incomplete.length_lt
  · rw [h.expected]
    split_ifs with hshort
    · exact Nat.zero_le _
    · exact (h.incomplete (Nat.le_of_not_lt hshort)).2

theorem write_ok (buf : FrameBuffer) {i : Nat} (h : i < maxFrameLen) (byte : UInt8) :
    ∃ buf', buf.write i byte = some buf' ∧ buf'.val.take (i + 1) = buf.val.take i ++ [byte] := by
  refine ⟨_, if_pos h, ?_⟩
  have hlen : i < (buf.val.set i byte).length := by
    rw [List.length_set, buf.property]
    exact h
  show (buf.val.set i byte).take (i + 1) = _
  rw [List.take_succ_eq_append_getElem hlen, List.take_set_of_le (Nat.le_refl i),
    List.getElem_set_self]

theorem store_holds (h : Holds protocol since) (byte : UInt8) : ∃ buf,
    protocol.store byte =
      some { protocol with rxBuf := buf, rxPos := (since ++ [byte]).length } ∧
    buf.val.take (since ++ [byte]).length = since ++ [byte] := by
  have hlt : protocol.rxPos < maxFrameLen := h.position ▸ h.incomplete.length_lt
  obtain ⟨buf, hwrite, htake⟩ := write_ok protocol.rxBuf hlt byte
  have hlen : (since ++ [byte]).length = protocol.rxPos + 1 := by
    rw [List.length_append, h.position]
    rfl
  refine ⟨buf, ?_, ?_⟩
  · unfold TpUartProtocol.store
    rw [if_pos hlt, hwrite, hlen]
    rfl
  · rw [hlen, htake, h.position, h.octets]

theorem ofOctets_take (octets : List UInt8) (h : octets.length ≤ maxFrameLen) :
    (FrameBuffer.ofOctets octets h).val.take octets.length = octets := List.take_left

theorem fromBytes_ok (hmin : headerStd + crcLen ≤ octets.length)
    (hmax : octets.length ≤ maxFrameLen) :
    ∃ received, TpFrame.fromBytes octets = some received ∧ received.asBytes = octets := by
  have hform : ¬(octets.length < headerStd + crcLen ∨ octets.length > maxFrameLen) := by omega
  exact ⟨_, dif_neg hform, ofOctets_take octets hmax⟩

theorem finish_simulates (hpos : protocol.rxPos = octets.length)
    (htake : protocol.rxBuf.val.take octets.length = octets)
    (hexpected : protocol.rxExpected = declaredLen octets)
    (hmin : headerStd + crcLen ≤ octets.length) (hmax : declaredLen octets ≤ maxFrameLen)
    (hle : octets.length ≤ declaredLen octets) :
    ∃ output protocol', protocol.finish = some (output, protocol') ∧
      output.map TpIndication.event = (complete octets).1 ∧
      Holds protocol' (complete octets).2 := by
  unfold TpUartProtocol.finish complete
  by_cases hopen : octets.length < declaredLen octets
  · rw [if_pos hopen, if_neg (by omega)]
    refine ⟨_, _, rfl, rfl, hpos, htake, ?_, fun _ => ⟨hopen, hmax⟩⟩
    rw [if_neg (Nat.not_lt.mpr hmin)]
    exact hexpected
  · obtain ⟨received, hreceived, hbytes⟩ := fromBytes_ok hmin (Nat.le_trans hle hmax)
    have hgt := declaredLen_gt octets
    have hslice : protocol.rxBuf.slice protocol.rxPos = some octets := by
      unfold FrameBuffer.slice
      rw [hpos, if_pos (Nat.le_trans hle hmax), htake]
    rw [if_neg hopen, if_pos (by omega), hslice, Option.map_some, hreceived]
    refine ⟨_, _, rfl, ?_, holds_nil_iff.mpr ⟨rfl, rfl⟩⟩
    show some (Event.frame received.asBytes) = _
    rw [hbytes]

theorem processFirst_simulates (h : Holds protocol []) (byte : UInt8) :
    ∃ output protocol', protocol.processFirst byte = some (output, protocol') ∧
      output.map TpIndication.event = (receive [] byte).1 ∧
      Holds protocol' (receive [] byte).2 := by
  unfold TpUartProtocol.processFirst receive
  rw [if_pos rfl]
  split_ifs with hreset hstate hconfirm hstart
  · exact ⟨_, _, rfl, rfl, h⟩
  · exact ⟨_, _, rfl, rfl, h⟩
  · exact ⟨_, _, rfl, rfl, h⟩
  · obtain ⟨buf, hwrite, htake⟩ := write_ok protocol.rxBuf (by decide : 0 < maxFrameLen) byte
    refine ⟨_, _, by rw [hwrite]; rfl, rfl, ⟨rfl, htake, rfl, ?_⟩⟩
    exact incomplete_short (show 1 < headerStd + crcLen by decide)
  · exact ⟨_, _, rfl, rfl, h⟩

/-- An octet in a frame: the length becomes known, is known, or is not known yet. -/
theorem processNext_simulates (h : Holds protocol since) (hopen : since ≠ []) (byte : UInt8) :
    ∃ output protocol', protocol.processByte byte = some (output, protocol') ∧
      output.map TpIndication.event = (receive since byte).1 ∧
      Holds protocol' (receive since byte).2 := by
  have hpos : protocol.rxPos ≠ 0 := by
    rw [h.position]
    exact fun hzero => hopen (List.length_eq_zero_iff.mp hzero)
  have hexpected := h.expected
  have hincomplete := h.incomplete
  have hlen : (since ++ [byte]).length = since.length + 1 := List.length_append
  have hgt := declaredLen_gt (since ++ [byte])
  obtain ⟨buf, hstore, htake⟩ := store_holds h byte
  unfold TpUartProtocol.processByte receive
  rw [if_neg hpos, if_neg hopen, hstore, Option.bind_some]
  dsimp only
  rcases Nat.lt_trichotomy since.length headerStd with hshort | hheader | hlong
  · have hzero : protocol.rxExpected = 0 := by
      rw [hexpected, if_pos (show since.length < headerStd + crcLen from Nat.lt_succ_of_lt hshort)]
    have hshort : (since ++ [byte]).length < headerStd + crcLen := by
      rw [hlen]
      exact Nat.succ_lt_succ hshort
    have hwaits : ¬(protocol.rxExpected > 0 ∧ (since ++ [byte]).length ≥ protocol.rxExpected) := by
      omega
    rw [if_pos hshort, if_neg (fun hready => Nat.not_le.mpr hshort hready.2)]
    unfold TpUartProtocol.finish
    rw [if_neg hwaits]
    refine ⟨_, _, rfl, rfl, rfl, htake, ?_, incomplete_short hshort⟩
    rw [if_pos hshort]
    exact hzero
  · have hzero : protocol.rxExpected = 0 := by
      rw [hexpected, if_pos (by rw [hheader]; decide)]
    have hmin : (since ++ [byte]).length = headerStd + crcLen := by
      rw [hlen, hheader]
      rfl
    have hbuf : declaredLen buf.val = declaredLen (since ++ [byte]) := by
      rw [← declaredLen_take (Nat.le_of_eq hmin.symm), htake]
    have hready : protocol.rxExpected = 0 ∧ (since ++ [byte]).length ≥ headerStd + crcLen :=
      ⟨hzero, Nat.le_of_eq hmin.symm⟩
    have hexpect : TpUartProtocol.expected { protocol with
        rxBuf := buf, rxPos := (since ++ [byte]).length } = declaredLen (since ++ [byte]) := hbuf
    rw [if_pos hready, if_neg (Nat.not_lt.mpr hready.2), hexpect]
    by_cases hmax : declaredLen (since ++ [byte]) > maxFrameLen
    · rw [if_pos hmax, if_pos hmax]
      exact ⟨_, _, rfl, rfl, holds_nil_iff.mpr ⟨rfl, rfl⟩⟩
    · rw [if_neg hmax, if_neg hmax]
      exact finish_simulates rfl htake rfl hready.2 (Nat.le_of_not_lt hmax) (by omega)
  · have hmin : headerStd + crcLen ≤ since.length := hlong
    have hdeclared := declaredLen_append hmin [byte]
    obtain ⟨hlt, hmax⟩ := hincomplete hmin
    have hknown : protocol.rxExpected = declaredLen (since ++ [byte]) := by
      rw [hexpected, if_neg (Nat.not_lt.mpr hmin), hdeclared]
    have hready : ¬(protocol.rxExpected = 0 ∧ (since ++ [byte]).length ≥ headerStd + crcLen) := by
      omega
    have hwhole : ¬(since ++ [byte]).length < headerStd + crcLen := by omega
    have hfits : ¬declaredLen (since ++ [byte]) > maxFrameLen := by omega
    rw [if_neg hready, if_neg hwhole, if_neg hfits]
    exact finish_simulates rfl htake hknown (by omega) (by omega) (by omega)

/-- Every octet does to the receiver what it does to the octets it holds, without a panic. -/
theorem process_simulates (protocol : TpUartProtocol) (since : List UInt8) (byte : UInt8)
    (h : Holds protocol since) :
    ∃ output protocol', protocol.process (some byte) = some (output, protocol') ∧
      output.map TpIndication.event = (receive since byte).1 ∧
      Holds protocol' (receive since byte).2 := by
  by_cases hidle : since = []
  · subst hidle
    show ∃ output protocol', protocol.processByte byte = _ ∧ _
    unfold TpUartProtocol.processByte
    rw [if_pos (holds_nil_iff.mp h).position]
    exact processFirst_simulates h byte
  · exact processNext_simulates h hidle byte

end KnxRs.TpUart
