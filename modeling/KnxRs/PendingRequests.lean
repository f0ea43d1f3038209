import KnxRs.GroupWrites

set_option autoImplicit false

/-!
# Polls and pending objects

When a poll returns, and what it makes of every object that waits to be sent. The group
objects cannot keep it from returning; an APDU of the transport layer can, where it is
longer than a frame.
-/
namespace KnxRs.Transport.TransportLayer
variable {α : Type} {t : TransportLayer α} {nowMs : UInt64}

/-- The APDU that a poll sends: the frame to repeat, or the request kept back while another
was under way. -/
def due (t : TransportLayer α) (nowMs : UInt64) : Option α :=
  if passed t.connectionTimeoutDeadline nowMs then none
  else if passed t.ackTimeoutDeadline nowMs ∧ t.state = .openWait then
    if t.repCount < maxRepCount then t.savedFrame.map SavedFrame.apdu else none
  else if t.state = .openIdle then t.bufferedRequest.map BufferedRequest.apdu
  else none

theorem disconnectAndClose_unsent (h : t.actions = []) :
    ∀ a ∈ t.disconnectAndClose.actions, a.frame = none := by
  unfold disconnectAndClose activeDisconnect push
  dsimp only
  rw [h]
  simp [Action.frame]

theorem poll_frames (h : t.actions = []) (P : α → Prop) :
    (∀ a ∈ (t.poll nowMs).actions, ∀ frame, a.frame = some frame → P frame.apdu) ↔
      ∀ apdu, t.due nowMs = some apdu → P apdu := by
  have unsent {u : TransportLayer α} (hu : ∀ a ∈ u.actions, a.frame = none) :
      (∀ a ∈ u.actions, ∀ frame, a.frame = some frame → P frame.apdu) ↔
        ∀ apdu, (none : Option α) = some apdu → P apdu := by
    constructor
    · intro _ apdu hapdu
      cases hapdu
    · intro _ a ha frame hframe
      rw [hu a ha] at hframe
      cases hframe
  unfold poll due
  by_cases htimeout : passed t.connectionTimeoutDeadline nowMs = true
  · rw [if_pos htimeout, if_pos htimeout]
    refine unsent ?_
    cases t.state with
    | closed =>
      dsimp only
      rw [h]
      nofun
    | _ => exact disconnectAndClose_unsent (t := { t with connectionTimeoutDeadline := none }) h
  rw [if_neg htimeout, if_neg htimeout]
  by_cases hack : passed t.ackTimeoutDeadline nowMs = true ∧ t.state = .openWait
  · rw [if_pos hack, if_pos hack]
    dsimp only
    by_cases hrep : t.repCount < maxRepCount
    · rw [if_pos hrep, if_pos hrep]
      unfold a9Retransmit
      cases t.savedFrame with
      | none => simp [enableConnectionTimeout, enableAckTimeout, h]
      | some frame =>
        simp [enableConnectionTimeout, enableAckTimeout, push, h, Action.frame]
    · rw [if_neg hrep, if_neg hrep]
      exact unsent (disconnectAndClose_unsent (t := { t with ackTimeoutDeadline := none }) h)
  rw [if_neg hack, if_neg hack]
  by_cases hidle : t.state = .openIdle
  · rw [if_pos hidle, if_pos hidle]
    cases t.bufferedRequest with
    | none => simp [h]
    | some req =>
      simp [a7SendData, enableConnectionTimeout, enableAckTimeout, push, h, Action.frame]
  · rw [if_neg hidle, if_neg hidle]
    exact unsent (by rw [h]; nofun)

end KnxRs.Transport.TransportLayer

namespace KnxRs.BusAccessUnit
open CoreTypes GroupObjects ApduCodec ApduRoundTrip TpduCodec CemiCodec AppParse AppEncode DptCodec
open GroupTables Transport MemoryStore DeviceState GroupFrames Fallible Runs

variable {b b' : Bau} {d : Device} {go : GroupObject} {nowMs : UInt64}

/-! ## Frames of the transport layer -/

theorem actionFrames_iff (source : IndividualAddress) (a : Action (List UInt8)) :
    (∃ frames, actionFrames source a = .ok frames) ↔
      ∀ frame, a.frame = some frame → frame.apdu.length ≤ 256 := by
  have h : Yields (∀ frame, a.frame = some frame → frame.apdu.length ≤ 256) (fun _ => True)
      (actionFrames source a) := actionFrames_yields source fun frame hframe hf => hf frame hframe
  constructor
  · rintro ⟨frames, hframes⟩ frame hframe
    cases a with
    | sendDataConnected destination seqNo priority apdu =>
      obtain rfl := Option.some.inj hframe
      refine Nat.not_lt.mp fun hlen => ?_
      have hlong : 256 < (encodeDataConnected seqNo apdu).length := by
        rw [encodeDataConnected_length]
        exact Nat.lt_of_lt_of_le hlen (Nat.le_max_left _ _)
      dsimp only [actionFrames] at hframes
      rw [newLData_error hlong] at hframes
      cases hframes
    | _ => cases hframe
  · exact fun hf => h.total hf

theorem allActionFrames_iff (source : IndividualAddress) (actions : List (Action (List UInt8))) :
    (∃ frames, allActionFrames source actions = .ok frames) ↔
      ∀ a ∈ actions, ∀ frame, a.frame = some frame → frame.apdu.length ≤ 256 := by
  induction actions with
  | nil => simp [allActionFrames]
  | cons a as ih =>
    rw [List.forall_mem_cons, ← actionFrames_iff source a, ← ih]
    rw [allActionFrames]
    cases actionFrames source a with
    | error fault =>
      constructor
      · rintro ⟨frames, h⟩
        cases h
      · rintro ⟨⟨frames, h⟩, _⟩
        cases h
    | ok frames =>
      cases allActionFrames source as with
      | error fault =>
        constructor
        · rintro ⟨frames, h⟩
          cases h
        · rintro ⟨_, frames, h⟩
          cases h
      | ok rest => exact ⟨fun _ => ⟨⟨frames, rfl⟩, rest, rfl⟩, fun _ => ⟨frames ++ rest, rfl⟩⟩

theorem allActionFrames_individual {source : IndividualAddress}
    {actions : List (Action (List UInt8))} {frames : List CemiFrame}
    (h : allActionFrames source actions = .ok frames) :
    ∀ frame ∈ frames, frame.addressType = .individual := by
  have sent {destination : IndividualAddress} {priority : Priority} {payload : List UInt8}
      {frames : List CemiFrame}
      (h : (CemiFrame.newLData .lDataReq source (.individual destination) priority payload).map
        (fun frame => [frame]) = .ok frames) :
      ∀ frame ∈ frames, frame.addressType = .individual := by
    cases hframe : CemiFrame.newLData .lDataReq source (.individual destination) priority payload with
    | error fault =>
      rw [hframe] at h
      cases h
    | ok built =>
      rw [hframe] at h
      cases h
      intro frame hmem
      rw [List.mem_singleton.mp hmem]
      exact (newLData_built hframe).addressType_eq
  induction actions generalizing frames with
  | nil =>
    cases h
    nofun
  | cons a as ih =>
    unfold allActionFrames at h
    cases ha : actionFrames source a with
    | error fault =>
      rw [ha] at h
      cases h
    | ok first =>
      cases hs : allActionFrames source as with
      | error fault =>
        rw [ha, hs] at h
        cases h
      | ok rest =>
        rw [ha, hs] at h
        cases h
        refine List.forall_mem_append.mpr ⟨?_, ih hs⟩
        cases a with
        | sendControl destination tpduType seqNo => exact sent ha
        | sendDataConnected destination seqNo priority apdu => exact sent ha
        | _ =>
          cases ha
          nofun

/-! ## Telegrams of group objects -/

/-- A frame that asks a group for a service. -/
structure IsGroupRequest (frame : CemiFrame) (ga : UInt16) (t : ApduType) : Prop where
  request : frame.messageCodeRaw = MessageCode.lDataReq.raw
  group : frame.addressType = .group
  destination : frame.destinationAddressRaw = ga
  service : ∃ tpduType seqNo data, frame.tpdu = some (.data tpduType seqNo ⟨t, data⟩)

structure OfService (t : ApduType) (payload : List UInt8) : Prop where
  octets : ∃ lo rest, payload = 0 :: lo :: rest ∧ normalizeApci (be16 0 lo &&& apciMask) = t.raw

theorem write_inline {value : UInt8} (h : value ≤ apciShortDataMask) :
    OfService .groupValueWrite [0, 0x80 ||| value] := by
  refine ⟨_, [], rfl, ?_⟩
  exact (header_inline_code (t := .groupValueWrite) rfl 0 h).1

theorem write_bytes (data : List UInt8) : OfService .groupValueWrite (0 :: 0x80 :: data) :=
  ⟨_, data, rfl, header_code .groupValueWrite 0⟩

theorem read_service : OfService .groupValueRead encodeGroupValueRead :=
  ⟨_, [], rfl, header_code .groupValueRead 0⟩

theorem encodeGroupValueWriteForDpt_service {dpt : Option Dpt} {data payload : List UInt8}
    (h : encodeGroupValueWriteForDpt dpt data = .ok payload) :
    OfService .groupValueWrite payload := by
  unfold encodeGroupValueWriteForDpt encodeGroupValueForDpt at h
  cases dpt with
  | none =>
    obtain rfl := Except.ok.inj h
    dsimp only
    unfold encodeGroupValueWrite encodeGroupValue
    split
    · next value =>
      split_ifs with hsmall
      · have hmask : value &&& mask6Bit ≤ apciShortDataMask := by
          rw [UInt8.le_iff_toNat_le, UInt8.toNat_and]
          exact Nat.and_le_right
        exact write_inline hmask
      · exact write_bytes [value]
    · exact write_bytes data
  | some dpt =>
    dsimp only at h
    split at h
    · cases h
    · next value _ =>
      unfold GroupValueApdu.tryToBytes at h
      dsimp only at h
      cases value with
      | inline value =>
        dsimp only at h
        split_ifs at h with hsmall
        obtain rfl := Except.ok.inj h
        exact write_inline (UInt8.not_lt.mp hsmall)
      | bytes data =>
        dsimp only at h
        split_ifs at h
        obtain rfl := Except.ok.inj h
        exact write_bytes data

theorem OfService.parse {t : ApduType} {payload : List UInt8} (h : OfService t payload)
    (n : UInt8) : ∃ data, Apdu.parse payload n = some ⟨t, data⟩ := by
  obtain ⟨lo, rest, rfl, hcode⟩ := h.octets
  rw [parse_of_code hcode]
  split_ifs
  · exact ⟨_, rfl⟩
  · exact ⟨_, rfl⟩
  · exact ⟨_, rfl⟩

theorem OfService.built {t : ApduType} {payload : List UInt8} (h : OfService t payload)
    {ga : UInt16} {frame : CemiFrame}
    (hframe : CemiFrame.newLData .lDataReq d.individualAddress (.group ⟨ga⟩) .low payload =
      .ok frame) : IsGroupRequest frame ga t := by
  have built := newLData_built hframe
  obtain ⟨lo, rest, rfl, _⟩ := h.octets
  obtain ⟨data, hparse⟩ := h.parse (UInt8.ofNat ((0 :: lo :: rest).length - 1))
  have htpdu := built.tpdu_eq (by simp only [List.length_cons]; omega)
  unfold Tpdu.parse at htpdu
  dsimp only at htpdu
  rw [hparse] at htpdu
  exact ⟨built.messageCodeRaw_eq, built.addressType_eq, built.destination_eq, _, _, _, htpdu⟩

/-! ## Pending objects -/

/-- The service that a pending object asks for, and the encoding of its request. -/
def requestedService (go : GroupObject) : Option (ApduType × Except ApduEncodeError (List UInt8)) :=
  match go.commFlag with
  | .writeRequest => some (.groupValueWrite, encodeGroupValueWriteForDpt go.dpt go.data)
  | .readRequest => some (.groupValueRead, .ok encodeGroupValueRead)
  | _ => none

/-- A pending object after a poll, with the frames queued for it: it is transmitting the one
frame of its request, or in error without one. -/
inductive RequestServed (d : Device) (go : GroupObject) (t : ApduType)
    (octets : Except ApduEncodeError (List UInt8)) : GroupObject → List CemiFrame → Prop
  | sent {ga : UInt16} {payload : List UInt8} {frame : CemiFrame}
      (mapped : d.resolveGroupAddress go.asap = some ga) (encoded : octets = .ok payload)
      (request : IsGroupRequest frame ga t) (carried : frame.payload = payload) :
      RequestServed d go t octets (go.setCommFlag .transmitting) [frame]
  | unmapped (h : d.resolveGroupAddress go.asap = none) :
      RequestServed d go t octets (go.setCommFlag .error) []
  | unencodable {e : ApduEncodeError} (h : octets = .error e) :
      RequestServed d go t octets (go.setCommFlag .error) []

def Numbered (s : GroupObjectStore) : Prop :=
  ∀ i go, s.objects[i]? = some go → go.asap.toNat = i + 1

theorem store_numbered (s : GroupObjectStore) : Numbered s := by
  intro i go h
  obtain ⟨hi, hgo⟩ := List.getElem?_eq_some_iff.mp h
  rw [← hgo]
  exact s.numbered i hi

/-- What a poll makes of the pending objects: none is pending any more, each has been served,
every other one is unchanged, and no other frame goes to a group. -/
structure PendingServed (b b' : Bau) : Prop where
  settled : ∀ go ∈ b'.groupObjects.objects,
    go.commFlag ≠ .writeRequest ∧ go.commFlag ≠ .readRequest
  served : ∃ (sent : List CemiFrame) (frames : GroupObject → List CemiFrame),
    b'.outbox = b.outbox ++ sent ++ b.groupObjects.objects.flatMap frames ∧
    (∀ frame ∈ sent, frame.addressType = .individual) ∧
    ∀ go ∈ b.groupObjects.objects, ∃ go', b'.groupObjects.get go.asap = some go' ∧
      match requestedService go with
      | some (t, octets) => RequestServed b.toDevice go t octets go' (frames go)
      | none => go' = go ∧ frames go = []

/-- The poll returns, and serves the pending objects of a configured unit. -/
def PollServes (b : Bau) (nowMs : UInt64) : Prop :=
  ∃ b', b.poll nowMs = .ok b' ∧ Numbered b'.groupObjects ∧
    (b.configured = true → PendingServed b b')

theorem requestedService_pending :
    go.isPending = true ↔ (requestedService go).isSome = true := by
  unfold GroupObject.isPending requestedService
  cases go.commFlag <;> simp

theorem telegram_requested {t : ApduType} {octets : Except ApduEncodeError (List UInt8)}
    (h : requestedService go = some (t, octets)) : telegram d go =
      (d.resolveGroupAddress go.asap).bind fun ga => octets.toOption.map fun payload =>
        (ga, payload) := by
  unfold requestedService at h
  unfold telegram
  cases hflag : go.commFlag with
  | writeRequest =>
    rw [hflag] at h
    cases h
    rfl
  | readRequest =>
    rw [hflag] at h
    cases h
    dsimp only
    cases d.resolveGroupAddress go.asap <;> rfl
  | _ =>
    rw [hflag] at h
    cases h

theorem requestedService_octets {t : ApduType} {payload : List UInt8}
    (h : requestedService go = some (t, .ok payload)) : OfService t payload := by
  unfold requestedService at h
  cases hflag : go.commFlag with
  | writeRequest =>
    rw [hflag] at h
    obtain ⟨rfl, hencode⟩ := Prod.mk.inj (Option.some.inj h)
    exact encodeGroupValueWriteForDpt_service hencode
  | readRequest =>
    rw [hflag] at h
    cases h
    exact read_service
  | _ =>
    rw [hflag] at h
    cases h

theorem polledObject_served {t : ApduType} {octets : Except ApduEncodeError (List UInt8)}
    (h : requestedService go = some (t, octets)) (fits : Fits d go) :
    RequestServed d go t octets (polledObject d go) (framesOf d go) := by
  have hpending : go.isPending = true := requestedService_pending.mpr (by rw [h]; rfl)
  have htelegram := telegram_requested (d := d) h
  have failed (hnone : telegram d go = none) :
      polledObject d go = go.setCommFlag .error ∧ framesOf d go = [] := by
    unfold polledObject polledFlag framesOf
    rw [if_pos hpending, hnone]
    exact ⟨rfl, rfl⟩
  cases hga : d.resolveGroupAddress go.asap with
  | none =>
    rw [hga] at htelegram
    obtain ⟨hobject, hframes⟩ := failed htelegram
    rw [hobject, hframes]
    exact .unmapped hga
  | some ga =>
    rw [hga] at htelegram
    cases octets with
    | error e =>
      obtain ⟨hobject, hframes⟩ := failed htelegram
      rw [hobject, hframes]
      exact .unencodable rfl
    | ok payload =>
      have hoctets := requestedService_octets h
      obtain ⟨frame, hframes, hframe⟩ := framesOf_telegram htelegram (fits _ _ htelegram)
      have hobject : polledObject d go = go.setCommFlag .transmitting := by
        unfold polledObject polledFlag
        rw [if_pos hpending, htelegram]
        rfl
      rw [hobject, hframes]
      refine .sent hga rfl (hoctets.built hframe) ?_
      obtain ⟨lo, rest, rfl, _⟩ := hoctets.octets
      exact (newLData_built hframe).payload_whole (by simp only [List.length_cons]; omega)

theorem polledObject_unrequested (h : requestedService go = none) :
    polledObject d go = go ∧ framesOf d go = [] := by
  have hidle : go.isPending = false := by
    rw [← Bool.not_eq_true, requestedService_pending, h]
    exact Bool.false_ne_true
  exact ⟨polledObject_idle hidle, framesOf_idle hidle⟩

theorem polled_served {frames : List CemiFrame}
    (hframes : ∀ frame ∈ frames, frame.addressType = .individual)
    (fits : ∀ go ∈ b.groupObjects.objects, Fits b.toDevice go) :
    PendingServed b (polled (drained b nowMs frames)) := by
  refine ⟨fun go hgo => ?_, frames, framesOf b.toDevice, rfl, hframes, fun go hgo => ?_⟩
  · obtain ⟨old, _, rfl⟩ := List.mem_map.mp hgo
    have hidle := polledObject_pending (drained b nowMs frames).toDevice old
    exact not_or.mp (of_decide_eq_false hidle)
  · have hget : b.groupObjects.get go.asap = some go := by
      obtain ⟨pre, post, hobjects⟩ := List.append_of_mem hgo
      exact GroupObjectStore.Located.get_eq ⟨hobjects⟩
    refine ⟨polledObject b.toDevice go, ?_, ?_⟩
    · refine (b.groupObjects.map_get (polledObject b.toDevice) (fun _ => rfl) go.asap).trans ?_
      rw [hget]
      rfl
    · cases h : requestedService go with
      | none => exact polledObject_unrequested h
      | some request => exact polledObject_served h (fits go hgo)

/-- The pending objects of a unit whose values fit a frame are served by every poll, unless the
poll has to send an APDU of the transport layer that does not fit one. -/
theorem pending_served_iff (h : Reachable b)
    (short : ∀ go ∈ b.groupObjects.objects, go.data.length ≤ 254) (nowMs : UInt64) :
    (Numbered b.groupObjects ∧ (∀ count size, Numbered (.new count size)) ∧
      ∀ table, Numbered (b.groupObjects.reinitializeFromTable table)) ∧
    (PollServes b nowMs ↔ ∀ apdu, b.transport.due nowMs = some apdu → apdu.length ≤ 256) := by
  refine ⟨⟨store_numbered _, fun _ _ => store_numbered _, fun _ => store_numbered _⟩, ?_⟩
  have idle := h.ready.idle
  have fits : ∀ go ∈ b.groupObjects.objects, Fits b.toDevice go :=
    fun go hgo => fits_of_data (short go hgo)
  rw [← TransportLayer.poll_frames idle (fun apdu => apdu.length ≤ 256),
    ← allActionFrames_iff b.individualAddress]
  constructor
  · rintro ⟨b', hpoll, _⟩
    rw [poll_eq idle] at hpoll
    cases hframes : allActionFrames b.individualAddress (b.transport.poll nowMs).actions with
    | error fault =>
      rw [hframes] at hpoll
      cases hpoll
    | ok frames => exact ⟨frames, rfl⟩
  · rintro ⟨frames, hframes⟩
    by_cases configured : b.configured = true
    · refine ⟨_, (poll_iff idle configured nowMs).mpr ⟨frames, hframes, fits, rfl⟩,
        store_numbered _, fun _ => ?_⟩
      exact polled_served (allActionFrames_individual hframes) fits
    · refine ⟨drained b nowMs frames, ?_, store_numbered _, fun hc => absurd hc configured⟩
      rw [poll_eq idle, hframes]
      exact if_neg configured

/-! ## A unit with a connection -/

def numberedDescriptorRead : CemiFrame :=
  ⟨[0x29, 0x00, 0xB0, 0x60, 0x11, 0x02, 0xFF, 0xFF, 0x01, 0x43, 0x00], 2, withoutInfo rfl, rfl⟩

def numberedExtendedRead : CemiFrame :=
  ⟨[0x29, 0x00, 0xB0, 0x60, 0x11, 0x02, 0xFF, 0xFF, 0x05, 0x45, 0xFD, 0xFF, 0x00, 0x00, 0x00], 2,
    withoutInfo rfl, rfl⟩

def descriptorAck : CemiFrame :=
  ⟨[0x29, 0x00, 0xB0, 0x60, 0x11, 0x02, 0xFF, 0xFF, 0x00, 0xC2, 0x00], 2, withoutInfo rfl, rfl⟩

/-- The second request is answered while the answer to the first is unacknowledged. -/
def keptBack : List Event :=
  [extendedWrite 254, .frame connectToDevice 0, .frame numberedDescriptorRead 0,
    .frame numberedExtendedRead 0, .frame descriptorAck 0]

/-- The extended read is answered with an APDU of 261 octets; the poll that has to send it
panics. -/
theorem kept_back_panics : ∃ b, Reachable b ∧ (∀ go ∈ b.groupObjects.objects, go.data.length ≤ 254) ∧
    b.poll 0 = .error (.cemiPayloadTooLong 261) ∧ ¬PollServes b 0 := by
  have hrun : ((keptBack.foldlM (Bau.handleIf fun _ _ => true) standardBau).map fun b =>
      (b.groupObjects.objects.all fun go => go.data.length ≤ 254,
        failure (b.poll 0))) = some (true, some (.cemiPayloadTooLong 261)) := by
    decide +kernel
  obtain ⟨b, hb, hstate⟩ := Option.map_eq_some_iff.mp hrun
  obtain ⟨hdata, hfail⟩ := Prod.mk.inj hstate
  obtain ⟨tr, run, _, _⟩ := handles_of_checked hb
  have hpoll := eq_error hfail
  refine ⟨b, run.reachable, fun go hgo => of_decide_eq_true (List.all_eq_true.mp hdata go hgo),
    hpoll, ?_⟩
  rintro ⟨b', hok, _⟩
  rw [hpoll] at hok
  cases hok

def requestingDevice : Device :=
  ((sceneDevice.callObject 1 .requestObjectRead).callObject 2 (.setCommFlag .writeRequest))

theorem requesting_served : PollServes (.ofDevice requestingDevice) 0 :=
  (pending_served_iff (reachable_device requestingDevice) (by decide +kernel) 0).2.mpr nofun

end KnxRs.BusAccessUnit
