import KnxRs.GroupFrames
import KnxRs.FrameLimits
import KnxRs.GroupValues

set_option autoImplicit false

/-!
# Writes of group objects

What the next poll sends for a value that the application has set: its telegram, where the
buffer of the object has the size of the encoded value, and nothing where the datapoint
type has a fixed size that is another.
-/
namespace KnxRs.BusAccessUnit
open CoreTypes GroupObjects ApduCodec TpduCodec CemiCodec AppEncode DptCodec DptConvert
open GroupTables Transport MemoryStore DeviceState GroupFrames Fallible

def Bau.callObject (b : Bau) (asap : UInt16) (call : ObjectCall) : Bau :=
  { b with toDevice := b.toDevice.callObject asap call }

/-- The frame asks a group to take the octets as its value. -/
structure IsGroupWrite (frame : CemiFrame) (ga : UInt16) (octets : List UInt8) : Prop where
  request : frame.messageCodeRaw = MessageCode.lDataReq.raw
  group : frame.addressType = .group
  destination : frame.destinationAddressRaw = ga
  apdu : ∃ tpduType seqNo,
    frame.tpdu = some (.data tpduType seqNo ⟨.groupValueWrite, octets⟩)

/-- One telegram more is queued than without the request: a write of the value to the group
address. The object holds the value and is transmitting it. -/
structure SentOnce (quiet b' : Bau) (asap ga : UInt16) (octets : List UInt8) : Prop where
  queued : ∃ before frame after, quiet.outbox = before ++ after ∧
    b'.outbox = before ++ frame :: after ∧ IsGroupWrite frame ga octets
  object : ∃ go, b'.groupObjects.get asap = some go ∧ go.data = octets ∧
    go.commFlag = .transmitting

/-- No telegram is queued for the request, and the object is in error. -/
structure Refused (quiet b' : Bau) (asap : UInt16) : Prop where
  queued : b'.outbox = quiet.outbox
  object : ∃ go, b'.groupObjects.get asap = some go ∧ go.commFlag = .error

variable {b c quiet : Bau} {d : Device} {go : GroupObject} {asap ga : UInt16} {dpt : Dpt}
  {value : DptValue} {octets : List UInt8} {nowMs : UInt64}

/-! ## The telegram of a value -/

theorem telegram_write (hflag : go.commFlag = .writeRequest)
    (hga : d.resolveGroupAddress go.asap = some ga) : telegram d go =
      (encodeGroupValueWriteForDpt go.dpt go.data).toOption.map fun payload => (ga, payload) := by
  unfold telegram
  rw [hflag]
  dsimp only
  rw [hga]
  rfl

theorem encodeGroupValueForDpt_some (dpt : Dpt) (data : List UInt8) :
    encodeGroupValueWriteForDpt (some dpt) data =
      GroupValuePayload.fromDptEncoded dpt data >>= fun payload =>
        (withPayload .write payload).tryToBytes tpciDataGroup := by
  unfold encodeGroupValueWriteForDpt encodeGroupValueForDpt
  dsimp only
  cases GroupValuePayload.fromDptEncoded dpt data <;> rfl

theorem encoded_framesOf (d : Device) (go : GroupObject) (hflag : go.commFlag = .writeRequest)
    (hdpt : go.dpt = some dpt) (hga : d.resolveGroupAddress go.asap = some ga)
    (hfunctional : dpt.main ≠ 31) (hencode : encode dpt value = .ok go.data)
    (hlen : go.data.length ≤ 254) :
    Fits d go ∧ (telegram d go).isSome ∧
      ∃ frame, framesOf d go = [frame] ∧ IsGroupWrite frame ga go.data := by
  obtain ⟨payload, hpayload, packed⟩ :=
    fromDptEncoded_packed hfunctional (encode_size hfunctional hencode)
  obtain ⟨lo, rest, hbytes, hlength, hparse⟩ := tryToBytes_parse .write packed hlen
  have htelegram : telegram d go = some (ga, 0 :: lo :: rest) := by
    rw [telegram_write hflag hga, hdpt, encodeGroupValueForDpt_some, hpayload]
    show Option.map _ ((withPayload .write payload).tryToBytes tpciDataGroup).toOption = _
    rw [hbytes]
    rfl
  obtain ⟨frame, hframes, hframe⟩ := framesOf_telegram htelegram hlength
  have built := newLData_built hframe
  have htwo : 2 ≤ (0 :: lo :: rest).length := by
    simp only [List.length_cons]
    omega
  have htpdu := built.tpdu_eq htwo
  unfold Tpdu.parse at htpdu
  dsimp only at htpdu
  rw [hparse] at htpdu
  refine ⟨?_, ?_, frame, hframes, built.messageCodeRaw_eq, built.addressType_eq,
    built.destination_eq, _, _, htpdu⟩
  · intro ga' payload' ht
    obtain ⟨_, rfl⟩ := Prod.mk.inj (Option.some.inj (htelegram.symm.trans ht))
    exact hlength
  · rw [htelegram]
    rfl

theorem fromDptEncoded_error {data : List UInt8} (hsize : OfSize octets dpt.wireSize)
    (hfixed : dpt.wireSize ≠ .variableBytes) (hlen : data.length ≠ octets.length) :
    ∃ e, GroupValuePayload.fromDptEncoded dpt data = .error e := by
  unfold GroupValuePayload.fromDptEncoded
  by_cases hmain : dpt.main = 31
  · rw [if_pos hmain]
    exact ⟨_, rfl⟩
  rw [if_neg hmain]
  cases hwire : dpt.wireSize with
  | bits n =>
    rw [hwire] at hsize
    obtain ⟨octet, rfl, _⟩ := hsize
    dsimp only
    split_ifs
    · split
      · next one => exact absurd rfl hlen
      · exact ⟨_, rfl⟩
    · exact ⟨_, rfl⟩
  | bytes n =>
    rw [hwire] at hsize
    have hn : octets.length = n.toNat := hsize
    dsimp only
    rw [if_neg (by omega)]
    exact ⟨_, rfl⟩
  | variableBytes => exact absurd hwire hfixed
  | unknown => exact ⟨_, rfl⟩

/-- The value is not sent: the main group is that of functional blocks, or the type has a fixed
size and the object's buffer another. -/
def Unsendable (dpt : Dpt) (octets data : List UInt8) : Prop :=
  dpt.main = 31 ∨ (dpt.wireSize ≠ .variableBytes ∧ octets.length ≠ data.length)

instance (dpt : Dpt) (octets data : List UInt8) : Decidable (Unsendable dpt octets data) :=
  inferInstanceAs (Decidable (_ ∨ _))

theorem unsendable_telegram (hflag : go.commFlag = .writeRequest) (hdpt : go.dpt = some dpt)
    (hga : d.resolveGroupAddress go.asap = some ga) (hencode : encode dpt value = .ok octets)
    (h : Unsendable dpt octets go.data) : telegram d go = none := by
  have hnone : ∃ e, GroupValuePayload.fromDptEncoded dpt go.data = .error e := by
    by_cases hmain : dpt.main = 31
    · unfold GroupValuePayload.fromDptEncoded
      rw [if_pos hmain]
      exact ⟨_, rfl⟩
    · obtain ⟨hfixed, hlen⟩ := h.resolve_left hmain
      exact fromDptEncoded_error (encode_size hmain hencode) hfixed (Ne.symm hlen)
  obtain ⟨e, he⟩ := hnone
  rw [telegram_write hflag hga, hdpt, encodeGroupValueForDpt_some, he]
  rfl

/-! ## The poll after a call -/

theorem callObject_located {pre post : List GroupObject}
    (h : GroupObjectStore.Located b.groupObjects pre go post) (call : ObjectCall) :
    GroupObjectStore.Located (b.callObject go.asap call).groupObjects pre (go.call call) post :=
  h.modify_eq (fun go => go.call call) (fun go => go.call_asap call)

theorem polled_get (b : Bau) (asap : UInt16) : (polled b).groupObjects.get asap =
    (b.groupObjects.get asap).map (polledObject b.toDevice) :=
  b.groupObjects.map_get (polledObject b.toDevice) (fun _ => rfl) asap

theorem polled_outbox {pre post : List GroupObject}
    (h : GroupObjectStore.Located b.groupObjects pre go post) : (polled b).outbox =
      b.outbox ++ pre.flatMap (framesOf b.toDevice) ++
        (framesOf b.toDevice go ++ post.flatMap (framesOf b.toDevice)) := by
  show b.outbox ++ b.groupObjects.objects.flatMap _ = _
  rw [h.objects, List.flatMap_append, List.flatMap_cons, List.append_assoc]

/-- Where the unit's poll returns without an object's request, it returns with the request if the
object's telegram fits, and then it has queued that telegram more. -/
theorem poll_called (ready : Ready b) (configured : b.configured = true)
    (hgo : b.groupObjects.get asap = some go) {idle : ObjectCall} (call : ObjectCall)
    (hidle : (go.call idle).isPending = false)
    (hquiet : (b.callObject asap idle).poll nowMs = .ok quiet)
    (hfits : Fits b.toDevice (go.call call)) :
    ∃ b' before after, (b.callObject asap call).poll nowMs = .ok b' ∧
      quiet.outbox = before ++ after ∧
      b'.outbox = before ++ (framesOf b.toDevice (go.call call) ++ after) ∧
      b'.groupObjects.get asap = some (polledObject b.toDevice (go.call call)) := by
  obtain ⟨rfl, pre, post, located⟩ := GroupObjectStore.get_located hgo
  have hready (call : ObjectCall) : Ready (b.callObject go.asap call) :=
    ⟨ready.idle, ready.answering, ready.passive, ready.consistent⟩
  obtain ⟨frames, hframes, hall, rfl⟩ := (poll_iff (hready idle).idle configured nowMs).mp hquiet
  have quietly := callObject_located located idle
  have called := callObject_located located call
  have fits : ∀ x ∈ (b.callObject go.asap call).groupObjects.objects, Fits b.toDevice x := by
    have others : ∀ x ∈ (b.callObject go.asap idle).groupObjects.objects, Fits b.toDevice x := hall
    rw [quietly.objects] at others
    rw [called.objects]
    simp only [List.forall_mem_append, List.forall_mem_cons] at others ⊢
    exact ⟨others.1, hfits, others.2.2⟩
  refine ⟨polled (drained (b.callObject go.asap call) nowMs frames),
    b.outbox ++ frames ++ pre.flatMap (framesOf b.toDevice), post.flatMap (framesOf b.toDevice),
    (poll_iff (hready call).idle configured nowMs).mpr ⟨frames, hframes, fits, rfl⟩, ?_, ?_, ?_⟩
  · have houtbox := polled_outbox (b := drained (b.callObject go.asap idle) nowMs frames) quietly
    refine houtbox.trans ?_
    show b.outbox ++ frames ++ pre.flatMap (framesOf b.toDevice) ++
      (framesOf b.toDevice (go.call idle) ++ post.flatMap (framesOf b.toDevice)) = _
    rw [framesOf_idle hidle, List.nil_append]
  · exact polled_outbox (b := drained (b.callObject go.asap call) nowMs frames) called
  · refine (polled_get _ _).trans ?_
    have hget := called.get_eq
    rw [go.call_asap call] at hget
    show Option.map _ ((b.callObject go.asap call).groupObjects.get go.asap) = _
    rw [hget]
    rfl

/-- After a value has been set, the next poll sends it once where the buffer has the size of the
encoded value; it sends nothing for functional blocks, or for a fixed size in a buffer of another
size. -/
theorem setValue_polled {go' : GroupObject} (hb : Reachable b) (configured : b.configured = true)
    (hgo : b.groupObjects.get asap = some go) (hdpt : go.dpt = some dpt)
    (hga : b.resolveGroupAddress asap = some ga) (hset : go.setValue value = .ok go')
    (hquiet : (b.callObject asap (.setCommFlag .ok)).poll nowMs = .ok quiet) :
    ∃ octets, encode dpt value = .ok octets ∧
      (dpt.main ≠ 31 → octets.length = go.data.length → octets.length ≤ 254 →
        ∃ b', (b.callObject asap (.setValue value)).poll nowMs = .ok b' ∧
          SentOnce quiet b' asap ga octets) ∧
      (Unsendable dpt octets go.data →
        ∃ b', (b.callObject asap (.setValue value)).poll nowMs = .ok b' ∧
          Refused quiet b' asap) := by
  obtain ⟨rfl, _⟩ := GroupObjectStore.get_located hgo
  obtain ⟨_, octets, hdpt', hencode, _⟩ := GroupObject.setValue_ok hset
  obtain rfl := Option.some.inj (hdpt.symm.trans hdpt')
  refine ⟨octets, hencode, ?_⟩
  have hcall : go.call (.setValue value) = go.writeValue octets := by
    dsimp only [GroupObject.call, GroupObject.setValue]
    rw [hdpt]
    dsimp only
    rw [hencode]
    rfl
  have hdata : (go.writeValue octets).data.length = go.data.length := go.copyFrom_length octets
  constructor
  · intro hfunctional hlen hshort
    have hstored : (go.writeValue octets).data = octets := GroupObject.copyFrom_data hlen.symm
    obtain ⟨hfits, hsome, frame, hframes, hwrite⟩ := encoded_framesOf b.toDevice
      (go.writeValue octets) rfl hdpt hga hfunctional (hstored.symm ▸ hencode)
      (hstored.symm ▸ hshort)
    obtain ⟨b', before, after, hpoll, hbefore, hafter, hobject⟩ :=
      poll_called hb.ready configured hgo (.setValue value) rfl hquiet (hcall ▸ hfits)
    rw [hcall] at hafter hobject
    rw [hframes] at hafter
    rw [hstored] at hwrite
    refine ⟨b', hpoll, ⟨before, frame, after, hbefore, hafter, hwrite⟩, _, hobject, hstored, ?_⟩
    show polledFlag b.toDevice (go.writeValue octets) = _
    unfold polledFlag
    rw [if_pos (show (go.writeValue octets).isPending = true from rfl), if_pos hsome]
  · intro hunsendable
    have hnone : telegram b.toDevice (go.writeValue octets) = none := by
      refine unsendable_telegram rfl hdpt hga hencode ?_
      unfold Unsendable
      rw [hdata]
      exact hunsendable
    have hfits : Fits b.toDevice (go.writeValue octets) := by
      intro ga' payload ht
      rw [hnone] at ht
      cases ht
    obtain ⟨b', before, after, hpoll, hbefore, hafter, hobject⟩ :=
      poll_called hb.ready configured hgo (.setValue value) rfl hquiet (hcall ▸ hfits)
    rw [hcall] at hafter hobject
    have hframes : framesOf b.toDevice (go.writeValue octets) = [] := by
      unfold framesOf
      rw [hnone]
    rw [hframes, List.nil_append] at hafter
    refine ⟨b', hpoll, hafter.trans hbefore.symm, _, hobject, ?_⟩
    show polledFlag b.toDevice (go.writeValue octets) = _
    unfold polledFlag
    rw [if_pos (show (go.writeValue octets).isPending = true from rfl), hnone]
    rfl

/-! ## A unit with two objects -/

def sendingDevice (first second : GroupObject) (h : first.asap = 1 ∧ second.asap = 2) : Device :=
  { standardBau.toDevice with
    addrTableObject := .newLoaded
    assocTableObject := .newLoaded
    appProgramObject := .newLoaded
    addressTable := ⟨[0, 2, 0x08, 0x01, 0x08, 0x02]⟩
    associationTable := ⟨[0, 2, 0, 1, 0, 1, 0, 2, 0, 2]⟩
    groupObjects := {
      objects := [first, second]
      numbered := by
        intro i hi
        match i, hi with
        | 0, _ => exact congrArg UInt16.toNat h.1
        | 1, _ => exact congrArg UInt16.toNat h.2 } }

theorem reachable_device (d : Device) : Reachable (.ofDevice d) :=
  ⟨d.device, 0, 0, _, .next (e := Input.host d []) (show Bau.ofDevice d = _ from rfl) (.refl _)⟩

def sceneNumber : Dpt := ⟨17, 1, 0⟩

def functionalBlock : Dpt := ⟨31, 101, 0⟩

def sceneDevice : Device :=
  sendingDevice (.withDpt 1 sceneNumber) (.withDpt 2 functionalBlock) ⟨rfl, rfl⟩

theorem scene_sent_once : ∃ quiet b',
    ((Bau.ofDevice sceneDevice).callObject 1 (.setCommFlag .ok)).poll 0 = .ok quiet ∧
    ((Bau.ofDevice sceneDevice).callObject 1 (.setValue (.uint 63))).poll 0 = .ok b' ∧
    SentOnce quiet b' 1 0x0801 [63] := by
  obtain ⟨quiet, hquiet⟩ :=
    eq_ok (r := ((Bau.ofDevice sceneDevice).callObject 1 (.setCommFlag .ok)).poll 0)
      (by decide +kernel)
  have hgo : (Bau.ofDevice sceneDevice).groupObjects.get 1 = some (.withDpt 1 sceneNumber) := rfl
  have hga : (Bau.ofDevice sceneDevice).resolveGroupAddress 1 = some 0x0801 := by decide +kernel
  have hset : (GroupObject.withDpt 1 sceneNumber).setValue (.uint 63) = .ok _ := rfl
  obtain ⟨octets, hencode, hsent, _⟩ := setValue_polled (reachable_device sceneDevice)
    (by decide +kernel) hgo rfl hga hset hquiet
  obtain rfl : [63] = octets := Except.ok.inj hencode
  obtain ⟨b', hpoll, hb'⟩ := hsent (by decide) rfl (by decide)
  exact ⟨quiet, b', hquiet, hpoll, hb'⟩

def mismatchedDevice : Device :=
  sendingDevice ((GroupObject.new 1 2).setDpt sceneNumber) (.withDpt 2 functionalBlock) ⟨rfl, rfl⟩

/-- A value of one octet in a buffer of two, and a value of a functional block: both are set, no
telegram is queued and both objects are in error. -/
theorem set_values_unsent : ∃ first second b',
    (Bau.ofDevice mismatchedDevice).configured = true ∧
    ((GroupObject.new 1 2).setDpt sceneNumber).setValue (.uint 63) = .ok first ∧
    (GroupObject.withDpt 2 functionalBlock).setValue (.uint 1) = .ok second ∧
    mismatchedDevice.resolveGroupAddress 1 = some 0x0801 ∧
    mismatchedDevice.resolveGroupAddress 2 = some 0x0802 ∧
    (((Bau.ofDevice mismatchedDevice).callObject 1 (.setValue (.uint 63))).callObject 2
      (.setValue (.uint 1))).poll 0 = .ok b' ∧
    b'.outbox = [] ∧ b'.groupObjects.objects.map GroupObject.commFlag = [.error, .error] := by
  have hstate : ((((Bau.ofDevice mismatchedDevice).callObject 1 (.setValue (.uint 63))).callObject 2
      (.setValue (.uint 1))).poll 0).toOption.map (fun b' => (b'.outbox.length,
        b'.groupObjects.objects.map GroupObject.commFlag)) = some (0, [.error, .error]) := by
    decide +kernel
  obtain ⟨b', hb', hstate⟩ := Option.map_eq_some_iff.mp hstate
  obtain ⟨hlength, hflags⟩ := Prod.mk.inj hstate
  cases hpoll : (((Bau.ofDevice mismatchedDevice).callObject 1 (.setValue (.uint 63))).callObject 2
      (.setValue (.uint 1))).poll 0 with
  | error fault =>
    rw [hpoll] at hb'
    cases hb'
  | ok c =>
    rw [hpoll] at hb'
    obtain rfl : c = b' := Option.some.inj hb'
    exact ⟨_, _, c, by decide +kernel, rfl, rfl, by decide +kernel, by decide +kernel, rfl,
      List.eq_nil_of_length_eq_zero hlength, hflags⟩

end KnxRs.BusAccessUnit
