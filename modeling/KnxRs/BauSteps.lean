import KnxRs.GroupPolls

set_option autoImplicit false

/-!
# What one call on the bus access unit does

Which request a frame brings to a handler, the device a frame leaves, and the same
for a poll. Every later result is about these and never unfolds a dispatcher.
-/
namespace KnxRs.BusAccessUnit
open CoreTypes Properties GroupObjects InterfaceObjects ApduCodec TpduCodec CemiCodec AppParse
open AppEncode DptCodec GroupTables Transport MemoryStore DeviceState Fallible Runs

/-! ## The request a frame brings -/

def isConfirmation (frame : CemiFrame) : Bool :=
  frame.messageCodeRaw = MessageCode.lDataCon.raw

def connectedService (b : Bau) (frame : CemiFrame) : Option AppIndication :=
  match frame.tpdu with
  | some (.data tpduType seqNo apdu) =>
    if tpduType = .dataConnected ∧ inSequence b.transport frame.sourceAddress seqNo then
      (parseRawApdu (encodeRawApdu apdu)).toOption
    else none
  | _ => none

def plainService (b : Bau) (frame : CemiFrame) : Option AppIndication :=
  match frame.tpdu with
  | some (.data tpduType _ apdu) =>
    if tpduType = .dataConnected then none
    else (parseIndication apdu.apduType apdu.data).toOption.filter (b.indicationInScope frame)
  | _ => none

def served (b : Bau) (frame : CemiFrame) : Option (UInt16 × AppIndication) :=
  if isConfirmation frame then none
  else match connectedService b frame with
  | some indication => some (b.individualAddress.raw, indication)
  | none => (plainService b frame).map (fun indication => (frame.destinationAddressRaw, indication))

def effectOf (d : Device) : Option (UInt16 × AppIndication) → Device
  | some (dst, indication) => effect d dst indication
  | none => d

def deviceAfter (b : Bau) (frame : CemiFrame) : Device :=
  if isConfirmation frame then (b.handleTransmitConfirmation frame).toDevice
  else effectOf b.toDevice (served b frame)

/-- Between two calls no action is queued and no connection is being answered. -/
structure Ready (b : Bau) : Prop where
  idle : b.transport.actions = []
  answering : b.answeringConnection = none
  passive : b.transport.state ≠ .connecting
  consistent : Consistent b.transport

/-- A whole call: the progress it has made, with every action drained. -/
structure Completed (fits : Prop) (b : Bau) (e : Device) (b' : Bau) : Prop
    extends Progress fits b e b' where
  idle : b'.transport.actions = []

theorem ofDevice_ready (d : Device) : Ready (.ofDevice d) :=
  ⟨rfl, rfl, nofun, new_consistent⟩

variable {fits : Prop} {b b' : Bau} {e : Device}

theorem Completed.ready (h : Completed fits b e b') (hb : Ready b) : Ready b' :=
  ⟨h.idle, h.answering.trans hb.answering, h.transport.notConnecting hb.passive,
    h.transport.consistent hb.consistent⟩

/-! ## Draining -/

theorem actionFrames_yields (source : IndividualAddress) {a : Action (List UInt8)}
    (hs : ∀ frame, a.frame = some frame → Short fits frame.apdu) :
    Yields fits (fun _ => True) (actionFrames source a) := by
  have sent {destination : DestinationAddress} {priority : Priority} {payload : List UInt8}
      (h : Short fits payload) : Yields fits (fun _ => True)
        ((CemiFrame.newLData .lDataReq source destination priority payload).map
          fun frame => [frame]) :=
    Yields.map (Q := fun _ => True) ⟨fun _ _ => trivial, fun hf => newLData_ok (h hf)⟩
      fun _ h => h
  cases a with
  | sendControl destination tpduType seqNo =>
    exact sent (short_of_le (encodeControl_length _ _) (by decide))
  | sendDataConnected destination seqNo priority apdu =>
    refine sent fun hf => ?_
    have hlen : apdu.length ≤ 256 := hs _ rfl hf
    rw [encodeDataConnected_length]
    omega
  | _ => exact .ok trivial

theorem allActionFrames_yields (source : IndividualAddress) {actions : List (Action (List UInt8))}
    (hs : ∀ a ∈ actions, ∀ frame, a.frame = some frame → Short fits frame.apdu) :
    Yields fits (fun _ => True) (allActionFrames source actions) := by
  induction actions with
  | nil => exact .ok trivial
  | cons a as ih =>
    have hrest := ih fun x hx => hs x (List.mem_cons_of_mem a hx)
    exact (actionFrames_yields source (hs a List.mem_cons_self)).bind
      fun _ _ => hrest.bind fun _ _ => .ok trivial

theorem runAction_unserved {a : Action (List UInt8)} (ha : a.serves = false)
    (hs : ∀ frame, a.frame = some frame → Short fits frame.apdu) :
    Yields fits (fun b' => ∃ frames, b' = { b with outbox := b.outbox ++ frames })
      (b.runAction a) := by
  rw [runAction_frames b ha]
  exact (actionFrames_yields _ hs).map fun frames _ => ⟨frames, rfl⟩

theorem carries_frame {P : List UInt8 → Prop} {t : TransportLayer (List UInt8)}
    (h : Carries P t) {a : Action (List UInt8)} (ha : a ∈ t.actions)
    {frame : SavedFrame (List UInt8)} (hf : a.frame = some frame) : P frame.apdu := by
  cases a with
  | sendDataConnected destination seqNo priority apdu =>
    cases hf
    exact h.queued _ _ _ _ ha
  | _ => cases hf

theorem carries_frames {t : TransportLayer (List UInt8)} (h : Carries (Short fits) t)
    (source : IndividualAddress) :
    Yields fits (fun _ => True) (allActionFrames source t.actions) :=
  allActionFrames_yields source fun _ ha _ hf => carries_frame h ha hf

theorem drain_unserved (rounds : Nat) (hs : ∀ a ∈ b.transport.actions, a.serves = false)
    (carries : Carries (Short fits) b.transport) :
    Yields fits (fun b' => ∃ frames, b' = { b with
        transport := b.transport.takeActions.2, outbox := b.outbox ++ frames })
      (Bau.drainTransportActions (rounds + 2) b) := by
  rw [drain_frames rounds hs]
  exact (carries_frames carries _).map fun frames _ => ⟨frames, rfl⟩

theorem drained_completed {frames : List CemiFrame} (h : Progress fits b e b')
    (hb' : e = b'.toDevice) :
    Completed fits b e { b' with
      transport := b'.transport.takeActions.2, outbox := b'.outbox ++ frames } := by
  subst hb'
  have taken : Progress fits b' b'.toDevice
      { b' with transport := apply b'.transport .takeActions } :=
    .called (c := .takeActions) trivial nofun
  have h' := h.trans taken
  exact ⟨⟨rfl, h'.sent.trans (List.prefix_append ..), h'.transport, nofun, h'.answering⟩, rfl⟩

theorem drain_completed (rounds : Nat) (h : Progress fits b e b')
    (hs : ∀ a ∈ b'.transport.actions, a.serves = false)
    (carries : Carries (Short fits) b.transport) :
    Yields fits (Completed fits b e) (Bau.drainTransportActions (rounds + 2) b') := by
  refine (drain_unserved rounds hs (h.transport.carries carries)).mono ?_
  rintro _ ⟨frames, rfl⟩
  exact drained_completed h h.device.symm

theorem dispatchConnectedIndication_progress (answering : b.answeringConnection = none)
    (modest : fits → Modest b.toDevice) (source : IndividualAddress)
    (indication : AppIndication) (small : fits → oversized b.toDevice indication = false) :
    Yields fits (Progress fits b (effect b.toDevice b.individualAddress.raw indication))
      (b.dispatchConnectedIndication source indication) := by
  unfold Bau.dispatchConnectedIndication
  have dummy : Yields fits (fun frame : CemiFrame =>
      frame.destinationAddressRaw = b.individualAddress.raw)
      (CemiFrame.newLData .lDataInd source (.individual b.individualAddress) .system []) :=
    ⟨fun _ hf => newLData_destination hf, fun _ => newLData_ok (Nat.zero_le _)⟩
  refine dummy.bind fun frame hframe => ?_
  rw [← hframe]
  refine Yields.bind (dispatchIndication_progress (b := { b with answeringConnection := some source })
    modest frame source indication small) fun c hc => .ok ?_
  exact ⟨hc.device, hc.sent, hc.transport, hc.unserved, answering.symm⟩

/-- The request in the data of a connection, with the destination its handler sees. -/
def connectedRequest (b : Bau) (apdu : List UInt8) : Option (UInt16 × AppIndication) :=
  (parseRawApdu apdu).toOption.map (fun indication => (b.individualAddress.raw, indication))

theorem runAction_received (answering : b.answeringConnection = none)
    (modest : fits → Modest b.toDevice) (source : IndividualAddress) (priority : Priority)
    (apdu : List UInt8) (small : fits → ∀ dst indication,
      connectedRequest b apdu = some (dst, indication) →
        oversized b.toDevice indication = false) :
    Yields fits (Progress fits b (effectOf b.toDevice (connectedRequest b apdu)))
      (b.runAction (.dataConnectedIndication source priority apdu)) := by
  dsimp only [Bau.runAction]
  unfold connectedRequest at small ⊢
  cases hparse : parseRawApdu apdu with
  | error error => exact .ok (.same b)
  | ok indication =>
    rw [hparse] at small
    exact dispatchConnectedIndication_progress answering modest source indication
      (fun hf => small hf _ _ rfl)

theorem drain_received (rounds : Nat) {destination source : IndividualAddress}
    {tpduType : TpduType} {seqNo : UInt8} {priority : Priority} {apdu : List UInt8}
    (hactions : b.transport.actions =
      [.sendControl destination tpduType seqNo, .dataConnectedIndication source priority apdu])
    (answering : b.answeringConnection = none) (carries : Carries (Short fits) b.transport)
    (modest : fits → Modest b.toDevice) (small : fits → ∀ dst indication,
      connectedRequest b apdu = some (dst, indication) →
        oversized b.toDevice indication = false) :
    Yields fits (Completed fits b (effectOf b.toDevice (connectedRequest b apdu)))
      (Bau.drainTransportActions (rounds + 3) b) := by
  have taken : Progress fits b b.toDevice
      { b with transport := b.transport.takeActions.2 } :=
    .called (c := .takeActions) trivial nofun
  have hfold : Yields fits (fun c =>
      Progress fits b (effectOf b.toDevice (connectedRequest b apdu)) c ∧
        ∀ a ∈ c.transport.actions, a.serves = false)
      (b.transport.takeActions.1.foldlM Bau.runAction
        { b with transport := b.transport.takeActions.2 }) := by
    rw [show b.transport.takeActions.1 = _ from hactions, List.foldlM_cons]
    refine Yields.bind (runAction_unserved rfl nofun) ?_
    rintro _ ⟨frames, rfl⟩
    rw [List.foldlM_cons]
    refine Yields.bind (runAction_received
      (b := { b with transport := b.transport.takeActions.2, outbox := b.outbox ++ frames })
      answering modest source priority apdu small) ?_
    intro c hc
    have before : Progress fits b b.toDevice { b with
        transport := b.transport.takeActions.2, outbox := b.outbox ++ frames } :=
      ⟨rfl, List.prefix_append .., taken.transport, nofun, rfl⟩
    exact .ok ⟨before.trans hc, hc.unserved nofun⟩
  unfold Bau.drainTransportActions
  dsimp only
  rw [if_neg (by simp [TransportLayer.takeActions, hactions])]
  exact hfold.bind (fun c hc => drain_completed rounds hc.1 hc.2 carries)

/-! ## Frames -/

theorem processControlTpdu_progress (b : Bau) (frame : CemiFrame) (tpduType : TpduType)
    (seqNo : UInt8) (nowMs : UInt64) :
    Progress fits b b.toDevice (b.processControlTpdu frame tpduType seqNo nowMs) := by
  cases tpduType with
  | connect => exact .called (c := .connectIndication _ _) trivial nofun
  | disconnect => exact .called (c := .disconnectIndication _) trivial nofun
  | ack => exact .called (c := .ackIndication _ _ _) trivial nofun
  | nack => exact .called (c := .nackIndication _ _ _) trivial nofun
  | _ => exact .same b

theorem served_control {frame : CemiFrame} {tpduType : TpduType} {seqNo : UInt8}
    (h : frame.tpdu = some (.control tpduType seqNo)) : served b frame = none := by
  unfold served connectedService plainService
  rw [h]
  split_ifs <;> rfl

theorem served_none {frame : CemiFrame} (h : frame.tpdu = none) : served b frame = none := by
  unfold served connectedService plainService
  rw [h]
  split_ifs <;> rfl

theorem served_connected {frame : CemiFrame} {seqNo : UInt8} {apdu : Apdu}
    (hcon : isConfirmation frame = false)
    (h : frame.tpdu = some (.data .dataConnected seqNo apdu)) :
    served b frame = if inSequence b.transport frame.sourceAddress seqNo then
      connectedRequest b (encodeRawApdu apdu) else none := by
  unfold served connectedService plainService connectedRequest
  rw [h, hcon]
  by_cases hseq : inSequence b.transport frame.sourceAddress seqNo = true
  · simp only [hseq, and_self, Bool.false_eq_true, ↓reduceIte]
    cases parseRawApdu (encodeRawApdu apdu) <;> rfl
  · simp only [hseq, and_false, Bool.false_eq_true, ↓reduceIte]
    rfl

theorem served_plain {frame : CemiFrame} {tpduType : TpduType} {seqNo : UInt8} {apdu : Apdu}
    (hcon : isConfirmation frame = false) (h : frame.tpdu = some (.data tpduType seqNo apdu))
    (htype : tpduType ≠ .dataConnected) :
    served b frame = ((parseIndication apdu.apduType apdu.data).toOption.filter
      (b.indicationInScope frame)).map (fun i => (frame.destinationAddressRaw, i)) := by
  unfold served connectedService plainService
  rw [h, hcon]
  simp only [htype, false_and, ↓reduceIte]
  rfl

theorem connected_completed (ready : Ready b) (carries : Carries (Short fits) b.transport)
    (modest : fits → Modest b.toDevice) (frame : CemiFrame) (seqNo : UInt8) (apdu : Apdu)
    (nowMs : UInt64) (small : fits → ∀ dst indication,
      (if inSequence b.transport frame.sourceAddress seqNo then
        connectedRequest b (encodeRawApdu apdu) else none) = some (dst, indication) →
      oversized b.toDevice indication = false) :
    Yields fits (Completed fits b (effectOf b.toDevice
        (if inSequence b.transport frame.sourceAddress seqNo then
          connectedRequest b (encodeRawApdu apdu) else none)))
      (Bau.processDataTpdu { b with nowMs := nowMs } frame .dataConnected seqNo apdu nowMs >>=
        Bau.drainTransportActions Bau.drainRounds) := by
  let call : Call (List UInt8) := .dataConnectedIndication frame.sourceAddress seqNo
    frame.priority (encodeRawApdu apdu) nowMs
  let received : Bau := { b with nowMs := nowMs, transport := apply b.transport call }
  change Yields fits _ (Bau.drainTransportActions 3 received)
  have evolves : Evolves (Short fits) b.transport received.transport := .call (c := call) _ trivial
  by_cases hseq : inSequence b.transport frame.sourceAddress seqNo = true
  · rw [if_pos hseq] at small ⊢
    have hactions : received.transport.actions = [.sendControl frame.sourceAddress .ack
        b.transport.seqNoRecv,
        .dataConnectedIndication frame.sourceAddress frame.priority (encodeRawApdu apdu)] := by
      change (b.transport.dataConnectedIndication _ _ _ _ _).actions = _
      rw [dataConnectedIndication_inSequence hseq, TransportLayer.a2ReceiveData_actions,
        ready.idle]
      rfl
    refine (drain_received 0 (b := received) hactions ready.answering
      (evolves.carries carries) modest small).mono fun c hc => ?_
    refine ⟨⟨hc.device, hc.sent, evolves.trans hc.transport, fun _ => ?_, hc.answering⟩, hc.idle⟩
    rw [hc.idle]
    nofun
  · rw [if_neg hseq]
    rw [Bool.not_eq_true] at hseq
    have h : Progress fits { b with nowMs := nowMs } b.toDevice received :=
      .called (c := call) trivial fun _ _ _ _ _ he => by
        injection he with hsource hnumber
        rw [← hsource, ← hnumber]
        exact hseq
    refine drain_completed 1 (b := b) ⟨h.device, h.sent, h.transport, h.unserved,
      h.answering⟩ (h.unserved ?_) carries
    rw [ready.idle]
    nofun

theorem plain_completed (ready : Ready b) (carries : Carries (Short fits) b.transport)
    (modest : fits → Modest b.toDevice) (frame : CemiFrame) {tpduType : TpduType}
    (htype : tpduType ≠ .dataConnected) (seqNo : UInt8) (apdu : Apdu) (nowMs : UInt64)
    (small : fits → ∀ dst indication,
      ((parseIndication apdu.apduType apdu.data).toOption.filter
        (b.indicationInScope frame)).map (fun i => (frame.destinationAddressRaw, i)) =
          some (dst, indication) → oversized b.toDevice indication = false) :
    Yields fits (Completed fits b (effectOf b.toDevice
        (((parseIndication apdu.apduType apdu.data).toOption.filter
          (b.indicationInScope frame)).map (fun i => (frame.destinationAddressRaw, i)))))
      (Bau.processDataTpdu { b with nowMs := nowMs } frame tpduType seqNo apdu nowMs >>=
        Bau.drainTransportActions Bau.drainRounds) := by
  have started : Progress fits b b.toDevice { b with nowMs := nowMs } :=
    ⟨rfl, List.prefix_rfl, .refl _ _, fun h => h, rfl⟩
  have idle : ∀ a ∈ b.transport.actions, a.serves = false := by
    rw [ready.idle]
    nofun
  unfold Bau.processDataTpdu
  dsimp only
  rw [if_neg htype]
  cases hparse : parseIndication apdu.apduType apdu.data with
  | error error => exact drain_completed 1 started idle carries
  | ok indication =>
    rw [hparse] at small
    simp only [Except.toOption, Option.filter_some] at small ⊢
    change Yields fits _ ((if b.indicationInScope frame indication then _ else _) >>= _)
    by_cases hscope : b.indicationInScope frame indication = true
    · rw [if_pos hscope, if_pos hscope]
      rw [if_pos hscope] at small
      exact (dispatchIndication_progress (b := { b with nowMs := nowMs }) modest frame
        frame.sourceAddress indication (fun hf => small hf _ _ rfl)).bind
          fun c hc => drain_completed 1 (started.trans hc)
            ((started.trans hc).unserved idle) carries
    · rw [if_neg hscope, if_neg hscope]
      exact drain_completed 1 started idle carries

/-- What a frame makes of a unit that is ready. -/
theorem processFrame_completed (ready : Ready b) (carries : Carries (Short fits) b.transport)
    (modest : fits → Modest b.toDevice) (frame : CemiFrame) (nowMs : UInt64)
    (small : fits → ∀ dst indication, served b frame = some (dst, indication) →
      oversized b.toDevice indication = false) :
    Yields fits (Completed fits b (deviceAfter b frame)) (b.processFrame frame nowMs) := by
  have started : Progress fits b b.toDevice { b with nowMs := nowMs } :=
    ⟨rfl, List.prefix_rfl, .refl _ _, fun h => h, rfl⟩
  have idle : ∀ a ∈ b.transport.actions, a.serves = false := by
    rw [ready.idle]
    nofun
  unfold Bau.processFrame deviceAfter
  by_cases hcon : isConfirmation frame = true
  · rw [if_pos (of_decide_eq_true hcon), if_pos hcon]
    unfold Bau.handleTransmitConfirmation
    split_ifs
    · exact .ok ⟨started, ready.idle⟩
    · exact .ok ⟨started.trans (.changed _ _), ready.idle⟩
  rw [Bool.not_eq_true] at hcon
  rw [if_neg (of_decide_eq_false hcon), hcon, if_neg Bool.false_ne_true]
  cases htpdu : frame.tpdu with
  | none =>
    rw [served_none htpdu]
    exact .ok ⟨started, ready.idle⟩
  | some tpdu =>
    cases tpdu with
    | control tpduType seqNo =>
      rw [served_control htpdu]
      have h := started.trans (processControlTpdu_progress _ frame tpduType seqNo nowMs)
      exact drain_completed 1 h (h.unserved idle) carries
    | data tpduType seqNo apdu =>
      by_cases htype : tpduType = .dataConnected
      · subst htype
        rw [served_connected hcon htpdu] at small ⊢
        exact connected_completed ready carries modest frame seqNo apdu nowMs small
      · rw [served_plain hcon htpdu htype] at small ⊢
        exact plain_completed ready carries modest frame htype seqNo apdu nowMs small

/-! ## Polls -/

def SameButFlags (d e : Device) : Prop :=
  ∃ objects : GroupObjectStore, e = { d with groupObjects := objects } ∧
    objects.objects.map GroupObject.data = d.groupObjects.objects.map GroupObject.data

theorem SameButFlags.trans {d e f : Device} (h : SameButFlags d e) (h' : SameButFlags e f) :
    SameButFlags d f := by
  obtain ⟨objects, rfl, hdata⟩ := h
  obtain ⟨objects', rfl, hdata'⟩ := h'
  exact ⟨objects', rfl, hdata'.trans hdata⟩

def Polled (b b' : Bau) : Prop :=
  ∃ e frames, SameButFlags b.toDevice e ∧
    b' = { b with toDevice := e, outbox := b.outbox ++ frames }

theorem Polled.progress (h : Polled b b') : Progress fits b b'.toDevice b' := by
  obtain ⟨e, frames, _, rfl⟩ := h
  exact ⟨rfl, List.prefix_append .., .refl _ _, fun hs => hs, rfl⟩

theorem polled_keeps (b : Bau) : Polled b (polled b) := by
  refine ⟨(polled b).toDevice, b.groupObjects.objects.flatMap (framesOf b.toDevice),
    ⟨b.groupObjects.map (polledObject b.toDevice) (fun _ => rfl), rfl, ?_⟩, rfl⟩
  exact List.map_map

theorem fits_of_data {d : Device} {go : GroupObject} (h : go.data.length ≤ 254) : Fits d go := by
  intro ga payload ht
  unfold telegram at ht
  split at ht
  · obtain ⟨ga', _, hga⟩ := Option.bind_eq_some_iff.mp ht
    obtain ⟨octets, hoctets, he⟩ := Option.map_eq_some_iff.mp hga
    cases he
    have := encodeGroupValueForDpt_length (toOption_ok hoctets)
    omega
  · obtain ⟨ga', _, he⟩ := Option.map_eq_some_iff.mp ht
    cases he
    decide
  · cases ht

theorem pollPending_yields {rounds : Nat} (h : b.groupObjects.pendingCount < rounds)
    (short : fits → ∀ go ∈ b.groupObjects.objects, go.data.length ≤ 254) :
    Yields fits (Polled b) (Bau.pollPending rounds b) := by
  constructor
  · intro b' hb'
    obtain ⟨_, rfl⟩ := (pollPending_iff h).mp hb'
    exact polled_keeps b
  · intro hf
    exact ⟨polled b, (pollPending_iff h).mpr ⟨fun go hgo => fits_of_data (short hf go hgo), rfl⟩⟩

/-- What a poll makes of a unit that is ready. -/
theorem poll_completed (ready : Ready b) (carries : Carries (Short fits) b.transport)
    (modest : fits → Modest b.toDevice) (nowMs : UInt64) :
    Yields fits (fun b' => SameButFlags b.toDevice b'.toDevice ∧
      Completed fits b b'.toDevice b') (b.poll nowMs) := by
  have idle : ∀ a ∈ b.transport.actions, a.serves = false := by
    rw [ready.idle]
    nofun
  have polled : Progress fits b b.toDevice
      { b with nowMs := nowMs, transport := b.transport.poll nowMs } := by
    have h : Progress fits { b with nowMs := nowMs } b.toDevice _ :=
      .called (c := .poll nowMs) trivial nofun
    exact ⟨rfl, h.sent, h.transport, h.unserved, rfl⟩
  unfold Bau.poll
  refine (drain_completed 1 polled (polled.unserved idle) carries).bind ?_
  intro c hc
  have same : SameButFlags b.toDevice c.toDevice := ⟨b.groupObjects, hc.device, rfl⟩
  split_ifs
  · have hcount : c.groupObjects.pendingCount < c.groupObjects.objects.length + 1 :=
      Nat.lt_succ_of_le List.countP_le_length
    have short : fits → ∀ go ∈ c.groupObjects.objects, go.data.length ≤ 254 :=
      fun hf => (hc.device ▸ modest hf : Modest c.toDevice).groupObjects
    refine (pollPending_yields hcount short).mono fun b' hb' => ⟨?_, ?_⟩
    · obtain ⟨e, frames, he, rfl⟩ := hb'
      exact same.trans he
    · refine ⟨hc.toProgress.trans hb'.progress, ?_⟩
      obtain ⟨e, frames, he, rfl⟩ := hb'
      exact hc.idle
  · exact .ok ⟨same, hc.device.symm ▸ hc⟩

/-! ## Runs -/

/-- The calls a host makes to hand a frame or the time to the unit. -/
inductive Event where
  | frame (frame : CemiFrame) (nowMs : UInt64)
  | poll (nowMs : UInt64)

def Bau.handle (b : Bau) : Event → Except Fault Bau
  | .frame frame nowMs => b.processFrame frame nowMs
  | .poll nowMs => b.poll nowMs

abbrev Handles (b : Bau) (tr : List (Transition Bau Event)) (b' : Bau) : Prop :=
  Run (fun b e b' => b.handle e = .ok b') b tr b'

def Event.served (b : Bau) : Event → Option (UInt16 × AppIndication)
  | .frame received _ => BusAccessUnit.served b received
  | .poll _ => none

theorem handle_device (ready : Ready b) {event : Event} (h : b.handle event = .ok b') :
    match event with
    | .frame frame _ => b'.toDevice = deviceAfter b frame
    | .poll _ => SameButFlags b.toDevice b'.toDevice := by
  have carries : Carries (Short False) b.transport := .of_forall short_unlimited _
  cases event with
  | frame frame nowMs =>
    exact ((processFrame_completed ready carries False.elim frame nowMs False.elim).post b'
      h).device
  | poll nowMs => exact ((poll_completed ready carries False.elim nowMs).post b' h).1

theorem handle_ready {event : Event} (ready : Ready b) (h : b.handle event = .ok b') :
    Ready b' := by
  have carries : Carries (Short False) b.transport := .of_forall short_unlimited _
  cases event with
  | frame frame nowMs =>
    exact ((processFrame_completed ready carries False.elim frame nowMs False.elim).post b'
      h).ready ready
  | poll nowMs => exact ((poll_completed ready carries False.elim nowMs).post b' h).2.ready ready

/-- Runs that the host takes part in: between two calls it may change the device, through the
    references it is given, and take frames out of the outbox. -/
inductive Input where
  | event (event : Event)
  | host (device : Device) (outbox : List CemiFrame)

def Operates (b : Bau) : Input → Bau → Prop
  | .event event, b' => b.handle event = .ok b'
  | .host device outbox, b' => b' = { b with toDevice := device, outbox := outbox }

theorem operates_ready {input : Input} (ready : Ready b) (h : Operates b input b') :
    Ready b' := by
  cases input with
  | event event => exact handle_ready ready h
  | host device outbox =>
    obtain rfl : b' = { b with toDevice := device, outbox := outbox } := h
    exact ⟨ready.idle, ready.answering, ready.passive, ready.consistent⟩

/-- The states a unit can be in: after any run from its construction. -/
def Reachable (b : Bau) : Prop :=
  ∃ device count size tr, Run Operates (.new device count size) tr b

theorem Reachable.ready (h : Reachable b) : Ready b := by
  obtain ⟨device, count, size, tr, run⟩ := h
  exact run.invariant (fun _ => True) (ofDevice_ready _) (fun _ _ => trivial)
    (fun _ hx _ hstep => operates_ready hx hstep)

theorem Handles.reachable {device : InterfaceObject} {count : UInt16} {size : Nat}
    {tr : List (Transition Bau Event)} (h : Handles (.new device count size) tr b) :
    Reachable b := by
  suffices lift : ∀ {s t : Bau} {tr : List (Transition Bau Event)}, Handles s tr t →
      ∃ tr', Run Operates s tr' t by
    obtain ⟨tr', run⟩ := lift h
    exact ⟨device, count, size, tr', run⟩
  intro s t tr run
  induction run with
  | refl s => exact ⟨[], .refl s⟩
  | @next s u t event tr hstep _ ih =>
    obtain ⟨tr', run⟩ := ih
    exact ⟨⟨s, .event event, u⟩ :: tr', .next (e := .event event) hstep run⟩

def Bau.handleIf (check : Bau → Event → Bool) (b : Bau) (event : Event) : Option Bau :=
  if check b event then (b.handle event).toOption else none

/-- Calls that all pass the check and return make a run. -/
theorem handles_of_checked {check : Bau → Event → Bool} {events : List Event}
    (h : events.foldlM (Bau.handleIf check) b = some b') :
    ∃ tr, Handles b tr b' ∧ tr.map Transition.event = events ∧
      ∀ x ∈ tr, check x.source x.event = true := by
  induction events generalizing b with
  | nil =>
    obtain rfl : b = b' := Option.some.inj h
    exact ⟨[], .refl b, rfl, fun _ hx => absurd hx List.not_mem_nil⟩
  | cons event events ih =>
    rw [List.foldlM_cons] at h
    obtain ⟨c, hc, hrest⟩ := Option.bind_eq_some_iff.mp h
    unfold Bau.handleIf at hc
    split_ifs at hc with hcheck
    obtain ⟨tr, run, he, hall⟩ := ih hrest
    exact ⟨⟨b, event, c⟩ :: tr, .next (toOption_ok hc) run, congrArg _ he,
      List.forall_mem_cons.mpr ⟨hcheck, hall⟩⟩

/-! ## A unit with the standard objects -/

def standardBau : Bau :=
  .new (newDeviceObject ⟨[0x00, 0xFA, 0x01, 0x02, 0x03, 0x04], rfl⟩ ⟨List.replicate 6 0, rfl⟩) 1 1

/-! ## Telegrams

Octets as the bus delivers them: to the default individual address of the unit, to
that of another device, and a broadcast. -/

def progModeOn : CemiFrame :=
  ⟨[0x29, 0x00, 0xB0, 0x60, 0x11, 0x02, 0xFF, 0xFF, 0x06,
    0x03, 0xD7, 0x00, 0x36, 0x10, 0x01, 0x01], 2, withoutInfo rfl, rfl⟩

def connectToDevice : CemiFrame :=
  ⟨[0x29, 0x00, 0xB0, 0x60, 0x11, 0x02, 0xFF, 0xFF, 0x00, 0x80, 0x00], 2, withoutInfo rfl, rfl⟩

/-- `A_IndividualAddress_Write` of 1.2.52, numbered and to the device. -/
def connectedAddressWrite : CemiFrame :=
  ⟨[0x29, 0x00, 0xB0, 0x60, 0x11, 0x02, 0xFF, 0xFF, 0x03, 0x40, 0xC0, 0x12, 0x34], 2,
    withoutInfo rfl, rfl⟩

def broadcastAddressWrite : CemiFrame :=
  ⟨[0x29, 0x00, 0xB0, 0xE0, 0x11, 0x02, 0x00, 0x00, 0x03, 0x00, 0xC0, 0x12, 0x34], 2,
    withoutInfo rfl, rfl⟩

/-- `T_Connect`, and numbered `A_Memory_Write` of one octet, both to address 2.2.34. -/
def foreignConnect : CemiFrame :=
  ⟨[0x29, 0x00, 0xB0, 0x60, 0x11, 0x02, 0x22, 0x22, 0x00, 0x80, 0x00], 2, withoutInfo rfl, rfl⟩

def foreignWrite : CemiFrame :=
  ⟨[0x29, 0x00, 0xB0, 0x60, 0x11, 0x02, 0x22, 0x22, 0x04, 0x42, 0x81, 0x00, 0x00, 0x07], 2,
    withoutInfo rfl, rfl⟩

/-- `A_MemoryExtended_Write` of one octet, to the default individual address. -/
def memoryWriteFrame (address value : UInt8) : Event :=
  .frame ⟨[0x29, 0x00, 0xB0, 0x60, 0x11, 0x02, 0xFF, 0xFF, 0x06,
    0x01, 0xFB, 0x01, 0x00, 0x00, address, value], 2, withoutInfo rfl, rfl⟩ 0

def extendedWrite (address : UInt8) : Event := memoryWriteFrame address 0x07

def extendedRead (count : UInt8) : Event :=
  .frame ⟨[0x29, 0x00, 0xB0, 0x60, 0x11, 0x02, 0xFF, 0xFF, 0x05,
    0x01, 0xFD, count, 0x00, 0x00, 0x00], 2, withoutInfo rfl, rfl⟩ 0

/-- `A_PropertyValue_Write` of a load event, to the default individual address. -/
def loadEventFrame (objectIndex event : UInt8) : Event :=
  .frame ⟨[0x29, 0x00, 0xB0, 0x60, 0x11, 0x02, 0xFF, 0xFF, 0x06,
    0x03, 0xD7, objectIndex, 0x05, 0x10, 0x01, event], 2, withoutInfo rfl, rfl⟩ 0

/-- `A_PropertyValue_Write` of `AdditionalLoadControls`, with or without a fill. -/
def allocationFrame (objectIndex fill : UInt8) (size : UInt32) : Event :=
  .frame ⟨[0x29, 0x00, 0xB0, 0x60, 0x11, 0x02, 0xFF, 0xFF, 0x0D,
    0x03, 0xD7, objectIndex, 0x05, 0x10, 0x01,
    0x03, 0x0B, (size >>> 24).toUInt8, (size >>> 16).toUInt8, (size >>> 8).toUInt8,
    size.toUInt8, fill, 0x00], 2, withoutInfo rfl, rfl⟩ 0

def groupRead : CemiFrame :=
  ⟨[0x29, 0x00, 0xBC, 0xE0, 0x11, 0x02, 0x08, 0x01, 0x01, 0x00, 0x00], 2, withoutInfo rfl, rfl⟩

end KnxRs.BusAccessUnit
