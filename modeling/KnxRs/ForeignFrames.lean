import KnxRs.BauSteps

set_option autoImplicit false

/-!
# Frames for other devices

Which frames that are not for the device leave it as it is, down to the connection
and the outbox. Only data without a number is checked for its destination.
-/
namespace KnxRs.BusAccessUnit
open CoreTypes GroupObjects ApduCodec TpduCodec CemiCodec AppParse AppEncode
open Transport DeviceState Fallible

/-- Individually addressed to another device, or a group-addressed control TPDU. -/
def Foreign (b : Bau) (frame : CemiFrame) : Prop :=
  (frame.addressType = .individual ∧ frame.destinationAddressRaw ≠ b.individualAddress.raw) ∨
    (frame.addressType = .group ∧ ∃ tpduType seqNo, frame.tpdu = some (.control tpduType seqNo))

/-- The frame changes neither the device nor the transport layer, and nothing is queued. -/
def Untouched (b : Bau) (frame : CemiFrame) (nowMs : UInt64) : Prop :=
  ∃ b', b.processFrame frame nowMs = .ok b' ∧ b'.toDevice = b.toDevice ∧
    b'.transport = b.transport ∧ b'.outbox = b.outbox

def ignoresControl (t : TransportLayer (List UInt8)) (source : IndividualAddress)
    (tpduType : TpduType) (seqNo : UInt8) : Bool :=
  match tpduType with
  | .connect => t.state ≠ .closed ∧ source = t.connectionAddress
  | .disconnect => t.state = .closed ∨ source ≠ t.connectionAddress
  | .ack => t.state ≠ .openWait ∨ source ≠ t.connectionAddress
  | .nack => t.state = .closed ∨ source ≠ t.connectionAddress ∨
      (t.state = .openWait ∧ seqNo ≠ t.seqNoSend)
  | _ => true

/-- The foreign frames that leave the unit as it is: confirmations no group object waits for,
    data without a number, and TPDUs the transport layer drops for their source or number. -/
def ignored (b : Bau) (frame : CemiFrame) : Bool :=
  if isConfirmation frame then
    frame.addressType = .individual ∨
      ((List.range' 1 b.groupObjects.count.toNat).map UInt16.ofNat).all
        (fun asap => !b.transmittingTo frame.destinationAddressRaw asap)
  else match frame.tpdu with
  | none => true
  | some (.data tpduType _ _) =>
    tpduType ≠ .dataConnected ∨ b.transport.state = .closed ∨
      frame.sourceAddress ≠ b.transport.connectionAddress
  | some (.control tpduType seqNo) =>
    ignoresControl b.transport frame.sourceAddress tpduType seqNo

def within (b : Bau) (nowMs : UInt64) (t : TransportLayer (List UInt8)) : Bau :=
  { b with nowMs := nowMs, transport := t }

variable {b b' : Bau} {frame : CemiFrame}

/-! ## Everything sent stays sent -/

theorem runAction_sent (b : Bau) (a : Action (List UInt8)) :
    Yields False (fun b' => b.outbox <+: b'.outbox) (b.runAction a) := by
  cases hs : a.serves with
  | false =>
    refine (runAction_unserved hs fun _ _ => short_unlimited _).mono ?_
    rintro _ ⟨frames, rfl⟩
    exact List.prefix_append ..
  | true =>
    cases a with
    | dataConnectedIndication source priority apdu =>
      dsimp only [Bau.runAction]
      split
      · next indication _ =>
        unfold Bau.dispatchConnectedIndication
        refine Yields.bind (Q := fun _ => True) ⟨fun _ _ => trivial, False.elim⟩ fun dummy _ => ?_
        exact Yields.bind (dispatchIndication_progress
          (b := { b with answeringConnection := some source }) False.elim dummy source indication
          False.elim) fun c hc => .ok hc.sent
      · exact .ok List.prefix_rfl
    | _ => cases hs

theorem foldlM_sent (b : Bau) (actions : List (Action (List UInt8))) :
    Yields False (fun b' => b.outbox <+: b'.outbox) (actions.foldlM Bau.runAction b) :=
  Yields.foldlM (fun a _ c hc => (runAction_sent c a).mono fun _ h => hc.trans h) List.prefix_rfl

theorem drain_sent (rounds : Nat) (b : Bau) :
    Yields False (fun b' => b.outbox <+: b'.outbox) (Bau.drainTransportActions rounds b) := by
  induction rounds generalizing b with
  | zero =>
    refine ⟨fun c hc => ?_, False.elim⟩
    rw [Bau.drainTransportActions] at hc
    cases hc
  | succ n ih =>
    unfold Bau.drainTransportActions
    dsimp only
    split_ifs
    · exact .ok List.prefix_rfl
    · exact (foldlM_sent _ _).bind fun c hc => (ih c).mono fun _ h => hc.trans h

theorem drain_sendControl (rounds : Nat) {destination : IndividualAddress} {tpduType : TpduType}
    {seqNo : UInt8} {rest : List (Action (List UInt8))}
    (h : b.transport.actions = .sendControl destination tpduType seqNo :: rest) :
    Yields False (fun b' => b'.outbox ≠ b.outbox)
      (Bau.drainTransportActions (rounds + 1) b) := by
  unfold Bau.drainTransportActions
  dsimp only
  rw [show b.transport.takeActions.1 = _ from h, if_neg (List.cons_ne_nil _ _),
    List.foldlM_cons]
  have first := pushFrame_yields { b with transport := b.transport.takeActions.2 }
    (.individual destination) .system (short_unlimited (encodeControl tpduType seqNo))
  have all : Yields False (fun c : Bau => ∃ frame, b.outbox ++ [frame] <+: c.outbox)
      (Bau.runAction { b with transport := b.transport.takeActions.2 }
        (.sendControl destination tpduType seqNo) >>= fun c => rest.foldlM Bau.runAction c) := by
    refine first.bind ?_
    rintro _ ⟨frame, rfl⟩
    exact (foldlM_sent _ rest).mono fun c hc => ⟨frame, hc⟩
  refine all.bind fun c hc => (drain_sent rounds c).mono fun d hd he => ?_
  obtain ⟨frame, hc⟩ := hc
  have hlen := (hc.trans hd).length_le
  rw [he, List.length_append] at hlen
  exact Nat.not_succ_le_self _ hlen

/-! ## The transport layer -/

def controlIndication (t : TransportLayer (List UInt8)) (source : IndividualAddress)
    (tpduType : TpduType) (seqNo : UInt8) (nowMs : UInt64) : TransportLayer (List UInt8) :=
  match tpduType with
  | .connect => t.connectIndication source nowMs
  | .disconnect => t.disconnectIndication source
  | .ack => t.ackIndication source seqNo nowMs
  | .nack => t.nackIndication source seqNo nowMs
  | _ => t

section
variable {t : TransportLayer (List UInt8)} {source : IndividualAddress} {tpduType : TpduType}
  {seqNo : UInt8}

theorem controlIndication_ignored (passive : t.state ≠ .connecting)
    (h : ignoresControl t source tpduType seqNo = true) (nowMs : UInt64) :
    controlIndication t source tpduType seqNo nowMs = t := by
  cases tpduType with
  | connect =>
    obtain ⟨hst, hs⟩ := of_decide_eq_true h
    change t.connectIndication source nowMs = t
    rw [TransportLayer.connectIndication, if_neg hst, if_pos hs]
  | disconnect =>
    change t.disconnectIndication source = t
    rw [TransportLayer.disconnectIndication, if_pos (of_decide_eq_true h).symm]
  | ack =>
    change t.ackIndication source seqNo nowMs = t
    rw [TransportLayer.ackIndication, if_neg passive]
    by_cases hs : source = t.connectionAddress
    · have hst := (of_decide_eq_true h).resolve_right (not_not_intro hs)
      rw [if_neg (not_not_intro hs)]
      cases hstate : t.state with
      | openWait => exact absurd hstate hst
      | connecting => exact absurd hstate passive
      | closed | openIdle => rfl
    · rw [if_pos hs]
  | nack =>
    change t.nackIndication source seqNo nowMs = t
    rw [TransportLayer.nackIndication, if_neg passive]
    by_cases hs : source = t.connectionAddress
    · rw [if_neg (not_not_intro hs)]
      rcases of_decide_eq_true h with hst | hst | ⟨hst, hseq⟩
      · rw [hst]
      · exact absurd hs hst
      · rw [hst]
        exact if_pos hseq
    · rw [if_pos hs]
  | _ => rfl

/-- A control TPDU that is not dropped is answered at once, or shows in the connection's
    state or its repetition count. -/
theorem controlIndication_shows (idle : t.actions = []) (passive : t.state ≠ .connecting)
    (h : ignoresControl t source tpduType seqNo = false) (nowMs : UInt64) :
    (∃ destination type number rest,
      (controlIndication t source tpduType seqNo nowMs).actions =
        .sendControl destination type number :: rest) ∨
    (controlIndication t source tpduType seqNo nowMs).state ≠ t.state ∨
    (controlIndication t source tpduType seqNo nowMs).repCount ≠ t.repCount := by
  cases tpduType with
  | connect =>
    have hn := of_decide_eq_false h
    change (∃ _ _ _ _, (t.connectIndication source nowMs).actions = _) ∨ _
    change _ ∨ (t.connectIndication source nowMs).state ≠ _ ∨ _
    by_cases hst : t.state = .closed
    · refine .inr (.inl ?_)
      rw [TransportLayer.connectIndication, if_pos hst, hst]
      nofun
    · refine .inl ⟨source, .disconnect, 0, [], ?_⟩
      have hs : source ≠ t.connectionAddress := fun hs => hn ⟨hst, hs⟩
      rw [TransportLayer.connectIndication, if_neg hst, if_neg hs,
        TransportLayer.a10RejectForeign_actions, idle]
      rfl
  | disconnect =>
    have hn := not_or.mp (of_decide_eq_false h)
    refine .inr (.inl ?_)
    change (t.disconnectIndication source).state ≠ t.state
    rw [TransportLayer.disconnectIndication, if_neg (fun h => hn.2 (h.resolve_right hn.1))]
    exact fun he => hn.1 he.symm
  | ack =>
    obtain ⟨hst, hs⟩ := not_or.mp (of_decide_eq_false h)
    rw [Decidable.not_not] at hst hs
    refine .inr (.inl ?_)
    change (t.ackIndication source seqNo nowMs).state ≠ t.state
    rw [TransportLayer.ackIndication, if_neg (not_not_intro hs), hst]
    dsimp only
    split_ifs
    · nofun
    · nofun
  | nack =>
    obtain ⟨hclosed, hn⟩ := not_or.mp (of_decide_eq_false h)
    obtain ⟨hs, hwait⟩ := not_or.mp hn
    rw [Decidable.not_not] at hs
    refine .inr ?_
    change (t.nackIndication source seqNo nowMs).state ≠ t.state ∨
      (t.nackIndication source seqNo nowMs).repCount ≠ t.repCount
    rw [TransportLayer.nackIndication, if_neg (not_not_intro hs)]
    cases hst : t.state with
    | closed => exact absurd hst hclosed
    | connecting => exact absurd hst passive
    | openIdle => exact .inl nofun
    | openWait =>
      dsimp only
      rw [if_neg (fun hseq => hwait ⟨hst, hseq⟩)]
      split_ifs
      · refine .inr ?_
        rw [a9Retransmit_eq]
        intro he
        have := congrArg UInt8.toNat he
        rw [UInt8.toNat_add] at this
        have hlt := t.repCount.toNat_lt
        have hone : (1 : UInt8).toNat = 1 := rfl
        omega
      · exact .inl nofun
  | _ => cases h

theorem dataConnectedIndication_ignored {priority : Priority} {apdu : List UInt8}
    (passive : t.state ≠ .connecting)
    (h : t.state = .closed ∨ source ≠ t.connectionAddress) (nowMs : UInt64) :
    t.dataConnectedIndication source seqNo priority apdu nowMs = t := by
  rw [TransportLayer.dataConnectedIndication, if_neg passive]
  by_cases hs : source = t.connectionAddress
  · rw [if_neg (not_not_intro hs), h.resolve_right (not_not_intro hs)]
  · rw [if_pos hs]

theorem dataConnectedIndication_answered (seqNo : UInt8) (priority : Priority)
    (apdu : List UInt8) (idle : t.actions = []) (passive : t.state ≠ .connecting)
    (hst : t.state ≠ .closed) (hs : source = t.connectionAddress) (nowMs : UInt64) :
    ∃ destination type number rest,
      (t.dataConnectedIndication source seqNo priority apdu nowMs).actions =
        .sendControl destination type number :: rest := by
  rw [TransportLayer.dataConnectedIndication, if_neg (not_not_intro hs)]
  cases hstate : t.state with
  | closed => exact absurd hstate hst
  | connecting => exact absurd hstate passive
  | openIdle | openWait =>
    dsimp only
    split_ifs
    · rw [TransportLayer.a2ReceiveData_actions, idle]
      exact ⟨_, _, _, _, rfl⟩
    · rw [TransportLayer.a3AckRepeated_actions, idle]
      exact ⟨_, _, _, _, rfl⟩
    · rw [TransportLayer.a4NackWrongSeq_actions, idle]
      exact ⟨_, _, _, _, rfl⟩

end

/-! ## Confirmations -/

theorem confirmTransmission_waited {d : Device} {ga asap : UInt16} {success : Bool}
    (h : ((List.range' 1 d.groupObjects.count.toNat).map UInt16.ofNat).find?
      (d.transmittingTo ga) = some asap) :
    (d.confirmTransmission ga success).groupObjects ≠ d.groupObjects := by
  have hwait := List.find?_some h
  unfold Device.transmittingTo at hwait
  obtain ⟨hget, _⟩ := Bool.and_eq_true_iff.mp hwait
  obtain ⟨go, hgo, hflag⟩ := (Option.any_eq_true _ _).mp hget
  have hflag' : go.commFlag = .transmitting := of_decide_eq_true hflag
  unfold GroupObjectStore.get at hgo
  split_ifs at hgo with hz
  unfold Device.confirmTransmission
  rw [h]
  intro he
  have hobjects := congrArg (fun s : GroupObjectStore => s.objects[asap.toNat - 1]?) he
  dsimp only at hobjects
  rw [GroupObjectStore.modify_objects _ hz, List.getElem?_modify, hgo] at hobjects
  have hsame := congrArg GroupObject.commFlag (Option.some.inj hobjects)
  simp only [↓reduceIte, GroupObject.transmitDone, hflag'] at hsame
  split_ifs at hsame

theorem confirmTransmission_unwaited {d : Device} {ga : UInt16}
    (h : ((List.range' 1 d.groupObjects.count.toNat).map UInt16.ofNat).find?
      (d.transmittingTo ga) = none) (success : Bool) : d.confirmTransmission ga success = d := by
  unfold Device.confirmTransmission
  rw [h]

theorem confirmation_untouched_iff (hcon : isConfirmation frame = true) (nowMs : UInt64) :
    Untouched b frame nowMs ↔ ignored b frame = true := by
  have hframe : b.processFrame frame nowMs =
      .ok (Bau.handleTransmitConfirmation { b with nowMs := nowMs } frame) := by
    unfold Bau.processFrame
    exact if_pos (of_decide_eq_true hcon)
  have hignored : ignored b frame = true ↔ frame.addressType = .individual ∨
      ((List.range' 1 b.groupObjects.count.toNat).map UInt16.ofNat).find?
        (b.transmittingTo frame.destinationAddressRaw) = none := by
    unfold ignored
    rw [if_pos hcon, decide_eq_true_iff, List.all_eq_true, List.find?_eq_none]
    simp only [Bool.not_eq_true']
    simp only [Bool.not_eq_true]
  rw [hignored]
  unfold Untouched
  rw [hframe]
  unfold Bau.handleTransmitConfirmation
  cases htype : frame.addressType with
  | individual => exact ⟨fun _ => .inl rfl, fun _ => ⟨_, rfl, rfl, rfl, rfl⟩⟩
  | group =>
    rw [if_neg (not_not_intro rfl)]
    constructor
    · rintro ⟨c, hc, hdevice, -⟩
      cases Except.ok.inj hc
      refine .inr ?_
      cases hfind : ((List.range' 1 b.groupObjects.count.toNat).map UInt16.ofNat).find?
          (b.transmittingTo frame.destinationAddressRaw) with
      | none => rfl
      | some asap =>
        exact absurd (congrArg Device.groupObjects hdevice) (confirmTransmission_waited hfind)
    · intro h
      have hnone := h.resolve_left nofun
      exact ⟨_, rfl, confirmTransmission_unwaited hnone _, rfl, rfl⟩

/-! ## All foreign frames -/

theorem processFrame_tpdu (hcon : isConfirmation frame = false) (nowMs : UInt64) :
    b.processFrame frame nowMs = match frame.tpdu with
      | none => .ok { b with nowMs := nowMs }
      | some (.control tpduType seqNo) =>
        Bau.drainTransportActions 3 (within b nowMs
          (controlIndication b.transport frame.sourceAddress tpduType seqNo nowMs))
      | some (.data tpduType seqNo apdu) =>
        Bau.processDataTpdu { b with nowMs := nowMs } frame tpduType seqNo apdu nowMs >>=
          Bau.drainTransportActions 3 := by
  unfold Bau.processFrame
  dsimp only
  rw [if_neg (of_decide_eq_false hcon)]
  cases frame.tpdu with
  | none => rfl
  | some tpdu =>
    cases tpdu with
    | data => rfl
    | control tpduType seqNo => cases tpduType <;> rfl

theorem drain_same (ready : Ready b) {t : TransportLayer (List UInt8)} (h : t = b.transport)
    (nowMs : UInt64) : Bau.drainTransportActions 3 (within b nowMs t) =
      .ok { b with nowMs := nowMs } := by
  subst h
  exact drain_idle (b := { b with nowMs := nowMs }) 2 ready.idle

theorem control_untouched_iff (ready : Ready b) (hcon : isConfirmation frame = false)
    {tpduType : TpduType} {seqNo : UInt8} (htpdu : frame.tpdu = some (.control tpduType seqNo))
    (nowMs : UInt64) : Untouched b frame nowMs ↔ ignored b frame = true := by
  have hignored : ignored b frame =
      ignoresControl b.transport frame.sourceAddress tpduType seqNo := by
    unfold ignored
    rw [hcon, htpdu]
    rfl
  unfold Untouched
  rw [hignored, processFrame_tpdu hcon, htpdu]
  dsimp only
  constructor
  · rintro ⟨c, hc, -, htransport, houtbox⟩
    by_contra hne
    rw [Bool.not_eq_true] at hne
    rcases controlIndication_shows ready.idle ready.passive hne nowMs with
      ⟨_, _, _, _, hactions⟩ | hshows
    · exact (drain_sendControl (b := within b nowMs _) 2 hactions).post c hc houtbox
    · have hs : ∀ a ∈ (controlIndication b.transport frame.sourceAddress tpduType seqNo
          nowMs).actions, a.serves = false := by
        have progress : Progress False b b.toDevice
            (b.processControlTpdu frame tpduType seqNo nowMs) :=
          processControlTpdu_progress b frame tpduType seqNo nowMs
        have h := progress.unserved (by rw [ready.idle]; nofun)
        have he : (b.processControlTpdu frame tpduType seqNo nowMs).transport =
            controlIndication b.transport frame.sourceAddress tpduType seqNo nowMs := by
          cases tpduType <;> rfl
        exact he ▸ h
      obtain ⟨frames, he⟩ := (drain_unserved 1 (b := within b nowMs _) hs
        (.of_forall short_unlimited _)).post c hc
      have htaken : (controlIndication b.transport frame.sourceAddress tpduType seqNo
          nowMs).takeActions.2 = b.transport := (congrArg Bau.transport he).symm.trans htransport
      have hstate := congrArg TransportLayer.state htaken
      have hrep := congrArg TransportLayer.repCount htaken
      rcases hshows with hne | hne
      · exact hne hstate
      · exact hne hrep
  · intro h
    rw [drain_same ready (controlIndication_ignored ready.passive h nowMs)]
    exact ⟨_, rfl, rfl, rfl, rfl⟩

theorem connected_untouched_iff (ready : Ready b) (hcon : isConfirmation frame = false)
    {seqNo : UInt8} {apdu : Apdu} (htpdu : frame.tpdu = some (.data .dataConnected seqNo apdu))
    (nowMs : UInt64) : Untouched b frame nowMs ↔ ignored b frame = true := by
  have hignored : ignored b frame = true ↔ b.transport.state = .closed ∨
      frame.sourceAddress ≠ b.transport.connectionAddress := by
    unfold ignored
    rw [hcon, htpdu]
    simp
  have hframe : b.processFrame frame nowMs = Bau.drainTransportActions 3 (within b nowMs
      (b.transport.dataConnectedIndication frame.sourceAddress seqNo frame.priority
        (encodeRawApdu apdu) nowMs)) := by
    rw [processFrame_tpdu hcon, htpdu]
    rfl
  unfold Untouched
  rw [hignored, hframe]
  constructor
  · rintro ⟨c, hc, -, -, houtbox⟩
    by_contra hne
    obtain ⟨hst, hs⟩ := not_or.mp hne
    obtain ⟨_, _, _, _, hactions⟩ := dataConnectedIndication_answered seqNo frame.priority
      (encodeRawApdu apdu) ready.idle ready.passive hst (Decidable.not_not.mp hs) nowMs
    exact (drain_sendControl (b := within b nowMs _) 2 hactions).post c hc houtbox
  · intro h
    rw [drain_same ready (dataConnectedIndication_ignored ready.passive h nowMs)]
    exact ⟨_, rfl, rfl, rfl, rfl⟩

theorem plain_untouched (ready : Ready b) (hcon : isConfirmation frame = false)
    {tpduType : TpduType} {seqNo : UInt8} {apdu : Apdu}
    (htpdu : frame.tpdu = some (.data tpduType seqNo apdu)) (htype : tpduType ≠ .dataConnected)
    (hind : frame.addressType = .individual)
    (hdst : frame.destinationAddressRaw ≠ b.individualAddress.raw) (nowMs : UInt64) :
    Untouched b frame nowMs := by
  have hscope (indication : AppIndication) :
      Bau.indicationInScope { b with nowMs := nowMs } frame indication = false := by
    unfold Bau.indicationInScope
    simp only [hind]
    cases Bau.requiredScope indication with
    | group | broadcast => rfl
    | individual => simpa using hdst
  have hdata : Bau.processDataTpdu { b with nowMs := nowMs } frame tpduType seqNo apdu nowMs =
      .ok { b with nowMs := nowMs } := by
    unfold Bau.processDataTpdu
    dsimp only
    rw [if_neg htype]
    split
    · rfl
    · next indication _ => rw [hscope indication, if_neg Bool.false_ne_true]
  refine ⟨{ b with nowMs := nowMs }, ?_, rfl, rfl, rfl⟩
  rw [processFrame_tpdu hcon, htpdu]
  dsimp only
  rw [hdata]
  exact drain_same ready rfl nowMs

/-- A foreign frame leaves the unit as it is exactly when it is one of the ignored ones. -/
theorem foreign_untouched_iff (reachable : Reachable b) (foreign : Foreign b frame)
    (nowMs : UInt64) : Untouched b frame nowMs ↔ ignored b frame = true := by
  have ready := reachable.ready
  by_cases hcon : isConfirmation frame = true
  · exact confirmation_untouched_iff hcon nowMs
  rw [Bool.not_eq_true] at hcon
  cases htpdu : frame.tpdu with
  | none =>
    unfold Untouched ignored
    rw [processFrame_tpdu hcon, hcon, htpdu]
    exact ⟨fun _ => rfl, fun _ => ⟨_, rfl, rfl, rfl, rfl⟩⟩
  | some tpdu =>
    cases tpdu with
    | control tpduType seqNo => exact control_untouched_iff ready hcon htpdu nowMs
    | data tpduType seqNo apdu =>
      by_cases htype : tpduType = .dataConnected
      · subst htype
        exact connected_untouched_iff ready hcon htpdu nowMs
      · have hdst : frame.addressType = .individual ∧
            frame.destinationAddressRaw ≠ b.individualAddress.raw := by
          rcases foreign with h | ⟨_, _, _, hcontrol⟩
          · exact h
          · rw [htpdu] at hcontrol
            cases hcontrol
        have hignored : ignored b frame = true := by
          unfold ignored
          rw [hcon, htpdu]
          simp [htype]
        exact ⟨fun _ => hignored,
          fun _ => plain_untouched ready hcon htpdu htype hdst.1 hdst.2 nowMs⟩

/-! ## A connection meant for another device -/

/-- Once the connection is open, connecting again changes nothing. -/
theorem foreign_reconnect_untouched : ∃ b, Handles standardBau
    [⟨standardBau, .frame foreignConnect 0, b⟩] b ∧ Foreign b foreignConnect ∧
      Untouched b foreignConnect 1 := by
  obtain ⟨b, hb⟩ := eq_ok (r := standardBau.handle (.frame foreignConnect 0)) (by decide +kernel)
  have hstate : (standardBau.handle (.frame foreignConnect 0)).toOption.map (fun b =>
      (b.individualAddress.raw, ignored b foreignConnect)) = some (0xFFFF, true) := by
    decide +kernel
  rw [hb] at hstate
  obtain ⟨haddress, hignored⟩ := Prod.mk.inj (Option.some.inj hstate)
  have run : Handles standardBau [⟨standardBau, .frame foreignConnect 0, b⟩] b :=
    .next hb (.refl b)
  have foreign : Foreign b foreignConnect := by
    refine .inl ⟨by decide +kernel, ?_⟩
    rw [haddress]
    decide +kernel
  exact ⟨b, run, foreign, (foreign_untouched_iff run.reachable foreign 1).mpr hignored⟩

/-- The connection another device was asked for is opened, and what is sent on it is done. -/
theorem foreign_connection_served : ∃ b b',
    Handles standardBau [⟨standardBau, .frame foreignConnect 0, b⟩] b ∧
      Foreign standardBau foreignConnect ∧ ¬ Untouched standardBau foreignConnect 0 ∧
      Foreign b foreignWrite ∧ b.processFrame foreignWrite 1 = .ok b' ∧
      b.memoryArea = [] ∧ b'.memoryArea = [0x07] := by
  obtain ⟨b, hb⟩ := eq_ok (r := standardBau.handle (.frame foreignConnect 0)) (by decide +kernel)
  have hstate : (standardBau.handle (.frame foreignConnect 0)).toOption.map (fun b =>
      (b.transport.state, b.individualAddress.raw, b.memoryArea,
        (b.processFrame foreignWrite 1).toOption.map (fun b' => b'.memoryArea))) =
      some (.openIdle, 0xFFFF, [], some [0x07]) := by
    decide +kernel
  rw [hb] at hstate
  simp only [Except.toOption, Option.map_some, Option.some.injEq, Prod.mk.injEq] at hstate
  obtain ⟨hopen, haddress, hmem, hwrite⟩ := hstate
  have foreign (c : Bau) (frame : CemiFrame) (htype : frame.addressType = .individual)
      (hdst : frame.destinationAddressRaw = 0x2222) (hc : c.individualAddress.raw = 0xFFFF) :
      Foreign c frame := by
    refine .inl ⟨htype, ?_⟩
    rw [hdst, hc]
    decide
  cases hb' : b.processFrame foreignWrite 1 with
  | error fault =>
    rw [hb'] at hwrite
    cases hwrite
  | ok b' =>
  rw [hb'] at hwrite
  refine ⟨b, b', .next hb (.refl b), ?_, ?_, ?_, hb', hmem, Option.some.inj hwrite⟩
  · exact foreign _ _ (by decide +kernel) (by decide +kernel) (by decide +kernel)
  · rintro ⟨c, hc, -, htransport, -⟩
    obtain rfl : b = c := Except.ok.inj (hb.symm.trans hc)
    rw [htransport] at hopen
    cases hopen
  · exact foreign _ _ (by decide +kernel) (by decide +kernel) haddress

end KnxRs.BusAccessUnit
