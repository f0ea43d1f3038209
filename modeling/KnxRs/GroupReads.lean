import KnxRs.ObjectRuns

set_option autoImplicit false

/-!
# Answers to group reads

What is queued for a read that is served: at most a response with the value of an object
that counts as initialized. Such an object has been assigned a value in every run that sets
no flag of an uninitialized object alone; with such a call an object of zeros answers.
-/
namespace KnxRs.BusAccessUnit
open CoreTypes GroupObjects InterfaceObjects ApduCodec TpduCodec CemiCodec AppParse AppEncode
open DptCodec GroupTables Transport MemoryStore DeviceState Fallible Runs

def AnswersWith (b : Bau) (dst : UInt16) (go : GroupObject) (frame : CemiFrame) : Prop :=
  ∃ payload, encodeGroupValueResponseForDpt go.dpt go.data = .ok payload ∧
    CemiFrame.newLData .lDataReq b.individualAddress (.group ⟨dst⟩) .low payload = .ok frame

/-- Of the frames that are queued, each to a group has the value of an initialized object. -/
def ReadsInitialized (b : Bau) (dst : UInt16) (b' : Bau) : Prop :=
  ∃ frames, b'.outbox = b.outbox ++ frames ∧ ∀ frame ∈ frames, frame.addressType = .group →
    ∃ asap go, b.groupObjects.get asap = some go ∧ go.initialized = true ∧
      AnswersWith b dst go frame

variable {b b' : Bau} {frame : CemiFrame} {nowMs : UInt64} {dst asap : UInt16}

theorem handleGroupValueRead_reads (b : Bau) (frame : CemiFrame) :
    Yields False (fun c => c.transport = b.transport ∧
      ReadsInitialized b frame.destinationAddressRaw c) (b.handleGroupValueRead frame) := by
  have nothing : ReadsInitialized b frame.destinationAddressRaw b :=
    ⟨[], (List.append_nil _).symm, fun _ h => absurd h List.not_mem_nil⟩
  unfold Bau.handleGroupValueRead
  dsimp only
  split
  · exact .ok ⟨rfl, nothing⟩
  · next tsap _ =>
    split
    · exact .ok ⟨rfl, nothing⟩
    · next go hgo =>
      obtain ⟨asap, hget, hinit⟩ := readableObject_some hgo
      unfold Bau.queueGroupValueResponse
      split
      · exact .ok ⟨rfl, nothing⟩
      · next payload hpayload =>
        unfold Bau.queueGroupFrame Bau.pushFrame
        refine Yields.map (Q := fun answer => CemiFrame.newLData .lDataReq b.individualAddress
          (.group ⟨frame.destinationAddressRaw⟩) .low payload = .ok answer)
          ⟨fun _ h => h, False.elim⟩ fun answer hanswer => ⟨rfl, [answer], rfl, ?_⟩
        intro f hf _
        obtain rfl := List.mem_singleton.mp hf
        exact ⟨asap, go, hget, hinit, payload, hpayload, hanswer⟩

theorem plain_read (ready : Ready b) {tpduType : TpduType} {seqNo : UInt8} {apdu : Apdu}
    (htype : tpduType ≠ .dataConnected)
    (hparse : parseIndication apdu.apduType apdu.data = .ok (.groupValueRead asap))
    (hscope : b.indicationInScope frame (.groupValueRead asap) = true) :
    Yields False (ReadsInitialized b frame.destinationAddressRaw)
      (Bau.processDataTpdu { b with nowMs := nowMs } frame tpduType seqNo apdu nowMs >>=
        Bau.drainTransportActions Bau.drainRounds) := by
  unfold Bau.processDataTpdu
  dsimp only
  rw [if_neg htype, hparse]
  show Yields False _ ((if b.indicationInScope frame (.groupValueRead asap) then
    Bau.handleGroupValueRead { b with nowMs := nowMs } frame else _) >>= _)
  rw [if_pos hscope]
  refine (handleGroupValueRead_reads { b with nowMs := nowMs } frame).bind fun c ⟨hidle, hreads⟩ => ?_
  rw [show Bau.drainRounds = 2 + 1 from rfl, drain_idle 2 (hidle ▸ ready.idle)]
  exact .ok hreads

theorem connected_dispatch (b : Bau) (source : IndividualAddress) :
    Yields False (fun c => c.transport = b.transport ∧
        ReadsInitialized b b.individualAddress.raw c)
      (b.dispatchConnectedIndication source (.groupValueRead asap)) := by
  unfold Bau.dispatchConnectedIndication
  have dummy : Yields False (fun frame : CemiFrame =>
      frame.destinationAddressRaw = b.individualAddress.raw)
      (CemiFrame.newLData .lDataInd source (.individual b.individualAddress) .system []) :=
    ⟨fun _ hf => newLData_destination hf, False.elim⟩
  refine dummy.bind fun frame hframe => ?_
  refine Yields.bind (handleGroupValueRead_reads
    { b with answeringConnection := some source } frame) fun c ⟨htransport, hreads⟩ => .ok ?_
  rw [hframe] at hreads
  exact ⟨htransport, hreads⟩

theorem acked_reads {destination : IndividualAddress} {tpduType : TpduType} {seqNo : UInt8} :
    Yields False (fun c : Bau => ∃ ack : CemiFrame, ack.addressType = .individual ∧
      c = { b with outbox := b.outbox ++ [ack] })
      (b.runAction (.sendControl destination tpduType seqNo)) := by
  dsimp only [Bau.runAction, Bau.queueControlFrame, Bau.pushFrame]
  refine Yields.map (Q := fun ack : CemiFrame => ack.addressType = .individual)
    ⟨fun ack hack => ?_, False.elim⟩ fun ack hack => ⟨ack, hack, rfl⟩
  exact (newLData_built hack).addressType_eq

theorem connected_read (ready : Ready b) {seqNo : UInt8} {apdu : Apdu}
    (hseq : inSequence b.transport frame.sourceAddress seqNo = true)
    (hparse : parseRawApdu (encodeRawApdu apdu) = .ok (.groupValueRead asap)) :
    Yields False (ReadsInitialized b b.individualAddress.raw)
      (Bau.processDataTpdu { b with nowMs := nowMs } frame .dataConnected seqNo apdu nowMs >>=
        Bau.drainTransportActions Bau.drainRounds) := by
  let received : Bau := { b with
    nowMs := nowMs
    transport := b.transport.dataConnectedIndication frame.sourceAddress seqNo frame.priority
      (encodeRawApdu apdu) nowMs }
  have hactions : received.transport.actions =
      [.sendControl frame.sourceAddress .ack b.transport.seqNoRecv,
        .dataConnectedIndication frame.sourceAddress frame.priority (encodeRawApdu apdu)] := by
    change (b.transport.dataConnectedIndication _ _ _ _ _).actions = _
    rw [dataConnectedIndication_inSequence hseq, TransportLayer.a2ReceiveData_actions, ready.idle]
    rfl
  change Yields False _ (Bau.drainTransportActions (2 + 1) received)
  unfold Bau.drainTransportActions
  dsimp only
  rw [if_neg (by simp [TransportLayer.takeActions, hactions]),
    show received.transport.takeActions.1 = _ from hactions, List.foldlM_cons]
  refine Yields.bind (Q := fun c : Bau => c.transport.actions = [] ∧
    ReadsInitialized b b.individualAddress.raw c) (Yields.bind acked_reads ?_) fun c hc => ?_
  · rintro c ⟨ack, hack, rfl⟩
    rw [List.foldlM_cons]
    have hrun (c : Bau) :
        Yields False (fun d => d.transport = c.transport ∧
          ReadsInitialized c c.individualAddress.raw d)
        (c.runAction (.dataConnectedIndication frame.sourceAddress frame.priority
          (encodeRawApdu apdu))) := by
      dsimp only [Bau.runAction]
      rw [hparse]
      exact connected_dispatch c frame.sourceAddress
    refine (hrun { received with
      transport := received.transport.takeActions.2
      outbox := received.outbox ++ [ack] }).bind fun d hd => .ok ⟨?_, ?_⟩
    · rw [hd.1]
      rfl
    · obtain ⟨frames, houtbox, hframes⟩ := hd.2
      refine ⟨ack :: frames, ?_, fun f hf hgroup => ?_⟩
      · rw [houtbox, List.append_assoc]
        rfl
      · rcases List.mem_cons.mp hf with rfl | hf
        · rw [hack] at hgroup
          cases hgroup
        · exact hframes f hf hgroup
  · rw [drain_idle 1 hc.1]
    exact .ok hc.2

theorem processFrame_reads (ready : Ready b) (h : b.processFrame frame nowMs = .ok b')
    (hserved : served b frame = some (dst, .groupValueRead asap)) :
    ReadsInitialized b dst b' := by
  have hcon : isConfirmation frame = false := by
    rw [← Bool.not_eq_true]
    intro hcon
    unfold served at hserved
    rw [if_pos hcon] at hserved
    cases hserved
  unfold Bau.processFrame at h
  dsimp only at h
  rw [if_neg (of_decide_eq_false hcon)] at h
  cases htpdu : frame.tpdu with
  | none =>
    rw [served_none htpdu] at hserved
    cases hserved
  | some tpdu =>
    rw [htpdu] at h
    cases tpdu with
    | control tpduType seqNo =>
      rw [served_control htpdu] at hserved
      cases hserved
    | data tpduType seqNo apdu =>
      dsimp only at h
      by_cases htype : tpduType = .dataConnected
      · subst htype
        rw [served_connected hcon htpdu] at hserved
        split_ifs at hserved with hseq
        obtain ⟨indication, hparse, he⟩ := Option.map_eq_some_iff.mp hserved
        obtain ⟨rfl, rfl⟩ := Prod.mk.inj he
        exact (connected_read ready hseq (toOption_ok hparse)).post _ h
      · rw [served_plain hcon htpdu htype] at hserved
        obtain ⟨indication, hparse, he⟩ := Option.map_eq_some_iff.mp hserved
        obtain ⟨rfl, rfl⟩ := Prod.mk.inj he
        obtain ⟨hparse, hscope⟩ := Option.filter_eq_some_iff.mp hparse
        exact (plain_read ready htype (toOption_ok hparse) hscope).post _ h

/-! ## Runs -/

/-- A read that is served is answered with the value of an object that has been assigned one,
or not at all. -/
def Truthful (past : List (Transition Bau ObjectInput)) (x : Transition Bau ObjectInput) : Prop :=
  ∀ frame nowMs dst a, x.event = .event (.frame frame nowMs) →
    served x.source frame = some (dst, .groupValueRead a) →
    ∃ frames, x.target.outbox = x.source.outbox ++ frames ∧
      ∀ answer ∈ frames, answer.addressType = .group →
        ∃ asap go, x.source.groupObjects.get asap = some go ∧ AssignedIn past asap ∧
          AnswersWith x.source dst go answer

/-- In every run that sets no flag of an uninitialized object alone, reads are answered with
values that have been assigned. -/
theorem reads_truthful {device : InterfaceObject} {count : UInt16} {size : Nat}
    {tr : List (Transition Bau ObjectInput)} (h : Run Steps (.new device count size) tr b)
    (keeps : ∀ x ∈ tr, KeepsUninitialized x.source x.event) :
    ∀ past x rest, tr = past ++ x :: rest → Truthful past x := by
  rintro past x rest rfl frame nowMs dst a hevent hserved
  obtain ⟨u, before, after⟩ := h.split
  obtain ⟨rfl, hstep, _⟩ := after.head
  obtain ⟨ready, hassigned⟩ :=
    initialized_assigned before fun y hy => keeps y (List.mem_append_left _ hy)
  rw [hevent] at hstep
  obtain ⟨frames, houtbox, hframes⟩ := processFrame_reads ready hstep hserved
  refine ⟨frames, houtbox, fun answer hanswer hgroup => ?_⟩
  obtain ⟨asap, go, hget, hinit, hwith⟩ := hframes answer hanswer hgroup
  exact ⟨asap, go, hget,
    hassigned asap (GroupObjectStore.initializedAt_iff.mpr ⟨go, hget, hinit⟩), hwith⟩

/-! ## A value that is set and one that is only asked for -/

def linkedDevice : Device :=
  { standardBau.toDevice with
    addressTable := ⟨[0, 1, 0x08, 0x01]⟩, associationTable := ⟨[0, 1, 0, 1, 0, 1]⟩ }

def linkedBau : Bau := .ofDevice linkedDevice

theorem linked_step : Steps standardBau (.other linkedDevice []) linkedBau := rfl

def hostCalls (b : Bau) (inputs : List ObjectInput) : Bau :=
  { b with toDevice := inputs.foldl hostCall b.toDevice }

theorem value_is_answered : ∃ past x, Run Steps standardBau (past ++ [x]) x.target ∧
    past.map Transition.event =
      [.other linkedDevice [], .call 1 (.writeValueNoSend [42])] ∧
    x.event = .event (.frame groupRead 0) ∧ x.target.outbox.length = 1 ∧ Truthful past x := by
  let written : Bau := hostCalls linkedBau [.call 1 (.writeValueNoSend [42])]
  have hstate : (written.handle (.frame groupRead 0)).toOption.map (·.outbox.length) = some 1 := by
    decide +kernel
  obtain ⟨b, hb, hlength⟩ := Option.map_eq_some_iff.mp hstate
  cases hstep : written.handle (.frame groupRead 0) with
  | error fault =>
    rw [hstep] at hb
    cases hb
  | ok c =>
    rw [hstep] at hb
    obtain rfl : c = b := Option.some.inj hb
    let past : List (Transition Bau ObjectInput) :=
      [⟨standardBau, .other linkedDevice [], linkedBau⟩,
        ⟨linkedBau, .call 1 (.writeValueNoSend [42]), written⟩]
    have run : Run Steps standardBau (past ++ [⟨written, .event (.frame groupRead 0), c⟩]) c :=
      .next linked_step (.next (e := ObjectInput.call 1 (.writeValueNoSend [42]))
        (show _ = _ from rfl) (.next (e := ObjectInput.event _) hstep (.refl c)))
    refine ⟨past, ⟨written, .event (.frame groupRead 0), c⟩, run, rfl, rfl, hlength,
      reads_truthful run ?_ past _ [] rfl⟩
    intro y hy
    simp only [past, List.cons_append, List.nil_append, List.mem_cons, List.not_mem_nil,
      or_false] at hy
    rcases hy with rfl | rfl | rfl
    · trivial
    · exact nofun
    · trivial

/-- A read is requested for the object at initialisation, and a read from the bus is answered,
with the zeros it has been created with. -/
theorem requested_read_answered : ∃ past x, Run Steps standardBau (past ++ [x]) x.target ∧
    past.map Transition.event =
      [.other linkedDevice [], .loadGroupObjectTable [0, 1, 0x2C, 7], .initReadRequests] ∧
    x.event = .event (.frame groupRead 0) ∧
    x.target.outbox.map CemiFrame.payload = [[0x00, 0x40]] ∧ ¬ Truthful past x := by
  let loaded : Bau := hostCalls linkedBau [.loadGroupObjectTable [0, 1, 0x2C, 7]]
  let requested : Bau := hostCalls loaded [.initReadRequests]
  have hstate : (requested.handle (.frame groupRead 0)).toOption.map (fun b =>
      (b.outbox.map CemiFrame.payload, b.outbox.map CemiFrame.addressType,
        served requested groupRead)) =
      some ([[0x00, 0x40]], [.group], some (0x0801, .groupValueRead 0)) := by
    decide +kernel
  obtain ⟨b, hb, hstate⟩ := Option.map_eq_some_iff.mp hstate
  simp only [Prod.mk.injEq] at hstate
  obtain ⟨hpayloads, hgroups, hserved⟩ := hstate
  cases hstep : requested.handle (.frame groupRead 0) with
  | error fault =>
    rw [hstep] at hb
    cases hb
  | ok c =>
    rw [hstep] at hb
    obtain rfl : c = b := Option.some.inj hb
    let past : List (Transition Bau ObjectInput) :=
      [⟨standardBau, .other linkedDevice [], linkedBau⟩,
        ⟨linkedBau, .loadGroupObjectTable [0, 1, 0x2C, 7], loaded⟩,
        ⟨loaded, .initReadRequests, requested⟩]
    have run : Run Steps standardBau (past ++ [⟨requested, .event (.frame groupRead 0), c⟩]) c :=
      .next linked_step (.next (e := ObjectInput.loadGroupObjectTable _) (show _ = _ from rfl)
        (.next (e := ObjectInput.initReadRequests) (show _ = _ from rfl)
          (.next (e := ObjectInput.event _) hstep (.refl c))))
    refine ⟨past, ⟨requested, .event (.frame groupRead 0), c⟩, run, rfl, rfl, hpayloads, ?_⟩
    intro htruthful
    obtain ⟨frames, houtbox, hframes⟩ := htruthful groupRead 0 _ _ rfl hserved
    have hempty : c.outbox = frames := houtbox
    rw [hempty] at hgroups
    obtain ⟨answer, rest, rfl, hanswer, _⟩ := List.map_eq_cons_iff.mp hgroups
    obtain ⟨asap, _, _, ⟨before, y, after, hsplit, hassigns, _⟩, _⟩ :=
      hframes answer List.mem_cons_self hanswer
    have hy : y ∈ past := by
      rw [hsplit]
      exact List.mem_append_right before List.mem_cons_self
    simp only [past, List.mem_cons, List.not_mem_nil, or_false] at hy
    rcases hy with rfl | rfl | rfl <;> cases hassigns

end KnxRs.BusAccessUnit
