import KnxRs.LDataFrames
import KnxRs.PendingRequests

set_option autoImplicit false

/-!
# Master resets

What a master reset that comes on a connection sends and erases, in which order, and in
which states of the connection.
-/
namespace KnxRs.CemiCodec.BuiltFrom
open CoreTypes TpduCodec

variable {messageCode : MessageCode} {source : IndividualAddress}
  {destination : DestinationAddress} {priority : Priority} {payload : List UInt8}
  {frame : CemiFrame}

theorem sourceAddress_eq (built : BuiltFrom messageCode source destination priority payload frame) :
    frame.sourceAddress = source := by
  rw [CemiFrame.sourceAddress, built.ctrlOffset, built.octet_eq, built.octet_eq]
  exact congrArg IndividualAddress.mk (be16_be16Bytes source.raw)

end KnxRs.CemiCodec.BuiltFrom

namespace KnxRs.DeviceState
open CoreTypes TableObjects GroupTables MemoryStore

/-! ## Scopes -/

/-- What a reset may concern: the individual address, the group links, the application program
and the memory. -/
inductive Part where
  | address | links | application | memory
  deriving DecidableEq

/-- What an erase code stands for. A confirmed restart erases nothing, a factory reset
everything; parameters are reset with the application program. -/
def eraseScope (eraseCode : UInt8) : List Part :=
  if eraseCode = eraseFactoryReset then [.address, .links, .application, .memory]
  else if eraseCode = eraseFactoryResetWithoutIa then [.links, .application, .memory]
  else if eraseCode = eraseResetIa then [.address]
  else if eraseCode = eraseResetLinks then [.links]
  else if eraseCode = eraseResetAp ∨ eraseCode = eraseResetParam then [.application]
  else []

/-- The parts in the scope are as in a new device, everything else is as it was, and the host
is asked to restart. -/
structure ResetWithin (scope : List Part) (d d' : Device) : Prop where
  address : d'.device = if Part.address ∈ scope then
    InterfaceObjects.setIndividualAddress d.device defaultIndividualAddress else d.device
  links : (d'.addrTableObject, d'.addressTable, d'.assocTableObject, d'.associationTable) =
    if Part.links ∈ scope then (.new, .new, .new, .new)
    else (d.addrTableObject, d.addressTable, d.assocTableObject, d.associationTable)
  application : d'.appProgramObject = if Part.application ∈ scope then .new else d.appProgramObject
  memory : d'.memoryArea = if Part.memory ∈ scope then [] else d.memoryArea
  rest : d' = { d with
    device := d'.device, addrTableObject := d'.addrTableObject, addressTable := d'.addressTable,
    assocTableObject := d'.assocTableObject, associationTable := d'.associationTable,
    appProgramObject := d'.appProgramObject, memoryArea := d'.memoryArea, restartPending := true }

def eraseCodes : List UInt8 := [1, 2, 3, 4, 5, 6, 7]

def supported (eraseCode : UInt8) : Bool := eraseCodes.contains eraseCode

theorem supported_iff (eraseCode : UInt8) : supported eraseCode = true ↔
    eraseConfirmedRestart ≤ eraseCode ∧ eraseCode ≤ eraseFactoryResetWithoutIa := by
  revert eraseCode
  exact forall_octet (by decide +kernel)

theorem applyMasterReset_within (d : Device) {eraseCode : UInt8} (h : supported eraseCode = true) :
    ResetWithin (eraseScope eraseCode) d
      { d.applyMasterReset eraseCode with restartPending := true } := by
  have hcodes : eraseCode ∈ eraseCodes := List.contains_iff_mem.mp h
  simp only [eraseCodes, List.mem_cons, List.not_mem_nil, or_false] at hcodes
  rcases hcodes with rfl | rfl | rfl | rfl | rfl | rfl | rfl <;> exact ⟨rfl, rfl, rfl, rfl, rfl⟩

end KnxRs.DeviceState

namespace KnxRs.Transport
open CoreTypes

variable {α : Type} {t : TransportLayer α}

/-! ## The connection -/

/-- A request that waits behind an unacknowledged frame is sent at the next poll after the
acknowledgement. -/
structure Waits (t : TransportLayer α) (peer : IndividualAddress) (priority : Priority)
    (apdu : α) : Prop where
  unacknowledged : t.state = .openWait ∧ t.connectionAddress = peer
  sent : ∀ nowMs nowMs', nowMs' < nowMs + connectionTimeoutMs →
    ((t.ackIndication peer t.seqNoSend nowMs).poll nowMs').actions =
      t.actions ++ [.dataConnectedConfirm,
        .sendDataConnected peer ((t.seqNoSend + 1) &&& seqNoMask) priority apdu]

theorem buffered_waits {req : BufferedRequest α} (hstate : t.state = .openWait)
    (hbuffered : t.bufferedRequest = some req) :
    Waits t t.connectionAddress req.priority req.apdu := by
  refine ⟨⟨hstate, rfl⟩, fun nowMs nowMs' htime => ?_⟩
  have hacked : t.ackIndication t.connectionAddress t.seqNoSend nowMs =
      { t.a8AckReceived nowMs with state := .openIdle } := by
    unfold TransportLayer.ackIndication
    rw [if_neg (not_not_intro rfl), hstate]
    dsimp only
    rw [if_pos rfl]
  have hopen : TransportLayer.passed (some (nowMs + connectionTimeoutMs)) nowMs' = false := by
    rw [TransportLayer.passed, decide_eq_false_iff_not]
    exact UInt64.not_le.mpr htime
  rw [hacked]
  unfold TransportLayer.poll
  rw [show ({ t.a8AckReceived nowMs with state := State.openIdle } :
      TransportLayer α).connectionTimeoutDeadline = some (nowMs + connectionTimeoutMs) from rfl,
    hopen, if_neg Bool.false_ne_true, if_neg (fun h => Bool.false_ne_true h.1), if_pos rfl,
    show ({ t.a8AckReceived nowMs with state := State.openIdle } :
      TransportLayer α).bufferedRequest = some req from hbuffered]
  exact List.append_assoc _ _ _

end KnxRs.Transport

namespace KnxRs.BusAccessUnit
open CoreTypes InterfaceObjects TpduCodec CemiCodec AppParse AppEncode Transport MemoryStore
open DeviceState Fallible

/-! ## What is answered -/

/-- A frame of the connection: from the address that the device has at the time to the peer. -/
def OnConnection (b : Bau) (payload : List UInt8) (frame : CemiFrame) : Prop :=
  BuiltFrom .lDataReq b.individualAddress (.individual b.transport.connectionAddress) .system
    payload frame

def ackPayload (b : Bau) : List UInt8 := encodeControl .ack b.transport.seqNoRecv

def responsePayload (b : Bau) (apdu : List UInt8) : List UInt8 :=
  encodeDataConnected b.transport.seqNoSend apdu

/-- A supported reset is acknowledged, answered on the connection, and only then is the
connection ended; it erases exactly what is in its scope. -/
structure ResetServed (b : Bau) (eraseCode : UInt8) (b' : Bau) : Prop where
  erased : ResetWithin (eraseScope eraseCode) b.toDevice b'.toDevice
  wire : ∃ acked answer ended, b'.outbox = b.outbox ++ [acked, answer, ended] ∧
    OnConnection b (ackPayload b) acked ∧
    OnConnection b (responsePayload b
      (encodeRestartResponse restartErrorCodeOk restartProcessTimeDefault)) answer ∧
    OnConnection b (encodeControl .disconnect 0) ended
  closed : b'.transport.state = .closed

/-- An erase code that is not supported changes nothing; the error is sent, or it waits for the
acknowledgement of an earlier frame. -/
structure ResetRefused (b : Bau) (b' : Bau) : Prop where
  unchanged : b'.toDevice = b.toDevice
  wire : ∃ acked sent, b'.outbox = b.outbox ++ acked :: sent ∧ OnConnection b (ackPayload b) acked ∧
    ((∃ answer, sent = [answer] ∧ OnConnection b (responsePayload b
        (encodeRestartResponse restartErrorCodeUnsupported restartProcessTimeZero)) answer) ∨
      sent = [] ∧ Waits b'.transport b.transport.connectionAddress .system
        (encodeRestartResponse restartErrorCodeUnsupported restartProcessTimeZero))

/-- What is to become of a master reset that comes on the connection. -/
def ResetAnswered (b : Bau) (eraseCode : UInt8) (result : Except Fault Bau) : Prop :=
  ∃ b', result = .ok b' ∧
    if supported eraseCode then ResetServed b eraseCode b' else ResetRefused b b'

/-- A reset that is supported comes when every numbered frame has been acknowledged, and it leaves
the device the address under which it is connected. -/
def ResetInTime (b : Bau) (eraseCode : UInt8) : Prop :=
  supported eraseCode = true → b.transport.state = .openIdle ∧
    (Part.address ∈ eraseScope eraseCode →
      (b.toDevice.setIndividualAddress defaultIndividualAddress).individualAddress =
        b.individualAddress)

/-! ## The steps of a reset -/

variable {b : Bau} {frame : CemiFrame} {eraseCode channel : UInt8}

def received (b : Bau) (nowMs : UInt64) : TransportLayer (List UInt8) :=
  { b.transport with
    seqNoRecv := (b.transport.seqNoRecv + 1) &&& seqNoMask
    connectionTimeoutDeadline := some (nowMs + connectionTimeoutMs)
    actions := [] }

def answered (b : Bau) (nowMs : UInt64) (apdu : List UInt8) : TransportLayer (List UInt8) :=
  (received b nowMs).dataConnectedRequest .system apdu nowMs

theorem encodeControl_fits (tpduType : TpduType) (seqNo : UInt8) :
    (encodeControl tpduType seqNo).length ≤ 256 :=
  Nat.le_trans (encodeControl_length tpduType seqNo) (by decide)

theorem restartResponse_fits (seqNo errorCode : UInt8) (processTime : UInt16) :
    (encodeDataConnected seqNo (encodeRestartResponse errorCode processTime)).length ≤ 256 := by
  rw [encodeDataConnected_length]
  simp [encodeRestartResponse, be16Bytes_length]

theorem masterResetErrorCode_eq (eraseCode : UInt8) : Bau.masterResetErrorCode eraseCode =
    if supported eraseCode then restartErrorCodeOk else restartErrorCodeUnsupported := by
  unfold Bau.masterResetErrorCode
  by_cases h : supported eraseCode = true
  · rw [if_pos ((supported_iff eraseCode).mp h), if_pos h]
  · rw [if_neg (fun hc => h ((supported_iff eraseCode).mpr hc)), if_neg h]

/-- What a handler that answers a connection does with a reset. -/
theorem handleRestartMasterReset_eq {c : Bau} {source : IndividualAddress}
    (answering : c.answeringConnection = some source) (eraseCode : UInt8) :
    c.handleRestartMasterReset source eraseCode =
      if supported eraseCode then
        .ok { c with
          toDevice := { c.toDevice.applyMasterReset eraseCode with restartPending := true }
          transport := (c.transport.dataConnectedRequest .system
            (encodeRestartResponse restartErrorCodeOk restartProcessTimeDefault)
              c.nowMs).disconnectRequest }
      else .ok { c with
        transport := c.transport.dataConnectedRequest .system
          (encodeRestartResponse restartErrorCodeUnsupported restartProcessTimeZero) c.nowMs } := by
  unfold Bau.handleRestartMasterReset Bau.queueIndividualFrame
  dsimp only
  rw [if_pos answering, masterResetErrorCode_eq]
  by_cases h : supported eraseCode = true
  · simp only [h, ↓reduceIte]
    rfl
  · rw [Bool.not_eq_true] at h
    simp only [h, Bool.false_eq_true, ↓reduceIte]
    rfl

theorem runAction_acknowledge {c : Bau} {source : IndividualAddress} {seqNo : UInt8}
    {acked : CemiFrame} (h : CemiFrame.newLData .lDataReq c.individualAddress (.individual source)
      .system (encodeControl .ack seqNo) = .ok acked) :
    Bau.runAction c (.sendControl source .ack seqNo) =
      .ok { c with outbox := c.outbox ++ [acked] } := by
  unfold Bau.runAction Bau.queueControlFrame Bau.pushFrame
  dsimp only
  rw [h]
  rfl

theorem runAction_indication {c : Bau} {source : IndividualAddress} {priority : Priority}
    {payload : List UInt8} {indication : AppIndication} {dummy : CemiFrame}
    (hparsed : parseRawApdu payload = .ok indication)
    (hdummy : CemiFrame.newLData .lDataInd source (.individual c.individualAddress) .system [] =
      .ok dummy) :
    Bau.runAction c (.dataConnectedIndication source priority payload) =
      (Bau.dispatchIndication { c with answeringConnection := some source } dummy source
        indication >>= fun c' => .ok { c' with answeringConnection := none }) := by
  unfold Bau.runAction
  dsimp only
  rw [hparsed]
  dsimp only
  unfold Bau.dispatchConnectedIndication
  rw [show CemiFrame.newLData .lDataInd source (.individual _) .system [] = .ok dummy from hdummy]
  rfl

/-- A request that is accepted is acknowledged, and then the handler and the draining of what it
has queued follow. -/
theorem processFrame_accepted (ready : Ready b) (hcon : isConfirmation frame = false)
    {indication : AppIndication} (haccepted : connectedService b frame = some indication)
    (nowMs : UInt64) : ∃ acked dummy, OnConnection b (ackPayload b) acked ∧
      b.processFrame frame nowMs =
        (Bau.dispatchIndication { b with
            nowMs := nowMs, transport := received b nowMs, outbox := b.outbox ++ [acked],
            answeringConnection := some b.transport.connectionAddress }
          dummy b.transport.connectionAddress indication >>= fun c =>
            Bau.drainTransportActions 2 { c with answeringConnection := none }) := by
  unfold connectedService at haccepted
  cases htpdu : frame.tpdu with
  | none =>
    rw [htpdu] at haccepted
    cases haccepted
  | some tpdu =>
    rw [htpdu] at haccepted
    cases tpdu with
    | control tpduType seqNo => cases haccepted
    | data tpduType seqNo apdu =>
      dsimp only at haccepted
      split_ifs at haccepted with hdata
      obtain ⟨rfl, hseq⟩ := hdata
      have hparsed := toOption_ok haccepted
      have hpeer : frame.sourceAddress = b.transport.connectionAddress := (of_decide_eq_true hseq).1
      obtain ⟨acked, hacked⟩ := @newLData_ok .lDataReq b.individualAddress
        (.individual frame.sourceAddress) .system _
        (encodeControl_fits .ack b.transport.seqNoRecv)
      obtain ⟨dummy, hdummy⟩ := @newLData_ok .lDataInd frame.sourceAddress
        (.individual b.individualAddress) .system [] (Nat.zero_le _)
      have hactions : (b.transport.a2ReceiveData frame.sourceAddress frame.priority
          (encodeRawApdu apdu) nowMs).actions = [.sendControl frame.sourceAddress .ack
            b.transport.seqNoRecv, .dataConnectedIndication frame.sourceAddress frame.priority
              (encodeRawApdu apdu)] := by
        rw [TransportLayer.a2ReceiveData_actions, ready.idle]
        rfl
      have hbuilt : OnConnection b (ackPayload b) acked := by
        unfold OnConnection
        rw [← hpeer]
        exact newLData_built hacked
      refine ⟨acked, dummy, hbuilt, ?_⟩
      unfold Bau.processFrame
      dsimp only
      rw [if_neg (of_decide_eq_false hcon), htpdu]
      dsimp only
      unfold Bau.processDataTpdu
      dsimp only
      rw [if_pos rfl, dataConnectedIndication_inSequence hseq]
      show Bau.drainTransportActions 3 _ = _
      unfold Bau.drainTransportActions
      dsimp only [TransportLayer.takeActions]
      rw [hactions, if_neg (List.cons_ne_nil _ _), List.foldlM_cons]
      have hsent : Bau.runAction { b with nowMs := nowMs, transport := received b nowMs }
          (.sendControl frame.sourceAddress .ack b.transport.seqNoRecv) = _ :=
        runAction_acknowledge hacked
      have hserved : Bau.runAction { b with
            nowMs := nowMs, transport := received b nowMs, outbox := b.outbox ++ [acked] }
          (.dataConnectedIndication frame.sourceAddress frame.priority (encodeRawApdu apdu)) = _ :=
        runAction_indication hparsed hdummy
      have hreceived : { b.transport.a2ReceiveData frame.sourceAddress frame.priority
          (encodeRawApdu apdu) nowMs with actions := [] } = received b nowMs := rfl
      rw [hreceived, hsent]
      show (Bau.runAction _ _ >>= fun c => List.foldlM _ c []) >>= _ = _
      rw [hserved, ← hpeer, bind_assoc, bind_assoc]
      rfl

theorem connectedService_open {indication : AppIndication}
    (haccepted : connectedService b frame = some indication) :
    b.transport.state = .openIdle ∨ b.transport.state = .openWait := by
  unfold connectedService at haccepted
  split at haccepted
  · split_ifs at haccepted with hdata
    exact (of_decide_eq_true hdata.2).2.1
  · cases haccepted

section
variable {source destination : IndividualAddress} {actions : List (Action (List UInt8))}
  {frames : List CemiFrame}

theorem allActionFrames_control (tpduType : TpduType) (seqNo : UInt8)
    (h : allActionFrames source actions = .ok frames) :
    ∃ sent, allActionFrames source (.sendControl destination tpduType seqNo :: actions) =
        .ok (sent :: frames) ∧
      BuiltFrom .lDataReq source (.individual destination) .system (encodeControl tpduType seqNo)
        sent := by
  obtain ⟨sent, hsent⟩ := @newLData_ok .lDataReq source (.individual destination) .system _
    (encodeControl_fits tpduType seqNo)
  refine ⟨sent, ?_, newLData_built hsent⟩
  unfold allActionFrames actionFrames
  dsimp only
  rw [hsent, h]
  rfl

theorem allActionFrames_data {priority : Priority} {seqNo : UInt8} {apdu : List UInt8}
    (fits : (encodeDataConnected seqNo apdu).length ≤ 256)
    (h : allActionFrames source actions = .ok frames) :
    ∃ sent, allActionFrames source (.sendDataConnected destination seqNo priority apdu :: actions) =
        .ok (sent :: frames) ∧
      BuiltFrom .lDataReq source (.individual destination) priority
        (encodeDataConnected seqNo apdu) sent := by
  obtain ⟨sent, hsent⟩ := @newLData_ok .lDataReq source (.individual destination) priority _
    fits
  refine ⟨sent, ?_, newLData_built hsent⟩
  unfold allActionFrames actionFrames
  dsimp only
  rw [hsent, h]
  rfl

end

/-- The unit after the handler of a reset: what is left is to send what it has queued. -/
def afterReset (b : Bau) (nowMs : UInt64) (eraseCode : UInt8) (acked : CemiFrame) : Bau :=
  if supported eraseCode then
    { b with
      nowMs := nowMs
      outbox := b.outbox ++ [acked]
      toDevice := { b.toDevice.applyMasterReset eraseCode with restartPending := true }
      transport := (answered b nowMs
        (encodeRestartResponse restartErrorCodeOk restartProcessTimeDefault)).disconnectRequest }
  else
    { b with
      nowMs := nowMs
      outbox := b.outbox ++ [acked]
      transport := answered b nowMs
        (encodeRestartResponse restartErrorCodeUnsupported restartProcessTimeZero) }

theorem processFrame_reset (ready : Ready b) (hcon : isConfirmation frame = false)
    (haccepted : connectedService b frame = some (.restartMasterReset eraseCode channel))
    (nowMs : UInt64) : ∃ acked, OnConnection b (ackPayload b) acked ∧
      b.processFrame frame nowMs =
        Bau.drainTransportActions 2 (afterReset b nowMs eraseCode acked) := by
  obtain ⟨acked, dummy, hacked, hprocess⟩ := processFrame_accepted ready hcon haccepted nowMs
  refine ⟨acked, hacked, ?_⟩
  rw [hprocess]
  show Bau.handleRestartMasterReset _ b.transport.connectionAddress eraseCode >>= _ = _
  rw [handleRestartMasterReset_eq rfl, afterReset]
  by_cases h : supported eraseCode = true
  · rw [if_pos h, if_pos h, ← ready.answering]
    rfl
  · rw [if_neg h, if_neg h, ← ready.answering]
    rfl

/-! ## Where the answer goes -/

theorem answered_idle (h : b.transport.state = .openIdle) (nowMs : UInt64) (apdu : List UInt8) :
    (answered b nowMs apdu).state = .openWait ∧
      (answered b nowMs apdu).connectionAddress = b.transport.connectionAddress ∧
      (answered b nowMs apdu).actions = [.sendDataConnected b.transport.connectionAddress
        b.transport.seqNoSend .system apdu] := by
  unfold answered TransportLayer.dataConnectedRequest
  rw [show (received b nowMs).state = .openIdle from h]
  exact ⟨rfl, rfl, rfl⟩

theorem answered_wait (h : b.transport.state = .openWait) (nowMs : UInt64) (apdu : List UInt8) :
    answered b nowMs apdu = { received b nowMs with
      state := .openWait, bufferedRequest := some ⟨.system, apdu⟩ } := by
  unfold answered TransportLayer.dataConnectedRequest
  rw [show (received b nowMs).state = .openWait from h]

theorem disconnectRequest_open {t : TransportLayer (List UInt8)} (h : t.state ≠ .closed) :
    t.disconnectRequest = t.disconnectAndClose := if_neg h

theorem drain_sends {c : Bau} (hs : ∀ a ∈ c.transport.actions, a.serves = false)
    {frames : List CemiFrame}
    (h : allActionFrames c.individualAddress c.transport.actions = .ok frames) :
    Bau.drainTransportActions 2 c = .ok { c with
      transport := c.transport.takeActions.2, outbox := c.outbox ++ frames } := by
  rw [drain_frames 0 hs, h]
  rfl

theorem served_idle {acked : CemiFrame} (h : supported eraseCode = true)
    (idle : b.transport.state = .openIdle) (nowMs : UInt64) :
    ∃ answer ended b', Bau.drainTransportActions 2 (afterReset b nowMs eraseCode acked) = .ok b' ∧
      b'.toDevice = { b.toDevice.applyMasterReset eraseCode with restartPending := true } ∧
      b'.outbox = b.outbox ++ [acked, answer, ended] ∧ b'.transport.state = .closed ∧
      BuiltFrom .lDataReq b'.individualAddress (.individual b.transport.connectionAddress) .system
        (responsePayload b (encodeRestartResponse restartErrorCodeOk restartProcessTimeDefault))
        answer ∧
      BuiltFrom .lDataReq b'.individualAddress (.individual b.transport.connectionAddress) .system
        (encodeControl .disconnect 0) ended := by
  obtain ⟨hstate, haddress, hactions⟩ := answered_idle idle nowMs
    (encodeRestartResponse restartErrorCodeOk restartProcessTimeDefault)
  have hclosed := disconnectRequest_open (show (answered b nowMs (encodeRestartResponse
    restartErrorCodeOk restartProcessTimeDefault)).state ≠ .closed by rw [hstate]; nofun)
  generalize hc : afterReset b nowMs eraseCode acked = c
  unfold afterReset at hc
  rw [if_pos h, hclosed] at hc
  have hqueue : c.transport.actions = [.sendDataConnected b.transport.connectionAddress
      b.transport.seqNoSend .system (encodeRestartResponse restartErrorCodeOk
        restartProcessTimeDefault), .sendControl b.transport.connectionAddress .disconnect 0,
      .disconnectIndication b.transport.connectionAddress] := by
    rw [← hc]
    show (TransportLayer.disconnectAndClose _).actions = _
    rw [TransportLayer.disconnectAndClose_actions, hactions, haddress]
    rfl
  obtain ⟨ended, hended, builtEnded⟩ := @allActionFrames_control c.individualAddress
    b.transport.connectionAddress _ _ .disconnect 0 (show allActionFrames _ [.disconnectIndication b.transport.connectionAddress] = .ok [] from rfl)
  obtain ⟨answer, hanswer, builtAnswer⟩ := @allActionFrames_data c.individualAddress
    b.transport.connectionAddress _ _ .system _ _ (restartResponse_fits b.transport.seqNoSend restartErrorCodeOk restartProcessTimeDefault) hended
  refine ⟨answer, ended, _, drain_sends ?_ (hqueue ▸ hanswer), ?_, ?_, ?_, builtAnswer, builtEnded⟩
  · rw [hqueue]
    simp [Action.serves]
  · rw [← hc]
  · rw [← hc]
    exact List.append_assoc _ _ _
  · rw [← hc]
    rfl

theorem served_wait {acked : CemiFrame} (h : supported eraseCode = true)
    (wait : b.transport.state = .openWait) (nowMs : UInt64) :
    ∃ ended b', Bau.drainTransportActions 2 (afterReset b nowMs eraseCode acked) = .ok b' ∧
      b'.outbox = b.outbox ++ [acked, ended] := by
  have hanswered := answered_wait wait nowMs
    (encodeRestartResponse restartErrorCodeOk restartProcessTimeDefault)
  have hclosed := disconnectRequest_open (show (answered b nowMs (encodeRestartResponse
    restartErrorCodeOk restartProcessTimeDefault)).state ≠ .closed by rw [hanswered]; nofun)
  generalize hc : afterReset b nowMs eraseCode acked = c
  unfold afterReset at hc
  rw [if_pos h, hclosed, hanswered] at hc
  have hqueue : c.transport.actions = [.sendControl b.transport.connectionAddress .disconnect 0,
      .disconnectIndication b.transport.connectionAddress] := by
    rw [← hc]
    rfl
  obtain ⟨ended, hended, _⟩ := @allActionFrames_control c.individualAddress
    b.transport.connectionAddress _ _ .disconnect 0 (show allActionFrames _ [.disconnectIndication b.transport.connectionAddress] = .ok [] from rfl)
  refine ⟨ended, _, drain_sends ?_ (hqueue ▸ hended), ?_⟩
  · rw [hqueue]
    simp [Action.serves]
  · rw [← hc]
    exact List.append_assoc _ _ _

theorem refused_served {acked : CemiFrame} (h : ¬supported eraseCode = true)
    (connected : b.transport.state = .openIdle ∨ b.transport.state = .openWait)
    (hacked : OnConnection b (ackPayload b) acked) (nowMs : UInt64) :
    ∃ b', Bau.drainTransportActions 2 (afterReset b nowMs eraseCode acked) = .ok b' ∧
      ResetRefused b b' := by
  generalize hc : afterReset b nowMs eraseCode acked = c
  unfold afterReset at hc
  rw [if_neg h] at hc
  have haddress : c.individualAddress = b.individualAddress := by rw [← hc]
  rcases connected with idle | wait
  · have hqueue : c.transport.actions = [.sendDataConnected b.transport.connectionAddress
        b.transport.seqNoSend .system (encodeRestartResponse restartErrorCodeUnsupported
          restartProcessTimeZero)] := by
      rw [← hc]
      exact (answered_idle idle nowMs _).2.2
    obtain ⟨answer, hanswer, built⟩ := @allActionFrames_data c.individualAddress
      b.transport.connectionAddress _ _ .system _ _
      (restartResponse_fits b.transport.seqNoSend restartErrorCodeUnsupported
        restartProcessTimeZero) (show allActionFrames _ [] = .ok [] from rfl)
    refine ⟨_, drain_sends ?_ (hqueue ▸ hanswer), ?_, acked, [answer], ?_, hacked,
      .inl ⟨answer, rfl, ?_⟩⟩
    · rw [hqueue]
      simp [Action.serves]
    · rw [← hc]
    · rw [← hc]
      exact List.append_assoc _ _ _
    · rw [haddress] at built
      exact built
  · have hanswered := answered_wait wait nowMs
      (encodeRestartResponse restartErrorCodeUnsupported restartProcessTimeZero)
    rw [hanswered] at hc
    have hqueue : c.transport.actions = [] := by
      rw [← hc]
      rfl
    have hwaits := @buffered_waits _ c.transport.takeActions.2 ⟨.system,
      encodeRestartResponse restartErrorCodeUnsupported restartProcessTimeZero⟩ (by rw [← hc]; rfl) (by rw [← hc]; rfl)
    refine ⟨_, @drain_sends _ ?_ [] ?_, ?_, acked, [], ?_, hacked, .inr ⟨rfl, ?_⟩⟩
    · rw [hqueue]
      exact fun action hmem => absurd hmem List.not_mem_nil
    · rw [hqueue]
      rfl
    · rw [← hc]
    · rw [← hc, List.append_nil]
    · rw [show c.transport.takeActions.2.connectionAddress = b.transport.connectionAddress by
        rw [← hc]; rfl] at hwaits
      exact hwaits

/-! ## Every reset -/

theorem address_mem_eraseScope (eraseCode : UInt8) : Part.address ∈ eraseScope eraseCode ↔
    eraseCode = eraseResetIa ∨ eraseCode = eraseFactoryReset := by
  revert eraseCode
  exact forall_octet (by decide +kernel)

theorem applyMasterReset_address (d : Device) (eraseCode : UInt8) :
    ({ d.applyMasterReset eraseCode with restartPending := true } : Device).individualAddress =
      if Part.address ∈ eraseScope eraseCode then
        (d.setIndividualAddress defaultIndividualAddress).individualAddress
      else d.individualAddress := by
  unfold Device.applyMasterReset
  dsimp only
  by_cases h : eraseCode = eraseResetIa ∨ eraseCode = eraseFactoryReset
  · rw [if_pos h, if_pos ((address_mem_eraseScope eraseCode).mpr h)]
    rfl
  · rw [if_neg h, if_neg (fun hm => h ((address_mem_eraseScope eraseCode).mp hm))]
    rfl

/-- In every state that a unit can be in, a master reset accepted on the connection is served, or
refused, as it should be exactly when no numbered frame is waiting for its acknowledgement
and the device keeps the address under which it is connected. -/
theorem reset_answered_iff (reachable : Reachable b) (hcon : isConfirmation frame = false)
    (haccepted : connectedService b frame = some (.restartMasterReset eraseCode channel))
    (nowMs : UInt64) :
    ResetAnswered b eraseCode (b.handle (.frame frame nowMs)) ↔ ResetInTime b eraseCode := by
  have connected := connectedService_open haccepted
  obtain ⟨acked, hacked, hprocess⟩ := processFrame_reset reachable.ready hcon haccepted nowMs
  have hhandle : b.handle (.frame frame nowMs) =
      Bau.drainTransportActions 2 (afterReset b nowMs eraseCode acked) := hprocess
  unfold ResetAnswered ResetInTime
  rw [hhandle]
  by_cases h : supported eraseCode = true
  · rcases connected with idle | wait
    · obtain ⟨answer, ended, b', hb', hdevice, hout, hstate, hanswer, hended⟩ :=
        @served_idle b eraseCode acked h idle nowMs
      have haddress := congrArg Device.individualAddress hdevice
      rw [applyMasterReset_address] at haddress
      have hsame : b'.individualAddress = b.individualAddress ↔
          (Part.address ∈ eraseScope eraseCode →
            (b.toDevice.setIndividualAddress defaultIndividualAddress).individualAddress =
              b.individualAddress) := by
        rw [haddress]
        split_ifs with hin
        · exact ⟨fun he _ => he, fun he => he hin⟩
        · exact ⟨fun _ he => absurd he hin, fun _ => rfl⟩
      rw [hb']
      constructor
      · rintro ⟨c, hc, hserved⟩
        obtain rfl := Except.ok.inj hc
        rw [if_pos h] at hserved
        obtain ⟨acked', answer', ended', hout', _, hanswer', _⟩ := hserved.wire
        rw [hout] at hout'
        have hframes := List.append_cancel_left hout'
        obtain rfl : answer = answer' := (List.cons.inj (List.cons.inj hframes).2).1
        refine fun _ => ⟨idle, hsame.mp ?_⟩
        rw [← hanswer.sourceAddress_eq, hanswer'.sourceAddress_eq]
      · intro htime
        have hkept := hsame.mpr (htime h).2
        rw [hkept] at hanswer hended
        refine ⟨b', rfl, ?_⟩
        rw [if_pos h]
        refine ⟨?_, ⟨acked, answer, ended, hout, hacked, hanswer, hended⟩, hstate⟩
        rw [hdevice]
        exact applyMasterReset_within b.toDevice h
    · obtain ⟨ended, b', hb', hout⟩ := @served_wait b eraseCode acked h wait nowMs
      rw [hb']
      refine iff_of_false ?_ fun htime => ?_
      · rintro ⟨c, hc, hserved⟩
        obtain rfl := Except.ok.inj hc
        rw [if_pos h] at hserved
        obtain ⟨acked', answer', ended', hout', _⟩ := hserved.wire
        rw [hout] at hout'
        have hlength := congrArg List.length (List.append_cancel_left hout')
        cases hlength
      · have hidle := (htime h).1
        rw [wait] at hidle
        cases hidle
  · obtain ⟨b', hb', hrefused⟩ := refused_served h connected hacked nowMs
    refine iff_of_true ⟨b', hb', ?_⟩ fun hs => absurd hs h
    rw [if_neg h]
    exact hrefused

/-! ## A unit with a connection -/

def numberedReset (second : Bool) (eraseCode : UInt8) : CemiFrame :=
  ⟨[0x29, 0x00, 0xB0, 0x60, 0x11, 0x02, 0xFF, 0xFF, 0x03,
    if second then 0x47 else 0x43, 0x81, eraseCode, 0x00], 2, withoutInfo rfl, rfl⟩

/-- A factory reset that is the first request on a connection is answered on it. -/
theorem first_reset_answered : ∃ b, Reachable b ∧
    ResetAnswered b 2 (b.handle (.frame (numberedReset false 2) 0)) := by
  have hstate : ([Event.frame connectToDevice 0].foldlM (Bau.handleIf fun _ _ => true)
      standardBau).map (fun b => (connectedService b (numberedReset false 2), b.transport.state,
        b.individualAddress,
        (b.toDevice.setIndividualAddress defaultIndividualAddress).individualAddress)) =
      some (some (.restartMasterReset 2 0), .openIdle, ⟨0xFFFF⟩, ⟨0xFFFF⟩) := by
    decide +kernel
  obtain ⟨b, hb, hstate⟩ := Option.map_eq_some_iff.mp hstate
  simp only [Prod.mk.injEq] at hstate
  obtain ⟨haccepted, hidle, haddress, hafter⟩ := hstate
  obtain ⟨tr, run, _⟩ := handles_of_checked hb
  refine ⟨b, run.reachable, (reset_answered_iff run.reachable (by decide) haccepted 0).mpr ?_⟩
  exact fun _ => ⟨hidle, fun _ => hafter.trans haddress.symm⟩

/-- A reset that comes before the answer to the first request is acknowledged ends the connection
without an answer. -/
theorem second_reset_unanswered : ∃ b, Reachable b ∧
    isConfirmation (numberedReset true 1) = false ∧
    connectedService b (numberedReset true 1) = some (.restartMasterReset 1 0) ∧
    ¬ResetAnswered b 1 (b.handle (.frame (numberedReset true 1) 0)) := by
  have hstate : ([Event.frame connectToDevice 0, .frame numberedDescriptorRead 0].foldlM
      (Bau.handleIf fun _ _ => true) standardBau).map (fun b =>
        (connectedService b (numberedReset true 1),
          (b.handle (.frame (numberedReset true 1) 0)).toOption.map fun c =>
            c.outbox.length - b.outbox.length)) =
      some (some (.restartMasterReset 1 0), some 2) := by
    decide +kernel
  obtain ⟨b, hb, hstate⟩ := Option.map_eq_some_iff.mp hstate
  obtain ⟨haccepted, hsent⟩ := Prod.mk.inj hstate
  obtain ⟨tr, run, _⟩ := handles_of_checked hb
  refine ⟨b, run.reachable, by decide, haccepted, ?_⟩
  rintro ⟨c, hc, hserved⟩
  rw [if_pos (by decide)] at hserved
  obtain ⟨acked, answer, ended, hout, _⟩ := hserved.wire
  have hthree : c.outbox.length - b.outbox.length = 3 := by
    rw [hout, List.length_append]
    exact Nat.add_sub_cancel_left ..
  rw [hc] at hsent
  exact absurd (hthree.symm.trans (Option.some.inj hsent)) (by decide)

end KnxRs.BusAccessUnit
