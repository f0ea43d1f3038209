import KnxRs.RequestNumbers
import KnxRs.TunnelOutbox

set_option autoImplicit false

/-!
# Confirmations of a client's requests

For every `L_Data.req` that the server takes over from a client, one confirmation joins
the client's queue and one event goes to the application; other requests bring about
neither.
-/
namespace KnxRs.RequestConfirmations
open CoreTypes CemiCodec KnxIpCodec KnxIpNetwork ServerEvents KeyedRows TunnelServer TunnelFrames
  TunnelSteps TunnelRoster TunnelOutbox RequestNumbers Runs

/-! ## The confirmation of a frame -/

def isDataRequest (frame : CemiFrame) : Bool := frame.messageCodeRaw = MessageCode.lDataReq.raw

/-- The octets of a frame with the code of `L_Data.con` and the confirm bit cleared. -/
def confirmed (frame : CemiFrame) : List UInt8 :=
  (frame.data.set 0 MessageCode.lDataCon.raw).set frame.ctrlOffset (frame.ctrl1 &&& 0xFE)

/-- What a confirmation stands for: the fields of the request, but for its code and the flag. -/
def confirmedFields (fields : Fields) : Fields :=
  { fields with
    messageCodeRaw := MessageCode.lDataCon.raw
    control1 := { fields.control1 with confirm := .noError } }

section
variable (frame : CemiFrame)

theorem withCode_octet (code : MessageCode) {i : Nat} (h : i ≠ 0) :
    (withCode frame code).octet i = frame.octet i := by
  unfold CemiFrame.octet
  change (frame.data.set 0 code.raw).getD i 0 = _
  rw [List.getD_eq_getElem?_getD, List.getElem?_set_ne (Ne.symm h), ← List.getD_eq_getElem?_getD]

theorem withCode_messageCodeRaw (code : MessageCode) :
    (withCode frame code).messageCodeRaw = code.raw := by
  have hlen := data_length_ge frame
  change (frame.data.set 0 code.raw).getD 0 0 = code.raw
  rw [List.getD_eq_getElem?_getD, List.getElem?_set_self (by omega)]
  rfl

theorem withCode_fields (code : MessageCode) :
    (withCode frame code).fields = { frame.fields with messageCodeRaw := code.raw } := by
  have hoffset := frame.offset_ge
  have hsame : ∀ k, (withCode frame code).octet ((withCode frame code).ctrlOffset + k) =
      frame.octet (frame.ctrlOffset + k) := fun k => by
    have hk : frame.ctrlOffset + k ≠ 0 := by omega
    exact withCode_octet frame code hk
  have h0 : (withCode frame code).ctrl1 = frame.ctrl1 := hsame 0
  have h1 : (withCode frame code).ctrl2 = frame.ctrl2 := hsame 1
  have hcontrol1 : (withCode frame code).control1 = frame.control1 :=
    congrArg Control1.ofOctet h0
  have hcontrol2 : (withCode frame code).control2 = frame.control2 :=
    congrArg Control2.ofOctet h1
  have hsource : (withCode frame code).sourceAddress = frame.sourceAddress := by
    unfold CemiFrame.sourceAddress
    rw [hsame, hsame]
  have hdestination : (withCode frame code).destinationAddressRaw =
      frame.destinationAddressRaw := by
    unfold CemiFrame.destinationAddressRaw
    rw [hsame, hsame]
  have hinfoLength : (withCode frame code).additionalInfoLength = frame.additionalInfoLength :=
    withCode_octet frame code (by decide)
  have hinfo : ((withCode frame code).data.take (withCode frame code).ctrlOffset).drop 2 =
      (frame.data.take frame.ctrlOffset).drop 2 := by
    change ((frame.data.set 0 code.raw).take frame.ctrlOffset).drop 2 = _
    rw [List.take_set, List.drop_set_of_lt (by decide)]
  have hlength : (withCode frame code).totalLength = frame.totalLength := List.length_set
  have hpayload : (withCode frame code).payload = frame.payload := by
    change (frame.data.set 0 code.raw).drop (frame.ctrlOffset + tpduOffset) = _
    rw [List.drop_set_of_lt (by omega)]
    rfl
  have hnpdu : (withCode frame code).npduLength = frame.npduLength := hsame npduLenOffset
  unfold CemiFrame.fields
  rw [hlength, withCode_messageCodeRaw, hinfoLength, hinfo, hcontrol1, hcontrol2, hsource,
    hdestination, hnpdu, hpayload]

theorem confirmed_data :
    confirmed frame = ((withCode frame .lDataCon).setConfirm .noError).data := by
  have hoffset := frame.offset_ge
  have hbits : ∀ x : UInt8, (x &&& 0xFE) = (x &&& ~~~ctrl1ConfirmMask) ||| Confirm.noError.raw :=
    forall_octet (by decide +kernel)
  have hctrl : (withCode frame .lDataCon).octet ((withCode frame .lDataCon).ctrlOffset + 0) =
      frame.ctrl1 := by
    have hne : frame.ctrlOffset + 0 ≠ 0 := by omega
    exact withCode_octet frame .lDataCon hne
  unfold confirmed CemiFrame.setConfirm CemiFrame.setBits
  rw [hbits, hctrl]
  rfl

theorem confirmed_frame : ∃ con, CemiFrame.parse (confirmed frame) = .ok con ∧
    con.data = confirmed frame ∧ con.fields = confirmedFields frame.fields := by
  have hfields : ((withCode frame .lDataCon).setConfirm .noError).fields =
      confirmedFields frame.fields :=
    calc ((withCode frame .lDataCon).setConfirm .noError).fields
      _ = (withCode frame .lDataCon).fields.set (.confirm .noError) :=
        CemiFrame.fields_set _ (.confirm .noError)
      _ = confirmedFields frame.fields := by
        rw [withCode_fields]
        rfl
  have hcode : MessageCode.tryFrom
      ((withCode frame .lDataCon).setConfirm .noError).messageCodeRaw = some .lDataCon := by
    have hraw : ((withCode frame .lDataCon).setConfirm .noError).messageCodeRaw =
        MessageCode.lDataCon.raw :=
      congrArg Fields.messageCodeRaw hfields
    rw [hraw, MessageCode.tryFrom_raw]
  refine ⟨_, ?_, (confirmed_data frame).symm, hfields⟩
  rw [confirmed_data]
  exact parse_of_frame hcode

theorem confirmationOf_eq :
    confirmationOf frame = if isDataRequest frame then some (confirmed frame) else none := by
  have hlen := data_length_ge frame
  have hoffset := frame.offset_ge
  have hhead : frame.data.head? = some frame.messageCodeRaw := by
    unfold CemiFrame.messageCodeRaw CemiFrame.octet
    rw [List.head?_eq_getElem?, List.getD_eq_getElem?_getD, List.getElem?_eq_getElem (by omega)]
    rfl
  have hinfo : frame.data[1]? = some (frame.data.getD 1 0) := by
    rw [List.getD_eq_getElem?_getD, List.getElem?_eq_getElem (by omega)]
    rfl
  have hctrl : (recoded frame .lDataCon)[frame.ctrlOffset]? = some frame.ctrl1 := by
    unfold recoded CemiFrame.ctrl1 CemiFrame.octet
    rw [List.getElem?_set_ne (by omega), List.getD_eq_getElem?_getD,
      List.getElem?_eq_getElem (by omega)]
    rfl
  unfold confirmationOf isDataRequest
  rw [hhead, hinfo]
  dsimp only
  rw [← frame.offset_eq, hctrl]
  by_cases hreq : frame.messageCodeRaw = MessageCode.lDataReq.raw
  · rw [if_neg (not_not_intro (congrArg some hreq)), if_pos (decide_eq_true hreq)]
    rfl
  · have hne : some frame.messageCodeRaw ≠ some MessageCode.lDataReq.raw := fun h =>
      hreq (Option.some.inj h)
    rw [if_pos hne, if_neg (by rw [decide_eq_true_eq]; exact hreq)]

end

/-! ## Requests of a client -/

structure Request where
  src : SocketAddr
  number : UInt8
  cemiData : List UInt8

def requestOn (c : UInt8) : Input → Option Request
  | .datagram src data =>
    match KnxIpFrame.parse data with
    | .error _ => none
    | .ok frame =>
      if frame.serviceType = .tunnelingRequest then
        match ConnectionHeader.parse frame.body with
        | none => none
        | some ch =>
          if ch.channelId = c then
            some ⟨src, ch.sequenceCounter, frame.body.drop ConnectionHeader.len⟩
          else none
      else none
  | _ => none

/-- The request comes from the data address of the client and has the number that follows `count`
    requests. -/
def InSequence (t : TunnelClient) (count : Nat) (r : Request) : Prop :=
  r.src = t.dataAddr ∧ r.number = UInt8.ofNat count

instance (t : TunnelClient) (count : Nat) (r : Request) : Decidable (InSequence t count r) :=
  inferInstanceAs (Decidable (_ ∧ _))

def confirmations (cemiData : List UInt8) : List (List UInt8) :=
  match CemiFrame.parse cemiData with
  | .error _ => []
  | .ok frame => if isDataRequest frame then [confirmed frame] else []

def Op.frames : Op → List (List UInt8)
  | .queue cemi => [cemi]
  | .takeOver cemiData =>
    match CemiFrame.parse cemiData with
    | .error _ => []
    | .ok frame => (confirmationOf frame).toList
  | _ => []

theorem takeOver_frames (cemiData : List UInt8) :
    Op.frames (.takeOver cemiData) = confirmations cemiData := by
  change (match CemiFrame.parse cemiData with
    | .error _ => []
    | .ok frame => (confirmationOf frame).toList) = confirmations cemiData
  unfold confirmations
  rcases CemiFrame.parse cemiData with e | frame
  · rfl
  · dsimp only
    rw [confirmationOf_eq]
    split_ifs <;> rfl

theorem after_enqueued (log : Log) (t : TunnelClient) (op : Op) :
    (log.after t op).enqueued = log.enqueued ++ Op.frames op := by
  cases op with
  | queue cemi => rfl
  | takeOver cemiData =>
    unfold Log.after Op.frames
    dsimp only
    rcases CemiFrame.parse cemiData with e | frame
    · exact (List.append_nil _).symm
    · dsimp only
      rcases confirmationOf frame with _ | confirmation
      · exact (List.append_nil _).symm
      · rfl
  | keep | heartbeat | advance | transmit | remove => exact (List.append_nil _).symm

section
variable {env : Env} {t : TunnelClient} {c : UInt8} {src : SocketAddr} {data : List UInt8}
  {r : Request}

theorem requestOn_some (h : requestOn c (.datagram src data) = some r) :
    ∃ frame ch, KnxIpFrame.parse data = .ok frame ∧ frame.serviceType = .tunnelingRequest ∧
      ConnectionHeader.parse frame.body = some ch ∧ ch.channelId = c ∧
      r = ⟨src, ch.sequenceCounter, frame.body.drop ConnectionHeader.len⟩ := by
  unfold requestOn at h
  dsimp only at h
  rcases hparse : KnxIpFrame.parse data with e | frame
  · rw [hparse] at h
    cases h
  · rw [hparse] at h
    dsimp only at h
    split_ifs at h with hservice
    rcases hheader : ConnectionHeader.parse frame.body with _ | ch
    · rw [hheader] at h
      cases h
    · rw [hheader] at h
      dsimp only at h
      split_ifs at h with hid
      exact ⟨frame, ch, rfl, hservice, hheader, hid, (Option.some.inj h).symm⟩

theorem inputOp_request (hid : t.channelId = c) (h : requestOn c (.datagram src data) = some r) :
    inputOp env t (.datagram src data) =
      if r.src = t.dataAddr ∧ r.number = t.recvSeq then .takeOver r.cemiData else .keep := by
  obtain ⟨frame, ch, hparse, hservice, hheader, hch, rfl⟩ := requestOn_some h
  have hfrom : (fromData t src ch = true ∧ ch.sequenceCounter = t.recvSeq) ↔
      (src = t.dataAddr ∧ ch.sequenceCounter = t.recvSeq) := by
    unfold fromData
    rw [decide_eq_true_eq, hch, hid]
    constructor
    · rintro ⟨⟨_, hsrc⟩, hnumber⟩
      exact ⟨hsrc.symm, hnumber⟩
    · rintro ⟨hsrc, hnumber⟩
      exact ⟨⟨rfl, hsrc.symm⟩, hnumber⟩
  unfold inputOp packetOp requestOp
  dsimp only
  rw [hparse]
  dsimp only
  rw [hservice]
  dsimp only
  rw [hheader]
  dsimp only
  rw [if_congr hfrom rfl rfl]

theorem packetOp_takeOver_channel {frame : KnxIpFrame} {cemiData : List UInt8}
    (h : packetOp t src frame = .takeOver cemiData) :
    frame.serviceType = .tunnelingRequest ∧
      ∃ ch, ConnectionHeader.parse frame.body = some ch ∧ ch.channelId = t.channelId := by
  unfold packetOp at h
  split at h
  · split_ifs at h
  · split_ifs at h
  · next hservice =>
    refine ⟨hservice, ?_⟩
    unfold requestOp at h
    split at h
    · cases h
    · next ch hch =>
      split_ifs at h with hexpected
      exact ⟨ch, hch, (fromData_channel hexpected.1).symm⟩
  · unfold ackOp at h
    split at h
    · cases h
    · split_ifs at h
  · cases h

theorem inputOp_other {input : Input} (hid : t.channelId = c) (h : requestOn c input = none) :
    Op.takesOver (inputOp env t input) = false := by
  by_contra hover
  obtain ⟨cemiData, hop⟩ := takesOver_cases (Bool.not_eq_false _ |>.mp hover)
  have hnumber := inputOp_takeOver hop
  cases input with
  | datagram src data =>
    rcases hparse : KnxIpFrame.parse data with e | frame
    · unfold requestNumber at hnumber
      dsimp only at hnumber
      rw [hparse] at hnumber
      cases hnumber
    · have hpacket : packetOp t src frame = .takeOver cemiData := by
        unfold inputOp at hop
        dsimp only at hop
        rw [hparse] at hop
        exact hop
      obtain ⟨hservice, ch, hheader, hch⟩ := packetOp_takeOver_channel hpacket
      have hon : requestOn c (.datagram src data) =
          some ⟨src, ch.sequenceCounter, frame.body.drop ConnectionHeader.len⟩ := by
        unfold requestOn
        dsimp only
        rw [hparse]
        dsimp only
        rw [if_pos hservice, hheader]
        dsimp only
        rw [if_pos (hch.trans hid)]
      rw [hon] at h
      cases h
  | _ => cases hnumber

end

/-! ## The ledger of a client -/

/-- What has happened for a client since its connect: the cEMI octets of its requests in sequence,
    the frames queued for it, with whether a request of its own brought them about, and the events
    that its requests pushed. -/
structure Ledger where
  received : List (List UInt8)
  queued : List (Bool × List UInt8)
  pushed : List ServerEvent

namespace Ledger

def empty : Ledger := ⟨[], [], []⟩

/-- The requests of a client after a step; those that the server has not read do not count. -/
def receive (received : List (List UInt8)) (t : TunnelClient) (taken : Bool) :
    Option Request → List (List UInt8)
  | none => received
  | some r =>
    if taken ∧ InSequence t received.length r then received ++ [r.cemiData] else received

/-- The ledger of channel `c` after a step: empty while the channel has no tunnel. -/
def record (c : UInt8) (ledger : Ledger) (state : ServerState) (event : Env × Input) : Ledger :=
  match tunnelOf c state.tunnels with
  | none => .empty
  | some t =>
    let request := requestOn c event.2
    let taken := reads state event.2
    { received := receive ledger.received t taken request
      queued := ledger.queued ++
        if taken then (Op.frames (inputOp event.1 t event.2)).map fun cemi =>
          (request.isSome, cemi) else []
      pushed := ledger.pushed ++
        if request.isSome then (state.step event.1 event.2).2.events else [] }

end Ledger

def ledgerOf (c : UInt8) (past : List (Transition ServerState (Env × Input))) : Ledger :=
  past.foldl (fun ledger x => ledger.record c x.source x.event) .empty

theorem ledgerOf_append (c : UInt8) (past : List (Transition ServerState (Env × Input)))
    (x : Transition ServerState (Env × Input)) :
    ledgerOf c (past ++ [x]) = (ledgerOf c past).record c x.source x.event := by
  unfold ledgerOf
  rw [List.foldl_append]
  rfl

/-- The frames that a client's own requests have queued for it, in order. -/
def Ledger.answers (ledger : Ledger) : List (List UInt8) :=
  (ledger.queued.filter Prod.fst).map Prod.snd

/-- The ledger of a client balances: the number expected counts its requests, each of them has its
    confirmations in the queue and its events pushed, in order, and the queue's history holds
    nothing else than what was queued. -/
structure Balanced (t : TunnelClient) (log : Log) (ledger : Ledger) : Prop where
  expected : t.recvSeq = UInt8.ofNat ledger.received.length
  enqueued : ledger.queued.map Prod.snd = log.enqueued
  answers : ledger.answers = ledger.received.flatMap confirmations
  pushed : ledger.pushed = ledger.received.flatMap tunnelEvents

section
variable {env : Env} {state : ServerState} {c : UInt8} {t : TunnelClient} {src : SocketAddr}
  {data : List UInt8} {r : Request}

theorem request_answered (separate : Separate state) (hlive : tunnelOf c state.tunnels = some t)
    (taken : reads state (.datagram src data) = true)
    (h : requestOn c (.datagram src data) = some r) :
    ∃ ch : ConnectionHeader, ch.channelId = c ∧ ch.sequenceCounter = r.number ∧ r.src = src ∧
      Answered env src ch r.cemiData t state (state.step env (.datagram src data)).1
        (state.step env (.datagram src data)).2 := by
  obtain ⟨frame, ch, hparse, hservice, hheader, hch, rfl⟩ := requestOn_some h
  subst hch
  exact ⟨ch, rfl, rfl, rfl, step_answered separate taken hparse hservice hheader hlive⟩

theorem request_pushes (taken : reads state (.datagram src data) = true)
    (h : requestOn c (.datagram src data) = some r) :
    (state.next (env, .datagram src data)).events =
      (state.step env (.datagram src data)).2.events.foldl EventQueue.push state.events := by
  obtain ⟨frame, ch, hparse, hservice, _⟩ := requestOn_some h
  unfold ServerState.next
  dsimp only
  rw [step_request taken hparse hservice]

theorem request_events (separate : Separate state) (hlive : tunnelOf c state.tunnels = some t)
    (taken : reads state (.datagram src data) = true)
    (h : requestOn c (.datagram src data) = some r) :
    (state.step env (.datagram src data)).2.events =
      if r.src = t.dataAddr ∧ r.number = t.recvSeq then tunnelEvents r.cemiData else [] := by
  obtain ⟨ch, _, hnumber, hsrc, answered⟩ :=
    @request_answered env _ _ _ _ _ _ separate hlive taken h
  subst hsrc
  split_ifs with hexpected
  · rw [(answered.taken hexpected.1.symm (hnumber.trans hexpected.2)).1]
  · by_cases hfrom : t.dataAddr = r.src
    · have hother : ch.sequenceCounter ≠ t.recvSeq := fun hseq =>
        hexpected ⟨hfrom.symm, hnumber.symm.trans hseq⟩
      rw [(answered.other hfrom hother).1]
    · rw [(answered.refused hfrom).1]

end

/-! ## One step -/

theorem answers_append (ledger : Ledger) (received : List (List UInt8)) (own : Bool)
    (frames : List (List UInt8)) (pushed : List ServerEvent) :
    Ledger.answers ⟨received, ledger.queued ++ frames.map fun cemi => (own, cemi), pushed⟩ =
      ledger.answers ++ if own then frames else [] := by
  unfold Ledger.answers
  rw [List.filter_append, List.map_append]
  congr 1
  cases own with
  | false => simp only [List.filter_map, Function.comp_def, List.filter_false, List.map_nil,
      Bool.false_eq_true, if_false]
  | true => simp only [List.filter_map, Function.comp_def, List.filter_true, List.map_map,
      List.map_id', if_true]

section
variable {t t' : TunnelClient} {log log' : Log} {ledger : Ledger}

theorem Balanced.extend (h : Balanced t log ledger) (added : List (List UInt8)) (own : Bool)
    (frames : List (List UInt8)) (events : List ServerEvent)
    (hseq : t'.recvSeq = UInt8.ofNat (ledger.received ++ added).length)
    (hlog : log'.enqueued = log.enqueued ++ frames)
    (hanswers : (if own then frames else []) = added.flatMap confirmations)
    (hevents : events = added.flatMap tunnelEvents) :
    Balanced t' log' ⟨ledger.received ++ added,
      ledger.queued ++ frames.map fun cemi => (own, cemi), ledger.pushed ++ events⟩ where
  expected := hseq
  enqueued := by
    rw [List.map_append, h.enqueued, hlog, List.map_map]
    exact congrArg (log.enqueued ++ ·) (List.map_id frames)
  answers := by
    rw [answers_append, h.answers, hanswers]
    exact List.flatMap_append.symm
  pushed := by
    change ledger.pushed ++ events = _
    rw [h.pushed, hevents]
    exact List.flatMap_append.symm

theorem Balanced.extend_none (h : Balanced t log ledger) (own : Bool) (frames : List (List UInt8))
    (hseq : t'.recvSeq = t.recvSeq) (hlog : log'.enqueued = log.enqueued ++ frames)
    (hanswers : (if own then frames else []) = []) :
    Balanced t' log' ⟨ledger.received, ledger.queued ++ frames.map fun cemi => (own, cemi),
      ledger.pushed ++ []⟩ := by
  have hcount : t'.recvSeq = UInt8.ofNat (ledger.received ++ []).length := by
    rw [hseq, h.expected, List.append_nil]
  have hnone := h.extend [] own frames [] hcount hlog hanswers rfl
  rw [List.append_nil] at hnone
  exact hnone

variable {state : ServerState} {env : Env} {c : UInt8} {input : Input}

theorem Balanced.step_request {src : SocketAddr} {data : List UInt8} {r : Request}
    (separate : Separate state) (h : Balanced t log ledger)
    (hlive : tunnelOf c state.tunnels = some t)
    (taken : reads state (.datagram src data) = true)
    (hreq : requestOn c (.datagram src data) = some r)
    (hrun : ((inputOp env t (.datagram src data)).run env t).1 = some t') :
    Balanced t' (log.record c state (env, .datagram src data))
      (ledger.record c state (env, .datagram src data)) := by
  have hevents := @request_events env _ _ _ _ _ _ separate hlive taken hreq
  have hop := @inputOp_request env _ _ _ _ _ (row_some hlive).2 hreq
  have hseq := run_recvSeq hrun
  have hlog := after_enqueued log t (inputOp env t (.datagram src data))
  have hin : InSequence t ledger.received.length r ↔
      r.src = t.dataAddr ∧ r.number = t.recvSeq := by
    unfold InSequence
    rw [h.expected]
  unfold Log.record Ledger.record
  rw [hlive]
  dsimp only
  rw [hreq, taken, hevents]
  rw [hop] at hseq hlog ⊢
  by_cases hexpected : r.src = t.dataAddr ∧ r.number = t.recvSeq
  · have hreceive : Ledger.receive ledger.received t true (some r) =
        ledger.received ++ [r.cemiData] := if_pos ⟨rfl, hin.mpr hexpected⟩
    rw [if_pos hexpected] at hseq hlog
    rw [hreceive, if_pos hexpected, if_pos hexpected]
    refine h.extend [r.cemiData] true _ _ ?_ hlog ?_ ?_
    · rw [List.length_append, List.length_singleton, UInt8.ofNat_add, ← h.expected]
      exact hseq
    · rw [if_pos rfl, takeOver_frames, List.flatMap_singleton]
    · rw [List.flatMap_singleton]
      rfl
  · have hreceive : Ledger.receive ledger.received t true (some r) = ledger.received :=
      if_neg fun h => hexpected (hin.mp h.2)
    rw [if_neg hexpected] at hseq hlog
    rw [hreceive, if_neg hexpected, if_neg hexpected]
    exact h.extend_none true [] hseq hlog rfl

/-- A step in which the tunnel is neither made nor removed keeps the balance. -/
theorem Balanced.step (separate : Separate state) (h : Balanced t log ledger)
    (hlive : tunnelOf c state.tunnels = some t)
    (hnext : tunnelOf c (state.next (env, input)).tunnels = some t') :
    Balanced t' (log.record c state (env, input)) (ledger.record c state (env, input)) := by
  by_cases taken : reads state input = true
  · rw [step_row separate.distinct hlive input taken] at hnext
    rcases hreq : requestOn c input with _ | r
    · have hover := @inputOp_other env _ _ _ (row_some hlive).2 hreq
      have hseq := run_recvSeq hnext
      rw [hover, if_neg Bool.false_ne_true] at hseq
      unfold Log.record Ledger.record Ledger.receive
      rw [hlive, hreq]
      dsimp only
      rw [taken]
      exact h.extend_none false _ hseq (after_enqueued log t _) rfl
    · cases input with
      | datagram src data => exact h.step_request separate hlive taken hreq hnext
      | _ => cases hreq
  · have idle := Bool.not_eq_true _ |>.mp taken
    have hsame : t = t' := by
      rw [step_idle idle, hlive] at hnext
      exact Option.some.inj hnext
    subst hsame
    have hevents : (if (requestOn c input).isSome = true then
        (state.step env input).2.events else []) = [] := by
      rw [(step_unread idle).2]
      exact ite_self _
    have hreceive : Ledger.receive ledger.received t false (requestOn c input) =
        ledger.received := by
      unfold Ledger.receive
      rcases requestOn c input with _ | r
      · rfl
      · exact if_neg fun h => Bool.false_ne_true h.1
    unfold Log.record Ledger.record
    rw [hlive]
    dsimp only
    rw [idle, hevents, hreceive]
    exact h.extend_none false [] rfl (List.append_nil _).symm rfl

end

/-! ## Runs -/

def AllBalanced (past : List (Transition ServerState (Env × Input))) (state : ServerState) : Prop :=
  ∀ c t, tunnelOf c state.tunnels = some t → Balanced t (logOf c past) (ledgerOf c past)

theorem new_balanced (c : UInt8) (ctrlAddr dataAddr : SocketAddr) (now : Nat) :
    Balanced (.new c ctrlAddr dataAddr now) .empty .empty :=
  ⟨rfl, rfl, rfl, rfl⟩

theorem balanced_extend {past : List (Transition ServerState (Env × Input))}
    {x : Transition ServerState (Env × Input)} (separate : Separate x.source)
    (h : AllBalanced past x.source) (hstep : x.source.next x.event = x.target) :
    AllBalanced (past ++ [x]) x.target := by
  intro c t' ht'
  rw [logOf_append, ledgerOf_append]
  rw [← hstep] at ht'
  cases hbefore : tunnelOf c x.source.tunnels with
  | none =>
    obtain ⟨ctrlAddr, dataAddr, now, rfl⟩ := next_new hbefore ht'
    unfold Log.record Ledger.record
    rw [hbefore]
    exact new_balanced c ctrlAddr dataAddr now
  | some t => exact (h c t hbefore).step separate hbefore ht'

theorem run_balanced {description : Option ServerDescription.DeviceDescription}
    {multicastTarget : Option SocketAddr} {state : ServerState}
    {past : List (Transition ServerState (Env × Input))}
    (run : Run (fun s e s' => s.next e = s') (.start description multicastTarget) past state) :
    AllBalanced past state := by
  have hboth : Separate state ∧ AllBalanced past state := by
    refine run.history (H := fun past state => Separate state ∧ AllBalanced past state)
      (fun _ => True) ?_ (fun _ _ => trivial) ?_
    · refine ⟨start_separate description multicastTarget, ?_⟩
      intro c t ht
      cases ht
    · intro past x h _ hstep
      exact ⟨hstep ▸ h.1.changes (next_changes x.source x.event), balanced_extend h.1 h.2 hstep⟩
  exact hboth.2

/-- What a request of the client does that the server reads, after `count` requests in sequence:
    the next one, with an `L_Data.req`, pushes its frame as the one event and queues the one
    confirmation, a frame with the fields of the request but for the code and the flag; one that
    is not in sequence changes nothing and pushes nothing. -/
structure Effects (env : Env) (state : ServerState) (input : Input) (c : UInt8) (t : TunnelClient)
    (count : Nat) (r : Request) : Prop where
  confirmed : InSequence t count r → ∀ frame, CemiFrame.parse r.cemiData = .ok frame →
    isDataRequest frame →
      (state.step env input).2.events = [.tunnelFrame frame] ∧
      (state.next (env, input)).events = state.events.push (.tunnelFrame frame) ∧
      tunnelOf c (state.next (env, input)).tunnels =
        some (TunnelClient.queue env { t with recvSeq := t.recvSeq + 1 } (confirmed frame)).1 ∧
      ∃ con, CemiFrame.parse (confirmed frame) = .ok con ∧
        con.fields = confirmedFields frame.fields
  ignored : ¬InSequence t count r →
    (state.step env input).2.events = [] ∧ state.next (env, input) = state

theorem request_effects {env : Env} {state : ServerState} {c : UInt8} {t : TunnelClient}
    {log : Log} {ledger : Ledger} {src : SocketAddr} {data : List UInt8} {r : Request}
    (separate : Separate state) (h : Balanced t log ledger)
    (hlive : tunnelOf c state.tunnels = some t)
    (taken : reads state (.datagram src data) = true)
    (hreq : requestOn c (.datagram src data) = some r) :
    Effects env state (.datagram src data) c t ledger.received.length r := by
  obtain ⟨ch, rfl, hnumber, rfl, answered⟩ :=
    @request_answered env _ _ _ _ _ _ separate hlive taken hreq
  constructor
  · rintro ⟨hsrc, hseq⟩ frame hparse hcode
    rw [← h.expected, ← hnumber] at hseq
    obtain ⟨houtput, hrow⟩ := answered.taken hsrc.symm hseq
    have hevents : (state.step env (.datagram r.src data)).2.events = [.tunnelFrame frame] := by
      rw [houtput]
      unfold tunnelEvents
      dsimp only
      rw [hparse]
    refine ⟨hevents, ?_, ?_, ?_⟩
    · rw [request_pushes taken hreq, hevents]
      rfl
    · unfold ServerState.next
      dsimp only
      rw [hrow]
      unfold TunnelClient.takeOver
      dsimp only
      rw [hparse]
      dsimp only
      rw [confirmationOf_eq, if_pos hcode]
    · obtain ⟨con, hcon, _, hfields⟩ := confirmed_frame frame
      exact ⟨con, hcon, hfields⟩
  · intro hout
    by_cases hsrc : t.dataAddr = r.src
    · have hother : ch.sequenceCounter ≠ t.recvSeq := fun hseq =>
        hout ⟨hsrc.symm, by rw [← h.expected, ← hseq, hnumber]⟩
      obtain ⟨houtput, hnext⟩ := answered.other hsrc hother
      exact ⟨by rw [houtput], hnext⟩
    · obtain ⟨houtput, hnext⟩ := answered.refused hsrc
      exact ⟨by rw [houtput], hnext⟩

end KnxRs.RequestConfirmations
