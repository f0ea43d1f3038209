import KnxRs.Transport

set_option autoImplicit false

/-!
# What one call on the transport layer can do

Every branch of every method, once. The invariants, the history theorems and the
two-party session are proved over these outcomes and never unfold a method.
-/
namespace KnxRs.Transport
open CoreTypes Runs

variable {α : Type}

/-! ## The queue and the buffer after each action -/

namespace TransportLayer
variable (t : TransportLayer α) (address : IndividualAddress) (seqNo : UInt8)
  (priority : Priority) (apdu : α) (nowMs : UInt64)

@[simp] theorem a1AcceptConnection_actions :
    (t.a1AcceptConnection address nowMs).actions = t.actions ++ [.connectIndication address] := rfl

@[simp] theorem a2ReceiveData_actions : (t.a2ReceiveData address priority apdu nowMs).actions =
    t.actions ++ [.sendControl address .ack t.seqNoRecv,
      .dataConnectedIndication address priority apdu] := by
  simp [a2ReceiveData, push, enableConnectionTimeout]

@[simp] theorem a3AckRepeated_actions : (t.a3AckRepeated address seqNo nowMs).actions =
    t.actions ++ [.sendControl address .ack seqNo] := rfl

@[simp] theorem a4NackWrongSeq_actions : (t.a4NackWrongSeq address seqNo nowMs).actions =
    t.actions ++ [.sendControl address .nack seqNo] := rfl

@[simp] theorem a5PassiveDisconnect_actions : (t.a5PassiveDisconnect address).actions =
    t.actions ++ [.disconnectIndication address] := rfl

@[simp] theorem disconnectAndClose_actions : t.disconnectAndClose.actions =
    t.actions ++ [.sendControl t.connectionAddress .disconnect 0,
      .disconnectIndication t.connectionAddress] := by
  simp [disconnectAndClose, activeDisconnect, push]

@[simp] theorem a7SendData_actions : (t.a7SendData priority apdu nowMs).actions =
    t.actions ++ [.sendDataConnected t.connectionAddress t.seqNoSend priority apdu] := rfl

@[simp] theorem a8AckReceived_actions :
    (t.a8AckReceived nowMs).actions = t.actions ++ [.dataConnectedConfirm] := rfl

@[simp] theorem a10RejectForeign_actions : (t.a10RejectForeign address).actions =
    t.actions ++ [.sendControl address .disconnect 0] := rfl

@[simp] theorem a12InitiateConnection_actions :
    (t.a12InitiateConnection address nowMs).actions =
      t.actions ++ [.sendControl address .connect 0] := rfl

@[simp] theorem push_actions (a : Action α) : (t.push a).actions = t.actions ++ [a] := rfl

@[simp] theorem a7SendData_bufferedRequest :
    (t.a7SendData priority apdu nowMs).bufferedRequest = t.bufferedRequest := rfl

end TransportLayer

/-! ## Outcomes -/

inductive Outcome (t : TransportLayer α) : Call α → TransportLayer α → Prop where
  | ignored {c : Call α} (quiet : t.state = .closed ∨ c.request = none) : Outcome t c t
  | opened {source : IndividualAddress} {nowMs : UInt64} (h : t.state = .closed) :
      Outcome t (.connectIndication source nowMs) (t.a1AcceptConnection source nowMs)
  | rejected {c : Call α} {source : IndividualAddress} (h : t.state ≠ .closed)
      (foreign : source ≠ t.connectionAddress) (quiet : c.request = none) :
      Outcome t c (t.a10RejectForeign source)
  | closedPassively {c : Call α} {address : IndividualAddress} (h : t.state ≠ .closed)
      (quiet : c.request = none) :
      Outcome t c { t.a5PassiveDisconnect address with state := .closed }
  | closedActively {c : Call α} (h : t.state ≠ .closed) (quiet : c.request = none) :
      Outcome t c t.disconnectAndClose
  | disarmed {nowMs : UInt64} (h : t.state = .closed) :
      Outcome t (.poll nowMs) { t with connectionTimeoutDeadline := none }
  | received {source : IndividualAddress} {seqNo : UInt8} {priority : Priority} {apdu : α}
      {nowMs : UInt64} (h : t.state = .openIdle ∨ t.state = .openWait)
      (peer : source = t.connectionAddress) (seq : seqNo = t.seqNoRecv) :
      Outcome t (.dataConnectedIndication source seqNo priority apdu nowMs)
        (t.a2ReceiveData source priority apdu nowMs)
  | repeated {source : IndividualAddress} {seqNo : UInt8} {priority : Priority} {apdu : α}
      {nowMs : UInt64} (h : t.state ≠ .closed)
      (peer : source = t.connectionAddress) (seq : seqNo = t.prevSeq) :
      Outcome t (.dataConnectedIndication source seqNo priority apdu nowMs)
        (t.a3AckRepeated source seqNo nowMs)
  | wrongSeq {source : IndividualAddress} {seqNo : UInt8} {priority : Priority} {apdu : α}
      {nowMs : UInt64} (h : t.state = .openIdle ∨ t.state = .openWait)
      (peer : source = t.connectionAddress) (notNext : seqNo ≠ t.seqNoRecv)
      (notLast : seqNo ≠ t.prevSeq) :
      Outcome t (.dataConnectedIndication source seqNo priority apdu nowMs)
        (t.a4NackWrongSeq source seqNo nowMs)
  | acknowledged {source : IndividualAddress} {seqNo : UInt8} {nowMs : UInt64}
      (h : t.state = .openWait) (seq : seqNo = t.seqNoSend) :
      Outcome t (.ackIndication source seqNo nowMs)
        { t.a8AckReceived nowMs with state := .openIdle }
  | retransmitted {c : Call α} {nowMs : UInt64} (h : t.state = .openWait)
      (rep : t.repCount < maxRepCount) (quiet : c.request = none) :
      Outcome t c (t.a9Retransmit nowMs)
  | connected (h : t.state = .connecting) :
      Outcome t (.connectConfirm true)
        { t.push (.connectConfirm t.connectionAddress) with state := .openIdle }
  | sent {priority : Priority} {apdu : α} {nowMs : UInt64} (h : t.state = .openIdle) :
      Outcome t (.dataConnectedRequest priority apdu nowMs)
        { t.a7SendData priority apdu nowMs with state := .openWait }
  | flushed {req : BufferedRequest α} {nowMs : UInt64} (h : t.state = .openIdle)
      (pending : t.bufferedRequest = some req) :
      Outcome t (.poll nowMs)
        { { t with bufferedRequest := none }.a7SendData req.priority req.apdu nowMs with
          state := .openWait }
  | buffered {priority : Priority} {apdu : α} {nowMs : UInt64}
      (h : t.state = .openWait ∨ t.state = .connecting) :
      Outcome t (.dataConnectedRequest priority apdu nowMs)
        { t with bufferedRequest := some ⟨priority, apdu⟩ }
  | initiated {destination : IndividualAddress} {nowMs : UInt64} (h : t.state = .closed) :
      Outcome t (.connectRequest destination nowMs)
        { t.a12InitiateConnection destination nowMs with state := .connecting }
  | notOpen (h : t.state = .closed) :
      Outcome t .disconnectRequest (t.push (.disconnectIndication t.connectionAddress))
  | drained : Outcome t .takeActions { t with actions := [] }

section
variable (t : TransportLayer α)

def SavedFrame.action (frame : SavedFrame α) : Action α :=
  .sendDataConnected frame.destination frame.seqNo frame.priority frame.apdu

theorem a9Retransmit_eq (nowMs : UInt64) : t.a9Retransmit nowMs = { t with
    actions := t.actions ++ (t.savedFrame.map SavedFrame.action).toList
    repCount := t.repCount + 1
    ackTimeoutDeadline := some (nowMs + ackTimeoutMs)
    connectionTimeoutDeadline := some (nowMs + connectionTimeoutMs) } := by
  obtain ⟨_, _, _, _, _, _, _, saved, _, _⟩ := t
  cases saved <;> simp [TransportLayer.a9Retransmit, TransportLayer.push,
    TransportLayer.enableAckTimeout, TransportLayer.enableConnectionTimeout, SavedFrame.action]

theorem connectIndication_outcome (source : IndividualAddress) (nowMs : UInt64) :
    Outcome t (.connectIndication source nowMs) (t.connectIndication source nowMs) := by
  unfold TransportLayer.connectIndication
  split_ifs with hc hs
  · exact .opened hc
  · exact .ignored (.inr rfl)
  · exact .rejected hc hs rfl

theorem disconnectIndication_outcome (source : IndividualAddress) :
    Outcome t (.disconnectIndication source) (t.disconnectIndication source) := by
  unfold TransportLayer.disconnectIndication
  split_ifs with h
  · exact .ignored (.inr rfl)
  · exact .closedPassively (not_or.mp h).2 rfl

theorem foreign_outcome {c : Call α} (quiet : c.request = none) {source : IndividualAddress}
    (hs : source ≠ t.connectionAddress) :
    Outcome t c (if t.state = .connecting then t.a10RejectForeign source else t) := by
  split_ifs with h
  · exact .rejected (by simp [h]) hs quiet
  · exact .ignored (.inr quiet)

theorem dataConnectedIndication_outcome (source : IndividualAddress) (seqNo : UInt8)
    (priority : Priority) (apdu : α) (nowMs : UInt64) :
    Outcome t (.dataConnectedIndication source seqNo priority apdu nowMs)
      (t.dataConnectedIndication source seqNo priority apdu nowMs) := by
  unfold TransportLayer.dataConnectedIndication
  by_cases hs : source = t.connectionAddress
  · simp only [hs, ne_eq, not_true_eq_false, ↓reduceIte]
    cases hst : t.state with
    | closed => exact .ignored (.inr rfl)
    | openIdle | openWait =>
      dsimp only
      split_ifs with hn hp
      · exact .received (by simp [hst]) rfl hn
      · exact .repeated (by simp [hst]) rfl hp
      · exact .wrongSeq (by simp [hst]) rfl hn hp
    | connecting =>
      dsimp only
      split_ifs with hp
      · exact .repeated (by simp [hst]) rfl hp
      · exact .closedActively (by simp [hst]) rfl
  · rw [if_pos hs]
    exact foreign_outcome t rfl hs

theorem ackIndication_outcome (source : IndividualAddress) (seqNo : UInt8) (nowMs : UInt64) :
    Outcome t (.ackIndication source seqNo nowMs) (t.ackIndication source seqNo nowMs) := by
  unfold TransportLayer.ackIndication
  by_cases hs : source = t.connectionAddress
  · simp only [hs, ne_eq, not_true_eq_false, ↓reduceIte]
    cases hst : t.state with
    | closed | openIdle => exact .ignored (.inr rfl)
    | openWait =>
      dsimp only
      split_ifs with hq
      · exact .acknowledged hst hq
      · exact .closedActively (by simp [hst]) rfl
    | connecting => exact .closedActively (by simp [hst]) rfl
  · rw [if_pos hs]
    exact foreign_outcome t rfl hs

theorem nackIndication_outcome (source : IndividualAddress) (seqNo : UInt8) (nowMs : UInt64) :
    Outcome t (.nackIndication source seqNo nowMs) (t.nackIndication source seqNo nowMs) := by
  unfold TransportLayer.nackIndication
  by_cases hs : source = t.connectionAddress
  · simp only [hs, ne_eq, not_true_eq_false, ↓reduceIte]
    cases hst : t.state with
    | closed => exact .ignored (.inr rfl)
    | openIdle | connecting => exact .closedActively (by simp [hst]) rfl
    | openWait =>
      dsimp only
      split_ifs with hq hr
      · exact .retransmitted hst hr rfl
      · exact .closedActively (by simp [hst]) rfl
      · exact .ignored (.inr rfl)
  · rw [if_pos hs]
    exact foreign_outcome t rfl hs

theorem poll_outcome (nowMs : UInt64) : Outcome t (.poll nowMs) (t.poll nowMs) := by
  unfold TransportLayer.poll
  split_ifs with hc ha hi
  · dsimp only
    split
    · next hst => exact .closedActively (t := t) (by simp [hst]) rfl
    · next hst => exact .closedActively (t := t) (by simp [hst]) rfl
    · next hst => exact .closedActively (t := t) (by simp [hst]) rfl
    · next hst => exact .disarmed hst
  · dsimp only
    split_ifs with hr
    · have e : TransportLayer.a9Retransmit { t with ackTimeoutDeadline := none } nowMs =
          t.a9Retransmit nowMs := by simp only [a9Retransmit_eq]
      exact e ▸ .retransmitted ha.2 hr rfl
    · exact .closedActively (t := t) (by simp [ha.2]) rfl
  · split
    · next req hb => exact .flushed hi hb
    · exact .ignored (.inr rfl)
  · exact .ignored (.inr rfl)

/-- The inversion lemma of the layer. -/
theorem apply_outcome (c : Call α) : Outcome t c (apply t c) := by
  cases c with
  | connectIndication source nowMs => exact connectIndication_outcome t source nowMs
  | disconnectIndication source => exact disconnectIndication_outcome t source
  | dataConnectedIndication source seqNo priority apdu nowMs =>
    exact dataConnectedIndication_outcome t source seqNo priority apdu nowMs
  | ackIndication source seqNo nowMs => exact ackIndication_outcome t source seqNo nowMs
  | nackIndication source seqNo nowMs => exact nackIndication_outcome t source seqNo nowMs
  | connectConfirm success =>
    change Outcome t _ (t.connectConfirm success)
    unfold TransportLayer.connectConfirm
    split_ifs with h hs
    · subst hs
      exact .connected h
    · exact .closedPassively (by simp [h]) rfl
    · exact .ignored (.inr rfl)
  | dataConnectedRequest priority apdu nowMs =>
    change Outcome t _ (t.dataConnectedRequest priority apdu nowMs)
    unfold TransportLayer.dataConnectedRequest
    split
    · next hst => exact .ignored (.inl hst)
    · next hst => exact .sent hst
    · next hst => exact .buffered (.inl hst)
    · next hst => exact .buffered (.inr hst)
  | connectRequest destination nowMs =>
    change Outcome t _ (t.connectRequest destination nowMs)
    unfold TransportLayer.connectRequest
    split_ifs with h
    · exact .initiated h
    · exact .closedActively h rfl
  | disconnectRequest =>
    change Outcome t _ t.disconnectRequest
    unfold TransportLayer.disconnectRequest
    split_ifs with h
    · exact .notOpen h
    · exact .closedActively h rfl
  | poll nowMs => exact poll_outcome t nowMs
  | takeActions => exact .drained

end
end KnxRs.Transport
