import KnxRs.CoreTypes
import KnxRs.Runs

set_option autoImplicit false

/-!
# The connection-oriented transport layer

The state machine of `transport_layer.rs`, action by action. The layer never
looks into an APDU, so its type is a parameter; a device uses octet lists.
Deadlines are 64-bit milliseconds with wrapping addition.
-/
namespace KnxRs.Transport
open CoreTypes Runs

def connectionTimeoutMs : UInt64 := 6000
def ackTimeoutMs : UInt64 := 3000
def maxRepCount : UInt8 := 3
def seqNoMask : UInt8 := 0x0F

inductive State where
  | closed | openIdle | openWait | connecting
  deriving DecidableEq

inductive Action (α : Type) where
  | sendControl (destination : IndividualAddress) (tpduType : TpduType) (seqNo : UInt8)
  | sendDataConnected (destination : IndividualAddress) (seqNo : UInt8) (priority : Priority)
      (apdu : α)
  | connectIndication (source : IndividualAddress)
  | connectConfirm (destination : IndividualAddress)
  | disconnectIndication (address : IndividualAddress)
  | dataConnectedIndication (source : IndividualAddress) (priority : Priority) (apdu : α)
  | dataConnectedConfirm
  deriving DecidableEq

structure SavedFrame (α : Type) where
  destination : IndividualAddress
  seqNo : UInt8
  priority : Priority
  apdu : α
  deriving DecidableEq

structure BufferedRequest (α : Type) where
  priority : Priority
  apdu : α
  deriving DecidableEq

structure TransportLayer (α : Type) where
  state : State
  connectionAddress : IndividualAddress
  seqNoSend : UInt8
  seqNoRecv : UInt8
  repCount : UInt8
  connectionTimeoutDeadline : Option UInt64
  ackTimeoutDeadline : Option UInt64
  savedFrame : Option (SavedFrame α)
  bufferedRequest : Option (BufferedRequest α)
  actions : List (Action α)
  deriving DecidableEq

namespace TransportLayer
variable {α : Type}

def new : TransportLayer α where
  state := .closed
  connectionAddress := ⟨0⟩
  seqNoSend := 0
  seqNoRecv := 0
  repCount := 0
  connectionTimeoutDeadline := none
  ackTimeoutDeadline := none
  savedFrame := none
  bufferedRequest := none
  actions := []

def push (t : TransportLayer α) (a : Action α) : TransportLayer α :=
  { t with actions := t.actions ++ [a] }

def takeActions (t : TransportLayer α) : List (Action α) × TransportLayer α :=
  (t.actions, { t with actions := [] })

def enableConnectionTimeout (t : TransportLayer α) (nowMs : UInt64) : TransportLayer α :=
  { t with connectionTimeoutDeadline := some (nowMs + connectionTimeoutMs) }

def enableAckTimeout (t : TransportLayer α) (nowMs : UInt64) : TransportLayer α :=
  { t with ackTimeoutDeadline := some (nowMs + ackTimeoutMs) }

/-! ## Actions -/

def a1AcceptConnection (t : TransportLayer α) (source : IndividualAddress) (nowMs : UInt64) :
    TransportLayer α :=
  let t := { t with connectionAddress := source, seqNoSend := 0, seqNoRecv := 0 }
  { (t.enableConnectionTimeout nowMs).push (.connectIndication source) with state := .openIdle }

def a2ReceiveData (t : TransportLayer α) (source : IndividualAddress) (priority : Priority)
    (apdu : α) (nowMs : UInt64) : TransportLayer α :=
  let t := t.push (.sendControl source .ack t.seqNoRecv)
  let t := { t with seqNoRecv := (t.seqNoRecv + 1) &&& seqNoMask }
  (t.enableConnectionTimeout nowMs).push (.dataConnectedIndication source priority apdu)

def a3AckRepeated (t : TransportLayer α) (source : IndividualAddress) (seqNo : UInt8)
    (nowMs : UInt64) : TransportLayer α :=
  (t.push (.sendControl source .ack seqNo)).enableConnectionTimeout nowMs

def a4NackWrongSeq (t : TransportLayer α) (source : IndividualAddress) (seqNo : UInt8)
    (nowMs : UInt64) : TransportLayer α :=
  (t.push (.sendControl source .nack seqNo)).enableConnectionTimeout nowMs

def a5PassiveDisconnect (t : TransportLayer α) (address : IndividualAddress) :
    TransportLayer α :=
  { t with connectionTimeoutDeadline := none, ackTimeoutDeadline := none }.push
    (.disconnectIndication address)

def activeDisconnect (t : TransportLayer α) : TransportLayer α :=
  let t := t.push (.sendControl t.connectionAddress .disconnect 0)
  let t := t.push (.disconnectIndication t.connectionAddress)
  { t with connectionTimeoutDeadline := none, ackTimeoutDeadline := none }

def a7SendData (t : TransportLayer α) (priority : Priority) (apdu : α) (nowMs : UInt64) :
    TransportLayer α :=
  let t := { t with savedFrame := some ⟨t.connectionAddress, t.seqNoSend, priority, apdu⟩ }
  let t := t.push (.sendDataConnected t.connectionAddress t.seqNoSend priority apdu)
  ({ t with repCount := 0 }.enableAckTimeout nowMs).enableConnectionTimeout nowMs

def a8AckReceived (t : TransportLayer α) (nowMs : UInt64) : TransportLayer α :=
  let t := { t with
    ackTimeoutDeadline := none
    seqNoSend := (t.seqNoSend + 1) &&& seqNoMask
    savedFrame := none }
  (t.enableConnectionTimeout nowMs).push .dataConnectedConfirm

def a9Retransmit (t : TransportLayer α) (nowMs : UInt64) : TransportLayer α :=
  let t := match t.savedFrame with
    | some frame =>
      t.push (.sendDataConnected frame.destination frame.seqNo frame.priority frame.apdu)
    | none => t
  ({ t with repCount := t.repCount + 1 }.enableAckTimeout nowMs).enableConnectionTimeout nowMs

def a10RejectForeign (t : TransportLayer α) (source : IndividualAddress) : TransportLayer α :=
  t.push (.sendControl source .disconnect 0)

def a12InitiateConnection (t : TransportLayer α) (destination : IndividualAddress)
    (nowMs : UInt64) : TransportLayer α :=
  let t := { t with connectionAddress := destination, seqNoSend := 0, seqNoRecv := 0 }
  (t.push (.sendControl destination .connect 0)).enableConnectionTimeout nowMs

/-- The source's pair `active_disconnect(); state = Closed`. -/
def disconnectAndClose (t : TransportLayer α) : TransportLayer α :=
  { t.activeDisconnect with state := .closed }

/-! ## Incoming frames -/

def connectIndication (t : TransportLayer α) (source : IndividualAddress) (nowMs : UInt64) :
    TransportLayer α :=
  if t.state = .closed then t.a1AcceptConnection source nowMs
  else if source = t.connectionAddress then t
  else t.a10RejectForeign source

def disconnectIndication (t : TransportLayer α) (source : IndividualAddress) :
    TransportLayer α :=
  if source ≠ t.connectionAddress ∨ t.state = .closed then t
  else { t.a5PassiveDisconnect source with state := .closed }

def prevSeq (t : TransportLayer α) : UInt8 := (t.seqNoRecv - 1) &&& seqNoMask

def dataConnectedIndication (t : TransportLayer α) (source : IndividualAddress)
    (seqNo : UInt8) (priority : Priority) (apdu : α) (nowMs : UInt64) : TransportLayer α :=
  if source ≠ t.connectionAddress then
    if t.state = .connecting then t.a10RejectForeign source else t
  else match t.state with
    | .closed => t
    | .openIdle | .openWait =>
      if seqNo = t.seqNoRecv then t.a2ReceiveData source priority apdu nowMs
      else if seqNo = t.prevSeq then t.a3AckRepeated source seqNo nowMs
      else t.a4NackWrongSeq source seqNo nowMs
    | .connecting =>
      if seqNo = t.prevSeq then t.a3AckRepeated source seqNo nowMs
      else t.disconnectAndClose

def ackIndication (t : TransportLayer α) (source : IndividualAddress) (seqNo : UInt8)
    (nowMs : UInt64) : TransportLayer α :=
  if source ≠ t.connectionAddress then
    if t.state = .connecting then t.a10RejectForeign source else t
  else match t.state with
    | .closed | .openIdle => t
    | .openWait =>
      if seqNo = t.seqNoSend then { t.a8AckReceived nowMs with state := .openIdle }
      else t.disconnectAndClose
    | .connecting => t.disconnectAndClose

def nackIndication (t : TransportLayer α) (source : IndividualAddress) (seqNo : UInt8)
    (nowMs : UInt64) : TransportLayer α :=
  if source ≠ t.connectionAddress then
    if t.state = .connecting then t.a10RejectForeign source else t
  else match t.state with
    | .closed => t
    | .openIdle | .connecting => t.disconnectAndClose
    | .openWait =>
      if seqNo ≠ t.seqNoSend then t
      else if t.repCount < maxRepCount then t.a9Retransmit nowMs
      else t.disconnectAndClose

def connectConfirm (t : TransportLayer α) (success : Bool) : TransportLayer α :=
  if t.state = .connecting then
    if success then { t.push (.connectConfirm t.connectionAddress) with state := .openIdle }
    else { t.a5PassiveDisconnect t.connectionAddress with state := .closed }
  else t

/-! ## Requests of the application layer -/

def dataConnectedRequest (t : TransportLayer α) (priority : Priority) (apdu : α)
    (nowMs : UInt64) : TransportLayer α :=
  match t.state with
  | .closed => t
  | .openIdle => { t.a7SendData priority apdu nowMs with state := .openWait }
  | .openWait | .connecting => { t with bufferedRequest := some ⟨priority, apdu⟩ }

def connectRequest (t : TransportLayer α) (destination : IndividualAddress) (nowMs : UInt64) :
    TransportLayer α :=
  if t.state = .closed then
    { t.a12InitiateConnection destination nowMs with state := .connecting }
  else t.disconnectAndClose

def disconnectRequest (t : TransportLayer α) : TransportLayer α :=
  if t.state = .closed then t.push (.disconnectIndication t.connectionAddress)
  else t.disconnectAndClose

/-! ## Timers -/

/-- `if let Some(deadline) = d && now_ms >= deadline`. -/
def passed (d : Option UInt64) (nowMs : UInt64) : Bool :=
  match d with
  | some deadline => decide (deadline ≤ nowMs)
  | none => false

def poll (t : TransportLayer α) (nowMs : UInt64) : TransportLayer α :=
  if passed t.connectionTimeoutDeadline nowMs then
    let t := { t with connectionTimeoutDeadline := none }
    match t.state with
    | .openIdle | .openWait | .connecting => t.disconnectAndClose
    | .closed => t
  else if passed t.ackTimeoutDeadline nowMs ∧ t.state = .openWait then
    let t := { t with ackTimeoutDeadline := none }
    if t.repCount < maxRepCount then t.a9Retransmit nowMs else t.disconnectAndClose
  else if t.state = .openIdle then
    match t.bufferedRequest with
    | some req =>
      { { t with bufferedRequest := none }.a7SendData req.priority req.apdu nowMs with
        state := .openWait }
    | none => t
  else t

end TransportLayer

/-! ## Calls on a layer -/

/-- The calls a user of the layer makes: indications, requests, polls, and the draining of
    the action queue. -/
inductive Call (α : Type) where
  | connectIndication (source : IndividualAddress) (nowMs : UInt64)
  | disconnectIndication (source : IndividualAddress)
  | dataConnectedIndication (source : IndividualAddress) (seqNo : UInt8) (priority : Priority)
      (apdu : α) (nowMs : UInt64)
  | ackIndication (source : IndividualAddress) (seqNo : UInt8) (nowMs : UInt64)
  | nackIndication (source : IndividualAddress) (seqNo : UInt8) (nowMs : UInt64)
  | connectConfirm (success : Bool)
  | dataConnectedRequest (priority : Priority) (apdu : α) (nowMs : UInt64)
  | connectRequest (destination : IndividualAddress) (nowMs : UInt64)
  | disconnectRequest
  | poll (nowMs : UInt64)
  | takeActions
  deriving DecidableEq

variable {α : Type}

def apply (t : TransportLayer α) : Call α → TransportLayer α
  | .connectIndication source nowMs => t.connectIndication source nowMs
  | .disconnectIndication source => t.disconnectIndication source
  | .dataConnectedIndication source seqNo priority apdu nowMs =>
    t.dataConnectedIndication source seqNo priority apdu nowMs
  | .ackIndication source seqNo nowMs => t.ackIndication source seqNo nowMs
  | .nackIndication source seqNo nowMs => t.nackIndication source seqNo nowMs
  | .connectConfirm success => t.connectConfirm success
  | .dataConnectedRequest priority apdu nowMs => t.dataConnectedRequest priority apdu nowMs
  | .connectRequest destination nowMs => t.connectRequest destination nowMs
  | .disconnectRequest => t.disconnectRequest
  | .poll nowMs => t.poll nowMs
  | .takeActions => t.takeActions.2

/-- The data a call asks the layer to send. -/
def Call.request : Call α → Option (BufferedRequest α)
  | .dataConnectedRequest priority apdu _ => some ⟨priority, apdu⟩
  | _ => none

abbrev Step (α : Type) := Transition (TransportLayer α) (Call α)

/-- The actions a call adds to the queue. -/
def produced (x : Step α) : List (Action α) := x.target.actions.drop x.source.actions.length

end KnxRs.Transport
