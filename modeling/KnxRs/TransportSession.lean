import KnxRs.StopAndWait
import KnxRs.TransportHistory
import Mathlib.Logic.Function.Basic

set_option autoImplicit false

/-!
# Two transport layers in one connection session

The parties exchange frames over one channel in each direction, which may lose
frames but keeps the order of the others. One of them opens the connection; then
requests, deliveries, losses, polls and disconnects come in any order.
-/
namespace KnxRs.TransportSession
open CoreTypes Transport StopAndWait

variable {α : Type}

inductive Side where
  | initiator | acceptor
  deriving DecidableEq

def Side.other : Side → Side
  | .initiator => .acceptor
  | .acceptor => .initiator

inductive Wire (α : Type) where
  | connect
  | disconnect
  | data (seqNo : UInt8) (priority : Priority) (apdu : α)
  | ack (seqNo : UInt8)
  | nack (seqNo : UInt8)

def wire (peer : IndividualAddress) : Action α → Option (Wire α)
  | .sendControl destination .connect _ => if destination = peer then some .connect else none
  | .sendControl destination .disconnect _ =>
    if destination = peer then some .disconnect else none
  | .sendControl destination .ack seqNo => if destination = peer then some (.ack seqNo) else none
  | .sendControl destination .nack seqNo =>
    if destination = peer then some (.nack seqNo) else none
  | .sendDataConnected destination seqNo priority apdu =>
    if destination = peer then some (.data seqNo priority apdu) else none
  | _ => none

/-- The indication a frame from `peer` arrives as. -/
def Wire.indication (peer : IndividualAddress) (nowMs : UInt64) : Wire α → Call α
  | .connect => .connectIndication peer nowMs
  | .disconnect => .disconnectIndication peer
  | .data seqNo priority apdu => .dataConnectedIndication peer seqNo priority apdu nowMs
  | .ack seqNo => .ackIndication peer seqNo nowMs
  | .nack seqNo => .nackIndication peer seqNo nowMs

def Wire.dataOf : Wire α → Option (UInt8 × α)
  | .data seqNo _ apdu => some (seqNo, apdu)
  | _ => none

def Wire.ackOf : Wire α → Option UInt8
  | .ack seqNo => some seqNo
  | _ => none

/-- A layer and what has been seen of it: the APDUs it has sent for the first time, those it
    has handed up, and those it has reported as confirmed. -/
structure Party (α : Type) where
  layer : TransportLayer α
  sent : List α
  delivered : List α
  confirmed : List α

def handedUp : Action α → Option α
  | .dataConnectedIndication _ _ apdu => some apdu
  | _ => none

/-- A confirm is about the frame the layer was holding when it made it. -/
def confirms (x : Step α) : Action α → Option α
  | .dataConnectedConfirm => x.source.savedFrame.map SavedFrame.apdu
  | _ => none

def Party.record (p : Party α) (x : Step α) : Party α where
  layer := x.target.takeActions.2
  sent := p.sent ++ (firstTransmissions x).map SavedFrame.apdu
  delivered := p.delivered ++ (produced x).filterMap handedUp
  confirmed := p.confirmed ++ (produced x).filterMap (confirms x)

def wires (peer : IndividualAddress) (x : Step α) : List (Wire α) :=
  (produced x).filterMap (wire peer)

structure Session (α : Type) where
  address : Side → IndividualAddress
  party : Side → Party α
  channel : Side → List (Wire α)

inductive Event (α : Type) where
  | request (side : Side) (priority : Priority) (apdu : α) (nowMs : UInt64)
  | disconnect (side : Side)
  | connectConfirm (side : Side) (success : Bool)
  | poll (side : Side) (nowMs : UInt64)
  | deliver (side : Side) (nowMs : UInt64)
  | lose (side : Side) (place : Nat)

namespace Session

def call (s : Session α) (i : Side) (c : Call α) : Session α :=
  let x : Step α := ⟨(s.party i).layer, c, apply (s.party i).layer c⟩
  { s with
    party := Function.update s.party i ((s.party i).record x)
    channel := Function.update s.channel i.other
      (s.channel i.other ++ wires (s.address i.other) x) }

/-- `channel i` holds the frames on their way to `i`, oldest first. -/
def step (s : Session α) : Event α → Session α
  | .request i priority apdu nowMs => s.call i (.dataConnectedRequest priority apdu nowMs)
  | .disconnect i => s.call i .disconnectRequest
  | .connectConfirm i success => s.call i (.connectConfirm success)
  | .poll i nowMs => s.call i (.poll nowMs)
  | .deliver i nowMs =>
    match s.channel i with
    | [] => s
    | w :: rest =>
      call { s with channel := Function.update s.channel i rest } i
        (w.indication (s.address i.other) nowMs)
  | .lose i place =>
    { s with channel := Function.update s.channel i ((s.channel i).eraseIdx place) }

def start (address : Side → IndividualAddress) (layer : Side → TransportLayer α)
    (nowMs : UInt64) : Session α :=
  call ⟨address, fun i => ⟨(layer i).takeActions.2, [], [], []⟩, fun _ => []⟩ .initiator
    (.connectRequest (address .acceptor) nowMs)

end Session

/-! ## Sequence numbers -/

def seqOf (n : Nat) : UInt8 := UInt8.ofNat (n % 16)

theorem seqOf_toNat (n : Nat) : (seqOf n).toNat = n % 16 := by
  have := Nat.mod_lt n (show 0 < 16 by decide)
  rw [seqOf, UInt8.toNat_ofNat']
  omega

theorem mod_eq_of_seqOf_eq {i j : Nat} (h : seqOf i = seqOf j) : i % 16 = j % 16 := by
  rw [← seqOf_toNat, ← seqOf_toNat, h]

theorem mask_toNat (s : UInt8) : (s &&& seqNoMask).toNat = s.toNat % 16 := by
  rw [UInt8.toNat_and]
  exact Nat.and_two_pow_sub_one_eq_mod s.toNat 4

theorem seqOf_succ (n : Nat) : (seqOf n + 1) &&& seqNoMask = seqOf (n + 1) := by
  apply UInt8.toNat_inj.mp
  rw [mask_toNat, UInt8.toNat_add, seqOf_toNat, seqOf_toNat]
  have : (1 : UInt8).toNat = 1 := rfl
  omega

theorem seqOf_pred (n : Nat) : (seqOf n - 1) &&& seqNoMask = seqOf (n + (16 - 1)) := by
  apply UInt8.toNat_inj.mp
  rw [mask_toNat, UInt8.toNat_sub, seqOf_toNat, seqOf_toNat]
  have : (1 : UInt8).toNat = 1 := rfl
  omega

end KnxRs.TransportSession
