import KnxRs.BoundedChannel
import KnxRs.CemiCodec
import Mathlib.Logic.Function.Iterate

set_option autoImplicit false

/-!
# Events on their way to the application

A bounded channel with a backlog in front of it. The server pushes without waiting;
what does not fit into the channel is held back and delivered as the application
makes room.
-/
namespace KnxRs.ServerEvents
open BoundedChannel CemiCodec

def maxEventBacklog : Nat := 1024

/-- A frame from a tunnel client or from multicast. -/
inductive ServerEvent where
  | tunnelFrame (cemi : CemiFrame)
  | routingFrame (cemi : CemiFrame)
  deriving DecidableEq

variable {α : Type}

structure EventQueue (α : Type) where
  tx : Channel α
  backlog : List α

namespace EventQueue

def new (tx : Channel α) : EventQueue α := ⟨tx, []⟩

variable (q : EventQueue α)

def push (event : α) : EventQueue α :=
  if q.backlog = [] then
    match q.tx.trySend event with
    | .ok tx => { q with tx := tx }
    | .error (.closed _) => q
    | .error (.full event) => { q with backlog := q.backlog ++ [event] }
  else if q.backlog.length < maxEventBacklog then { q with backlog := q.backlog ++ [event] }
  else q

def hasRoom : Bool := q.backlog.length < maxEventBacklog

def deliver : EventQueue α :=
  match q.tx.reserve with
  | .permit =>
    match q.backlog with
    | [] => q
    | event :: rest => ⟨q.tx.put event, rest⟩
  | .waits => q
  | .closed => { q with backlog := [] }

def receive : EventQueue α := { q with tx := q.tx.recv }

def drop : EventQueue α := { q with tx := q.tx.close }

/-- Everything pushed that has not been lost: taken, in the channel, or held back. -/
def held : List α := q.tx.accepted ++ q.backlog

/-! ## One operation -/

variable {q}

theorem push_closed (event : α) : (q.push event).tx.closed = q.tx.closed := by
  unfold push
  split_ifs with hempty
  · split
    · rename_i tx h
      rw [(Channel.trySend_ok h).2.2]
      rfl
    · rfl
    · rfl
  · rfl
  · rfl

theorem push_capacity (event : α) : (q.push event).tx.capacity = q.tx.capacity := by
  unfold push
  split_ifs with hempty
  · split
    · rename_i tx h
      rw [(Channel.trySend_ok h).2.2]
      rfl
    · rfl
    · rfl
  · rfl
  · rfl

theorem push_held (event : α) (room : q.hasRoom) (opened : q.tx.closed = false) :
    (q.push event).held = q.held ++ [event] := by
  unfold push
  split_ifs with hempty hroom
  · split
    · rename_i tx h
      unfold held
      rw [(Channel.trySend_ok h).2.2, Channel.put_accepted, hempty, List.append_nil,
        List.append_nil]
    · rename_i v h
      rw [Channel.trySend_closed h] at opened
      cases opened
    · rename_i v h
      unfold held
      rw [(Channel.trySend_full h).1, List.append_assoc]
  · exact (List.append_assoc _ _ _).symm
  · exact absurd (by simpa [hasRoom] using room) hroom

theorem push_backlog_le (event : α) (room : q.hasRoom) :
    (q.push event).backlog.length ≤ maxEventBacklog := by
  have hroom : q.backlog.length < maxEventBacklog := by simpa [hasRoom] using room
  unfold push
  split_ifs with hempty
  · split
    · exact Nat.le_of_lt hroom
    · exact Nat.le_of_lt hroom
    · simp only [List.length_append, List.length_singleton]
      exact hroom
  · simp only [List.length_append, List.length_singleton]
    exact hroom

theorem deliver_closed : q.deliver.tx.closed = q.tx.closed := by
  unfold deliver
  split
  · split <;> rfl
  · rfl
  · rfl

theorem reserve_closed (h : q.tx.reserve = .closed) : q.tx.closed = true := by
  unfold Channel.reserve at h
  split_ifs at h with hclosed
  exact hclosed

theorem deliver_held (opened : q.tx.closed = false) : q.deliver.held = q.held := by
  unfold deliver
  split
  · split
    · rfl
    · rename_i event rest hbacklog
      unfold held
      rw [Channel.put_accepted, hbacklog, List.append_assoc]
      rfl
  · rfl
  · rename_i hreserve
    rw [reserve_closed hreserve] at opened
    cases opened

theorem deliver_backlog_le : q.deliver.backlog.length ≤ q.backlog.length := by
  unfold deliver
  split
  · split
    · exact Nat.le_refl _
    · rename_i event rest hbacklog
      rw [hbacklog]
      exact Nat.le_succ _
  · exact Nat.le_refl _
  · exact Nat.zero_le _

theorem receive_held : q.receive.held = q.held := by
  unfold held receive
  rw [Channel.recv_accepted]

theorem receive_closed : q.receive.tx.closed = q.tx.closed := q.tx.recv_closed

/-! ## Draining -/

def pending (q : EventQueue α) : Nat := q.tx.buffer.length + q.backlog.length

theorem deliver_capacity : q.deliver.tx.capacity = q.tx.capacity := by
  unfold deliver
  split
  · split <;> rfl
  · rfl
  · rfl

theorem deliver_pending (opened : q.tx.closed = false) : q.deliver.pending = q.pending := by
  unfold deliver pending
  split
  · split
    · rfl
    · rename_i event rest hbacklog
      rw [hbacklog]
      simp only [Channel.put, List.length_append, List.length_cons, List.length_nil]
      omega
  · rfl
  · rename_i hreserve
    rw [reserve_closed hreserve] at opened
    cases opened

theorem deliver_ready (opened : q.tx.closed = false) (slots : 0 < q.tx.capacity) :
    q.deliver.tx.buffer = [] → q.deliver.backlog = [] := by
  intro hempty
  by_cases hslot : q.tx.hasSlot
  · have hreserve : q.tx.reserve = .permit := by
      unfold Channel.reserve
      rw [if_neg (by rw [opened]; decide), if_pos hslot]
    unfold deliver at hempty ⊢
    rw [hreserve] at hempty ⊢
    rcases hbacklog : q.backlog with _ | ⟨event, rest⟩
    · exact hbacklog
    · rw [hbacklog] at hempty
      exact absurd hempty (List.append_ne_nil_of_right_ne_nil _ (List.cons_ne_nil event []))
  · have hreserve : q.tx.reserve = .waits := by
      unfold Channel.reserve
      rw [if_neg (by rw [opened]; decide), if_neg hslot]
    unfold deliver at hempty
    rw [hreserve] at hempty
    have hempty : q.tx.buffer = [] := hempty
    refine absurd ?_ hslot
    unfold Channel.hasSlot
    rw [hempty]
    exact decide_eq_true slots

def round (q : EventQueue α) : EventQueue α := q.deliver.receive

theorem round_closed : q.round.tx.closed = q.tx.closed :=
  receive_closed.trans deliver_closed

theorem round_capacity : q.round.tx.capacity = q.tx.capacity :=
  q.deliver.tx.recv_capacity.trans deliver_capacity

theorem round_held (opened : q.tx.closed = false) : q.round.held = q.held :=
  receive_held.trans (deliver_held opened)

theorem round_pending (opened : q.tx.closed = false) (slots : 0 < q.tx.capacity) :
    q.round.pending = q.pending - 1 := by
  rw [← deliver_pending opened]
  change q.deliver.tx.recv.buffer.length + q.deliver.backlog.length =
    q.deliver.tx.buffer.length + q.deliver.backlog.length - 1
  rw [Channel.recv_buffer, List.length_tail]
  by_cases hempty : q.deliver.tx.buffer = []
  · rw [hempty, deliver_ready opened slots hempty]
    rfl
  · have := List.length_pos_iff.mpr hempty
    omega

theorem rounds_hand_over (n : Nat) (opened : q.tx.closed = false) (slots : 0 < q.tx.capacity)
    (enough : q.pending ≤ n) : (round^[n] q).tx.received = q.held := by
  induction n generalizing q with
  | zero =>
    unfold pending at enough
    have hbuffer : q.tx.buffer = [] := List.length_eq_zero_iff.mp (by omega)
    have hbacklog : q.backlog = [] := List.length_eq_zero_iff.mp (by omega)
    unfold held Channel.accepted
    rw [hbuffer, hbacklog, List.append_nil, List.append_nil]
    rfl
  | succ n ih =>
    rw [Function.iterate_succ_apply]
    have hpending := round_pending opened slots
    rw [ih (round_closed.trans opened) (round_capacity.symm ▸ slots) (by omega)]
    exact round_held opened

end EventQueue
end KnxRs.ServerEvents
