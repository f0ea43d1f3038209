import Mathlib.Data.List.Basic

set_option autoImplicit false

/-!
# A bounded channel

A first-in first-out channel of fixed capacity between one sender and one receiver,
with what the receiver has taken from it so far. Sending fails only when the channel
is full or its receiver is gone, and then gives the value back.
-/
namespace KnxRs.BoundedChannel

variable {α : Type}

structure Channel (α : Type) where
  capacity : Nat
  buffer : List α
  closed : Bool
  received : List α

inductive TrySendError (α : Type) where
  | full (value : α)
  | closed (value : α)

inductive Reserve where
  | permit
  | waits
  | closed
  deriving DecidableEq

namespace Channel

def new (capacity : Nat) : Channel α := ⟨capacity, [], false, []⟩

variable (c : Channel α)

def hasSlot : Bool := c.buffer.length < c.capacity

def put (value : α) : Channel α := { c with buffer := c.buffer ++ [value] }

def trySend (value : α) : Except (TrySendError α) (Channel α) :=
  if c.closed then .error (.closed value)
  else if c.hasSlot then .ok (c.put value)
  else .error (.full value)

/-- What waiting for a slot comes to now. -/
def reserve : Reserve :=
  if c.closed then .closed
  else if c.hasSlot then .permit
  else .waits

def recv : Channel α :=
  match c.buffer with
  | [] => c
  | value :: rest => { c with buffer := rest, received := c.received ++ [value] }

def close : Channel α := { c with buffer := [], closed := true }

/-- Everything that has gone into the channel. -/
def accepted : List α := c.received ++ c.buffer

@[simp] theorem new_accepted (capacity : Nat) : (new capacity : Channel α).accepted = [] := rfl
@[simp] theorem new_closed (capacity : Nat) : (new capacity : Channel α).closed = false := rfl
@[simp] theorem put_closed (value : α) : (c.put value).closed = c.closed := rfl
@[simp] theorem put_capacity (value : α) : (c.put value).capacity = c.capacity := rfl

theorem put_accepted (value : α) : (c.put value).accepted = c.accepted ++ [value] :=
  (List.append_assoc c.received c.buffer [value]).symm

theorem recv_accepted : c.recv.accepted = c.accepted := by
  obtain ⟨capacity, buffer, closed, received⟩ := c
  cases buffer with
  | nil => rfl
  | cons value rest => exact List.append_assoc received [value] rest

theorem recv_closed : c.recv.closed = c.closed := by
  obtain ⟨capacity, buffer, closed, received⟩ := c
  cases buffer <;> rfl

theorem recv_capacity : c.recv.capacity = c.capacity := by
  obtain ⟨capacity, buffer, closed, received⟩ := c
  cases buffer <;> rfl

theorem recv_buffer : c.recv.buffer = c.buffer.tail := by
  obtain ⟨capacity, buffer, closed, received⟩ := c
  cases buffer <;> rfl

variable {c}

theorem trySend_ok {c' : Channel α} {value : α} (h : c.trySend value = .ok c') :
    c.closed = false ∧ c.hasSlot ∧ c' = c.put value := by
  unfold trySend at h
  split_ifs at h with hclosed hslot
  cases h
  exact ⟨by simpa using hclosed, hslot, rfl⟩

theorem trySend_full {value v : α} (h : c.trySend value = .error (.full v)) :
    v = value ∧ c.closed = false := by
  unfold trySend at h
  split_ifs at h with hclosed hslot
  · cases h
  · cases h
    exact ⟨rfl, by simpa using hclosed⟩

theorem trySend_closed {value v : α} (h : c.trySend value = .error (.closed v)) :
    c.closed = true := by
  unfold trySend at h
  split_ifs at h with hclosed hslot
  · exact hclosed
  · cases h

end Channel
end KnxRs.BoundedChannel
