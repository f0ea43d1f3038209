import Mathlib.Data.List.Basic
import Mathlib.Data.Nat.ModEq

set_option autoImplicit false

/-!
# A stop-and-wait link

One direction of a window-one protocol over lossy channels that keep their order.
Messages are identified by their place in the sender's log; a sequence number is
that place modulo any number from 2 on.
-/
namespace KnxRs.StopAndWait

variable {β : Type}

/-- The sender's log, how much of it has been delivered and confirmed, and the frames and
    acknowledgements still under way, oldest first. -/
structure Link (β : Type) where
  log : List β
  delivered : Nat
  confirmed : Nat
  frames : List (Nat × β)
  acks : List Nat

namespace Link

/-- At most one message is unconfirmed, and nothing under way is older than the message
    before the one its receiver waits for. -/
structure Ok (l : Link β) : Prop where
  confirmed_le : l.confirmed ≤ l.delivered
  delivered_le : l.delivered ≤ l.log.length
  window : l.log.length ≤ l.confirmed + 1
  frames_sorted : l.frames.Pairwise (fun f g => f.1 ≤ g.1)
  frame : ∀ f ∈ l.frames, l.log[f.1]? = some f.2 ∧ l.delivered ≤ f.1 + 1
  acks_sorted : l.acks.Pairwise (fun i j => i ≤ j)
  ack : ∀ i ∈ l.acks, i < l.delivered ∧ l.confirmed ≤ i + 1

def empty : Link β := ⟨[], 0, 0, [], []⟩

def send (l : Link β) (b : β) : Link β :=
  { l with log := l.log ++ [b], frames := l.frames ++ [(l.log.length, b)] }

def resend (l : Link β) (b : β) : Link β :=
  { l with frames := l.frames ++ [(l.confirmed, b)] }

/-- The frame at the head is new: it is delivered and acknowledged. -/
def receive (l : Link β) : Link β :=
  { l with
    delivered := l.delivered + 1
    frames := l.frames.tail
    acks := l.acks ++ [l.delivered] }

/-- The frame at the head has been delivered before: it is acknowledged again. -/
def receiveAgain (l : Link β) : Link β :=
  { l with frames := l.frames.tail, acks := l.acks ++ [l.delivered - 1] }

def confirm (l : Link β) : Link β :=
  { l with confirmed := l.confirmed + 1, acks := l.acks.tail }

theorem empty_ok : (empty : Link β).Ok where
  confirmed_le := le_rfl
  delivered_le := le_rfl
  window := by simp [empty]
  frames_sorted := .nil
  frame := by simp [empty]
  acks_sorted := .nil
  ack := by simp [empty]

theorem Ok.frame_lt {l : Link β} (h : l.Ok) {f : Nat × β} (hf : f ∈ l.frames) :
    f.1 < l.log.length := by
  have hget := (h.frame f hf).1
  by_contra hn
  rw [List.getElem?_eq_none (by omega)] at hget
  cases hget

theorem pairwise_append_singleton {γ : Type} {r : γ → γ → Prop} {xs : List γ} {x : γ}
    (h : xs.Pairwise r) (hx : ∀ y ∈ xs, r y x) : (xs ++ [x]).Pairwise r := by
  rw [List.pairwise_append]
  refine ⟨h, List.pairwise_singleton r x, ?_⟩
  intro y hy z hz
  rw [List.mem_singleton] at hz
  exact hz ▸ hx y hy

theorem Ok.send {l : Link β} (h : l.Ok) (idle : l.log.length = l.confirmed) (b : β) :
    (l.send b).Ok where
  confirmed_le := h.confirmed_le
  delivered_le := by
    have := h.delivered_le
    simp only [Link.send, List.length_append, List.length_singleton]
    omega
  window := by
    simp only [Link.send, List.length_append, List.length_singleton]
    omega
  frames_sorted := pairwise_append_singleton h.frames_sorted (fun f hf => (h.frame_lt hf).le)
  frame := by
    intro f hf
    rcases List.mem_append.mp hf with hf | hf
    · have hlt := h.frame_lt hf
      have hget := h.frame f hf
      exact ⟨(List.getElem?_append_left hlt).trans hget.1, hget.2⟩
    · rw [List.mem_singleton] at hf
      subst hf
      have := h.delivered_le
      exact ⟨by simp [Link.send], by change l.delivered ≤ l.log.length + 1; omega⟩
  acks_sorted := h.acks_sorted
  ack := h.ack

theorem Ok.resend {l : Link β} (h : l.Ok) {b : β} (saved : l.log[l.confirmed]? = some b) :
    (l.resend b).Ok where
  confirmed_le := h.confirmed_le
  delivered_le := h.delivered_le
  window := h.window
  frames_sorted := by
    refine pairwise_append_singleton h.frames_sorted (fun f hf => ?_)
    have := h.frame_lt hf
    have := h.window
    change f.1 ≤ l.confirmed
    omega
  frame := by
    intro f hf
    rcases List.mem_append.mp hf with hf | hf
    · exact h.frame f hf
    · rw [List.mem_singleton] at hf
      subst hf
      have := h.delivered_le
      have := h.window
      exact ⟨saved, by change l.delivered ≤ l.confirmed + 1; omega⟩
  acks_sorted := h.acks_sorted
  ack := h.ack

theorem Ok.receive {l : Link β} (h : l.Ok) {b : β} {rest : List (Nat × β)}
    (head : l.frames = (l.delivered, b) :: rest) : l.receive.Ok where
  confirmed_le := by
    have := h.confirmed_le
    change l.confirmed ≤ l.delivered + 1
    omega
  delivered_le := h.frame_lt (f := (l.delivered, b)) (by simp [head])
  window := h.window
  frames_sorted := by
    have := h.frames_sorted
    rw [head] at this
    simpa [Link.receive, head] using this.tail
  frame := by
    intro f hf
    change f ∈ l.frames.tail at hf
    have hsorted := h.frames_sorted
    rw [head] at hsorted hf
    have hge := List.rel_of_pairwise_cons hsorted hf
    change l.delivered ≤ f.1 at hge
    refine ⟨(h.frame f (by rw [head]; exact List.mem_cons_of_mem _ hf)).1, ?_⟩
    change l.delivered + 1 ≤ f.1 + 1
    omega
  acks_sorted := pairwise_append_singleton h.acks_sorted (fun i hi => (h.ack i hi).1.le)
  ack := by
    intro i hi
    rcases List.mem_append.mp hi with hi | hi
    · have := h.ack i hi
      exact ⟨by change i < l.delivered + 1; omega, this.2⟩
    · rw [List.mem_singleton] at hi
      have := h.confirmed_le
      exact ⟨by change i < l.delivered + 1; omega, by change l.confirmed ≤ i + 1; omega⟩

theorem Ok.receiveAgain {l : Link β} (h : l.Ok) (some_delivered : 0 < l.delivered) :
    l.receiveAgain.Ok where
  confirmed_le := h.confirmed_le
  delivered_le := h.delivered_le
  window := h.window
  frames_sorted := h.frames_sorted.tail
  frame := fun f hf => h.frame f (List.mem_of_mem_tail hf)
  acks_sorted := by
    refine pairwise_append_singleton h.acks_sorted (fun i hi => ?_)
    have := (h.ack i hi).1
    omega
  ack := by
    intro i hi
    rcases List.mem_append.mp hi with hi | hi
    · exact h.ack i hi
    · rw [List.mem_singleton] at hi
      have := h.confirmed_le
      exact ⟨by change i < l.delivered; omega, by change l.confirmed ≤ i + 1; omega⟩

theorem Ok.confirm {l : Link β} (h : l.Ok) {rest : List Nat}
    (head : l.acks = l.confirmed :: rest) : l.confirm.Ok where
  confirmed_le := (h.ack l.confirmed (by simp [head])).1
  delivered_le := h.delivered_le
  window := by
    have := h.window
    change l.log.length ≤ l.confirmed + 1 + 1
    omega
  frames_sorted := h.frames_sorted
  frame := h.frame
  acks_sorted := h.acks_sorted.tail
  ack := by
    intro i hi
    change i ∈ l.acks.tail at hi
    refine ⟨(h.ack i (List.mem_of_mem_tail hi)).1, ?_⟩
    have hsorted := h.acks_sorted
    rw [head] at hsorted hi
    have hge := List.rel_of_pairwise_cons hsorted hi
    change l.confirmed + 1 ≤ i + 1
    omega

theorem Ok.lose {l : Link β} (h : l.Ok) {frames : List (Nat × β)} {acks : List Nat}
    (hf : frames.Sublist l.frames) (ha : acks.Sublist l.acks) :
    Ok { l with frames := frames, acks := acks } where
  confirmed_le := h.confirmed_le
  delivered_le := h.delivered_le
  window := h.window
  frames_sorted := h.frames_sorted.sublist hf
  frame := fun f hm => h.frame f (hf.subset hm)
  acks_sorted := h.acks_sorted.sublist ha
  ack := fun i hm => h.ack i (ha.subset hm)

theorem Ok.repeatFrame {l : Link β} (h : l.Ok) {f : Nat × β} {rest : List (Nat × β)}
    (head : l.frames = f :: rest) : Ok { l with frames := f :: l.frames } where
  confirmed_le := h.confirmed_le
  delivered_le := h.delivered_le
  window := h.window
  frames_sorted := by
    have hsorted := h.frames_sorted
    rw [head] at hsorted ⊢
    refine List.pairwise_cons.mpr ⟨fun g hg => ?_, hsorted⟩
    rcases List.mem_cons.mp hg with rfl | hg
    · exact le_rfl
    · exact List.rel_of_pairwise_cons hsorted hg
  frame := by
    intro g hg
    rcases List.mem_cons.mp hg with rfl | hg
    · exact h.frame g (by rw [head]; exact List.mem_cons_self)
    · exact h.frame g hg
  acks_sorted := h.acks_sorted
  ack := h.ack

theorem Ok.repeatAck {l : Link β} (h : l.Ok) {i : Nat} {rest : List Nat}
    (head : l.acks = i :: rest) : Ok { l with acks := i :: l.acks } where
  confirmed_le := h.confirmed_le
  delivered_le := h.delivered_le
  window := h.window
  frames_sorted := h.frames_sorted
  frame := h.frame
  acks_sorted := by
    have hsorted := h.acks_sorted
    rw [head] at hsorted ⊢
    refine List.pairwise_cons.mpr ⟨fun j hj => ?_, hsorted⟩
    rcases List.mem_cons.mp hj with rfl | hj
    · exact le_rfl
    · exact List.rel_of_pairwise_cons hsorted hj
  ack := by
    intro j hj
    rcases List.mem_cons.mp hj with rfl | hj
    · exact h.ack j (by rw [head]; exact List.mem_cons_self)
    · exact h.ack j hj

/-- The sender's log may grow within the window, and copies of the message it holds unconfirmed
    go out. -/
theorem Ok.extend {l : Link β} (h : l.Ok) {log : List β} (grows : l.log <+: log)
    (window : log.length ≤ l.confirmed + 1) {copies : List (Nat × β)}
    (current : ∀ f ∈ copies, f.1 = l.confirmed ∧ log[l.confirmed]? = some f.2) :
    Ok { l with log := log, frames := l.frames ++ copies } where
  confirmed_le := h.confirmed_le
  delivered_le := Nat.le_trans h.delivered_le grows.length_le
  window := window
  frames_sorted := by
    rw [List.pairwise_append]
    refine ⟨h.frames_sorted, List.pairwise_of_forall_mem_list fun f hf g hg => ?_,
      fun f hf g hg => ?_⟩
    · rw [(current f hf).1, (current g hg).1]
    · have hlt := h.frame_lt hf
      have hwindow := h.window
      rw [(current g hg).1]
      omega
  frame := by
    intro f hf
    rcases List.mem_append.mp hf with hf | hf
    · obtain ⟨hget, hge⟩ := h.frame f hf
      have hlt := h.frame_lt hf
      obtain ⟨later, rfl⟩ := grows
      exact ⟨(List.getElem?_append_left hlt).trans hget, hge⟩
    · obtain ⟨hplace, hget⟩ := current f hf
      have hdelivered := h.delivered_le
      have hwindow := h.window
      refine ⟨hplace ▸ hget, ?_⟩
      change l.delivered ≤ f.1 + 1
      omega
  acks_sorted := h.acks_sorted
  ack := h.ack

/-! ## Sequence numbers tell the two candidates apart -/

theorem eq_of_mod_eq {m i d : Nat} (hm : 2 ≤ m) (low : d ≤ i + 1) (high : i ≤ d)
    (h : i % m = d % m) : i = d := by
  by_contra hne
  have hd : d = i + 1 := by omega
  have hdvd : m ∣ d - i := (Nat.modEq_iff_dvd' high).mp h
  have hone : d - i = 1 := by omega
  rw [hone] at hdvd
  have := Nat.le_of_dvd one_pos hdvd
  omega

theorem succ_eq_of_mod_eq {m i d : Nat} (hm : 2 ≤ m) (low : d ≤ i + 1) (high : i ≤ d)
    (h : i % m = (d + (m - 1)) % m) : i + 1 = d := by
  by_contra hne
  have hi : i = d := by omega
  have hle : i ≤ d + (m - 1) := by omega
  have hdvd : m ∣ d + (m - 1) - i := (Nat.modEq_iff_dvd' hle).mp h
  have hrest : d + (m - 1) - i = m - 1 := by omega
  rw [hrest] at hdvd
  have := Nat.le_of_dvd (by omega) hdvd
  omega

theorem Ok.frame_le {l : Link β} (h : l.Ok) {f : Nat × β} (hf : f ∈ l.frames) :
    f.1 ≤ l.delivered := by
  have := h.frame_lt hf
  have := h.window
  have := h.confirmed_le
  omega

theorem Ok.frame_is_next {l : Link β} (h : l.Ok) {m : Nat} (hm : 2 ≤ m) {f : Nat × β}
    (hf : f ∈ l.frames) (hs : f.1 % m = l.delivered % m) : f.1 = l.delivered :=
  eq_of_mod_eq hm (h.frame f hf).2 (h.frame_le hf) hs

theorem Ok.frame_is_last {l : Link β} (h : l.Ok) {m : Nat} (hm : 2 ≤ m) {f : Nat × β}
    (hf : f ∈ l.frames) (hs : f.1 % m = (l.delivered + (m - 1)) % m) :
    f.1 + 1 = l.delivered :=
  succ_eq_of_mod_eq hm (h.frame f hf).2 (h.frame_le hf) hs

theorem Ok.ack_is_current {l : Link β} (h : l.Ok) {m : Nat} (hm : 2 ≤ m) {i : Nat}
    (hi : i ∈ l.acks) (hs : i % m = l.confirmed % m) : i = l.confirmed := by
  have hack := h.ack i hi
  have := h.delivered_le
  have := h.window
  exact eq_of_mod_eq hm hack.2 (by omega) hs

/-! ## What the link guarantees -/

theorem Ok.confirmed_prefix {l : Link β} (h : l.Ok) :
    l.log.take l.confirmed <+: l.log.take l.delivered := by
  have e : l.log.take l.confirmed = (l.log.take l.delivered).take l.confirmed := by
    rw [List.take_take, Nat.min_eq_left h.confirmed_le]
  rw [e]
  exact List.take_prefix _ _

end Link
end KnxRs.StopAndWait
