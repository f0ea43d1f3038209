import KnxRs.TpReceiver
import Mathlib.Data.List.Induction

set_option autoImplicit false

/-!
# Streams of octets

The receiver never panics and never waits for more than a buffer of octets, and gives out
frames of exactly the octets since it was idle.
-/
namespace KnxRs.TpUart
open Transducers

/-- `process` when an octet was read. -/
def processOctet (protocol : TpUartProtocol) (byte : UInt8) :
    Option (Option TpIndication × TpUartProtocol) := protocol.process (some byte)

/-- The octets held after a stream. -/
def held (since octets : List UInt8) : List UInt8 := (run receive since octets).2

variable {since octets : List UInt8} {protocol : TpUartProtocol}

theorem feed_holds (h : Holds protocol since) (octets : List UInt8) :
    ∃ outputs protocol', feed processOctet protocol octets = some (outputs, protocol') ∧
      outputs.map (Option.map TpIndication.event) = (run receive since octets).1 ∧
      Holds protocol' (held since octets) := feed_simulates process_simulates h

theorem Holds.idle_iff (h : Holds protocol since) : Idle protocol ↔ since = [] := by
  constructor
  · intro idle
    exact List.length_eq_zero_iff.mp (h.position.symm.trans idle.position)
  · rintro rfl
    exact holds_nil_iff.mp h

theorem new_holds (bcuType : BcuType) : Holds (.new bcuType) [] := holds_nil_iff.mpr ⟨rfl, rfl⟩

theorem held_step (since octets : List UInt8) (byte : UInt8) :
    held since (octets ++ [byte]) = (receive (held since octets) byte).2 := by
  unfold held
  rw [run_append]
  rfl

theorem held_incomplete (h : Incomplete since) (octets : List UInt8) :
    Incomplete (held since octets) :=
  run_invariant (I := fun _ state => Incomplete state) h fun _ _ input hs => hs.receive input

/-! ## The octets since the receiver was idle -/

/-- The octets held are the last ones of the stream, from a point where nothing was held. -/
structure Since (octets state : List UInt8) (before : List UInt8) : Prop where
  split : octets = before ++ state
  idle : held [] before = []
  kept : ∀ k ≤ state.length, held [] (before ++ state.take k) = state.take k

theorem Since.step {state before : List UInt8} (h : Since octets state before) (byte : UInt8) :
    ∃ before', Since (octets ++ [byte]) (receive state byte).2 before' := by
  have hnow : held [] octets = state := by
    have := h.kept state.length (Nat.le_refl _)
    rwa [List.take_length, ← h.split] at this
  have hnext : held [] (octets ++ [byte]) = (receive state byte).2 := by
    rw [held_step, hnow]
  rcases receive_state state byte with hmore | hnone
  · refine ⟨before, ?_, h.idle, ?_⟩
    · rw [hmore, h.split, List.append_assoc]
    · intro k hk
      rw [hmore] at hk hnext ⊢
      rw [List.length_append] at hk
      rcases Nat.lt_or_ge state.length k with hlast | hold
      · have hall : (state ++ [byte]).length ≤ k := by
          rw [List.length_append]
          exact hlast
        rw [List.take_of_length_le hall, ← List.append_assoc, ← h.split]
        exact hnext
      · rw [List.take_append_of_le_length hold]
        exact h.kept k hold
  · refine ⟨octets ++ [byte], ?_, ?_, ?_⟩
    · rw [hnone, List.append_nil]
    · rw [hnext, hnone]
    · intro k _
      rw [hnone, List.take_nil, List.append_nil, hnext, hnone]

theorem exists_since (octets : List UInt8) : ∃ before, Since octets (held [] octets) before :=
  run_invariant (I := fun octets state => ∃ before, Since octets state before)
    ⟨[], rfl, rfl, fun k _ => by rw [List.take_nil]; rfl⟩
    fun _ _ byte ⟨_, h⟩ => h.step byte

/-! ## No frame is waited for without end -/

theorem held_append_of_open (octets : List UInt8)
    (h : ∀ n ≤ octets.length, 0 < n → held since (octets.take n) ≠ []) :
    held since octets = since ++ octets := by
  induction octets using List.reverseRecOn with
  | nil => exact (List.append_nil since).symm
  | append_singleton octets byte ih =>
    have hbefore : held since octets = since ++ octets := by
      refine ih ?_
      intro n hn hpos
      have := h n (by rw [List.length_append]; exact Nat.le_add_right_of_le hn) hpos
      rwa [List.take_append_of_le_length hn] at this
    have hlast := h (octets ++ [byte]).length (Nat.le_refl _)
      (by rw [List.length_append]; exact Nat.succ_pos _)
    rw [List.take_length, held_step, hbefore] at hlast
    rw [held_step, hbefore]
    rcases receive_state (since ++ octets) byte with hmore | hnone
    · rw [hmore, List.append_assoc]
    · exact absurd hnone hlast

theorem idle_within (h : Incomplete since) {more : List UInt8} (hmore : more.length = maxFrameLen) :
    ∃ n ≤ maxFrameLen, held since (more.take n) = [] := by
  by_contra hnever
  have hopen : ∀ n ≤ more.length, 0 < n → held since (more.take n) ≠ [] := by
    intro n hn _ hidle
    exact hnever ⟨n, hmore ▸ hn, hidle⟩
  have hlt := (held_incomplete h more).length_lt
  rw [held_append_of_open more hopen, List.length_append, hmore] at hlt
  omega

/-! ## Streams -/

/-- The receiver was idle after `before`, and not again during the octets since then. -/
def SinceIdle (bcuType : BcuType) (before since : List UInt8) : Prop :=
  (∃ outputs protocol, feed processOctet (.new bcuType) before = some (outputs, protocol) ∧
    Idle protocol) ∧
  ∀ k, 0 < k → k ≤ since.length → ∃ outputs protocol,
    feed processOctet (.new bcuType) (before ++ since.take k) = some (outputs, protocol) ∧
      ¬Idle protocol

theorem Since.sinceIdle {state before : List UInt8} (h : Since octets state before)
    (bcuType : BcuType) : SinceIdle bcuType before state := by
  constructor
  · obtain ⟨outputs, protocol, hfeed, _, holds⟩ := feed_holds (new_holds bcuType) before
    exact ⟨outputs, protocol, hfeed, holds.idle_iff.mpr h.idle⟩
  · intro k hpos hk
    obtain ⟨outputs, protocol, hfeed, _, holds⟩ :=
      feed_holds (new_holds bcuType) (before ++ state.take k)
    refine ⟨outputs, protocol, hfeed, ?_⟩
    rw [holds.idle_iff, h.kept k hk]
    intro hnil
    have := congrArg List.length hnil
    rw [List.length_take, List.length_nil] at this
    omega

/-- Whatever the octets, the receiver stays within its buffer, is idle again within a buffer of
further octets, and gives out as a frame the octets since it was idle, as many as they declare. -/
theorem stream_received (bcuType : BcuType) (octets : List UInt8) : ∃ outputs protocol,
    feed processOctet (.new bcuType) octets = some (outputs, protocol) ∧
    protocol.rxPos ≤ maxFrameLen ∧ protocol.rxExpected ≤ maxFrameLen ∧
    (∀ more : List UInt8, more.length = maxFrameLen → ∃ n ≤ maxFrameLen,
      ∃ outputs' protocol', feed processOctet protocol (more.take n) = some (outputs', protocol') ∧
        Idle protocol') ∧
    ∀ byte received protocol',
      protocol.process (some byte) = some (some (.frame received), protocol') →
      ∃ before since, octets = before ++ since ∧ SinceIdle bcuType before since ∧
        received.asBytes = since ++ [byte] ∧
        received.asBytes.length = declaredLen received.asBytes := by
  obtain ⟨outputs, protocol, hfeed, _, holds⟩ := feed_holds (new_holds bcuType) octets
  obtain ⟨hpos, hexpected⟩ := holds.bounds
  refine ⟨outputs, protocol, hfeed, hpos, hexpected, ?_, ?_⟩
  · intro more hmore
    obtain ⟨n, hn, hidle⟩ := idle_within holds.incomplete hmore
    obtain ⟨outputs', protocol', hfeed', _, holds'⟩ := feed_holds holds (more.take n)
    exact ⟨n, hn, outputs', protocol', hfeed', holds'.idle_iff.mpr hidle⟩
  · intro byte received protocol' hframe
    obtain ⟨output, protocol'', hstep, hevent, _⟩ := process_simulates protocol _ byte holds
    cases hstep.symm.trans hframe
    obtain ⟨hoctets, hlen, _⟩ := holds.incomplete.frame_length hevent.symm
    obtain ⟨before, since⟩ := exists_since octets
    exact ⟨before, held [] octets, since.split, since.sinceIdle bcuType, hoctets, hlen⟩

end KnxRs.TpUart
