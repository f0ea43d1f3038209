import KnxRs.TransportSteps

set_option autoImplicit false

/-!
# The state invariant of the transport layer

The seven fields that describe a connection agree in every reachable state:
timers, saved frame, sequence numbers and repetition count.
-/
namespace KnxRs.Transport
open CoreTypes Runs

variable {α : Type}

def Action.frame : Action α → Option (SavedFrame α)
  | .sendDataConnected destination seqNo priority apdu =>
    some ⟨destination, seqNo, priority, apdu⟩
  | _ => none

def transmissions (x : Step α) : List (SavedFrame α) := (produced x).filterMap Action.frame

/-- `a7` sends a frame for the first time, and only from `OpenIdle`. -/
def firstTransmissions (x : Step α) : List (SavedFrame α) :=
  if x.source.state = .openIdle then transmissions x else []

/-- `a9` repeats the saved frame, and only in `OpenWait`. -/
def retransmissions (x : Step α) : List (SavedFrame α) :=
  if x.source.state = .openWait then transmissions x else []

structure Consistent (t : TransportLayer α) : Prop where
  closed_iff : t.state = .closed ↔ t.connectionTimeoutDeadline = none
  wait_iff : t.state = .openWait ↔ t.ackTimeoutDeadline ≠ none
  saved : t.state = .openWait → ∃ frame, t.savedFrame = some frame ∧
    frame.destination = t.connectionAddress ∧ frame.seqNo = t.seqNoSend
  send_le : t.seqNoSend ≤ 15
  recv_le : t.seqNoRecv ≤ 15
  rep_le : t.repCount ≤ maxRepCount

theorem masked_le (s : UInt8) : s &&& seqNoMask ≤ 15 := by
  rw [UInt8.le_iff_toNat_le, UInt8.toNat_and]
  exact Nat.and_le_right

theorem rep_succ_le {r : UInt8} (h : r < maxRepCount) : r + 1 ≤ maxRepCount := by
  rw [UInt8.lt_iff_toNat_lt] at h
  rw [UInt8.le_iff_toNat_le, UInt8.toNat_add]
  have three : maxRepCount.toNat = 3 := rfl
  have one : (1 : UInt8).toNat = 1 := rfl
  omega

theorem new_consistent : Consistent (.new : TransportLayer α) where
  closed_iff := by simp [TransportLayer.new]
  wait_iff := by simp [TransportLayer.new]
  saved := by simp [TransportLayer.new]
  send_le := by simp [TransportLayer.new]
  recv_le := by simp [TransportLayer.new]
  rep_le := by simp [TransportLayer.new, maxRepCount]

theorem closed_consistent {t u : TransportLayer α} (h : Consistent t) (hst : u.state = .closed)
    (hc : u.connectionTimeoutDeadline = none) (ha : u.ackTimeoutDeadline = none)
    (hs : u.seqNoSend = t.seqNoSend) (hr : u.seqNoRecv = t.seqNoRecv)
    (hn : u.repCount = t.repCount) : Consistent u where
  closed_iff := by simp [hst, hc]
  wait_iff := by simp [hst, ha]
  saved := by simp [hst]
  send_le := hs ▸ h.send_le
  recv_le := hr ▸ h.recv_le
  rep_le := hn ▸ h.rep_le

theorem disconnectAndClose_consistent {t : TransportLayer α} (h : Consistent t) :
    Consistent t.disconnectAndClose :=
  closed_consistent h rfl rfl rfl rfl rfl rfl

theorem a7SendData_consistent {t : TransportLayer α} (h : Consistent t) (priority : Priority)
    (apdu : α) (nowMs : UInt64) :
    Consistent { t.a7SendData priority apdu nowMs with state := .openWait } where
  closed_iff := by simp [TransportLayer.a7SendData, TransportLayer.enableConnectionTimeout]
  wait_iff := by simp [TransportLayer.a7SendData, TransportLayer.enableConnectionTimeout,
    TransportLayer.enableAckTimeout]
  saved := fun _ => ⟨_, rfl, rfl, rfl⟩
  send_le := h.send_le
  recv_le := h.recv_le
  rep_le := by simp [TransportLayer.a7SendData, TransportLayer.enableConnectionTimeout,
    TransportLayer.enableAckTimeout, TransportLayer.push, maxRepCount]

theorem a9Retransmit_consistent {t : TransportLayer α} (h : Consistent t)
    (hw : t.state = .openWait) (rep : t.repCount < maxRepCount) (nowMs : UInt64) :
    Consistent (t.a9Retransmit nowMs) := by
  rw [a9Retransmit_eq]
  exact ⟨by simp [hw], by simp [hw], h.saved, h.send_le, h.recv_le, rep_succ_le rep⟩

/-- In an open state a call that rearms the connection timeout and leaves the send side
    alone keeps the invariant. -/
theorem rearmed_consistent {t u : TransportLayer α} (h : Consistent t)
    (hst : t.state ≠ .closed) (hu : u.state = t.state)
    (hc : u.connectionTimeoutDeadline ≠ none) (ha : u.ackTimeoutDeadline = t.ackTimeoutDeadline)
    (hd : u.connectionAddress = t.connectionAddress) (hf : u.savedFrame = t.savedFrame)
    (hs : u.seqNoSend = t.seqNoSend) (hr : u.seqNoRecv ≤ 15)
    (hn : u.repCount = t.repCount) : Consistent u where
  closed_iff := by simp [hu, hst, hc]
  wait_iff := by rw [hu, ha]; exact h.wait_iff
  saved := by rw [hu, hf, hd, hs]; exact h.saved
  send_le := hs ▸ h.send_le
  recv_le := hr
  rep_le := hn ▸ h.rep_le

theorem outcome_consistent {t u : TransportLayer α} {c : Call α} (o : Outcome t c u)
    (h : Consistent t) : Consistent u := by
  have open_ne {s : TransportLayer α} (hs : s.state = .openIdle ∨ s.state = .openWait) :
      s.state ≠ .closed := by rcases hs with e | e <;> simp [e]
  cases o with
  | ignored _ => exact h
  | opened hst =>
    have hack : t.ackTimeoutDeadline = none := by
      simpa [hst] using h.wait_iff
    exact ⟨by simp [TransportLayer.a1AcceptConnection, TransportLayer.push,
        TransportLayer.enableConnectionTimeout],
      by simp [TransportLayer.a1AcceptConnection, TransportLayer.push,
        TransportLayer.enableConnectionTimeout, hack],
      by simp [TransportLayer.a1AcceptConnection], by
        simp [TransportLayer.a1AcceptConnection, TransportLayer.push,
          TransportLayer.enableConnectionTimeout], by
        simp [TransportLayer.a1AcceptConnection, TransportLayer.push,
          TransportLayer.enableConnectionTimeout], h.rep_le⟩
  | rejected _ _ _ => exact ⟨h.closed_iff, h.wait_iff, h.saved, h.send_le, h.recv_le, h.rep_le⟩
  | closedPassively _ _ => exact closed_consistent h rfl rfl rfl rfl rfl rfl
  | closedActively _ _ => exact disconnectAndClose_consistent h
  | disarmed hst =>
    have hack : t.ackTimeoutDeadline = none := by
      simpa [hst] using h.wait_iff
    exact closed_consistent h hst rfl hack rfl rfl rfl
  | received hst _ _ =>
    exact rearmed_consistent h (open_ne hst) rfl
      (by simp [TransportLayer.a2ReceiveData, TransportLayer.push,
        TransportLayer.enableConnectionTimeout]) rfl rfl rfl rfl (masked_le _) rfl
  | repeated hst _ _ =>
    exact rearmed_consistent h hst rfl
      (by simp [TransportLayer.a3AckRepeated, TransportLayer.enableConnectionTimeout])
      rfl rfl rfl rfl h.recv_le rfl
  | wrongSeq hst _ _ _ =>
    exact rearmed_consistent h (open_ne hst) rfl
      (by simp [TransportLayer.a4NackWrongSeq, TransportLayer.enableConnectionTimeout])
      rfl rfl rfl rfl h.recv_le rfl
  | acknowledged hst _ =>
    exact ⟨by simp [TransportLayer.a8AckReceived, TransportLayer.push,
        TransportLayer.enableConnectionTimeout],
      by simp [TransportLayer.a8AckReceived, TransportLayer.push,
        TransportLayer.enableConnectionTimeout],
      by simp, masked_le _, h.recv_le, h.rep_le⟩
  | retransmitted hst rep _ => exact a9Retransmit_consistent h hst rep _
  | connected hst =>
    have hct : t.connectionTimeoutDeadline ≠ none := by
      have := h.closed_iff
      simp [hst] at this
      exact this
    have hack : t.ackTimeoutDeadline = none := by
      simpa [hst] using h.wait_iff
    exact ⟨by simpa [TransportLayer.push] using hct, by simpa [TransportLayer.push] using hack,
      by simp, h.send_le, h.recv_le, h.rep_le⟩
  | sent hst => exact a7SendData_consistent h _ _ _
  | flushed hst _ =>
    exact a7SendData_consistent (t := { t with bufferedRequest := none })
      ⟨h.closed_iff, h.wait_iff, h.saved, h.send_le, h.recv_le, h.rep_le⟩ _ _ _
  | buffered _ => exact ⟨h.closed_iff, h.wait_iff, h.saved, h.send_le, h.recv_le, h.rep_le⟩
  | initiated hst =>
    have hack : t.ackTimeoutDeadline = none := by
      simpa [hst] using h.wait_iff
    exact ⟨by simp [TransportLayer.a12InitiateConnection,
        TransportLayer.enableConnectionTimeout],
      by simp [TransportLayer.a12InitiateConnection, TransportLayer.push,
        TransportLayer.enableConnectionTimeout, hack],
      by simp, by
        simp [TransportLayer.a12InitiateConnection, TransportLayer.push,
          TransportLayer.enableConnectionTimeout], by
        simp [TransportLayer.a12InitiateConnection, TransportLayer.push,
          TransportLayer.enableConnectionTimeout], h.rep_le⟩
  | notOpen _ => exact ⟨h.closed_iff, h.wait_iff, h.saved, h.send_le, h.recv_le, h.rep_le⟩
  | drained => exact ⟨h.closed_iff, h.wait_iff, h.saved, h.send_le, h.recv_le, h.rep_le⟩

theorem apply_consistent {t : TransportLayer α} (h : Consistent t) (c : Call α) :
    Consistent (apply t c) :=
  outcome_consistent (apply_outcome t c) h

theorem reachable_consistent (calls : List (Call α)) :
    Consistent (calls.foldl apply (.new : TransportLayer α)) :=
  (trace_run apply .new calls).invariant (fun _ => True) new_consistent
    (fun _ _ => trivial) (fun _ h _ hs => hs ▸ apply_consistent h _)

theorem poll_past_deadline {t : TransportLayer α} (h : Consistent t) {deadline nowMs : UInt64}
    (hd : t.connectionTimeoutDeadline = some deadline) (hn : deadline ≤ nowMs) :
    (t.poll nowMs).state = .closed := by
  have hst : t.state ≠ .closed := by
    intro e
    have := h.closed_iff.mp e
    rw [hd] at this
    cases this
  have hp : TransportLayer.passed t.connectionTimeoutDeadline nowMs = true := by
    simp [TransportLayer.passed, hd, hn]
  unfold TransportLayer.poll
  rw [if_pos hp]
  dsimp only
  split <;> first | rfl | contradiction

/-- A layer that waits for an acknowledgement can only send its saved frame again. -/
theorem outcome_retransmissions {t u : TransportLayer α} {c : Call α} (o : Outcome t c u)
    {frame : SavedFrame α} (hf : frame ∈ retransmissions ⟨t, c, u⟩) :
    t.savedFrame = some frame ∧ u.connectionAddress = t.connectionAddress ∧
      u.seqNoSend = t.seqNoSend := by
  unfold retransmissions at hf
  split_ifs at hf with hw
  · change t.state = .openWait at hw
    cases o with
    | retransmitted _ _ _ =>
      rw [a9Retransmit_eq] at hf ⊢
      cases hs : t.savedFrame with
      | none => simp [transmissions, produced, hs] at hf
      | some saved =>
        have e : frame = saved := by
          simpa [transmissions, produced, hs, SavedFrame.action, Action.frame] using hf
        exact ⟨by rw [e], rfl, rfl⟩
    | opened h | disarmed h | initiated h | notOpen h => simp [h] at hw
    | connected h => simp [h] at hw
    | sent h | flushed h _ => simp [h] at hw
    | _ => simp [transmissions, produced, Action.frame] at hf
  · cases hf

/-- The fields of the layer agree after any calls; an expired connection closes at the next
    poll; a repetition goes to the current peer under the current send sequence number. -/
theorem transport_fields_agree (calls : List (Call α)) :
    Consistent (calls.foldl apply (.new : TransportLayer α)) ∧
    (∀ deadline nowMs,
      (calls.foldl apply (.new : TransportLayer α)).connectionTimeoutDeadline = some deadline →
      deadline ≤ nowMs →
      ((calls.foldl apply (.new : TransportLayer α)).poll nowMs).state = .closed) ∧
    ∀ x ∈ trace apply (.new : TransportLayer α) calls, ∀ frame ∈ retransmissions x,
      frame.destination = x.target.connectionAddress ∧ frame.seqNo = x.target.seqNoSend := by
  refine ⟨reachable_consistent calls, ?_, ?_⟩
  · intro deadline nowMs hd hn
    exact poll_past_deadline (reachable_consistent calls) hd hn
  · refine (trace_run apply .new calls).always (fun _ => True) new_consistent
      (fun _ _ => trivial) (fun _ h _ hs => hs ▸ apply_consistent h _) ?_
    rintro ⟨t, c, u⟩ h _ hs frame hf
    obtain rfl : apply t c = u := hs
    obtain ⟨hsaved, hd, hq⟩ := outcome_retransmissions (apply_outcome t c) hf
    have hw : t.state = .openWait := by
      by_contra hw
      simp [retransmissions, hw] at hf
    obtain ⟨saved, hs, hdest, hseq⟩ := h.saved hw
    obtain rfl : saved = frame := Option.some.inj (hs.symm.trans hsaved)
    exact ⟨hdest.trans hd.symm, hseq.trans hq.symm⟩

end KnxRs.Transport
