import KnxRs.TunnelRoster

set_option autoImplicit false

/-!
# The numbers of a client's requests

Which tunnelling requests of a client the server takes over, and what it answers the
others: the expected number counts the requests taken over since the connect.
-/
namespace KnxRs.RequestNumbers
open CoreTypes KnxIpCodec KnxIpNetwork ServerEvents KeyedRows TunnelServer TunnelFrames
  TunnelSteps TunnelRoster Runs

/-! ## The expected number -/

section
variable (env : Env) (t : TunnelClient)

theorem transmit_recvSeq : (t.transmit env).1.recvSeq = t.recvSeq := by
  unfold TunnelClient.transmit
  split <;> rfl

theorem pump_recvSeq : (t.pump env).1.recvSeq = t.recvSeq := by
  unfold TunnelClient.pump
  split_ifs
  · rfl
  · split
    · rfl
    · rw [transmit_recvSeq]

theorem queue_recvSeq (cemi : List UInt8) : (t.queue env cemi).1.recvSeq = t.recvSeq := by
  unfold TunnelClient.queue
  rw [pump_recvSeq]
  unfold TunnelClient.enqueue
  split_ifs <;> rfl

theorem advance_recvSeq (sequence : UInt8) : (t.advance env sequence).1.recvSeq = t.recvSeq := by
  unfold TunnelClient.advance
  rw [pump_recvSeq]

theorem takeOver_recvSeq (cemiData : List UInt8) :
    (t.takeOver env cemiData).1.recvSeq = t.recvSeq + 1 := by
  unfold TunnelClient.takeOver
  dsimp only
  split
  · rfl
  · split
    · rfl
    · rw [queue_recvSeq]

end

def Op.takesOver : Op → Bool
  | .takeOver _ => true
  | _ => false

theorem run_recvSeq {env : Env} {t t' : TunnelClient} {op : Op}
    (h : (op.run env t).1 = some t') :
    t'.recvSeq = if Op.takesOver op then t.recvSeq + 1 else t.recvSeq := by
  cases op with
  | keep | heartbeat =>
    cases h
    rfl
  | takeOver cemiData =>
    cases h
    exact takeOver_recvSeq env t cemiData
  | queue cemi =>
    cases h
    exact queue_recvSeq env t cemi
  | advance sequence =>
    cases h
    exact advance_recvSeq env t sequence
  | transmit =>
    cases h
    exact transmit_recvSeq env t
  | remove => cases h

/-! ## Requests taken over -/

def requestNumber : Input → Option UInt8
  | .datagram _ data =>
    match KnxIpFrame.parse data with
    | .error _ => none
    | .ok frame => (ConnectionHeader.parse frame.body).map ConnectionHeader.sequenceCounter
  | _ => none

theorem takesOver_cases {op : Op} (h : Op.takesOver op = true) :
    ∃ cemiData, op = .takeOver cemiData := by
  cases op with
  | takeOver cemiData => exact ⟨cemiData, rfl⟩
  | keep | heartbeat | queue | advance | transmit | remove => cases h

theorem packetOp_takeOver {t : TunnelClient} {src : SocketAddr} {frame : KnxIpFrame}
    {cemiData : List UInt8} (h : packetOp t src frame = .takeOver cemiData) :
    ∃ ch, ConnectionHeader.parse frame.body = some ch ∧ ch.sequenceCounter = t.recvSeq := by
  unfold packetOp at h
  split at h
  · split_ifs at h
  · split_ifs at h
  · unfold requestOp at h
    split at h
    · cases h
    · next ch hch =>
      split_ifs at h with hexpected
      exact ⟨ch, hch, hexpected.2⟩
  · unfold ackOp at h
    split at h
    · cases h
    · split_ifs at h
  · cases h

theorem inputOp_takeOver {env : Env} {t : TunnelClient} {input : Input} {cemiData : List UInt8}
    (h : inputOp env t input = .takeOver cemiData) :
    requestNumber input = some t.recvSeq := by
  cases input with
  | datagram src data =>
    cases hframe : KnxIpFrame.parse data with
    | error e =>
      simp only [inputOp, hframe] at h
      cases h
    | ok frame =>
      simp only [inputOp, hframe] at h
      obtain ⟨ch, hch, hexpected⟩ := packetOp_takeOver h
      have hnumber : requestNumber (.datagram src data) = some ch.sequenceCounter := by
        simp only [requestNumber, hframe, hch, Option.map_some]
      rw [hnumber, hexpected]
  | sendToTunnel channelId cemi =>
    unfold inputOp at h
    dsimp only at h
    split_ifs at h
  | ackDue =>
    unfold inputOp dueOp at h
    dsimp only at h
    split at h
    · cases h
    · split_ifs at h
  | cleanup =>
    unfold inputOp at h
    dsimp only at h
    split_ifs at h
  | sendFrame | deliver | stop | setDescription | receive | dropReceiver => cases h

def takenNumber (t : TunnelClient) (x : Transition ServerState (Env × Input)) : Option UInt8 :=
  if reads x.source x.event.2 && Op.takesOver (inputOp x.event.1 t x.event.2) then
    requestNumber x.event.2
  else none

/-- The numbers taken over on a channel so far, from its last connect on, after one more step. -/
def numbersStep (c : UInt8) (numbers : List UInt8)
    (x : Transition ServerState (Env × Input)) : List UInt8 :=
  match tunnelOf c x.source.tunnels with
  | none => []
  | some t => numbers ++ (takenNumber t x).toList

def numbers (c : UInt8) (past : List (Transition ServerState (Env × Input))) : List UInt8 :=
  past.foldl (numbersStep c) []

theorem numbers_snoc (c : UInt8) (past : List (Transition ServerState (Env × Input)))
    (x : Transition ServerState (Env × Input)) :
    numbers c (past ++ [x]) = numbersStep c (numbers c past) x := by
  unfold numbers
  rw [List.foldl_append]
  rfl

def counted (n : Nat) : List UInt8 := (List.range n).map UInt8.ofNat

theorem counted_succ (n : Nat) : counted (n + 1) = counted n ++ [UInt8.ofNat n] := by
  unfold counted
  rw [List.range_succ, List.map_append, List.map_singleton]

/-- The requests taken over are numbered from zero on without a gap, and the number expected
    is the next one. -/
def Counts (past : List (Transition ServerState (Env × Input))) (state : ServerState) : Prop :=
  ∀ c t, tunnelOf c state.tunnels = some t →
    ∃ n, numbers c past = counted n ∧ t.recvSeq = UInt8.ofNat n

theorem joined_fresh {state : ServerState} {event : Env × Input} {c : UInt8} {t : TunnelClient}
    (habsent : tunnelOf c state.tunnels = none)
    (h : tunnelOf c (state.next event).tunnels = some t) : t.recvSeq = 0 := by
  have hmem := row_some h
  have hnot := row_none.mp habsent
  cases next_changes state event with
  | keeps sub same =>
    exact absurd (hmem.2 ▸ sub.subset (List.mem_map_of_mem hmem.1)) hnot
  | joins channelId ctrlAddr dataAddr now slot free list counter =>
    have hin := hmem.1
    rw [list, List.mem_append, List.mem_singleton] at hin
    rcases hin with hin | rfl
    · exact absurd (hmem.2 ▸ List.mem_map_of_mem hin) hnot
    · rfl

theorem counts_extend {past : List (Transition ServerState (Env × Input))}
    {x : Transition ServerState (Env × Input)} (separate : Separate x.source)
    (h : Counts past x.source) (hstep : x.source.next x.event = x.target) :
    Counts (past ++ [x]) x.target := by
  intro c t ht
  rw [← hstep] at ht
  rw [numbers_snoc]
  unfold numbersStep
  cases hbefore : tunnelOf c x.source.tunnels with
  | none => exact ⟨0, rfl, joined_fresh hbefore ht⟩
  | some t₀ =>
    dsimp only
    obtain ⟨n, hnumbers, hexpected⟩ := h c t₀ hbefore
    by_cases taken : reads x.source x.event.2 = true
    · have hrow : tunnelOf c (x.source.next (x.event.1, x.event.2)).tunnels = _ :=
        step_row separate.distinct hbefore x.event.2 taken
      have hrun : ((inputOp x.event.1 t₀ x.event.2).run x.event.1 t₀).1 = some t :=
        hrow.symm.trans ht
      have hseq := run_recvSeq hrun
      unfold takenNumber
      rw [taken, Bool.true_and]
      split_ifs at hseq ⊢ with hover
      · refine ⟨n + 1, ?_, ?_⟩
        · obtain ⟨cemiData, hop⟩ := takesOver_cases hover
          rw [hnumbers, inputOp_takeOver hop, hexpected, counted_succ]
          rfl
        · rw [hseq, hexpected]
          exact (UInt8.ofNat_add n 1).symm
      · refine ⟨n, ?_, by rw [hseq, hexpected]⟩
        rw [hnumbers]
        exact List.append_nil _
    · have hidle : (x.source.next (x.event.1, x.event.2)).tunnels = x.source.tunnels :=
        step_idle (Bool.not_eq_true _ |>.mp taken)
      have hsame : t₀ = t := by
        have hrow : tunnelOf c (x.source.next (x.event.1, x.event.2)).tunnels = some t := ht
        rw [hidle, hbefore] at hrow
        exact Option.some.inj hrow
      refine ⟨n, ?_, hsame ▸ hexpected⟩
      unfold takenNumber
      rw [Bool.not_eq_true _ |>.mp taken, Bool.false_and, if_neg Bool.false_ne_true, hnumbers]
      exact List.append_nil _

theorem run_counts {description : Option ServerDescription.DeviceDescription}
    {multicastTarget : Option SocketAddr} {state : ServerState}
    {past : List (Transition ServerState (Env × Input))}
    (run : Run (fun s e s' => s.next e = s') (.start description multicastTarget) past state) :
    Separate state ∧ Counts past state := by
  refine run.history (H := fun past state => Separate state ∧ Counts past state)
    (fun _ => True) ?_ (fun _ _ => trivial) ?_
  · refine ⟨start_separate description multicastTarget, ?_⟩
    intro c t ht
    cases ht
  · intro past x h _ hstep
    exact ⟨hstep ▸ h.1.changes (next_changes x.source x.event), counts_extend h.1 h.2 hstep⟩

/-! ## What a request is answered -/

/-- What a tunnelling request on a live channel does: from another endpoint it is refused; from
    the data endpoint it is acknowledged without error, and taken over where it has the expected
    number, or else leaves everything as it is. -/
structure Answered (env : Env) (src : SocketAddr) (ch : ConnectionHeader) (cemiData : List UInt8)
    (t : TunnelClient) (state next : ServerState) (output : Output) : Prop where
  refused : t.dataAddr ≠ src →
    output = ⟨sendTunnelingAck env src ch eConnectionId, []⟩ ∧ next = state
  taken : t.dataAddr = src → ch.sequenceCounter = t.recvSeq →
    output = ⟨sendTunnelingAck env src ch eNoError ++ (t.takeOver env cemiData).2,
        tunnelEvents cemiData⟩ ∧
      tunnelOf ch.channelId next.tunnels = some (t.takeOver env cemiData).1
  other : t.dataAddr = src → ch.sequenceCounter ≠ t.recvSeq →
    output = ⟨sendTunnelingAck env src ch eNoError, []⟩ ∧ next = state

section
variable {env : Env} {src : SocketAddr} {data : List UInt8} {frame : KnxIpFrame}
  {ch : ConnectionHeader} {t : TunnelClient} {state : ServerState}

theorem step_request (taken : reads state (.datagram src data) = true)
    (hparse : KnxIpFrame.parse data = .ok frame) (hservice : frame.serviceType = .tunnelingRequest) :
    state.step env (.datagram src data) =
      let served := handleTunnelingRequest env src frame state.tunnels
      ({ state with
          tunnels := served.1
          events := served.2.2.foldl EventQueue.push state.events }, ⟨served.2.1, served.2.2⟩) := by
  obtain ⟨running, room⟩ := Bool.and_eq_true_iff.mp taken
  unfold ServerState.step
  rw [if_pos running]
  dsimp only [ServerState.serve]
  rw [if_pos room]
  unfold ServerState.handlePacket
  rw [hparse]
  dsimp only
  rw [hservice]

theorem step_answered (separate : Separate state)
    (taken : reads state (.datagram src data) = true)
    (hparse : KnxIpFrame.parse data = .ok frame) (hservice : frame.serviceType = .tunnelingRequest)
    (hheader : ConnectionHeader.parse frame.body = some ch)
    (hlive : tunnelOf ch.channelId state.tunnels = some t) :
    Answered env src ch (frame.body.drop ConnectionHeader.len) t state
      (state.step env (.datagram src data)).1 (state.step env (.datagram src data)).2 := by
  have hrow : row TunnelClient.channelId ch.channelId state.tunnels = some t := hlive
  have hstep : state.step env (.datagram src data) = _ := step_request taken hparse hservice
  have hserved : handleTunnelingRequest env src frame state.tunnels =
      if t.dataAddr ≠ src then
        (state.tunnels, sendTunnelingAck env src ch eConnectionId, [])
      else if ch.sequenceCounter ≠ t.recvSeq then
        (state.tunnels, sendTunnelingAck env t.dataAddr ch eNoError, [])
      else
        (updateFirst (fun u => u.channelId = ch.channelId)
            (fun u => (u.takeOver env (frame.body.drop ConnectionHeader.len)).1) state.tunnels,
          sendTunnelingAck env t.dataAddr ch eNoError ++
            (t.takeOver env (frame.body.drop ConnectionHeader.len)).2,
          tunnelEvents (frame.body.drop ConnectionHeader.len)) := by
    unfold handleTunnelingRequest
    rw [hheader]
    dsimp only
    rw [hrow]
  rw [hstep, hserved]
  constructor
  · intro hother
    rw [if_pos hother]
    exact ⟨rfl, rfl⟩
  · intro hsrc hexpected
    rw [if_neg (not_not_intro hsrc), if_neg (not_not_intro hexpected), hsrc]
    refine ⟨rfl, ?_⟩
    have hid := (row_some hrow).2
    have hupdate := row_updateFirst (k := ch.channelId)
      (p := fun u => decide (u.channelId = ch.channelId))
      (fun u => (takeOver_ends env u (frame.body.drop ConnectionHeader.len)).channelId)
      (fun u hu => of_decide_eq_true hu) separate.distinct
    rw [hrow, Option.map_some, if_pos (decide_eq_true hid)] at hupdate
    exact hupdate
  · intro hsrc hother
    rw [if_neg (not_not_intro hsrc), if_pos hother, hsrc]
    exact ⟨rfl, rfl⟩

end

/-- In every run: the requests taken over on a live channel are numbered from zero on without a
    gap, so that the number expected is the next one, and every tunnelling request is answered
    by its sender and its number. -/
theorem requests_answered {description : Option ServerDescription.DeviceDescription}
    {multicastTarget : Option SocketAddr} {state : ServerState}
    {past : List (Transition ServerState (Env × Input))}
    (run : Run (fun s e s' => s.next e = s') (.start description multicastTarget) past state)
    {env : Env} {src : SocketAddr} {data : List UInt8} {frame : KnxIpFrame}
    {ch : ConnectionHeader} {t : TunnelClient}
    (taken : reads state (.datagram src data) = true)
    (hparse : KnxIpFrame.parse data = .ok frame) (hservice : frame.serviceType = .tunnelingRequest)
    (hheader : ConnectionHeader.parse frame.body = some ch)
    (hlive : tunnelOf ch.channelId state.tunnels = some t) :
    (∃ n, numbers ch.channelId past = counted n ∧ t.recvSeq = UInt8.ofNat n) ∧
      Answered env src ch (frame.body.drop ConnectionHeader.len) t state
        (state.step env (.datagram src data)).1 (state.step env (.datagram src data)).2 := by
  obtain ⟨separate, counts⟩ := run_counts run
  exact ⟨counts _ _ hlive, step_answered separate taken hparse hservice hheader hlive⟩

def clientAddress : SocketAddr := .v4 ⟨192, 168, 1, 2⟩ 5000

def connectedState : ServerState := connectInputs.foldl ServerState.next (.start none none)

def freshTunnel : TunnelClient := .new 1 clientAddress clientAddress 0

def requestBody (sequence : UInt8) : List UInt8 :=
  [0x04, 0x01, sequence, 0x00] ++ groupWrite.val.data

def requestDatagram (sequence : UInt8) : List UInt8 :=
  [0x06, 0x10, 0x04, 0x20, 0x00, 0x15] ++ requestBody sequence

theorem first_request_answered :
    Answered (calm 1) clientAddress ⟨1, 0, 0⟩ groupWrite.val.data freshTunnel connectedState
      (connectedState.step (calm 1) (.datagram clientAddress (requestDatagram 0))).1
      (connectedState.step (calm 1) (.datagram clientAddress (requestDatagram 0))).2 :=
  (@requests_answered none none connectedState _
    (trace_run ServerState.next (.start none none) connectInputs) (calm 1) clientAddress
    (requestDatagram 0) ⟨.tunnelingRequest, requestBody 0⟩ ⟨1, 0, 0⟩ freshTunnel
    rfl rfl rfl rfl rfl).2

/-- A request with number 5 is acknowledged where 0 is expected. -/
theorem gap_acknowledged :
    ¬ ∀ (past : List (Transition ServerState (Env × Input))) (state : ServerState)
      (env : Env) (src : SocketAddr) (data : List UInt8) (frame : KnxIpFrame)
      (ch : ConnectionHeader) (t : TunnelClient),
      Run (fun s e s' => s.next e = s') (.start none none) past state →
        reads state (.datagram src data) = true → KnxIpFrame.parse data = .ok frame →
        frame.serviceType = .tunnelingRequest → ConnectionHeader.parse frame.body = some ch →
        tunnelOf ch.channelId state.tunnels = some t →
        (∃ d ∈ (state.step env (.datagram src data)).2.sends, KnxIpFrame.parse d.octets =
          .ok (.tunnelingAck ch.channelId ch.sequenceCounter eNoError)) →
        ch.sequenceCounter = t.recvSeq ∨ ch.sequenceCounter + 1 = t.recvSeq := by
  intro h
  have hnear := h _ connectedState (calm 1) clientAddress (requestDatagram 5)
    ⟨.tunnelingRequest, requestBody 5⟩ ⟨1, 5, 0⟩ freshTunnel
    (trace_run ServerState.next (.start none none) connectInputs) rfl rfl rfl rfl rfl
    ⟨_, List.mem_cons_self, rfl⟩
  exact absurd hnear (by decide)

end KnxRs.RequestNumbers
