import KnxRs.TunnelOutbox

set_option autoImplicit false

/-!
# The attempts of a tunnel

A request is attempted when it is put in flight, and again when it is due. The frames that
have left the outbox account for the attempts, and the attempts for the wire.
-/
namespace KnxRs.TunnelAttempts
open CoreTypes CemiCodec KnxIpCodec KnxIpNetwork KeyedRows TunnelServer TunnelFrames TunnelSteps
  TunnelRequests TunnelRoster TunnelOutbox Runs

/-- The request that a step has put in flight or has attempted once more. -/
def attempt (t t' : TunnelClient) : Option InFlight :=
  t'.inFlight.filter fun f =>
    t.inFlight.map (fun f => (f.sequence, f.attempts)) ≠ some (f.sequence, f.attempts)

/-- An attempt: its datagram, and whether the socket takes it. -/
def outcome (env : Env) (dst : SocketAddr) (f : InFlight) : List UInt8 × Bool :=
  (f.datagram, env.sendError dst f.datagram = none)

def attemptsIn (env : Env) (t t' : TunnelClient) : List (List UInt8 × Bool) :=
  (attempt t t').toList.map (outcome env t.dataAddr)

def recordAttempts (c : UInt8) (tries : List (List UInt8 × Bool))
    (x : Transition ServerState (Env × Input)) : List (List UInt8 × Bool) :=
  match tunnelOf c x.source.tunnels with
  | none => []
  | some t => tries ++ (tunnelOf c x.target.tunnels).elim [] (attemptsIn x.event.1 t)

/-- The attempts of channel `c` over a run, in order: none while the channel has no tunnel. -/
def attemptsOf (c : UInt8) (past : List (Transition ServerState (Env × Input))) :
    List (List UInt8 × Bool) := past.foldl (recordAttempts c) []

/-- The datagrams that the socket took. -/
def taken (tries : List (List UInt8 × Bool)) : List (List UInt8) :=
  (tries.filter Prod.snd).map Prod.fst

theorem taken_append (xs ys : List (List UInt8 × Bool)) :
    taken (xs ++ ys) = taken xs ++ taken ys := by
  unfold taken
  rw [List.filter_append, List.map_append]

section
variable {env : Env} {t t' : TunnelClient} {log log' : Log} {tries : List (List UInt8 × Bool)}
  {blocks counted : List (List UInt8 × Nat)}

theorem attempt_same (h : t'.inFlight = t.inFlight) : attempt t t' = none := by
  unfold attempt
  rw [h]
  cases t.inFlight with
  | none => rfl
  | some f => simp

theorem attempt_first (h : t.inFlight = none) : attempt t t' = t'.inFlight := by
  unfold attempt
  rw [h]
  cases t'.inFlight with
  | none => rfl
  | some f => simp

theorem attempt_changed {f f' : InFlight} (hf : t.inFlight = some f) (hf' : t'.inFlight = some f')
    (h : f.sequence ≠ f'.sequence ∨ f.attempts ≠ f'.attempts) : attempt t t' = some f' := by
  have hne : some (f.sequence, f.attempts) ≠ some (f'.sequence, f'.attempts) := by
    rw [Ne, Option.some_inj, Prod.mk.injEq, not_and_or]
    exact h
  unfold attempt
  rw [hf, hf']
  exact Option.filter_some_pos (decide_eq_true hne)

theorem attemptsIn_same (env : Env) (h : t'.inFlight = t.inFlight) : attemptsIn env t t' = [] := by
  unfold attemptsIn
  rw [attempt_same h]
  rfl

/-! ## What is sent -/

/-- A step sends the datagram of its attempt to the data endpoint, and no other request. -/
def Sends (env : Env) (t t' : TunnelClient) (sends : List Datagram) : Prop :=
  sends = (attempt t t').toList.flatMap fun f => env.sendTo f.datagram t.dataAddr

theorem Sends.nothing (h : t'.inFlight = t.inFlight) : Sends env t t' [] := by
  unfold Sends
  rw [attempt_same h]
  rfl

theorem Sends.octets {sends : List Datagram} (h : Sends env t t' sends) :
    sends.map Datagram.octets = taken (attemptsIn env t t') := by
  unfold Sends at h
  unfold attemptsIn
  rw [h]
  cases attempt t t' with
  | none => rfl
  | some f =>
    rw [Option.toList_some, List.flatMap_singleton]
    unfold Env.sendTo outcome taken
    split_ifs with hsend <;> simp [hsend]

theorem transmit_sends (hf : t.inFlight.isSome) :
    Sends env t (t.transmit env).1 (t.transmit env).2 := by
  obtain ⟨f, hf⟩ := Option.isSome_iff_exists.mp hf
  unfold Sends
  rw [transmit_some hf, attempt_changed hf rfl (.inr (Nat.succ_ne_self _).symm)]
  exact (List.append_nil _).symm

theorem pump_sends (hf : t.inFlight = none) : Sends env t (t.pump env).1 (t.pump env).2 := by
  unfold TunnelClient.pump
  rw [if_neg (by rw [hf]; exact Bool.false_ne_true)]
  split
  · exact .nothing rfl
  · rename_i datagram rest _
    unfold Sends
    rw [transmit_some rfl, attempt_first hf]
    exact (List.append_nil _).symm

theorem enqueue_keeps (t : TunnelClient) (cemi : List UInt8) :
    (t.enqueue cemi).inFlight = t.inFlight ∧ (t.enqueue cemi).dataAddr = t.dataAddr := by
  unfold TunnelClient.enqueue
  split_ifs <;> exact ⟨rfl, rfl⟩

theorem queue_sends (cemi : List UInt8) :
    Sends env t (t.queue env cemi).1 (t.queue env cemi).2 := by
  obtain ⟨hinFlight, hdata⟩ := enqueue_keeps t cemi
  unfold TunnelClient.queue
  rcases hf : t.inFlight with _ | f
  · have hpump : Sends env (t.enqueue cemi) _ _ := pump_sends (hinFlight.trans hf)
    unfold Sends at hpump ⊢
    rw [attempt_first hf]
    rw [attempt_first (hinFlight.trans hf), hdata] at hpump
    exact hpump
  · have hsome : (t.enqueue cemi).inFlight.isSome := by
      rw [hinFlight, hf]
      rfl
    rw [pump_busy hsome]
    exact .nothing hinFlight

theorem pump_sequence {f : InFlight} (hf : t.inFlight = none)
    (h : (t.pump env).1.inFlight = some f) : f.sequence = t.sendSeq := by
  unfold TunnelClient.pump at h
  rw [if_neg (by rw [hf]; exact Bool.false_ne_true)] at h
  split at h
  · rw [hf] at h
    cases h
  · rw [transmit_some rfl] at h
    cases h
    rfl

theorem attempt_advance {sequence : UInt8} {f : InFlight} (hf : t.inFlight = some f)
    (hseq : f.sequence = sequence) :
    attempt t (t.advance env sequence).1 = (t.advance env sequence).1.inFlight := by
  rcases hf' : (t.advance env sequence).1.inFlight with _ | f'
  · unfold attempt
    rw [hf']
    rfl
  · refine attempt_changed hf hf' (.inl ?_)
    rw [pump_sequence rfl hf', hseq]
    exact fun h => absurd (UInt8.left_eq_add.mp h) (by decide)

theorem run_sends {op : Op} (suits : Suits t op) (hrun : (op.run env t).1 = some t') :
    Sends env t t' (op.run env t).2 := by
  cases op with
  | keep =>
    cases hrun
    exact .nothing rfl
  | heartbeat =>
    cases hrun
    exact .nothing rfl
  | takeOver cemiData =>
    cases hrun
    unfold Op.run TunnelClient.takeOver
    dsimp only
    split
    · exact .nothing rfl
    · split
      · exact .nothing rfl
      · exact queue_sends (t := { t with recvSeq := t.recvSeq + 1 }) _
  | queue cemi =>
    cases hrun
    exact queue_sends cemi
  | advance sequence =>
    cases hrun
    obtain ⟨f, hf, hseq⟩ := suits
    have hpump : Sends env { t with inFlight := none, sendSeq := sequence + 1 } _ _ :=
      pump_sends rfl
    unfold Sends at hpump ⊢
    rw [attempt_advance hf hseq]
    rw [attempt_first rfl] at hpump
    exact hpump
  | transmit =>
    cases hrun
    obtain ⟨f, hf, _⟩ := suits
    exact transmit_sends (by rw [hf]; rfl)
  | remove => cases hrun

theorem after_wire (log : Log) (t : TunnelClient) (op : Op) : (log.after t op).wire = log.wire := by
  cases op with
  | takeOver cemiData =>
    unfold Log.after
    dsimp only
    split
    · rfl
    · rename_i cemi _
      cases confirmationOf cemi <;> rfl
  | _ => rfl

/-! ## What is counted -/

/-- Each sent frame stands with the number of its attempts, and they are those recorded. -/
structure Tried (t : TunnelClient) (log : Log) (tries : List (List UInt8 × Bool))
    (blocks : List (List UInt8 × Nat)) : Prop where
  sent : blocks.map Prod.fst = log.sent
  counts : ∀ b ∈ blocks, 1 ≤ b.2 ∧ b.2 ≤ maxRetries
  attempts : tries.map Prod.fst = onWire t.channelId 0 blocks
  idle : t.inFlight = none → blocks.length = log.acked
  busy : ∀ f, t.inFlight = some f → ∃ earlier cemi, blocks = earlier ++ [(cemi, f.attempts)] ∧
    earlier.length = log.acked ∧ f.datagram = requestOctets t.channelId log.acked cemi

theorem new_tried (c : UInt8) (ctrlAddr dataAddr : SocketAddr) (now : Nat) :
    Tried (.new c ctrlAddr dataAddr now) .empty [] [] where
  sent := rfl
  counts := fun _ h => absurd h List.not_mem_nil
  attempts := rfl
  idle := fun _ => rfl
  busy := fun _ h => by cases h

theorem Tried.same (h : Tried t log tries blocks) (hid : t'.channelId = t.channelId)
    (hf : t'.inFlight = t.inFlight) (hsent : log'.sent = log.sent)
    (hacked : log'.acked = log.acked) : Tried t' log' tries blocks where
  sent := h.sent.trans hsent.symm
  counts := h.counts
  attempts := by rw [h.attempts, hid]
  idle := by
    rw [hf, hacked]
    exact h.idle
  busy := by
    rw [hf, hacked, hid]
    exact h.busy

theorem Tried.quiet (h : Tried t' log tries blocks) (hf : t'.inFlight = t.inFlight) :
    ∃ blocks', Tried t' log (tries ++ attemptsIn env t t') blocks' := by
  rw [attemptsIn_same env hf, List.append_nil]
  exact ⟨blocks, h⟩

theorem Tried.pump (h : Tried t log tries blocks) (agrees : Agrees t log counted)
    (hf : t.inFlight = none) : ∃ blocks', Tried (t.pump env).1 (log.pump t)
      (tries ++ (t.pump env).1.inFlight.toList.map (outcome env t.dataAddr)) blocks' := by
  rcases houtbox : t.outbox with _ | ⟨cemi, rest⟩
  · rw [pump_none hf houtbox]
    dsimp only
    rw [hf, Option.toList_none, List.map_nil, List.append_nil]
    refine ⟨blocks, h.same rfl hf.symm ?_ rfl⟩
    unfold Log.pump Log.sent
    rw [houtbox, List.take_nil, List.map_nil, ite_self, List.append_nil]
  · have hvalid : Valid cemi := agrees.valid cemi (by rw [houtbox]; exact List.mem_cons_self)
    have hlength := h.idle hf
    rw [pump_next hvalid hf houtbox agrees.sequence, transmit_some rfl]
    refine ⟨blocks ++ [(cemi, 1)], ?_, ?_, ?_, (fun hnone => by cases hnone), ?_⟩
    · unfold Log.pump Log.sent
      rw [hf, houtbox]
      refine Eq.trans ?_ (sent_append_one log.left cemi).symm
      rw [List.map_append, h.sent]
      rfl
    · intro b hb
      rcases List.mem_append.mp hb with hb | hb
      · exact h.counts b hb
      · rw [List.mem_singleton.mp hb]
        exact ⟨Nat.le_refl 1, (by decide : 1 ≤ maxRetries)⟩
    · have hwire := onWire_append t.channelId 0 blocks [(cemi, 1)]
      rw [Nat.zero_add, hlength] at hwire
      rw [List.map_append, h.attempts]
      exact hwire.symm
    · intro f hsome
      cases hsome
      exact ⟨blocks, cemi, rfl, hlength, rfl⟩

theorem Tried.transmit (h : Tried t log tries blocks) {f : InFlight} (hf : t.inFlight = some f)
    (more : f.attempts < maxRetries) : ∃ blocks', Tried (t.transmit env).1 log
      (tries ++ attemptsIn env t (t.transmit env).1) blocks' := by
  obtain ⟨earlier, cemi, hblocks, hlength, hdatagram⟩ := h.busy f hf
  have hsent := h.sent
  rw [hblocks, List.map_append] at hsent
  unfold attemptsIn
  rw [transmit_some hf, attempt_changed hf rfl (.inr (Nat.succ_ne_self _).symm)]
  refine ⟨earlier ++ [(cemi, f.attempts + 1)], ?_, ?_, ?_, (fun hnone => by cases hnone), ?_⟩
  · rw [List.map_append]
    exact hsent
  · intro b hb
    rcases List.mem_append.mp hb with hb | hb
    · exact h.counts b (hblocks ▸ List.mem_append_left _ hb)
    · rw [List.mem_singleton.mp hb]
      exact ⟨Nat.succ_le_succ (Nat.zero_le _), more⟩
  · have hagain := onWire_again t.channelId earlier cemi f.attempts 1
    rw [hlength, ← hdatagram] at hagain
    rw [List.map_append, h.attempts, hblocks]
    exact hagain
  · intro f' hsome
    cases hsome
    exact ⟨earlier, cemi, rfl, hlength, hdatagram⟩

theorem Tried.enqueue (h : Tried t log tries blocks) (cemi : List UInt8) :
    Tried (t.enqueue cemi) (log.enqueue t cemi) tries blocks := by
  have hsent : (log.enqueue t cemi).sent = log.sent := by
    unfold Log.enqueue Log.sent
    dsimp only
    split_ifs
    · exact sent_append_dropped _ _
    · rw [List.append_nil]
  unfold TunnelClient.enqueue
  split_ifs <;> exact h.same rfl rfl hsent rfl

theorem Tried.queue (h : Tried t log tries blocks) (agrees : Agrees t log counted)
    {cemi : List UInt8} (hvalid : Valid cemi) : ∃ blocks', Tried (t.queue env cemi).1
      (log.queue t cemi) (tries ++ attemptsIn env t (t.queue env cemi).1) blocks' := by
  obtain ⟨hinFlight, hdata⟩ := enqueue_keeps t cemi
  unfold TunnelClient.queue Log.queue
  rcases hf : t.inFlight with _ | f
  · obtain ⟨blocks', hpump⟩ :=
      (h.enqueue cemi).pump (agrees.enqueue hvalid) (hinFlight.trans hf)
    unfold attemptsIn
    rw [attempt_first hf, ← hdata]
    exact ⟨blocks', hpump⟩
  · have hsome : (t.enqueue cemi).inFlight.isSome := by
      rw [hinFlight, hf]
      rfl
    have hpump : (log.enqueue t cemi).pump (t.enqueue cemi) = log.enqueue t cemi := by
      unfold Log.pump
      rw [if_pos hsome, List.append_nil]
    rw [pump_busy hsome, hpump]
    exact (h.enqueue cemi).quiet hinFlight

theorem Tried.advance (h : Tried t log tries blocks) (agrees : Agrees t log counted)
    {sequence : UInt8} {f : InFlight} (hf : t.inFlight = some f) (hseq : f.sequence = sequence) :
    ∃ blocks', Tried (t.advance env sequence).1 (log.after t (.advance sequence))
      (tries ++ attemptsIn env t (t.advance env sequence).1) blocks' := by
  have hacked : Tried { t with inFlight := none, sendSeq := sequence + 1 }
      { log with acked := log.acked + 1 } tries blocks := by
    obtain ⟨earlier, cemi, hblocks, hlength, _⟩ := h.busy f hf
    refine ⟨h.sent, h.counts, h.attempts, fun _ => ?_, fun f hsome => by cases hsome⟩
    rw [hblocks, List.length_append, hlength]
    rfl
  unfold attemptsIn
  rw [attempt_advance hf hseq]
  exact hacked.pump (agrees.advance hf hseq) rfl

/-- Every operation keeps the attempts in agreement with the history. -/
theorem Tried.run (h : Tried t log tries blocks) (agrees : Agrees t log counted) {op : Op}
    (suits : Suits t op) (hrun : (op.run env t).1 = some t') :
    ∃ blocks', Tried t' (log.after t op) (tries ++ attemptsIn env t t') blocks' := by
  cases op with
  | keep =>
    cases hrun
    exact h.quiet rfl
  | heartbeat =>
    cases hrun
    have hbeat : Tried { t with lastHeartbeat := env.now } log tries blocks :=
      h.same rfl rfl rfl rfl
    exact hbeat.quiet rfl
  | takeOver cemiData =>
    cases hrun
    have hreceived : Tried { t with recvSeq := t.recvSeq + 1 } log tries blocks :=
      h.same rfl rfl rfl rfl
    unfold TunnelClient.takeOver Log.after
    dsimp only
    rcases CemiFrame.parse cemiData with e | cemi
    · exact hreceived.quiet rfl
    · dsimp only
      rcases hconfirm : confirmationOf cemi with _ | confirmation
      · exact hreceived.quiet rfl
      · exact hreceived.queue agrees.received (confirmationOf_valid hconfirm)
  | queue cemi =>
    cases hrun
    exact h.queue agrees suits
  | advance sequence =>
    cases hrun
    obtain ⟨f, hf, hseq⟩ := suits
    exact h.advance agrees hf hseq
  | transmit =>
    cases hrun
    obtain ⟨f, hf, more⟩ := suits
    exact h.transmit hf more
  | remove => cases hrun

end

/-! ## Runs -/

section
variable {past : List (Transition ServerState (Env × Input))} {state : ServerState}

/-- The history of every tunnel accounts for its attempts, and they for the wire. -/
def Attempted (past : List (Transition ServerState (Env × Input))) (state : ServerState) : Prop :=
  ∀ c t, tunnelOf c state.tunnels = some t →
    (∃ blocks, Tried t (logOf c past) (attemptsOf c past) blocks) ∧
      (logOf c past).wire = taken (attemptsOf c past)

theorem attemptsOf_append (c : UInt8) (past : List (Transition ServerState (Env × Input)))
    (x : Transition ServerState (Env × Input)) :
    attemptsOf c (past ++ [x]) = recordAttempts c (attemptsOf c past) x := by
  unfold attemptsOf
  rw [List.foldl_append]
  rfl

/-- What a step sends on a channel is what its tunnel has attempted. -/
theorem step_attempts (separate : Separate state) (served : Served past state) {c : UInt8}
    {t t' : TunnelClient} (h : tunnelOf c state.tunnels = some t) (env : Env) (input : Input)
    (h' : tunnelOf c (state.next (env, input)).tunnels = some t') :
    Sends env t t' (requests c (state.step env input).2.sends) := by
  by_cases taken : reads state input
  · have hsends := step_requests env c separate.distinct (served.framed separate) input taken
    unfold Expected at hsends
    rw [step_row separate.distinct h input taken] at h'
    rw [hsends, h]
    exact run_sends (inputOp_suits env t input) h'
  · obtain ⟨htunnels, hsends⟩ : (state.next (env, input)).tunnels = state.tunnels ∧
        (state.step env input).2 = ⟨[], []⟩ := step_unread (Bool.not_eq_true _ |>.mp taken)
    rw [htunnels, h] at h'
    cases h'
    rw [hsends]
    exact .nothing rfl

theorem Attempted.step (separate : Separate state) (served : Served past state)
    (h : Attempted past state) (event : Env × Input) :
    Attempted (past ++ [⟨state, event, state.next event⟩]) (state.next event) := by
  obtain ⟨env, input⟩ := event
  intro c t' ht'
  rw [logOf_append, attemptsOf_append]
  unfold Log.record recordAttempts
  dsimp only
  rcases hrow : tunnelOf c state.tunnels with _ | t
  · obtain ⟨ctrlAddr, dataAddr, now, rfl⟩ := next_new hrow ht'
    exact ⟨⟨[], new_tried c ctrlAddr dataAddr now⟩, rfl⟩
  · obtain ⟨⟨blocks, htried⟩, hwire⟩ := h c t hrow
    obtain ⟨⟨counted, agrees⟩, _⟩ := served c t hrow
    have hsends := (step_attempts separate served hrow env input ht').octets
    rw [ht']
    dsimp only [Option.elim_some]
    split_ifs with hread
    · rw [step_row separate.distinct hrow input hread] at ht'
      obtain ⟨blocks', htried'⟩ := htried.run agrees (inputOp_suits env t input) ht'
      refine ⟨⟨blocks', htried'.same rfl rfl rfl rfl⟩, ?_⟩
      rw [taken_append, ← hwire, ← hsends, ← after_wire (logOf c past) t (inputOp env t input)]
      rfl
    · rw [step_idle (Bool.not_eq_true _ |>.mp hread), hrow] at ht'
      cases ht'
      rw [attemptsIn_same env rfl, List.append_nil]
      exact ⟨⟨blocks, htried⟩, hwire⟩

theorem run_attempted {description : Option ServerDescription.DeviceDescription}
    {multicastTarget : Option SocketAddr}
    (run : Run (fun s e s' => s.next e = s') (.start description multicastTarget) past state) :
    Attempted past state := by
  refine (run.history (H := fun past s => (Separate s ∧ Served past s) ∧ Attempted past s)
    (fun _ => True) ?_ (fun _ _ => trivial) ?_).2
  · exact ⟨run_served (.refl _), fun c t h => by cases h⟩
  · intro past x ⟨⟨separate, served⟩, attempted⟩ _ hstep
    obtain ⟨source, event, target⟩ := x
    have hstep : source.next event = target := hstep
    subst hstep
    exact ⟨⟨separate.changes (next_changes _ event), served.step separate event⟩,
      attempted.step separate served event⟩

end
end KnxRs.TunnelAttempts
