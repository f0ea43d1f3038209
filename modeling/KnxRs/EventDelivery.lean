import KnxRs.Runs
import KnxRs.TunnelServer

set_option autoImplicit false

/-!
# Events reach the application

What a step of the server does to its event queue, and from it that every event of a
run is taken once, in the order of the datagrams.
-/
namespace KnxRs.EventDelivery
open BoundedChannel CemiCodec KnxIpCodec KnxIpNetwork ServerEvents TunnelServer Runs

/-- What a step may do to the queue, and the events it pushes. -/
inductive Moves (q : EventQueue ServerEvent) :
    List ServerEvent → EventQueue ServerEvent → Prop where
  | idle : Moves q [] q
  | push (event : ServerEvent) (room : q.hasRoom) : Moves q [event] (q.push event)
  | deliver : Moves q [] q.deliver
  | receive : Moves q [] q.receive
  | drop : Moves q [] q.drop

theorem tunnelEvents_cases (cemiData : List UInt8) :
    tunnelEvents cemiData = [] ∨ ∃ event, tunnelEvents cemiData = [event] := by
  unfold tunnelEvents
  split
  · exact .inl rfl
  · exact .inr ⟨_, rfl⟩

theorem routingEvents_cases (body : List UInt8) :
    ServerState.routingEvents body = [] ∨ ∃ event, ServerState.routingEvents body = [event] := by
  unfold ServerState.routingEvents
  split
  · exact .inl rfl
  · exact .inr ⟨_, rfl⟩

theorem handleTunnelingRequest_events (env : Env) (src : SocketAddr) (frame : KnxIpFrame)
    (tunnels : List TunnelClient) :
    (handleTunnelingRequest env src frame tunnels).2.2 = [] ∨
      ∃ event, (handleTunnelingRequest env src frame tunnels).2.2 = [event] := by
  unfold handleTunnelingRequest
  split
  · exact .inl rfl
  · split
    · exact .inl rfl
    · split_ifs
      · exact .inl rfl
      · exact .inl rfl
      · exact tunnelEvents_cases _

theorem handlePacket_events (env : Env) (state : ServerState) (src : SocketAddr)
    (data : List UInt8) :
    (state.handlePacket env src data).1.events = state.events ∧
      ((state.handlePacket env src data).2.events = [] ∨
        ∃ event, (state.handlePacket env src data).2.events = [event]) := by
  unfold ServerState.handlePacket
  split
  · exact ⟨rfl, .inl rfl⟩
  · rename_i frame _
    split
    · exact ⟨rfl, routingEvents_cases frame.body⟩
    · exact ⟨rfl, .inl rfl⟩
    · exact ⟨rfl, .inl rfl⟩
    · exact ⟨rfl, .inl rfl⟩
    · exact ⟨rfl, handleTunnelingRequest_events env src frame state.tunnels⟩
    · exact ⟨rfl, .inl rfl⟩
    · exact ⟨rfl, .inl rfl⟩
    · exact ⟨rfl, .inl rfl⟩
    · exact ⟨rfl, .inl rfl⟩
    · exact ⟨rfl, .inl rfl⟩

theorem step_moves (env : Env) (state : ServerState) (input : Input) :
    Moves state.events (state.step env input).2.events (state.step env input).1.events := by
  unfold ServerState.step
  split_ifs with hrunning
  · cases input with
    | datagram src data =>
      dsimp only [ServerState.serve]
      split_ifs with room
      · obtain ⟨hqueue, hevents⟩ := handlePacket_events env state src data
        rw [hqueue]
        rcases hevents with hevents | ⟨event, hevents⟩
        · rw [hevents]
          exact .idle
        · rw [hevents]
          exact .push event room
      · exact .idle
    | deliver => exact .deliver
    | receive => exact .receive
    | dropReceiver => exact .drop
    | sendFrame cemi => exact .idle
    | sendToTunnel channelId cemi => exact .idle
    | ackDue => exact .idle
    | cleanup => exact .idle
    | stop => exact .idle
    | setDescription description => exact .idle
  · cases input with
    | receive => exact .receive
    | _ => exact .idle

/-! ## Runs -/

def pushed (past : List (Transition ServerState (Env × Input))) : List ServerEvent :=
  past.flatMap fun x => (x.source.step x.event.1 x.event.2).2.events

/-- With its receiver kept, the queue holds what was pushed; its backlog is bounded. -/
structure Holds (past : List ServerEvent) (q : EventQueue ServerEvent) : Prop where
  held : q.tx.closed = false → q.held = past
  backlog : q.backlog.length ≤ maxEventBacklog
  slots : 0 < q.tx.capacity

theorem new_holds {capacity : Nat} (slots : 0 < capacity) :
    Holds [] (.new (.new capacity)) where
  held := fun _ => rfl
  backlog := Nat.zero_le _
  slots := slots

theorem Holds.moves {past events : List ServerEvent} {q q' : EventQueue ServerEvent}
    (h : Holds past q) (move : Moves q events q') : Holds (past ++ events) q' := by
  cases move with
  | idle => exact (List.append_nil past).symm ▸ h
  | push event room =>
    refine ⟨fun opened => ?_, EventQueue.push_backlog_le event room, ?_⟩
    · rw [EventQueue.push_closed] at opened
      rw [EventQueue.push_held event room opened, h.held opened]
    · rw [EventQueue.push_capacity]
      exact h.slots
  | deliver =>
    rw [List.append_nil]
    refine ⟨fun opened => ?_, Nat.le_trans EventQueue.deliver_backlog_le h.backlog, ?_⟩
    · rw [EventQueue.deliver_closed] at opened
      rw [EventQueue.deliver_held opened, h.held opened]
    · rw [EventQueue.deliver_capacity]
      exact h.slots
  | receive =>
    rw [List.append_nil]
    refine ⟨fun opened => ?_, h.backlog, ?_⟩
    · rw [EventQueue.receive_closed] at opened
      rw [EventQueue.receive_held, h.held opened]
    · rw [EventQueue.receive, Channel.recv_capacity]
      exact h.slots
  | drop =>
    rw [List.append_nil]
    exact ⟨fun opened => (Bool.noConfusion opened), h.backlog, h.slots⟩

/-- Every event pushed in a run is held, in the order of the pushes. -/
theorem run_holds {description : Option ServerDescription.DeviceDescription}
    {multicastTarget : Option SocketAddr} {state : ServerState}
    {past : List (Transition ServerState (Env × Input))}
    (run : Run (fun s e s' => s.next e = s') (.start description multicastTarget) past state) :
    Holds (pushed past) state.events := by
  refine run.history (H := fun past s => Holds (pushed past) s.events) (fun _ => True)
    (new_holds (by decide)) (fun _ _ => trivial) ?_
  intro past x h _ hstep
  have hpushed : pushed (past ++ [x]) =
      pushed past ++ (x.source.step x.event.1 x.event.2).2.events := by
    unfold pushed
    rw [List.flatMap_append, List.flatMap_singleton]
  rw [hpushed, ← hstep]
  exact h.moves (step_moves x.event.1 x.source x.event.2)

/-! ## Handing over -/

def rounds (env : Env) : Nat → List (Env × Input)
  | 0 => []
  | n + 1 => (env, .deliver) :: (env, .receive) :: rounds env n

theorem rounds_events (env : Env) (n : Nat) {state : ServerState} (running : state.running) :
    ((rounds env n).foldl ServerState.next state).events =
      EventQueue.round^[n] state.events := by
  induction n generalizing state with
  | zero => rfl
  | succ n ih =>
    have hdeliver : state.next (env, .deliver) = { state with events := state.events.deliver } := by
      unfold ServerState.next ServerState.step
      rw [if_pos running]
      rfl
    have hreceive : ServerState.next { state with events := state.events.deliver } (env, .receive) =
        { state with events := state.events.round } := by
      unfold ServerState.next ServerState.step
      rw [if_pos running]
      rfl
    rw [rounds, List.foldl_cons, List.foldl_cons, hdeliver, hreceive, Function.iterate_succ_apply]
    exact @ih { state with events := state.events.round } running

/-- In every run the events taken, in the channel and held back are those pushed, each once and
    in order, while the application keeps its receiver; the backlog stays within its limit; and
    a server that still runs can hand over all that was pushed. -/
theorem events_reach_application {description : Option ServerDescription.DeviceDescription}
    {multicastTarget : Option SocketAddr} {state : ServerState}
    {past : List (Transition ServerState (Env × Input))}
    (run : Run (fun s e s' => s.next e = s') (.start description multicastTarget) past state) :
    state.events.backlog.length ≤ maxEventBacklog ∧
      (state.events.tx.closed = false →
        state.events.tx.received ++ state.events.tx.buffer ++ state.events.backlog = pushed past ∧
        (state.running → ∀ env, ∃ n,
          ((rounds env n).foldl ServerState.next state).events.tx.received = pushed past)) := by
  have h := run_holds run
  refine ⟨h.backlog, fun opened => ⟨h.held opened, fun running env => ?_⟩⟩
  refine ⟨state.events.pending, ?_⟩
  rw [rounds_events env _ running,
    EventQueue.rounds_hand_over _ opened h.slots (Nat.le_refl _), h.held opened]

def routedInputs : List (Env × Input) :=
  [(calm 0, .datagram (.v4 ⟨192, 168, 1, 2⟩ 3671) [0x06, 0x10, 0x05, 0x30, 0x00, 0x11, 0x29, 0x00,
      0xBC, 0xE0, 0x11, 0x01, 0x08, 0x01, 0x01, 0x00, 0x81]),
    (calm 1, .receive)]

theorem routed_event_taken :
    (routedInputs.foldl ServerState.next (.start none none)).events.backlog.length ≤
        maxEventBacklog ∧
      (pushed (trace ServerState.next (.start none none) routedInputs)).length = 1 :=
  ⟨(events_reach_application (trace_run ServerState.next (.start none none) routedInputs)).1, rfl⟩

end KnxRs.EventDelivery
