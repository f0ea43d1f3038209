import KnxRs.DisconnectRequests
import KnxRs.SendSteps

set_option autoImplicit false

/-!
# What arrives while a send waits

A tunnelling request is handled at once. Any other datagram is put aside by the attempt
that waits, and an attempt that is given up takes with it what it has put aside.
-/
namespace KnxRs.AckWaits
open CoreTypes CemiCodec KnxIpCodec KnxIpNetwork BoundedChannel TunnelServer TunnelConnection
  ConnectionSteps DisconnectRequests Runs

/-! ## Lists -/

section
variable {α β : Type}

theorem flatMap_append_eq_iff (f g : α → List β) (xs : List α) :
    xs.flatMap (fun x => f x ++ g x) = xs.flatMap f ↔ ∀ x ∈ xs, g x = [] := by
  have longer (ys : List α) :
      (ys.flatMap f).length ≤ (ys.flatMap fun x => f x ++ g x).length := by
    induction ys with
    | nil => exact Nat.le_refl 0
    | cons y ys ih =>
      rw [List.flatMap_cons, List.flatMap_cons, List.length_append, List.length_append,
        List.length_append]
      omega
  induction xs with
  | nil => exact ⟨fun _ _ hx => absurd hx List.not_mem_nil, fun _ => rfl⟩
  | cons x xs ih =>
    rw [List.forall_mem_cons, ← show _ ↔ _ from ih, List.flatMap_cons, List.flatMap_cons]
    constructor
    · intro h
      have hlength := congrArg List.length h
      rw [List.length_append, List.length_append, List.length_append] at hlength
      have hrest := longer xs
      have hempty : g x = [] := List.eq_nil_of_length_eq_zero (by omega)
      rw [hempty, List.append_nil] at h
      exact ⟨hempty, List.append_cancel_left h⟩
    · rintro ⟨hempty, hrest⟩
      rw [hempty, List.append_nil, hrest]

def through (p : α → Bool) : List α → List α
  | [] => []
  | x :: xs => if p x then [x] else x :: through p xs

def beyond (p : α → Bool) : List α → List α
  | [] => []
  | x :: xs => if p x then xs else beyond p xs

theorem through_beyond (p : α → Bool) (xs : List α) : through p xs ++ beyond p xs = xs := by
  induction xs with
  | nil => rfl
  | cons x xs ih =>
    unfold through beyond
    split_ifs
    · rfl
    · rw [List.cons_append, ih]

theorem beyond_eq_nil (p : α → Bool) (xs : List α) :
    beyond p xs = [] ↔ xs.dropLast.any p = false := by
  induction xs with
  | nil => exact ⟨fun _ => rfl, fun _ => rfl⟩
  | cons x xs ih =>
    unfold beyond
    cases xs with
    | nil =>
      refine ⟨fun _ => rfl, fun _ => ?_⟩
      split_ifs <;> rfl
    | cons y ys =>
      rw [List.dropLast_cons_cons, List.any_cons]
      split_ifs with hx
      · rw [hx, Bool.true_or]
        exact iff_of_false not_false Bool.noConfusion
      · rw [Bool.not_eq_true] at hx
        rw [ih, hx, Bool.false_or]

end

/-! ## The receive handling -/

def handleAll (env : Env) : List (List UInt8) → TunnelTask → TunnelTask × List Datagram
  | [], task => (task, [])
  | data :: rest, task =>
    let first := task.handleIncoming env data
    let more := handleAll env rest first.1
    (more.1, first.2.1 ++ more.2)

def wellFormed (data : List UInt8) : Bool :=
  match KnxIpFrame.parse data with
  | .error _ => false
  | .ok _ => true

def isRequest (data : List UInt8) : Bool :=
  match KnxIpFrame.parse data with
  | .error _ => false
  | .ok frame => frame.serviceType = .tunnelingRequest

def answer (task : TunnelTask) (data : List UInt8) : Option UInt8 :=
  match KnxIpFrame.parse data with
  | .error _ => none
  | .ok frame => task.awaitedStatus frame

/-! ## A step of the wait -/

def aside (task : TunnelTask) : List (List UInt8) :=
  match task.phase with
  | .awaitingAck attempt => attempt.buffered
  | _ => []

def waits (task : TunnelTask) : Prop := ∃ attempt, task.phase = .awaitingAck attempt

def readOf (x : ClientStep) : Option (List UInt8) :=
  match x.event.2 with
  | .datagram data => if x.source.blocked then none else some (data.take recvBufSize)
  | _ => none

/-- The well-formed datagram other than the awaited acknowledgement that the step reads. -/
def arrived (x : ClientStep) : List (List UInt8) :=
  match readOf x with
  | some data => if wellFormed data ∧ answer x.source data = none then [data] else []
  | none => []

/-- The datagrams that the step gives to the receive handling: a tunnelling request, or those
    put aside until one of them closes the connection. -/
def processed (x : ClientStep) : List (List UInt8) :=
  match readOf x with
  | some data =>
    match answer x.source data with
    | some status => if status = eNoError then through closes (aside x.source) else []
    | none => if isRequest data then [data] else []
  | none => []

def ofApplication : Event → Bool
  | .receive => true
  | .dropReceiver => true
  | _ => false

/-- What the step does to the client's reception, and what it answers, is the receive handling
    of the datagrams it processes; beyond that it sends at most the request once more. -/
def Handles (x : ClientStep) : Prop :=
  ofApplication x.event.2 = false → ∃ resent : List Datagram,
    x.target.state.recvSeq = (handleAll x.event.1 (processed x) x.source).1.state.recvSeq ∧
    x.target.rx = (handleAll x.event.1 (processed x) x.source).1.rx ∧
    (emitted x).sends = (handleAll x.event.1 (processed x) x.source).2 ++ resent ∧
    ∀ d ∈ resent, ∃ attempt, x.source.phase = .awaitingAck attempt ∧
      d = ⟨x.source.config.remote, attempt.request⟩

def requestsOf (datagrams : List (List UInt8)) : List (List UInt8) := datagrams.filter isRequest

def othersOf (datagrams : List (List UInt8)) : List (List UInt8) :=
  datagrams.filter fun data => !isRequest data

/-- Each tunnelling request is processed in the step it arrives in, and the other datagrams by
    the last step at the latest, each once and in the order of their arrival. -/
structure Conveyed (tr : List ClientStep) : Prop where
  atOnce : ∀ x ∈ tr, requestsOf (processed x) = requestsOf (arrived x)
  byTheEnd : othersOf (tr.flatMap processed) = othersOf (tr.flatMap arrived)

def abandons (env : Env) (task : TunnelTask) (attempt : Attempt) : Event → Prop
  | .datagram data => ∃ status, answer task (data.take recvBufSize) = some status ∧
      status ≠ eNoError
  | .receiveError => True
  | .elapsed => attempt.deadline ≤ env.now
  | _ => False

def accepts (task : TunnelTask) : Event → Prop
  | .datagram data => answer task (data.take recvBufSize) = some eNoError
  | _ => False

/-- An attempt that is given up has put nothing aside, and an acknowledged one has put aside
    nothing after a disconnect request. -/
def Spares (x : ClientStep) : Prop :=
  x.source.blocked = false → ∀ attempt, x.source.phase = .awaitingAck attempt →
    (abandons x.event.1 x.source attempt x.event.2 → attempt.buffered = []) ∧
    (accepts x.source x.event.2 → attempt.buffered.dropLast.any closes = false)

/-! ## The count of one step -/

/-- What the attempt leaves behind when this answer comes. -/
def leftBy (attempt : Attempt) : Option UInt8 → List (List UInt8)
  | none => []
  | some status => if status = eNoError then beyond closes attempt.buffered else attempt.buffered

/-- What the attempt has put aside and does not give to the receive handling as it ends. -/
def leftIn (env : Env) (task : TunnelTask) (attempt : Attempt) : Event → List (List UInt8)
  | .datagram data => leftBy attempt (answer task (data.take recvBufSize))
  | .receiveError => attempt.buffered
  | .elapsed => if env.now < attempt.deadline then [] else attempt.buffered
  | _ => []

def leftBehind (x : ClientStep) : List (List UInt8) :=
  match x.source.phase with
  | .awaitingAck attempt =>
    if x.source.blocked then [] else leftIn x.event.1 x.source attempt x.event.2
  | _ => []

/-- Only what the receive handling would not take at once is put aside. -/
def Tidy (task : TunnelTask) : Prop :=
  ∀ data ∈ aside task, isRequest data = false

/-- Every datagram put aside before the step or arriving in it is processed, left behind, or put
    aside after it. -/
structure Accounted (x : ClientStep) : Prop where
  tidy : Tidy x.target
  atOnce : requestsOf (processed x) = requestsOf (arrived x)
  balance : aside x.source ++ othersOf (arrived x) =
    othersOf (processed x) ++ leftBehind x ++ aside x.target
  handles : Handles x

section
variable {env : Env} {event : Event} {task : TunnelTask} {attempt : Attempt}

theorem aside_waits (h : task.phase = .awaitingAck attempt) : aside task = attempt.buffered := by
  unfold aside
  rw [h]

theorem aside_over (h : ∀ attempt, task.phase ≠ .awaitingAck attempt) : aside task = [] := by
  unfold aside
  split
  · rename_i waiting hphase
    exact absurd hphase (h waiting)
  · rfl

theorem tidy_over (h : aside task = []) : Tidy task := by
  intro data hdata
  rw [h] at hdata
  exact absurd hdata List.not_mem_nil

theorem finishSend_aside (env : Env) (task : TunnelTask) (cemi : Cemi)
    (result : Except KnxIpError Unit) : aside (task.finishSend env cemi result).1 = [] :=
  aside_over (SendSteps.finishSend_over env task cemi result).1

theorem finishSend_receives (env : Env) (task : TunnelTask) (cemi : Cemi)
    (result : Except KnxIpError Unit) :
    (task.finishSend env cemi result).1.state = task.state ∧
      (task.finishSend env cemi result).1.rx = task.rx := by
  unfold TunnelTask.finishSend TunnelTask.tryReconnect
  split
  · exact ⟨rfl, rfl⟩
  · split_ifs <;> exact ⟨rfl, rfl⟩

theorem othersOf_tidy {datagrams : List (List UInt8)}
    (h : ∀ data ∈ datagrams, isRequest data = false) : othersOf datagrams = datagrams := by
  refine List.filter_eq_self.mpr fun data hdata => ?_
  rw [h data hdata]
  rfl

theorem requestsOf_tidy {datagrams : List (List UInt8)}
    (h : ∀ data ∈ datagrams, isRequest data = false) : requestsOf datagrams = [] := by
  refine List.filter_eq_nil_iff.mpr fun data hdata => ?_
  rw [h data hdata]
  exact Bool.false_ne_true

/-! ### The receive handling of what was put aside -/

def renumbered (task : TunnelTask) (sendSeq : UInt8) : TunnelTask :=
  { task with state := { task.state with sendSeq := sendSeq } }

theorem takeIn_renumbered (task : TunnelTask) (n : UInt8) (cemiData : List UInt8) :
    (renumbered task n).takeIn cemiData = renumbered (task.takeIn cemiData) n := by
  unfold TunnelTask.takeIn
  rcases CemiFrame.parse cemiData with _ | cemi
  · rfl
  · unfold TunnelTask.deliver renumbered
    dsimp only
    split_ifs <;> rfl

theorem handleTunnelingRequest_renumbered (env : Env) (task : TunnelTask) (n : UInt8)
    (frame : KnxIpFrame) :
    (renumbered task n).handleTunnelingRequest env frame =
      (renumbered (task.handleTunnelingRequest env frame).1 n,
        (task.handleTunnelingRequest env frame).2) := by
  unfold TunnelTask.handleTunnelingRequest
  rcases ConnectionHeader.parse frame.body with _ | ch
  · rfl
  · by_cases hchannel : ch.channelId ≠ task.state.channelId
    · have hchannel' : ch.channelId ≠ (renumbered task n).state.channelId := hchannel
      dsimp only
      rw [if_pos hchannel, if_pos hchannel']
    · have hchannel' : ¬ ch.channelId ≠ (renumbered task n).state.channelId := hchannel
      dsimp only
      rw [if_neg hchannel, if_neg hchannel']
      by_cases hnumber : ch.sequenceCounter ≠ task.state.recvSeq
      · have hnumber' : ch.sequenceCounter ≠ (renumbered task n).state.recvSeq := hnumber
        rw [if_pos hnumber, if_pos hnumber']
        rfl
      · have hnumber' : ¬ ch.sequenceCounter ≠ (renumbered task n).state.recvSeq := hnumber
        rw [if_neg hnumber, if_neg hnumber', takeIn_renumbered]
        rfl

theorem handleIncoming_renumbered (env : Env) (task : TunnelTask) (n : UInt8)
    (data : List UInt8) :
    (renumbered task n).handleIncoming env data =
      (renumbered (task.handleIncoming env data).1 n, (task.handleIncoming env data).2) := by
  unfold TunnelTask.handleIncoming
  rcases KnxIpFrame.parse data with _ | frame
  · rfl
  · dsimp only
    split
    · rw [handleTunnelingRequest_renumbered]
    · rfl
    · rfl

theorem handleAll_renumbered (env : Env) (datagrams : List (List UInt8)) (task : TunnelTask)
    (n : UInt8) :
    handleAll env datagrams (renumbered task n) =
      (renumbered (handleAll env datagrams task).1 n, (handleAll env datagrams task).2) := by
  induction datagrams generalizing task with
  | nil => rfl
  | cons data rest ih =>
    unfold handleAll
    dsimp only
    rw [handleIncoming_renumbered, ih]

theorem reprocess_eq (env : Env) (buffered : List (List UInt8)) (task : TunnelTask) :
    (TunnelTask.reprocess env buffered task).1 =
        (handleAll env (through closes buffered) task).1 ∧
      (TunnelTask.reprocess env buffered task).2.1 =
        (handleAll env (through closes buffered) task).2 := by
  induction buffered generalizing task with
  | nil => exact ⟨rfl, rfl⟩
  | cons data rest ih =>
    have hopen := handleIncoming_open env task data
    unfold TunnelTask.reprocess through
    dsimp only
    by_cases hclose : closes data
    · rw [hclose, Bool.not_true] at hopen
      rw [hopen, if_neg Bool.false_ne_true, if_pos hclose]
      exact ⟨rfl, (List.append_nil _).symm⟩
    · rw [Bool.eq_false_iff.mpr hclose, Bool.not_false] at hopen
      rw [hopen, if_pos rfl, if_neg hclose]
      obtain ⟨htask, hsends⟩ := ih (task.handleIncoming env data).1
      unfold handleAll
      dsimp only
      rw [htask, hsends]
      exact ⟨rfl, rfl⟩

/-! ### The cases of a step -/

variable {x : ClientStep}

theorem handles_nothing (hprocessed : processed x = []) (hstate : x.target.state = x.source.state)
    (hrx : x.target.rx = x.source.rx) (hsends : (emitted x).sends = []) : Handles x := by
  intro _
  refine ⟨[], ?_, ?_, ?_, fun d hd => absurd hd List.not_mem_nil⟩
  · rw [hprocessed, hstate]
    rfl
  · rw [hprocessed, hrx]
    rfl
  · rw [hprocessed, hsends]
    rfl

theorem accounted_nothing (harrived : arrived x = []) (hprocessed : processed x = [])
    (tidy : Tidy x.target) (balance : aside x.source = leftBehind x ++ aside x.target)
    (handles : Handles x) : Accounted x := by
  refine ⟨tidy, ?_, ?_, handles⟩
  · rw [harrived, hprocessed]
  · rw [harrived, hprocessed]
    exact (List.append_nil _).trans balance

theorem read_none (hread : readOf x = none) : arrived x = [] ∧ processed x = [] := by
  unfold arrived processed
  rw [hread]
  exact ⟨rfl, rfl⟩

theorem accounted_still (hread : readOf x = none) (hleft : leftBehind x = [])
    (tidy : Tidy x.source) (htarget : x.target = x.source) (hout : emitted x = .none) :
    Accounted x := by
  obtain ⟨harrived, hprocessed⟩ := read_none hread
  refine accounted_nothing harrived hprocessed (htarget ▸ tidy) ?_ ?_
  · rw [hleft, htarget]
    rfl
  · refine handles_nothing hprocessed ?_ ?_ ?_
    · rw [htarget]
    · rw [htarget]
    · rw [hout]
      rfl

theorem accounted_failed (harrived : arrived x = []) (hprocessed : processed x = [])
    (hleft : leftBehind x = aside x.source) {cemi : Cemi} {result : Except KnxIpError Unit}
    (htarget : x.target = (x.source.finishSend env cemi result).1)
    (hout : emitted x = (x.source.finishSend env cemi result).2) : Accounted x := by
  have hempty : aside x.target = [] := htarget ▸ finishSend_aside env x.source cemi result
  obtain ⟨hstate, hrx⟩ := finishSend_receives env x.source cemi result
  refine accounted_nothing harrived hprocessed (tidy_over hempty) ?_ ?_
  · rw [hleft, hempty, List.append_nil]
  · refine handles_nothing hprocessed (htarget ▸ hstate) (htarget ▸ hrx) ?_
    rw [hout, finishSend_outcome]

theorem accounted_timeout (hread : readOf x = none) (hphase : x.source.phase = .awaitingAck attempt)
    (hleft : leftBehind x = aside x.source)
    (htarget : x.target = (x.source.ackTimeout env attempt).1)
    (hout : emitted x = (x.source.ackTimeout env attempt).2) : Accounted x := by
  obtain ⟨harrived, hprocessed⟩ := read_none hread
  unfold TunnelTask.ackTimeout TunnelTask.transmit at htarget hout
  by_cases more : attempt.attempt + 1 < maxRetries
  · rw [if_pos more] at htarget hout
    dsimp only at htarget hout
    rcases herror : env.sendError x.source.config.remote attempt.request with _ | error
    · rw [herror] at htarget hout
      have hempty : aside x.target = [] := by
        rw [htarget]
        rfl
      refine accounted_nothing harrived hprocessed (tidy_over hempty) ?_ fun _ => ?_
      · rw [hleft, hempty, List.append_nil]
      · refine ⟨[⟨x.source.config.remote, attempt.request⟩], ?_, ?_, ?_, ?_⟩
        · rw [hprocessed, htarget]
          rfl
        · rw [hprocessed, htarget]
          rfl
        · rw [hprocessed, hout]
          rfl
        · intro d hd
          exact ⟨attempt, hphase, List.mem_singleton.mp hd⟩
    · rw [herror] at htarget hout
      exact accounted_failed harrived hprocessed hleft htarget hout
  · rw [if_neg more] at htarget hout
    exact accounted_failed harrived hprocessed hleft htarget hout

/-! ### A datagram -/

theorem requestsOf_single {data : List UInt8} (h : isRequest data = true) :
    requestsOf [data] = [data] ∧ othersOf [data] = [] := by
  unfold requestsOf othersOf
  simp [h]

theorem othersOf_single {data : List UInt8} (h : isRequest data = false) :
    requestsOf [data] = [] ∧ othersOf [data] = [data] := by
  unfold requestsOf othersOf
  simp [h]

theorem arrived_answer {data : List UInt8} {status : UInt8} (hread : readOf x = some data)
    (hanswer : answer x.source data = some status) : arrived x = [] := by
  unfold arrived
  rw [hread]
  refine if_neg fun h => ?_
  rw [hanswer] at h
  cases h.2

theorem read_frame {data : List UInt8} {frame : KnxIpFrame} (hread : readOf x = some data)
    (hparse : KnxIpFrame.parse data = .ok frame) (hstatus : x.source.awaitedStatus frame = none) :
    arrived x = [data] ∧ processed x = if isRequest data then [data] else [] := by
  have hformed : wellFormed data = true := by
    unfold wellFormed
    rw [hparse]
  have hanswer : answer x.source data = none := by
    unfold answer
    rw [hparse]
    exact hstatus
  unfold arrived processed
  rw [hread]
  dsimp only
  rw [hanswer]
  exact ⟨if_pos ⟨hformed, rfl⟩, rfl⟩

theorem accounted_request {data : List UInt8} {frame : KnxIpFrame} (hread : readOf x = some data)
    (hparse : KnxIpFrame.parse data = .ok frame) (hstatus : x.source.awaitedStatus frame = none)
    (hs : frame.serviceType = .tunnelingRequest) (hleft : leftBehind x = [])
    (tidy : Tidy x.source)
    (htarget : x.target = (x.source.handleTunnelingRequest x.event.1 frame).1)
    (hout : emitted x = ⟨(x.source.handleTunnelingRequest x.event.1 frame).2, []⟩) :
    Accounted x := by
  have hrequest : isRequest data = true := by
    unfold isRequest
    rw [hparse]
    exact decide_eq_true hs
  obtain ⟨harrived, hgiven⟩ := read_frame hread hparse hstatus
  have hprocessed : processed x = [data] := hgiven.trans (if_pos hrequest)
  have hkeeps : Keeps x.source (x.source.handleTunnelingRequest x.event.1 frame).1 :=
    handleTunnelingRequest_keeps frame
  have hphase : x.target.phase = x.source.phase := htarget ▸ hkeeps.phase
  have haside : aside x.target = aside x.source := by
    unfold aside
    rw [hphase]
  have hhandled : handleAll x.event.1 [data] x.source =
      x.source.handleTunnelingRequest x.event.1 frame := by
    unfold handleAll handleAll TunnelTask.handleIncoming
    rw [hparse]
    dsimp only
    rw [hs]
    dsimp only
    rw [List.append_nil]
  refine ⟨?_, ?_, ?_, fun _ => ⟨[], ?_, ?_, ?_, fun d hd => absurd hd List.not_mem_nil⟩⟩
  · intro other hother
    exact tidy other (haside ▸ hother)
  · rw [hprocessed, harrived]
  · rw [harrived, hprocessed, (requestsOf_single hrequest).2, hleft, haside, List.append_nil]
    rfl
  · rw [hprocessed, hhandled, htarget]
  · rw [hprocessed, hhandled, htarget]
  · rw [hprocessed, hhandled, hout, List.append_nil]

theorem accounted_aside {data : List UInt8} {frame : KnxIpFrame} (hread : readOf x = some data)
    (hparse : KnxIpFrame.parse data = .ok frame) (hstatus : x.source.awaitedStatus frame = none)
    (hs : frame.serviceType ≠ .tunnelingRequest) (hphase : x.source.phase = .awaitingAck attempt)
    (hleft : leftBehind x = []) (tidy : Tidy x.source)
    (htarget : x.target = { x.source with phase := .awaitingAck { attempt with
      buffered := attempt.buffered ++ [data] } })
    (hout : emitted x = .none) : Accounted x := by
  have hrequest : isRequest data = false := by
    unfold isRequest
    rw [hparse]
    exact decide_eq_false hs
  obtain ⟨harrived, hgiven⟩ := read_frame hread hparse hstatus
  have hprocessed : processed x = [] := hgiven.trans (if_neg (Bool.eq_false_iff.mp hrequest))
  have hsource : aside x.source = attempt.buffered := aside_waits hphase
  have haside : aside x.target = attempt.buffered ++ [data] := by
    rw [htarget]
    rfl
  refine ⟨?_, ?_, ?_, handles_nothing hprocessed ?_ ?_ ?_⟩
  · intro other hother
    rw [haside] at hother
    rcases List.mem_append.mp hother with hother | hother
    · exact tidy other (hsource ▸ hother)
    · rw [List.mem_singleton.mp hother]
      exact hrequest
  · rw [hprocessed, harrived, (othersOf_single hrequest).1]
    rfl
  · rw [harrived, hprocessed, (othersOf_single hrequest).2, hleft, haside, hsource]
    rfl
  · rw [htarget]
  · rw [htarget]
  · rw [hout]
    rfl

theorem accounted_acknowledged {data : List UInt8} (hread : readOf x = some data)
    (hanswer : answer x.source data = some eNoError)
    (hphase : x.source.phase = .awaitingAck attempt)
    (hleft : leftBehind x = beyond closes attempt.buffered) (tidy : Tidy x.source)
    (htarget : x.target = (x.source.acknowledged x.event.1 attempt).1)
    (hout : emitted x = (x.source.acknowledged x.event.1 attempt).2) : Accounted x := by
  have hsource : aside x.source = attempt.buffered := aside_waits hphase
  have harrived : arrived x = [] := arrived_answer hread hanswer
  have hprocessed : processed x = through closes attempt.buffered := by
    unfold processed
    rw [hread]
    dsimp only
    rw [hanswer, hsource]
    exact if_pos rfl
  have hothers : ∀ other ∈ through closes attempt.buffered, isRequest other = false := by
    intro other hother
    refine tidy other ?_
    rw [hsource, ← through_beyond closes attempt.buffered]
    exact List.mem_append_left _ hother
  unfold TunnelTask.acknowledged at htarget hout
  dsimp only at htarget hout
  have hempty : aside x.target = [] := htarget ▸ finishSend_aside _ _ _ _
  obtain ⟨hrest, hsends⟩ := reprocess_eq x.event.1 attempt.buffered
    (renumbered x.source (x.source.state.sendSeq + 1))
  rw [handleAll_renumbered] at hrest hsends
  refine ⟨tidy_over hempty, ?_, ?_, fun _ => ⟨[], ?_, ?_, ?_,
    fun d hd => absurd hd List.not_mem_nil⟩⟩
  · rw [hprocessed, harrived, requestsOf_tidy hothers]
    rfl
  · rw [harrived, hprocessed, othersOf_tidy hothers, hleft, hempty, hsource, through_beyond]
    rfl
  · rw [hprocessed, htarget, (finishSend_receives _ _ _ _).1]
    exact congrArg (fun task => task.state.recvSeq) hrest
  · rw [hprocessed, htarget, (finishSend_receives _ _ _ _).2]
    have hrx := congrArg TunnelTask.rx hrest
    exact hrx
  · rw [hprocessed, hout, finishSend_outcome]
    exact congrArg (· ++ []) hsends

theorem accounted_received {data : List UInt8} (hread : readOf x = some data)
    (hphase : x.source.phase = .awaitingAck attempt)
    (hleft : leftBehind x = leftBy attempt (answer x.source data)) (tidy : Tidy x.source)
    (htarget : x.target = (x.source.ackReceived x.event.1 attempt data).1)
    (hout : emitted x = (x.source.ackReceived x.event.1 attempt data).2) : Accounted x := by
  unfold TunnelTask.ackReceived at htarget hout
  rcases hparse : KnxIpFrame.parse data with e | frame
  · rw [hparse] at htarget hout
    have hanswer : answer x.source data = none := by
      unfold answer
      rw [hparse]
    have harrived : arrived x = [] := by
      unfold arrived
      rw [hread]
      refine if_neg fun h => ?_
      have hformed := h.1
      unfold wellFormed at hformed
      rw [hparse] at hformed
      cases hformed
    have hprocessed : processed x = [] := by
      unfold processed isRequest
      rw [hread]
      dsimp only
      rw [hanswer, hparse]
      rfl
    rw [hanswer] at hleft
    refine accounted_nothing harrived hprocessed (htarget ▸ tidy) ?_
      (handles_nothing hprocessed ?_ ?_ ?_)
    · rw [hleft, htarget]
      rfl
    · rw [htarget]
    · rw [htarget]
    · rw [hout]
      rfl
  · rw [hparse] at htarget hout
    dsimp only at htarget hout
    have hanswer : answer x.source data = x.source.awaitedStatus frame := by
      unfold answer
      rw [hparse]
    rcases hstatus : x.source.awaitedStatus frame with _ | status
    · rw [hstatus] at htarget hout hanswer
      dsimp only at htarget hout
      rw [hanswer] at hleft
      by_cases hs : frame.serviceType = .tunnelingRequest
      · rw [if_pos hs] at htarget hout
        exact accounted_request hread hparse hstatus hs hleft tidy htarget hout
      · rw [if_neg hs] at htarget hout
        exact accounted_aside hread hparse hstatus hs hphase hleft tidy htarget hout
    · rw [hstatus] at htarget hout hanswer
      dsimp only at htarget hout
      rw [hanswer] at hleft
      unfold leftBy at hleft
      by_cases hok : status = eNoError
      · rw [if_neg (not_not.mpr hok)] at htarget hout
        rw [hok] at hanswer
        dsimp only at hleft
        rw [if_pos hok] at hleft
        exact accounted_acknowledged hread hanswer hphase hleft tidy htarget hout
      · rw [if_pos hok] at htarget hout
        dsimp only at hleft
        rw [if_neg hok, ← aside_waits hphase] at hleft
        refine accounted_failed (arrived_answer hread hanswer) ?_ hleft htarget hout
        unfold processed
        rw [hread]
        dsimp only
        rw [hanswer]
        exact if_neg hok

/-! ## Every step -/

/-- The step of a waiting send that is not blocked is an event of its wait. -/
theorem wait_step (unblocked : task.blocked = false) (hphase : task.phase = .awaitingAck attempt)
    (own : ofApplication event = false) :
    task.step env event = task.whileAwaitingAck env attempt event := by
  have hact : task.act env event = task.whileAwaitingAck env attempt event := by
    unfold TunnelTask.act
    rw [hphase]
  cases event with
  | receive => cases own
  | dropReceiver => cases own
  | _ =>
    unfold TunnelTask.step
    dsimp only
    rw [unblocked, if_neg Bool.false_ne_true, hact]

theorem blocked_step (blocked : task.blocked) (own : ofApplication event = false) :
    task.step env event = (task, .none) := by
  cases event with
  | receive => cases own
  | dropReceiver => cases own
  | _ => exact if_pos blocked

theorem accounted_application (own : ofApplication event) (tidy : Tidy task) :
    Accounted (stepOf task env event) := by
  have hread : readOf (stepOf task env event) = none := by
    cases event with
    | receive => rfl
    | dropReceiver => rfl
    | _ => cases own
  have haside : aside (stepOf task env event).target = aside task := by
    cases event with
    | receive => rfl
    | dropReceiver => rfl
    | _ => cases own
  have hleft : leftBehind (stepOf task env event) = [] := by
    unfold leftBehind
    split
    · split
      · rfl
      · cases event with
        | receive => rfl
        | dropReceiver => rfl
        | _ => cases own
    · rfl
  obtain ⟨harrived, hprocessed⟩ := read_none hread
  refine accounted_nothing harrived hprocessed ?_ ?_ fun h => ?_
  · intro data hdata
    exact tidy data (haside ▸ hdata)
  · rw [hleft, haside]
    rfl
  · exact absurd (show ofApplication event = false from h) (Bool.not_eq_false _ ▸ own)

theorem accounted (env : Env) (event : Event) (hphase : task.phase = .awaitingAck attempt)
    (tidy : Tidy task) : Accounted (stepOf task env event) := by
  by_cases own : ofApplication event
  · exact accounted_application own tidy
  rw [Bool.not_eq_true] at own
  by_cases blocked : task.blocked
  · have hstep : task.step env event = (task, .none) := blocked_step blocked own
    refine accounted_still ?_ ?_ tidy (congrArg Prod.fst hstep) (congrArg Prod.snd hstep)
    · unfold readOf stepOf
      dsimp only
      split
      · exact if_pos blocked
      · rfl
    · unfold leftBehind stepOf
      dsimp only
      rw [hphase]
      exact if_pos blocked
  rw [Bool.not_eq_true] at blocked
  have hstep : task.step env event = task.whileAwaitingAck env attempt event :=
    wait_step blocked hphase own
  have htarget : (stepOf task env event).target = (task.whileAwaitingAck env attempt event).1 :=
    congrArg Prod.fst hstep
  have hout : emitted (stepOf task env event) = (task.whileAwaitingAck env attempt event).2 :=
    congrArg Prod.snd hstep
  have hleft : leftBehind (stepOf task env event) = leftIn env task attempt event := by
    unfold leftBehind stepOf
    dsimp only
    rw [hphase]
    dsimp only
    rw [blocked]
    exact if_neg Bool.false_ne_true
  cases event with
  | datagram data =>
    refine accounted_received ?_ hphase hleft tidy htarget hout
    unfold readOf stepOf
    dsimp only
    rw [blocked]
    exact if_neg Bool.false_ne_true
  | receiveError =>
    exact accounted_failed rfl rfl (hleft.trans (aside_waits hphase).symm) htarget hout
  | elapsed =>
    unfold TunnelTask.whileAwaitingAck at htarget hout
    unfold leftIn at hleft
    dsimp only at htarget hout hleft
    by_cases due : env.now < attempt.deadline
    · rw [if_pos due] at htarget hout hleft
      exact accounted_still rfl hleft tidy htarget hout
    · rw [if_neg due] at htarget hout hleft
      exact accounted_timeout rfl hphase (hleft.trans (aside_waits hphase).symm) htarget hout
  | send cemi => exact accounted_still rfl hleft tidy htarget hout
  | close => exact accounted_still rfl hleft tidy htarget hout
  | heartbeat => exact accounted_still rfl hleft tidy htarget hout
  | receive => cases own
  | dropReceiver => cases own

/-- A step leaves nothing behind exactly when it spares what was put aside. -/
theorem leftBehind_eq_nil {x : ClientStep} (hphase : x.source.phase = .awaitingAck attempt) :
    leftBehind x = [] ↔ Spares x := by
  have hguard : Spares x ↔ (x.source.blocked = false →
      (abandons x.event.1 x.source attempt x.event.2 → attempt.buffered = []) ∧
      (accepts x.source x.event.2 → attempt.buffered.dropLast.any closes = false)) := by
    constructor
    · exact fun h unblocked => h unblocked attempt hphase
    · intro h unblocked other hother
      rw [hphase] at hother
      cases hother
      exact h unblocked
  rw [hguard]
  unfold leftBehind
  rw [hphase]
  dsimp only
  by_cases blocked : x.source.blocked
  · rw [if_pos blocked, blocked]
    exact ⟨fun _ h => Bool.noConfusion h, fun _ => rfl⟩
  rw [if_neg blocked, Bool.eq_false_iff.mpr blocked, eq_self_iff_true, true_imp_iff]
  cases x.event.2 with
  | datagram data =>
    unfold leftIn abandons accepts
    dsimp only
    rcases answer x.source (data.take recvBufSize) with _ | status
    · refine ⟨fun _ => ⟨?_, fun h => ?_⟩, fun _ => rfl⟩
      · rintro ⟨status, h, _⟩
        cases h
      · cases h
    · unfold leftBy
      dsimp only
      by_cases hok : status = eNoError
      · rw [if_pos hok, beyond_eq_nil]
        constructor
        · refine fun h => ⟨?_, fun _ => h⟩
          rintro ⟨other, hother, hne⟩
          cases hother
          exact absurd hok hne
        · exact fun h => h.2 (congrArg some hok)
      · rw [if_neg hok]
        constructor
        · intro h
          exact ⟨fun _ => h, fun hother => absurd (Option.some.inj hother) hok⟩
        · exact fun h => h.1 ⟨status, rfl, hok⟩
  | receiveError => exact ⟨fun h => ⟨fun _ => h, False.elim⟩, fun h => h.1 trivial⟩
  | elapsed =>
    unfold leftIn abandons accepts
    dsimp only
    by_cases due : x.event.1.now < attempt.deadline
    · rw [if_pos due]
      exact ⟨fun _ => ⟨fun h => absurd due (Nat.not_lt_of_le h), False.elim⟩, fun _ => rfl⟩
    · rw [if_neg due]
      exact ⟨fun h => ⟨fun _ => h, False.elim⟩, fun h => h.1 (Nat.le_of_not_lt due)⟩
  | _ => exact ⟨fun _ => ⟨False.elim, False.elim⟩, fun _ => rfl⟩

/-! ## Every run of a send -/

variable {s t : TunnelTask} {tr : List ClientStep}

theorem othersOf_flatMap (f : ClientStep → List (List UInt8)) (tr : List ClientStep) :
    othersOf (tr.flatMap f) = tr.flatMap fun x => othersOf (f x) := by
  unfold othersOf
  rw [List.filter_flatMap]

theorem run_accounted (h : Run (fun a e b => a.next e = b) s tr t)
    (waiting : ∀ x ∈ tr, waits x.source) (tidy : Tidy s) : ∀ x ∈ tr, Accounted x := by
  induction h with
  | refl _ => exact fun _ hx => absurd hx List.not_mem_nil
  | @next s u t e tr hs _ ih =>
    subst hs
    obtain ⟨attempt, hphase⟩ := waiting ⟨s, e, s.next e⟩ List.mem_cons_self
    have first := accounted e.1 e.2 hphase tidy
    intro x hx
    rcases List.mem_cons.mp hx with rfl | hx
    · exact first
    · exact ih (fun y hy => waiting y (List.mem_cons_of_mem _ hy)) first.tidy x hx

/-- Over a run, what was put aside at first and what arrives is processed or left behind by some
    step, or still put aside at the end. -/
theorem run_balance (h : Run (fun a e b => a.next e = b) s tr t)
    (counts : ∀ x ∈ tr, Accounted x) :
    aside s ++ tr.flatMap (fun x => othersOf (arrived x)) =
      tr.flatMap (fun x => othersOf (processed x) ++ leftBehind x) ++ aside t := by
  induction h with
  | refl s => exact List.append_nil (aside s)
  | @next s u t e tr hs _ ih =>
    have first := (counts ⟨s, e, u⟩ List.mem_cons_self).balance
    have rest := ih fun y hy => counts y (List.mem_cons_of_mem _ hy)
    rw [List.flatMap_cons, List.flatMap_cons, ← List.append_assoc, first, List.append_assoc, rest]
    exact (List.append_assoc _ _ _).symm

/-- A send conveys all that arrives while it waits exactly when each of its steps spares what was
    put aside. -/
theorem arrivals_conveyed_iff {env : Env} {task : TunnelTask} {cemi : Cemi}
    (h : Run (fun a e b => a.next e = b) (task.sendWithRetry env cemi).1 tr t)
    (waiting : ∀ x ∈ tr, waits x.source) (ended : ¬ waits t) :
    (∀ x ∈ tr, Handles x) ∧ (Conveyed tr ↔ ∀ x ∈ tr, Spares x) := by
  have hstart : aside (task.sendWithRetry env cemi).1 = [] := by
    unfold aside
    split
    · rename_i attempt hphase
      exact (sendWithRetry_starting cemi attempt hphase).1
    · rfl
  have hend : aside t = [] := aside_over fun attempt hphase => ended ⟨attempt, hphase⟩
  have counts := run_accounted h waiting (tidy_over hstart)
  have balance := run_balance h counts
  rw [hstart, hend, List.nil_append, List.append_nil] at balance
  have spares : (∀ x ∈ tr, leftBehind x = []) ↔ ∀ x ∈ tr, Spares x := by
    refine forall₂_congr fun x hx => ?_
    obtain ⟨attempt, hphase⟩ := waiting x hx
    exact leftBehind_eq_nil hphase
  refine ⟨fun x hx => (counts x hx).handles, ?_⟩
  rw [← spares, ← flatMap_append_eq_iff (fun x => othersOf (processed x)), ← balance,
    ← othersOf_flatMap, ← othersOf_flatMap]
  constructor
  · exact fun conveyed => conveyed.byTheEnd.symm
  · exact fun kept => ⟨fun x hx => (counts x hx).atOnce, kept.symm⟩

end

/-! ## Two runs -/

def sending : TunnelTask :=
  (((TunnelTask.connect (clientEnv 0) gateway).1.next
    (clientEnv 1, .datagram granted)).sendWithRetry (clientEnv 2) groupWrite).1

def ackWith (status : UInt8) : List UInt8 :=
  [0x06, 0x10, 0x04, 0x21, 0x00, 0x0A, 0x04, 0x01, 0x00, status]

def inputsWith (status : UInt8) : List (Env × Event) :=
  [(clientEnv 3, .datagram disconnect), (clientEnv 4, .datagram (ackWith status))]

theorem sending_waits (status : UInt8) :
    ∀ x ∈ trace TunnelTask.next sending (inputsWith status), waits x.source := by
  intro x hx
  rcases List.mem_cons.mp hx with rfl | hx
  · exact ⟨_, rfl⟩
  rw [List.mem_singleton.mp hx]
  exact ⟨_, rfl⟩

theorem acknowledged_send_conveys :
    let tr := trace TunnelTask.next sending (inputsWith eNoError)
    (∀ x ∈ tr, Handles x) ∧ (Conveyed tr ↔ ∀ x ∈ tr, Spares x) ∧
      tr.flatMap processed = [disconnect] := by
  have hrun : Run (fun a e b => TunnelTask.next a e = b)
      (((TunnelTask.connect (clientEnv 0) gateway).1.next
        (clientEnv 1, .datagram granted)).sendWithRetry (clientEnv 2) groupWrite).1
      (trace TunnelTask.next sending (inputsWith eNoError))
      ((inputsWith eNoError).foldl TunnelTask.next sending) :=
    trace_run TunnelTask.next sending (inputsWith eNoError)
  have conveyed := arrivals_conveyed_iff hrun (sending_waits eNoError)
    (by rintro ⟨attempt, h⟩; cases h)
  exact ⟨conveyed.1, conveyed.2, by decide⟩

/-- With a negative acknowledgement the disconnect request is lost. -/
theorem refused_send_loses :
    let tr := trace TunnelTask.next sending (inputsWith 0x29)
    Run (fun a e b => a.next e = b) sending tr ((inputsWith 0x29).foldl TunnelTask.next sending) ∧
      (∀ x ∈ tr, waits x.source) ∧ ¬ waits ((inputsWith 0x29).foldl TunnelTask.next sending) ∧
      tr.flatMap arrived = [disconnect] ∧ tr.flatMap processed = [] ∧ ¬ Conveyed tr := by
  refine ⟨trace_run _ _ _, sending_waits _, ?_, by decide, by decide, ?_⟩
  · rintro ⟨attempt, h⟩
    cases h
  · intro conveyed
    have hend := conveyed.byTheEnd
    revert hend
    decide

end KnxRs.AckWaits
