import KnxRs.BauReplies
import KnxRs.LDataFrames

set_option autoImplicit false

/-!
# What a poll sends

The telegram of every pending object, and a poll as one pass over all objects: it
returns exactly when every telegram fits into a frame, and then it has queued them in
the order of the objects.
-/
namespace KnxRs.GroupObjects

namespace GroupObjectStore

def map (s : GroupObjectStore) (f : GroupObject → GroupObject)
    (keeps : ∀ go, (f go).asap = go.asap) : GroupObjectStore where
  objects := s.objects.map f
  numbered := by
    intro i h
    have hi : i < s.objects.length := by simpa using h
    rw [List.get_eq_getElem, List.getElem_map, keeps]
    exact s.numbered i hi

theorem modify_append {β : Type} (f : β → β) (pre : List β) (x : β) (post : List β) :
    (pre ++ x :: post).modify pre.length f = pre ++ f x :: post := by
  induction pre with
  | nil => rfl
  | cons y pre ih => exact congrArg (List.cons y) ih

/-- An object of the store, with those before it and those after it. -/
structure Located (s : GroupObjectStore) (pre : List GroupObject) (go : GroupObject)
    (post : List GroupObject) : Prop where
  objects : s.objects = pre ++ go :: post

structure NextPending (s : GroupObjectStore) (pre : List GroupObject) (go : GroupObject)
    (post : List GroupObject) : Prop extends Located s pre go post where
  before : ∀ x ∈ pre, x.isPending = false
  pending : go.isPending = true

namespace Located
variable {s : GroupObjectStore} {pre post : List GroupObject} {go : GroupObject}

theorem asap_toNat (h : Located s pre go post) : go.asap.toNat = pre.length + 1 := by
  have hlen : pre.length < s.objects.length := by
    rw [h.objects, List.length_append, List.length_cons]
    omega
  have hnum := s.numbered pre.length hlen
  rw [List.get_eq_getElem] at hnum
  rw [← hnum]
  simp [h.objects]

theorem asap_ne (h : Located s pre go post) : go.asap ≠ 0 := by
  intro hz
  have := h.asap_toNat
  rw [hz] at this
  exact absurd this.symm (Nat.succ_ne_zero _)

theorem get_eq (h : Located s pre go post) : s.get go.asap = some go := by
  unfold get
  rw [if_neg h.asap_ne, h.asap_toNat, Nat.add_sub_cancel, h.objects,
    List.getElem?_append_right (Nat.le_refl _), Nat.sub_self]
  rfl

theorem modify_eq (h : Located s pre go post) (f : GroupObject → GroupObject)
    (keeps : ∀ go, (f go).asap = go.asap) :
    Located (s.modify go.asap f keeps) pre (f go) post := by
  constructor
  rw [modify_objects s h.asap_ne, h.objects, h.asap_toNat, Nat.add_sub_cancel, modify_append]

end Located

theorem get_located {s : GroupObjectStore} {asap : UInt16} {go : GroupObject}
    (h : s.get asap = some go) : go.asap = asap ∧ ∃ pre post, Located s pre go post := by
  unfold get at h
  split_ifs at h with hz
  obtain ⟨hlen, hget⟩ := List.getElem?_eq_some_iff.mp h
  have hnum := s.numbered (asap.toNat - 1) hlen
  rw [List.get_eq_getElem, hget] at hnum
  have hpos : asap.toNat ≠ 0 := fun h0 => hz (UInt16.toNat_inj.mp h0)
  refine ⟨UInt16.toNat_inj.mp (by omega), s.objects.take (asap.toNat - 1),
    s.objects.drop (asap.toNat - 1 + 1), ⟨?_⟩⟩
  rw [← hget, ← List.drop_eq_getElem_cons hlen, List.take_append_drop]

theorem map_get (s : GroupObjectStore) (f : GroupObject → GroupObject)
    (keeps : ∀ go, (f go).asap = go.asap) (asap : UInt16) :
    (s.map f keeps).get asap = (s.get asap).map f := by
  unfold get
  split_ifs
  · rfl
  · exact List.getElem?_map

theorem nextPending_cases (s : GroupObjectStore) :
    (s.nextPending = none ∧ ∀ go ∈ s.objects, go.isPending = false) ∨
      ∃ pre go post, s.nextPending = some go.asap ∧ NextPending s pre go post := by
  unfold nextPending
  cases h : s.objects.find? GroupObject.isPending with
  | none =>
    refine .inl ⟨rfl, fun go hgo => ?_⟩
    rw [← Bool.not_eq_true]
    exact List.find?_eq_none.mp h go hgo
  | some go =>
    obtain ⟨hpending, pre, post, hobjects, hbefore⟩ := List.find?_eq_some_iff_append.mp h
    exact .inr ⟨pre, go, post, rfl, ⟨hobjects⟩, fun x hx => by simpa using hbefore x hx, hpending⟩

end GroupObjectStore
end KnxRs.GroupObjects

namespace KnxRs.BusAccessUnit
open CoreTypes Properties GroupObjects InterfaceObjects ApduCodec TpduCodec CemiCodec AppParse
open AppEncode DptCodec GroupTables Transport MemoryStore DeviceState Fallible Runs

/-! ## Telegrams -/

/-- The destination and the octets of what an object waits to send, where it can be sent. -/
def telegram (d : Device) (go : GroupObject) : Option (UInt16 × List UInt8) :=
  match go.commFlag with
  | .writeRequest => (d.resolveGroupAddress go.asap).bind fun ga =>
    (encodeGroupValueWriteForDpt go.dpt go.data).toOption.map fun payload => (ga, payload)
  | .readRequest => (d.resolveGroupAddress go.asap).map fun ga => (ga, encodeGroupValueRead)
  | _ => none

def Fits (d : Device) (go : GroupObject) : Prop :=
  ∀ ga payload, telegram d go = some (ga, payload) → payload.length ≤ 256

def framesOf (d : Device) (go : GroupObject) : List CemiFrame :=
  match telegram d go with
  | some (ga, payload) =>
    (CemiFrame.tryNewLData .lDataReq d.individualAddress (.group ⟨ga⟩) .low payload).toOption.toList
  | none => []

/-- A pending object is transmitting afterwards, or in error. -/
def polledFlag (d : Device) (go : GroupObject) : ComFlag :=
  if go.isPending then if (telegram d go).isSome then .transmitting else .error else go.commFlag

def polledObject (d : Device) (go : GroupObject) : GroupObject := go.setCommFlag (polledFlag d go)

variable {b b' c : Bau} {d : Device} {go : GroupObject}

theorem telegram_idle (h : go.isPending = false) : telegram d go = none := by
  unfold telegram
  have hflag := of_decide_eq_false h
  cases hgo : go.commFlag with
  | writeRequest => exact absurd (.inl hgo) hflag
  | readRequest => exact absurd (.inr hgo) hflag
  | _ => rfl

theorem fits_idle (h : go.isPending = false) : Fits d go := by
  intro ga payload ht
  rw [telegram_idle h] at ht
  cases ht

theorem framesOf_idle (h : go.isPending = false) : framesOf d go = [] := by
  unfold framesOf
  rw [telegram_idle h]

theorem polledObject_idle (h : go.isPending = false) : polledObject d go = go := by
  unfold polledObject polledFlag
  rw [h]
  rfl

theorem polledObject_pending (d : Device) (go : GroupObject) :
    (polledObject d go).isPending = false := by
  unfold polledObject polledFlag
  by_cases h : go.isPending = true
  · rw [if_pos h]
    split_ifs <;> rfl
  · rw [if_neg h]
    exact Bool.eq_false_iff.mpr h

theorem framesOf_telegram {ga : UInt16} {payload : List UInt8}
    (h : telegram d go = some (ga, payload)) (hlen : payload.length ≤ 256) :
    ∃ frame, framesOf d go = [frame] ∧
      CemiFrame.newLData .lDataReq d.individualAddress (.group ⟨ga⟩) .low payload = .ok frame := by
  obtain ⟨frame, hframe⟩ :=
    tryNewLData_ok .lDataReq d.individualAddress (.group ⟨ga⟩) .low hlen
  refine ⟨frame, ?_, ?_⟩
  · unfold framesOf
    rw [h]
    dsimp only
    rw [hframe]
    rfl
  · unfold CemiFrame.newLData
    rw [hframe]

/-! ## One object -/

def roundOf (b : Bau) (go : GroupObject) : Bau :=
  { b with
    outbox := b.outbox ++ framesOf b.toDevice go
    groupObjects := b.groupObjects.modify go.asap
      (fun go' => go'.setCommFlag (polledFlag b.toDevice go)) (fun _ => rfl) }

/-- What a pending object has its round called with. -/
def requestOf (go : GroupObject) : Option (Option Dpt × List UInt8) :=
  if go.commFlag = .writeRequest then some (go.dpt, go.data) else none

def sendTelegram (b : Bau) : Option (UInt16 × List UInt8) → Except Fault (Bau × ComFlag)
  | none => .ok (b, .error)
  | some (ga, payload) => (b.queueGroupFrame ga .low payload).map fun b => (b, .transmitting)

theorem sendPending_eq (b : Bau) (h : go.isPending = true) :
    b.sendPending go.asap (requestOf go) = sendTelegram b (telegram b.toDevice go) := by
  unfold Bau.sendPending requestOf telegram
  rcases of_decide_eq_true h with hflag | hflag
  · rw [hflag, if_pos rfl]
    cases b.resolveGroupAddress go.asap with
    | none => rfl
    | some ga =>
      dsimp only [Bau.queueGroupValueWrite, Option.bind_some]
      cases encodeGroupValueWriteForDpt go.dpt go.data with
      | error e => rfl
      | ok payload =>
        dsimp only [Except.toOption, Option.map_some, sendTelegram]
        cases b.queueGroupFrame ga .low payload <;> rfl
  · rw [hflag, if_neg (by decide)]
    cases b.resolveGroupAddress go.asap with
    | none => rfl
    | some ga => rfl

theorem servePending_eq (hpending : go.isPending = true) (fits : Fits b.toDevice go) :
    b.servePending go.asap (requestOf go) = .ok (roundOf b go) := by
  unfold Bau.servePending roundOf polledFlag
  rw [sendPending_eq b hpending, if_pos hpending]
  cases h : telegram b.toDevice go with
  | none =>
    unfold framesOf
    rw [h, List.append_nil]
    rfl
  | some t =>
    obtain ⟨frame, hframes, hframe⟩ := framesOf_telegram h (fits _ _ h)
    unfold sendTelegram Bau.queueGroupFrame Bau.pushFrame
    rw [hframes]
    dsimp only
    rw [hframe]
    rfl

theorem servePending_error (hpending : go.isPending = true) (large : ¬ Fits b.toDevice go) :
    ∃ fault, b.servePending go.asap (requestOf go) = .error fault := by
  obtain ⟨ga, large⟩ := not_forall.mp large
  obtain ⟨payload, large⟩ := not_forall.mp large
  obtain ⟨htelegram, hlen⟩ := Classical.not_imp.mp large
  obtain ⟨len, _, hpush⟩ := pushFrame_panics b (.group ⟨ga⟩) .low (Nat.not_le.mp hlen)
  refine ⟨.cemiPayloadTooLong len, ?_⟩
  unfold Bau.servePending
  rw [sendPending_eq b hpending, htelegram]
  unfold sendTelegram Bau.queueGroupFrame
  dsimp only
  rw [hpush]
  rfl

/-! ## All objects -/

theorem pollPending_succ {s : GroupObjectStore} {pre post : List GroupObject}
    (hs : b.groupObjects = s) (hnext : s.nextPending = some go.asap)
    (h : GroupObjectStore.NextPending s pre go post) (rounds : Nat) :
    Bau.pollPending (rounds + 1) b =
      b.servePending go.asap (requestOf go) >>= Bau.pollPending rounds := by
  unfold Bau.pollPending requestOf
  rw [hs, hnext]
  dsimp only
  rw [h.get_eq]
  dsimp only
  rcases of_decide_eq_true h.pending with hflag | hflag
  · rw [hflag, if_pos rfl]
  · rw [hflag, if_neg (by decide)]

def polled (b : Bau) : Bau :=
  { b with
    outbox := b.outbox ++ b.groupObjects.objects.flatMap (framesOf b.toDevice)
    groupObjects := b.groupObjects.map (polledObject b.toDevice) (fun _ => rfl) }

theorem polled_idle (h : ∀ go ∈ b.groupObjects.objects, go.isPending = false) : polled b = b := by
  have hframes : b.groupObjects.objects.flatMap (framesOf b.toDevice) = [] :=
    List.flatMap_eq_nil_iff.mpr fun go hgo => framesOf_idle (h go hgo)
  have hobjects : b.groupObjects.map (polledObject b.toDevice) (fun _ => rfl) = b.groupObjects := by
    refine GroupObjectStore.ext_objects ?_
    refine (List.map_congr_left fun go hgo => ?_).trans (List.map_id _)
    exact polledObject_idle (h go hgo)
  unfold polled
  rw [hframes, hobjects, List.append_nil]

theorem roundOf_objects {pre post : List GroupObject}
    (h : GroupObjectStore.NextPending b.groupObjects pre go post) :
    (roundOf b go).groupObjects.objects = pre ++ polledObject b.toDevice go :: post :=
  (h.modify_eq (fun go' => go'.setCommFlag (polledFlag b.toDevice go)) (fun _ => rfl)).objects

theorem polled_roundOf {pre post : List GroupObject}
    (h : GroupObjectStore.NextPending b.groupObjects pre go post) :
    polled (roundOf b go) = polled b := by
  have hobjects := roundOf_objects h
  have hframes : (roundOf b go).outbox ++
      (roundOf b go).groupObjects.objects.flatMap (framesOf b.toDevice) =
      b.outbox ++ b.groupObjects.objects.flatMap (framesOf b.toDevice) := by
    have hpre : pre.flatMap (framesOf b.toDevice) = [] :=
      List.flatMap_eq_nil_iff.mpr fun go hgo => framesOf_idle (h.before go hgo)
    rw [hobjects, h.objects, List.flatMap_append, List.flatMap_append, List.flatMap_cons,
      List.flatMap_cons, hpre, framesOf_idle (polledObject_pending b.toDevice go)]
    show b.outbox ++ framesOf b.toDevice go ++ _ = _
    rw [List.nil_append, List.nil_append, List.nil_append, List.append_assoc]
  have hstore : (roundOf b go).groupObjects.map (polledObject b.toDevice) (fun _ => rfl) =
      b.groupObjects.map (polledObject b.toDevice) (fun _ => rfl) := by
    refine GroupObjectStore.ext_objects ?_
    show (roundOf b go).groupObjects.objects.map _ = b.groupObjects.objects.map _
    rw [hobjects, h.objects, List.map_append, List.map_append, List.map_cons, List.map_cons,
      polledObject_idle (polledObject_pending b.toDevice go)]
  calc polled (roundOf b go)
      = { b with
          outbox := (roundOf b go).outbox ++
            (roundOf b go).groupObjects.objects.flatMap (framesOf b.toDevice)
          groupObjects := (roundOf b go).groupObjects.map (polledObject b.toDevice)
            (fun _ => rfl) } := rfl
    _ = polled b := by rw [hframes, hstore]; rfl

theorem pollPending_iff {rounds : Nat} (h : b.groupObjects.pendingCount < rounds) :
    Bau.pollPending rounds b = .ok c ↔
      (∀ go ∈ b.groupObjects.objects, Fits b.toDevice go) ∧ c = polled b := by
  induction rounds generalizing b with
  | zero => omega
  | succ n ih =>
    rcases b.groupObjects.nextPending_cases with ⟨hnone, hidle⟩ | ⟨pre, go, post, hnext, hsplit⟩
    · have hfits : ∀ go ∈ b.groupObjects.objects, Fits b.toDevice go :=
        fun go hgo => fits_idle (hidle go hgo)
      unfold Bau.pollPending
      rw [hnone, polled_idle hidle]
      exact ⟨fun hok => ⟨hfits, (Except.ok.inj hok).symm⟩, fun hc => congrArg _ hc.2.symm⟩
    · rw [pollPending_succ rfl hnext hsplit]
      have hmem : go ∈ b.groupObjects.objects := by
        rw [hsplit.objects]
        exact List.mem_append_right pre List.mem_cons_self
      by_cases fits : Fits b.toDevice go
      · have hcount : (roundOf b go).groupObjects.pendingCount + 1 =
            b.groupObjects.pendingCount := by
          refine GroupObjectStore.pendingCount_modify hnext
            (f := fun go' => go'.setCommFlag (polledFlag b.toDevice go)) (fun _ => rfl) fun _ => ?_
          exact polledObject_pending b.toDevice go
        have hobjects := roundOf_objects hsplit
        have hserved : Fits b.toDevice (polledObject b.toDevice go) :=
          fits_idle (polledObject_pending b.toDevice go)
        have hall : (∀ x ∈ (roundOf b go).groupObjects.objects, Fits b.toDevice x) ↔
            ∀ x ∈ b.groupObjects.objects, Fits b.toDevice x := by
          rw [hobjects, hsplit.objects]
          simp only [List.forall_mem_append, List.forall_mem_cons, fits, hserved, true_and]
        rw [servePending_eq hsplit.pending fits, ← polled_roundOf hsplit, ← hall]
        exact ih (by omega)
      · obtain ⟨fault, hfault⟩ := servePending_error hsplit.pending fits
        rw [hfault]
        refine ⟨fun hok => ?_, fun hc => absurd (hc.1 go hmem) fits⟩
        cases hok

/-! ## Transport actions -/

/-- The frames of an action that serves nothing. -/
def actionFrames (source : IndividualAddress) : Action (List UInt8) → Except Fault (List CemiFrame)
  | .sendControl destination tpduType seqNo =>
    (CemiFrame.newLData .lDataReq source (.individual destination) .system
      (encodeControl tpduType seqNo)).map fun frame => [frame]
  | .sendDataConnected destination seqNo priority apdu =>
    (CemiFrame.newLData .lDataReq source (.individual destination) priority
      (encodeDataConnected seqNo apdu)).map fun frame => [frame]
  | _ => .ok []

def allActionFrames (source : IndividualAddress) :
    List (Action (List UInt8)) → Except Fault (List CemiFrame)
  | [] => .ok []
  | a :: as => do
    let frames ← actionFrames source a
    let rest ← allActionFrames source as
    .ok (frames ++ rest)

theorem runAction_frames (b : Bau) {a : Action (List UInt8)} (ha : a.serves = false) :
    b.runAction a = (actionFrames b.individualAddress a).map
      (fun frames => { b with outbox := b.outbox ++ frames }) := by
  have none_sent : (.ok b : Except Fault Bau) =
      (.ok [] : Except Fault (List CemiFrame)).map
        (fun frames => { b with outbox := b.outbox ++ frames }) := by
    show _ = Except.ok { b with outbox := b.outbox ++ [] }
    rw [List.append_nil]
  cases a with
  | sendControl destination tpduType seqNo =>
    dsimp only [Bau.runAction, Bau.queueControlFrame, Bau.pushFrame, actionFrames]
    cases CemiFrame.newLData _ _ _ _ _ <;> rfl
  | sendDataConnected destination seqNo priority apdu =>
    dsimp only [Bau.runAction, Bau.queueDataConnectedFrame, Bau.pushFrame, actionFrames]
    cases CemiFrame.newLData _ _ _ _ _ <;> rfl
  | dataConnectedIndication source priority apdu => cases ha
  | _ => exact none_sent

theorem runActions_frames {actions : List (Action (List UInt8))}
    (hs : ∀ a ∈ actions, a.serves = false) (b : Bau) :
    actions.foldlM Bau.runAction b = (allActionFrames b.individualAddress actions).map
      (fun frames => { b with outbox := b.outbox ++ frames }) := by
  induction actions generalizing b with
  | nil =>
    show _ = Except.ok { b with outbox := b.outbox ++ [] }
    rw [List.append_nil]
    rfl
  | cons a as ih =>
    rw [List.foldlM_cons, runAction_frames b (hs a List.mem_cons_self)]
    unfold allActionFrames
    cases actionFrames b.individualAddress a with
    | error fault => rfl
    | ok frames =>
      have hrest := ih (fun x hx => hs x (List.mem_cons_of_mem a hx))
        { b with outbox := b.outbox ++ frames }
      refine hrest.trans ?_
      show (allActionFrames b.individualAddress as).map _ =
        Except.map _ (allActionFrames b.individualAddress as >>= _)
      cases allActionFrames b.individualAddress as with
      | error fault => rfl
      | ok rest =>
        show Except.ok { b with outbox := b.outbox ++ frames ++ rest } =
          Except.ok { b with outbox := b.outbox ++ (frames ++ rest) }
        rw [List.append_assoc]

theorem drain_idle (rounds : Nat) (h : b.transport.actions = []) :
    Bau.drainTransportActions (rounds + 1) b = .ok b := by
  obtain ⟨device, ⟨_, _, _, _, _, _, _, _, _, actions⟩, _, _, _⟩ := b
  obtain rfl : actions = [] := h
  rfl

theorem drain_frames (rounds : Nat) (hs : ∀ a ∈ b.transport.actions, a.serves = false) :
    Bau.drainTransportActions (rounds + 2) b =
      (allActionFrames b.individualAddress b.transport.actions).map fun frames =>
        { b with transport := b.transport.takeActions.2, outbox := b.outbox ++ frames } := by
  by_cases h : b.transport.actions = []
  · rw [drain_idle (rounds + 1) h, h]
    show Except.ok b =
      Except.ok { b with transport := b.transport.takeActions.2, outbox := b.outbox ++ [] }
    have htaken : b.transport.takeActions.2 = b.transport := by
      show { b.transport with actions := [] } = b.transport
      rw [← h]
    rw [htaken, List.append_nil]
  · unfold Bau.drainTransportActions
    dsimp only
    rw [if_neg (show ¬b.transport.takeActions.1 = [] from h)]
    have hrun := runActions_frames hs { b with transport := b.transport.takeActions.2 }
    rw [show b.transport.takeActions.1 = b.transport.actions from rfl, hrun]
    show Except.map _ (allActionFrames b.individualAddress b.transport.actions) >>= _ = _
    cases allActionFrames b.individualAddress b.transport.actions with
    | error fault => rfl
    | ok frames =>
      exact drain_idle (b := { b with
        transport := b.transport.takeActions.2, outbox := b.outbox ++ frames }) rounds rfl

/-! ## The whole poll -/

def drained (b : Bau) (nowMs : UInt64) (frames : List CemiFrame) : Bau :=
  { b with
    nowMs := nowMs
    transport := (b.transport.poll nowMs).takeActions.2
    outbox := b.outbox ++ frames }

theorem poll_eq (idle : b.transport.actions = []) (nowMs : UInt64) :
    b.poll nowMs = allActionFrames b.individualAddress (b.transport.poll nowMs).actions >>=
      fun frames => if b.configured then
        Bau.pollPending (b.groupObjects.objects.length + 1) (drained b nowMs frames)
      else .ok (drained b nowMs frames) := by
  have unserved : ∀ a ∈ (b.transport.poll nowMs).actions, a.serves = false := by
    have h : Progress False { b with nowMs := nowMs } b.toDevice
        { b with nowMs := nowMs, transport := b.transport.poll nowMs } :=
      .called (c := .poll nowMs) trivial nofun
    refine h.unserved ?_
    rw [idle]
    nofun
  have hdrain := drain_frames 1
    (b := { b with nowMs := nowMs, transport := b.transport.poll nowMs }) unserved
  unfold Bau.poll
  rw [show Bau.drainRounds = 1 + 2 from rfl]
  show Bau.drainTransportActions (1 + 2) _ >>= _ = _
  rw [hdrain]
  show Except.map _ (allActionFrames b.individualAddress (b.transport.poll nowMs).actions) >>= _ = _
  cases allActionFrames b.individualAddress (b.transport.poll nowMs).actions <;> rfl

theorem pendingCount_drained (b : Bau) (nowMs : UInt64) (frames : List CemiFrame) :
    (drained b nowMs frames).groupObjects.pendingCount < b.groupObjects.objects.length + 1 :=
  Nat.lt_succ_of_le List.countP_le_length

/-- A poll of a configured unit returns exactly when all it sends fits into frames. -/
theorem poll_iff (idle : b.transport.actions = []) (configured : b.configured = true) (nowMs : UInt64) :
    b.poll nowMs = .ok c ↔
      ∃ frames, allActionFrames b.individualAddress (b.transport.poll nowMs).actions = .ok frames ∧
        (∀ go ∈ b.groupObjects.objects, Fits b.toDevice go) ∧
        c = polled (drained b nowMs frames) := by
  rw [poll_eq idle]
  cases allActionFrames b.individualAddress (b.transport.poll nowMs).actions with
  | error fault =>
    constructor
    · intro h
      cases h
    · rintro ⟨frames, h, _⟩
      cases h
  | ok frames =>
    show (if b.configured then
      Bau.pollPending (b.groupObjects.objects.length + 1) (drained b nowMs frames)
      else .ok (drained b nowMs frames)) = _ ↔ _
    rw [if_pos configured, pollPending_iff (pendingCount_drained b nowMs frames)]
    constructor
    · exact fun h => ⟨frames, rfl, h⟩
    · rintro ⟨frames', he, h⟩
      obtain rfl := Except.ok.inj he
      exact h

theorem poll_cases (idle : b.transport.actions = []) {nowMs : UInt64} (h : b.poll nowMs = .ok c) :
    ∃ frames, c = if b.configured then polled (drained b nowMs frames)
      else drained b nowMs frames := by
  by_cases configured : b.configured = true
  · obtain ⟨frames, _, _, hc⟩ := (poll_iff idle configured nowMs).mp h
    exact ⟨frames, hc.trans (if_pos configured).symm⟩
  · rw [poll_eq idle] at h
    cases hframes : allActionFrames b.individualAddress (b.transport.poll nowMs).actions with
    | error fault =>
      rw [hframes] at h
      cases h
    | ok frames =>
      rw [hframes] at h
      refine ⟨frames, ?_⟩
      rw [if_neg configured]
      exact (Except.ok.inj ((if_neg configured).symm.trans h)).symm

end KnxRs.BusAccessUnit
