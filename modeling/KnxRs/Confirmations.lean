import KnxRs.ObjectRuns

set_option autoImplicit false

/-!
# Confirmations

Runs in which the frames a unit queues are confirmed in their order, with the object
whose request each of them is. A confirmation is matched by its group address: it is for
the first object that is transmitting to that address, and so for the object whose request
is confirmed where no other one sends to the address.
-/
namespace KnxRs.GroupObjects.GroupObjectStore

theorem objects_length_lt (s : GroupObjectStore) : s.objects.length < 2 ^ 16 := by
  by_contra hge
  have hlast : 2 ^ 16 - 1 < s.objects.length := by omega
  have hnum := s.numbered (2 ^ 16 - 1) hlast
  have hlt := (s.objects.get ⟨2 ^ 16 - 1, hlast⟩).asap.toNat_lt
  omega

theorem count_toNat (s : GroupObjectStore) : s.count.toNat = s.objects.length := by
  have hlt := s.objects_length_lt
  unfold count
  rw [if_pos hlt, UInt16.toNat_ofNat', Nat.mod_eq_of_lt hlt]

end KnxRs.GroupObjects.GroupObjectStore

namespace KnxRs.BusAccessUnit
open CoreTypes GroupObjects InterfaceObjects CemiCodec AppParse GroupTables MemoryStore DeviceState
open Fallible Runs

variable {d : Device} {ga asap : UInt16} {b b' : Bau} {frame con : CemiFrame}

/-! ## The object that is confirmed -/

def asaps (d : Device) : List UInt16 :=
  (List.range' 1 d.groupObjects.count.toNat).map UInt16.ofNat

theorem asaps_getElem {i : Nat} (h : i < (asaps d).length) : (asaps d)[i].toNat = i + 1 := by
  have hlen : (asaps d).length = d.groupObjects.objects.length := by
    rw [asaps, List.length_map, List.length_range', GroupObjectStore.count_toNat]
  have hlt := d.groupObjects.objects_length_lt
  simp only [asaps, List.getElem_map, List.getElem_range', UInt16.toNat_ofNat']
  omega

theorem get_asaps (h : (d.groupObjects.get asap).isSome = true) :
    ∃ i, ∃ hi : i < (asaps d).length, (asaps d)[i] = asap := by
  obtain ⟨go, hget⟩ := Option.isSome_iff_exists.mp h
  unfold GroupObjectStore.get at hget
  split_ifs at hget with hz
  obtain ⟨hlt, _⟩ := List.getElem?_eq_some_iff.mp hget
  have hpos : asap.toNat ≠ 0 := fun h => hz (UInt16.toNat_inj.mp h)
  have hi : asap.toNat - 1 < (asaps d).length := by
    rw [asaps, List.length_map, List.length_range', GroupObjectStore.count_toNat]
    exact hlt
  refine ⟨asap.toNat - 1, hi, UInt16.toNat_inj.mp ?_⟩
  rw [asaps_getElem hi]
  omega

theorem transmittingTo_resolves (h : d.transmittingTo ga asap = true) :
    (d.groupObjects.get asap).isSome = true ∧ d.resolveGroupAddress asap = some ga := by
  obtain ⟨hflag, hga⟩ := Bool.and_eq_true_iff.mp h
  obtain ⟨go, hgo, _⟩ := (Option.any_eq_true _ _).mp hflag
  rw [hgo]
  exact ⟨rfl, of_decide_eq_true hga⟩

structure FirstTransmitting (d : Device) (ga asap : UInt16) : Prop where
  transmitting : d.transmittingTo ga asap = true
  before : ∀ a, a < asap → d.transmittingTo ga a = false

theorem find_transmitting (d : Device) (ga : UInt16) :
    (∃ asap, (asaps d).find? (d.transmittingTo ga) = some asap ∧ FirstTransmitting d ga asap) ∨
      ((asaps d).find? (d.transmittingTo ga) = none ∧ ∀ asap, d.transmittingTo ga asap = false) := by
  cases h : (asaps d).find? (d.transmittingTo ga) with
  | some asap =>
    obtain ⟨hp, i, hi, he, hbefore⟩ := List.find?_eq_some_iff_getElem.mp h
    refine .inl ⟨asap, rfl, hp, fun a ha => ?_⟩
    by_contra htransmitting
    rw [Bool.not_eq_false] at htransmitting
    obtain ⟨j, hj, rfl⟩ := get_asaps (transmittingTo_resolves htransmitting).1
    have hji : j < i := by
      rw [UInt16.lt_iff_toNat_lt, ← he, asaps_getElem hj, asaps_getElem hi] at ha
      omega
    have := hbefore j hji
    rw [htransmitting] at this
    cases this
  | none =>
    refine .inr ⟨rfl, fun asap => ?_⟩
    by_contra htransmitting
    rw [Bool.not_eq_false] at htransmitting
    obtain ⟨i, hi, rfl⟩ := get_asaps (transmittingTo_resolves htransmitting).1
    exact List.find?_eq_none.mp h _ (List.getElem_mem hi) htransmitting

/-- The step is the confirmation of that one object, or of none. -/
def Confirmed (b : Bau) (asap : Option UInt16) (success : Bool) (b' : Bau) : Prop :=
  ∀ a, b'.groupObjects.get a =
    if asap = some a then (b.groupObjects.get a).map (·.transmitDone success)
    else b.groupObjects.get a

/-- A confirmation is for the first object that is transmitting to its group address, or for none
where no object is, or where it is not to a group. -/
def Correlated (b : Bau) (con : CemiFrame) (b' : Bau) : Prop :=
  if con.addressType = .group then
    (∃ asap, FirstTransmitting b.toDevice con.destinationAddressRaw asap ∧
        Confirmed b (some asap) (con.confirm = .noError) b') ∨
      ((∀ asap, b.transmittingTo con.destinationAddressRaw asap = false) ∧
        Confirmed b none (con.confirm = .noError) b')
  else Confirmed b none (con.confirm = .noError) b'

theorem confirmTransmission_cases (d : Device) (ga : UInt16) (success : Bool) :
    (∃ asap, FirstTransmitting d ga asap ∧ ∀ a,
        (d.confirmTransmission ga success).groupObjects.get a =
          if some asap = some a then (d.groupObjects.get a).map (·.transmitDone success)
          else d.groupObjects.get a) ∨
      ((∀ asap, d.transmittingTo ga asap = false) ∧ d.confirmTransmission ga success = d) := by
  unfold Device.confirmTransmission
  rcases find_transmitting d ga with ⟨asap, hfind, hfirst⟩ | ⟨hfind, hnone⟩
  · refine .inl ⟨asap, hfirst, fun a => ?_⟩
    rw [show ((List.range' 1 d.groupObjects.count.toNat).map UInt16.ofNat).find?
      (d.transmittingTo ga) = some asap from hfind]
    dsimp only
    rw [GroupObjectStore.modify_get]
    simp only [Option.some.injEq]
  · refine .inr ⟨hnone, ?_⟩
    rw [show ((List.range' 1 d.groupObjects.count.toNat).map UInt16.ofNat).find?
      (d.transmittingTo ga) = none from hfind]

theorem confirmation_correlated {nowMs : UInt64} (hcon : isConfirmation con = true)
    (h : b.processFrame con nowMs = .ok b') : Correlated b con b' := by
  unfold Bau.processFrame at h
  dsimp only at h
  rw [if_pos (of_decide_eq_true hcon)] at h
  obtain rfl := Except.ok.inj h
  have same : Confirmed b none (con.confirm = .noError) { b with nowMs := nowMs } := fun a => rfl
  unfold Correlated Bau.handleTransmitConfirmation
  by_cases hgroup : con.addressType = .group
  · rw [if_pos hgroup, if_neg (not_not_intro hgroup)]
    rcases confirmTransmission_cases b.toDevice con.destinationAddressRaw
      (con.confirm = .noError) with ⟨asap, hfirst, hget⟩ | ⟨hnone, hsame⟩
    · exact .inl ⟨asap, hfirst, hget⟩
    · refine .inr ⟨hnone, ?_⟩
      show Confirmed b none _ { b with
        nowMs := nowMs
        toDevice := b.toDevice.confirmTransmission con.destinationAddressRaw
          (con.confirm = .noError) }
      rw [hsame]
      exact same
  · rw [if_neg hgroup, if_pos hgroup]
    exact same

/-! ## The frames that are to be confirmed -/

/-- A frame that a call has queued: the object whose request it is, and the tables by which
group addresses were resolved then. -/
structure QueuedFrame where
  origin : Option UInt16
  frame : CemiFrame
  addressTable : AddressTable
  associationTable : AssociationTable

def Bau.queuedFrame (b : Bau) (origin : Option UInt16) (frame : CemiFrame) : QueuedFrame :=
  ⟨origin, frame, b.addressTable, b.associationTable⟩

/-- A unit with the frames it has queued and that are not confirmed yet. -/
structure Confirming where
  bau : Bau
  queued : List QueuedFrame

def requested (b : Bau) : List QueuedFrame :=
  if b.configured then
    b.groupObjects.objects.flatMap fun go =>
      (framesOf b.toDevice go).map (b.queuedFrame (some go.asap))
  else []

/-- The frames that a call has queued; those of the objects come last in a poll. -/
def newlyQueued (b : Bau) (event : Event) (b' : Bau) : List QueuedFrame :=
  let new := b'.outbox.drop b.outbox.length
  match event with
  | .frame _ _ => new.map (b.queuedFrame none)
  | .poll _ =>
    (new.take (new.length - (requested b).length)).map (b.queuedFrame none) ++ requested b

structure Confirms (con frame : CemiFrame) : Prop where
  addressType : con.addressType = frame.addressType
  destination : con.destinationAddressRaw = frame.destinationAddressRaw

/-- The frames are confirmed in the order in which they have been queued. -/
def ConfirmingStep (s : Confirming) (input : Input) (t : Confirming) : Prop :=
  Operates s.bau input t.bau ∧
    match input with
    | .event (.frame frame nowMs) =>
      if isConfirmation frame then
        ∃ confirmed, s.queued = confirmed :: t.queued ∧ Confirms frame confirmed.frame
      else t.queued = s.queued ++ newlyQueued s.bau (.frame frame nowMs) t.bau
    | .event (.poll nowMs) => t.queued = s.queued ++ newlyQueued s.bau (.poll nowMs) t.bau
    | .host _ _ => t.queued = s.queued

theorem requested_frames (b : Bau) : (requested b).map QueuedFrame.frame =
    if b.configured then b.groupObjects.objects.flatMap (framesOf b.toDevice) else [] := by
  unfold requested
  split_ifs
  · rw [List.map_flatMap]
    simp only [List.map_map]
    exact congrArg (List.flatMap · _) (funext fun go => List.map_id _)
  · rfl

/-- What is recorded as queued is what a call has queued, in its order. -/
theorem newlyQueued_frames (ready : Ready b) {event : Event} (h : b.handle event = .ok b') :
    b'.outbox = b.outbox ++ (newlyQueued b event b').map QueuedFrame.frame := by
  have carries : Transport.Carries (Short False) b.transport := .of_forall short_unlimited _
  cases event with
  | frame frame nowMs =>
    have hstart := ((processFrame_completed ready carries False.elim frame nowMs
      False.elim).post b' h).sent
    unfold newlyQueued
    rw [List.map_map]
    show _ = b.outbox ++ (b'.outbox.drop b.outbox.length).map id
    rw [List.map_id]
    exact List.prefix_iff_eq_append.mp hstart |>.symm
  | poll nowMs =>
    obtain ⟨frames, hc⟩ := poll_cases ready.idle (show b.poll nowMs = .ok b' from h)
    have houtbox : b'.outbox = b.outbox ++ (frames ++ (requested b).map QueuedFrame.frame) := by
      rw [hc, requested_frames, ← List.append_assoc]
      split_ifs
      · rfl
      · exact (List.append_nil _).symm
    have hnew : b'.outbox.drop b.outbox.length = frames ++ (requested b).map QueuedFrame.frame := by
      rw [houtbox, List.drop_left]
    unfold newlyQueued
    dsimp only
    rw [hnew, List.length_append, List.length_map, Nat.add_sub_cancel, List.take_left,
      List.map_append, List.map_map, houtbox]
    exact congrArg (fun frames => b.outbox ++ (frames ++ _)) (List.map_id _).symm

/-! ## Runs -/

/-- Group addresses are resolved as they were when the frame was queued. -/
structure QueuedFrame.Current (q : QueuedFrame) (b : Bau) : Prop where
  addressTable : b.addressTable = q.addressTable
  associationTable : b.associationTable = q.associationTable

/-- A frame that is an object's request goes to the group address that the object then sent to. -/
def QueuedFrame.Addressed (q : QueuedFrame) : Prop :=
  ∀ asap, q.origin = some asap → q.frame.addressType = .group ∧
    ∀ b, q.Current b → b.resolveGroupAddress asap = some q.frame.destinationAddressRaw

theorem framesOf_addressed {go : GroupObject} (h : frame ∈ framesOf d go) :
    frame.addressType = .group ∧
      d.resolveGroupAddress go.asap = some frame.destinationAddressRaw := by
  unfold framesOf at h
  cases ht : telegram d go with
  | none =>
    rw [ht] at h
    cases h
  | some t =>
    obtain ⟨ga, payload⟩ := t
    rw [ht] at h
    dsimp only at h
    have hframe : CemiFrame.tryNewLData .lDataReq d.individualAddress (.group ⟨ga⟩) .low payload =
        .ok frame := by
      cases hbuilt : CemiFrame.tryNewLData .lDataReq d.individualAddress (.group ⟨ga⟩) .low
        payload with
      | error e =>
        rw [hbuilt] at h
        cases h
      | ok built =>
        rw [hbuilt] at h
        rw [List.mem_singleton.mp h]
    have built := tryNewLData_built hframe
    refine ⟨built.addressType_eq, ?_⟩
    rw [built.destination_eq]
    unfold telegram at ht
    split at ht
    · obtain ⟨ga', hga, hpayload⟩ := Option.bind_eq_some_iff.mp ht
      obtain ⟨_, _, he⟩ := Option.map_eq_some_iff.mp hpayload
      obtain ⟨rfl, _⟩ := Prod.mk.inj he
      exact hga
    · obtain ⟨ga', hga, he⟩ := Option.map_eq_some_iff.mp ht
      obtain ⟨rfl, _⟩ := Prod.mk.inj he
      exact hga
    · cases ht

theorem requested_addressed {q : QueuedFrame} (h : q ∈ requested b) : q.Addressed := by
  unfold requested at h
  split_ifs at h
  · obtain ⟨go, _, hmem⟩ := List.mem_flatMap.mp h
    obtain ⟨frame, hframe, rfl⟩ := List.mem_map.mp hmem
    rintro asap hasap
    obtain rfl := Option.some.inj hasap
    obtain ⟨hgroup, hresolve⟩ := framesOf_addressed hframe
    refine ⟨hgroup, fun b' current => ?_⟩
    have hsame : b'.resolveGroupAddress go.asap = b.resolveGroupAddress go.asap := by
      unfold Store.resolveGroupAddress
      rw [current.addressTable, current.associationTable]
      rfl
    exact hsame.trans hresolve
  · cases h

theorem newlyQueued_addressed {event : Event} {q : QueuedFrame} (h : q ∈ newlyQueued b event b') :
    q.Addressed := by
  have unrequested {frames : List CemiFrame} (h : q ∈ frames.map (b.queuedFrame none)) :
      q.Addressed := by
    obtain ⟨frame, _, rfl⟩ := List.mem_map.mp h
    intro asap hasap
    cases hasap
  cases event with
  | frame received nowMs => exact unrequested h
  | poll nowMs =>
    rcases List.mem_append.mp h with h | h
    · exact unrequested h
    · exact requested_addressed h

/-- What is queued is addressed, in every state of a run. -/
theorem queued_addressed {s t : Confirming} {tr : List (Transition Confirming Input)}
    (h : Run ConfirmingStep s tr t) (start : ∀ q ∈ s.queued, q.Addressed) :
    ∀ q ∈ t.queued, q.Addressed := by
  refine h.invariant (I := fun s => ∀ q ∈ s.queued, q.Addressed) (fun _ => True) start
    (fun _ _ => trivial) ?_
  intro x addressed _ hstep
  have grown {event : Event}
      (hqueued : x.target.queued = x.source.queued ++ newlyQueued x.source.bau event x.target.bau) :
      ∀ q ∈ x.target.queued, q.Addressed := by
    intro q hmem
    rw [hqueued] at hmem
    rcases List.mem_append.mp hmem with hmem | hmem
    · exact addressed q hmem
    · exact newlyQueued_addressed hmem
  obtain ⟨_, hqueued⟩ := hstep
  split at hqueued
  · split_ifs at hqueued
    · obtain ⟨confirmed, hqueued, _⟩ := hqueued
      intro q hmem
      exact addressed q (hqueued ▸ List.mem_cons_of_mem _ hmem)
    · exact grown hqueued
  · exact grown hqueued
  · rw [hqueued]
    exact addressed

def SoleSender (b : Bau) (asap : UInt16) : Prop :=
  ∀ a, (b.groupObjects.get a).isSome = true → a ≠ asap →
    b.resolveGroupAddress a ≠ b.resolveGroupAddress asap

/-- What the confirmation of the frame first in the queue does: it is for the first object that is
transmitting to its group address; confirming an object's request, it changes no other object
where no other one sends to that address and addresses are resolved as when it was queued. -/
structure Attributed (s : Confirming) (con : CemiFrame) (t : Confirming) : Prop where
  correlated : Correlated s.bau con t.bau
  request : ∃ confirmed, s.queued = confirmed :: t.queued ∧ Confirms con confirmed.frame ∧
    ∀ asap, confirmed.origin = some asap → confirmed.Current s.bau → SoleSender s.bau asap →
      Confirmed s.bau (if s.bau.transmittingTo con.destinationAddressRaw asap then some asap
        else none) (con.confirm = .noError) t.bau

theorem sole_confirmed {success : Bool} (hga : b.resolveGroupAddress asap = some ga)
    (sole : SoleSender b asap)
    (h : (∃ a, FirstTransmitting b.toDevice ga a ∧ Confirmed b (some a) success b') ∨
      ((∀ a, b.transmittingTo ga a = false) ∧ Confirmed b none success b')) :
    Confirmed b (if b.transmittingTo ga asap then some asap else none) success b' := by
  rcases h with ⟨a, hfirst, hconfirmed⟩ | ⟨hnone, hconfirmed⟩
  · obtain ⟨hsome, hresolve⟩ := transmittingTo_resolves hfirst.transmitting
    have hsame : a = asap := by
      by_contra hne
      exact sole a hsome hne (hresolve.trans hga.symm)
    subst hsame
    rw [if_pos hfirst.transmitting]
    exact hconfirmed
  · rw [if_neg (Bool.eq_false_iff.mp (hnone asap))]
    exact hconfirmed

theorem confirming_ready {s t : Confirming} {tr : List (Transition Confirming Input)}
    (h : Run ConfirmingStep s tr t) (ready : Ready s.bau) : Ready t.bau :=
  h.invariant (I := fun s => Ready s.bau) (fun _ => True) ready (fun _ _ => trivial)
    fun _ ready _ hstep => operates_ready ready hstep.1

/-- In every run in which frames are confirmed in their order: what a call queues is recorded in
its order; a confirmation is for the first object that is transmitting to its group address; and
it changes at most the object whose request it confirms, where no other one sends to that address
and the tables are those under which the request was queued. -/
theorem confirmations_attributed {device : InterfaceObject} {count : UInt16} {size : Nat}
    {tr : List (Transition Confirming Input)} {s : Confirming}
    (h : Run ConfirmingStep ⟨.new device count size, []⟩ tr s) :
    ∀ past x rest, tr = past ++ x :: rest →
      (∀ event, x.event = .event event → x.target.bau.outbox = x.source.bau.outbox ++
        (newlyQueued x.source.bau event x.target.bau).map QueuedFrame.frame) ∧
      ∀ con nowMs, x.event = .event (.frame con nowMs) → isConfirmation con = true →
        Attributed x.source con x.target := by
  rintro past x rest rfl
  obtain ⟨u, before, after⟩ := h.split
  obtain ⟨rfl, hstep, _⟩ := after.head
  refine ⟨fun event hevent => ?_, fun con nowMs hevent hcon => ?_⟩
  · rw [hevent] at hstep
    exact newlyQueued_frames (confirming_ready before (ofDevice_ready _)) hstep.1
  · rw [hevent] at hstep
    obtain ⟨hoperates, hqueued⟩ := hstep
    have correlated := confirmation_correlated hcon
      (show x.source.bau.processFrame con nowMs = .ok x.target.bau from hoperates)
    dsimp only at hqueued
    rw [if_pos hcon] at hqueued
    obtain ⟨confirmed, hhead, confirms⟩ := hqueued
    refine ⟨correlated, confirmed, hhead, confirms, fun asap horigin current sole => ?_⟩
    have addressed := queued_addressed before (fun _ hmem => absurd hmem List.not_mem_nil)
      confirmed (hhead ▸ List.mem_cons_self)
    obtain ⟨hgroup, hresolve⟩ := addressed asap horigin
    unfold Correlated at correlated
    rw [if_pos (confirms.addressType.trans hgroup)] at correlated
    rw [← confirms.destination] at hresolve
    exact sole_confirmed (hresolve _ current) sole correlated

/-! ## Confirmations of another object's frame -/

def Confirming.next (s : Confirming) : Input → Option Confirming
  | .event (.frame frame nowMs) => (s.bau.processFrame frame nowMs).toOption.bind fun b =>
    if isConfirmation frame then
      match s.queued with
      | confirmed :: rest =>
        if frame.addressType = confirmed.frame.addressType ∧
            frame.destinationAddressRaw = confirmed.frame.destinationAddressRaw then some ⟨b, rest⟩
        else none
      | [] => none
    else some ⟨b, s.queued ++ newlyQueued s.bau (.frame frame nowMs) b⟩
  | .event (.poll nowMs) => (s.bau.poll nowMs).toOption.map fun b =>
    ⟨b, s.queued ++ newlyQueued s.bau (.poll nowMs) b⟩
  | .host device outbox => some ⟨{ s.bau with toDevice := device, outbox := outbox }, s.queued⟩

theorem next_step {s t : Confirming} {input : Input} (h : s.next input = some t) :
    ConfirmingStep s input t := by
  cases input with
  | event event =>
    cases event with
    | frame frame nowMs =>
      obtain ⟨b, hb, hqueued⟩ := Option.bind_eq_some_iff.mp h
      have hframe := toOption_ok hb
      split_ifs at hqueued with hcon
      · split at hqueued
        · next confirmed rest hhead =>
          split_ifs at hqueued with hdestination
          obtain rfl := Option.some.inj hqueued
          refine ⟨hframe, ?_⟩
          dsimp only
          rw [if_pos hcon]
          exact ⟨confirmed, hhead, hdestination.1, hdestination.2⟩
        · cases hqueued
      · obtain rfl := Option.some.inj hqueued
        refine ⟨hframe, ?_⟩
        dsimp only
        rw [if_neg hcon]
    | poll nowMs =>
      obtain ⟨b, hb, rfl⟩ := Option.map_eq_some_iff.mp h
      exact ⟨toOption_ok hb, rfl⟩
  | host device outbox =>
    obtain rfl := Option.some.inj h
    exact ⟨rfl, rfl⟩

theorem run_of_next {s t : Confirming} {inputs : List Input}
    (h : inputs.foldlM Confirming.next s = some t) :
    ∃ tr, Run ConfirmingStep s tr t ∧ tr.map Transition.event = inputs := by
  induction inputs generalizing s with
  | nil =>
    obtain rfl := Option.some.inj h
    exact ⟨[], .refl s, rfl⟩
  | cons input inputs ih =>
    rw [List.foldlM_cons] at h
    obtain ⟨u, hu, hrest⟩ := Option.bind_eq_some_iff.mp h
    obtain ⟨tr, run, hevents⟩ := ih hrest
    exact ⟨_, .next (next_step hu) run, congrArg (List.cons input) hevents⟩

def twoObjects (addresses associations : List UInt8) (first second : ComFlag) : Device :=
  { standardBau.toDevice with
    addrTableObject := .newLoaded
    assocTableObject := .newLoaded
    appProgramObject := .newLoaded
    addressTable := ⟨addresses⟩
    associationTable := ⟨associations⟩
    groupObjects := {
      objects := [(GroupObject.new 1 1).setCommFlag first, (GroupObject.new 2 1).setCommFlag second]
      numbered := by
        intro i hi
        match i, hi with
        | 0, _ => rfl
        | 1, _ => rfl } }

/-- Both objects send to the group address 0x0801. -/
def sharedDevice : ComFlag → ComFlag → Device :=
  twoObjects [0, 1, 0x08, 0x01] [0, 2, 0, 1, 0, 1, 0, 1, 0, 2]

/-- The first object sends to 0x0801, the second to 0x0802. -/
def apartDevice : ComFlag → ComFlag → Device :=
  twoObjects [0, 2, 0x08, 0x01, 0x08, 0x02] [0, 2, 0, 1, 0, 1, 0, 2, 0, 2]

def groupConfirmation : CemiFrame :=
  ⟨[0x2E, 0x00, 0xBC, 0xE0, 0xFF, 0xFF, 0x08, 0x01, 0x01, 0x00, 0x80], 2, withoutInfo rfl, rfl⟩

def confirmation : Input := .event (.frame groupConfirmation 0)

def flagAt (s : Confirming) (asap : UInt16) : Option ComFlag :=
  (s.bau.groupObjects.get asap).map GroupObject.commFlag

theorem soleSender_of_asaps {rows : List (UInt16 × Option UInt16)}
    (h : (asaps b.toDevice).map (fun a => (a, b.resolveGroupAddress a)) = rows)
    (hsole : ∀ row ∈ rows, row.1 ≠ asap → row.2 ≠ b.resolveGroupAddress asap) :
    SoleSender b asap := by
  intro a hsome hne
  obtain ⟨i, hi, rfl⟩ := get_asaps hsome
  refine hsole (_, b.resolveGroupAddress (asaps b.toDevice)[i]) ?_ hne
  rw [← h]
  exact List.mem_map_of_mem (List.getElem_mem hi)

def apartInputs : List Input :=
  [.host (apartDevice .writeRequest .writeRequest) [], .event (.poll 0)]

/-- Both objects send, each to its own address, and the first one's request is confirmed. -/
theorem sole_request_confirmed : ∃ past x,
    Run ConfirmingStep ⟨standardBau, []⟩ (past ++ [x]) x.target ∧
    (past ++ [x]).map Transition.event = apartInputs ++ [confirmation] ∧
    x.source.queued.map QueuedFrame.origin = [some 1, some 2] ∧
    flagAt x.source 1 = some .transmitting ∧ flagAt x.source 2 = some .transmitting ∧
    Confirmed x.source.bau (some 1) true x.target.bau := by
  have hstate : (apartInputs.foldlM Confirming.next ⟨standardBau, []⟩).map (fun s =>
      (s.queued.map QueuedFrame.origin, flagAt s 1, flagAt s 2)) =
        some ([some 1, some 2], some .transmitting, some .transmitting) := by
    decide +kernel
  have hconfirmable : ∀ s ∈ apartInputs.foldlM Confirming.next ⟨standardBau, []⟩,
      s.bau.transmittingTo groupConfirmation.destinationAddressRaw 1 = true ∧
        (s.next confirmation).isSome = true := by
    decide +kernel
  have hcurrent : ∀ s ∈ apartInputs.foldlM Confirming.next ⟨standardBau, []⟩, ∀ q ∈ s.queued,
      s.bau.addressTable = q.addressTable ∧ s.bau.associationTable = q.associationTable := by
    decide +kernel
  have hresolved : (apartInputs.foldlM Confirming.next ⟨standardBau, []⟩).map (fun s =>
      ((asaps s.bau.toDevice).map fun a => (a, s.bau.resolveGroupAddress a),
        s.bau.resolveGroupAddress 1)) =
        some ([(1, some 0x0801), (2, some 0x0802)], some 0x0801) := by
    decide +kernel
  obtain ⟨s, hs, hstate⟩ := Option.map_eq_some_iff.mp hstate
  obtain ⟨horigins, hflags⟩ := Prod.mk.inj hstate
  obtain ⟨hfirst, hsecond⟩ := Prod.mk.inj hflags
  obtain ⟨htransmitting, hnext⟩ := hconfirmable s hs
  obtain ⟨t, ht⟩ := Option.isSome_iff_exists.mp hnext
  obtain ⟨past, run, hevents⟩ := run_of_next hs
  have whole : Run ConfirmingStep ⟨standardBau, []⟩ (past ++ [⟨s, confirmation, t⟩]) t :=
    run.append (.next (next_step ht) (.refl t))
  obtain ⟨confirmed, hhead, _, request⟩ := ((confirmations_attributed whole past _ [] rfl).2
    groupConfirmation 0 rfl (by decide +kernel)).request
  have hqueued : s.queued = confirmed :: t.queued := hhead
  have horigin : confirmed.origin = some 1 := by
    rw [hqueued] at horigins
    exact (List.cons.inj horigins).1
  have tables := hcurrent s hs confirmed (by rw [hqueued]; exact List.mem_cons_self)
  refine ⟨past, ⟨s, confirmation, t⟩, whole, ?_, horigins, hfirst, hsecond, ?_⟩
  · rw [List.map_append, hevents]
    rfl
  · obtain ⟨u, hu, hresolve⟩ := Option.map_eq_some_iff.mp hresolved
    obtain rfl : s = u := Option.some.inj (hs.symm.trans hu)
    obtain ⟨hrows, hfirst⟩ := Prod.mk.inj hresolve
    have sole : SoleSender s.bau 1 := by
      refine soleSender_of_asaps hrows fun row hrow hne => ?_
      rcases List.mem_cons.mp hrow with rfl | hrow
      · exact absurd rfl hne
      · rw [List.mem_singleton.mp hrow, hfirst]
        decide
    have hconfirmed := request 1 horigin ⟨tables.1, tables.2⟩ sole
    rw [if_pos htransmitting] at hconfirmed
    exact hconfirmed

/-- Object 2 sends first, and the confirmation of its frame is taken by object 1; a response to a
read is confirmed, and object 1 takes the confirmation for that of its write. -/
theorem confirmations_taken :
    (∃ past s t, Run ConfirmingStep ⟨standardBau, []⟩ past s ∧ ConfirmingStep s confirmation t ∧
      s.queued.map QueuedFrame.origin = [some 2, some 1] ∧
      ¬ Confirmed s.bau (some 2) (groupConfirmation.confirm = .noError) t.bau) ∧
    ∃ past s t, Run ConfirmingStep ⟨standardBau, []⟩ past s ∧ ConfirmingStep s confirmation t ∧
      s.queued.map QueuedFrame.origin = [none, some 1] ∧
      ¬ Confirmed s.bau none (groupConfirmation.confirm = .noError) t.bau := by
  have taken (inputs : List Input) {origins : List (Option UInt16)} {origin : Option UInt16}
      (horigin : origin ≠ some 1)
      (hstate : (inputs.foldlM Confirming.next ⟨standardBau, []⟩).map (fun s =>
        (s.queued.map QueuedFrame.origin, flagAt s 1, (s.next confirmation).map fun t => flagAt t 1)) =
        some (origins, some .transmitting, some (some .ok))) :
      ∃ past s t, Run ConfirmingStep ⟨standardBau, []⟩ past s ∧ ConfirmingStep s confirmation t ∧
        s.queued.map QueuedFrame.origin = origins ∧
        ¬ Confirmed s.bau origin (groupConfirmation.confirm = .noError) t.bau := by
    obtain ⟨s, hs, hstate⟩ := Option.map_eq_some_iff.mp hstate
    simp only [Prod.mk.injEq] at hstate
    obtain ⟨horigins, hbefore, hafter⟩ := hstate
    obtain ⟨t, ht, hflag⟩ := Option.map_eq_some_iff.mp hafter
    obtain ⟨past, run, _⟩ := run_of_next hs
    refine ⟨past, s, t, run, next_step ht, horigins, fun hconfirmed => ?_⟩
    have hsame := hconfirmed 1
    rw [if_neg horigin] at hsame
    unfold flagAt at hbefore hflag
    rw [hsame, hbefore] at hflag
    cases hflag
  constructor
  · exact taken [.host (sharedDevice .ok .writeRequest) [], .event (.poll 0),
      .host (sharedDevice .writeRequest .transmitting) [], .event (.poll 0)] (by decide)
      (by decide +kernel)
  · exact taken [.host (sharedDevice .ok .ok) [], .event (.frame groupRead 0),
      .host (sharedDevice .writeRequest .ok) [], .event (.poll 0)] (by decide)
      (by decide +kernel)

end KnxRs.BusAccessUnit
