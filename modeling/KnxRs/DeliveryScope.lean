import KnxRs.BauSteps

set_option autoImplicit false

/-!
# The scope of a service

Group services act on group-addressed frames and an individual address is written
by a broadcast, but for what a connection carries: its requests reach the handlers
with the device's own address in the place of a group address.
-/
namespace KnxRs.BusAccessUnit
open CoreTypes Properties GroupObjects InterfaceObjects TpduCodec CemiCodec AppParse
open GroupTables Transport MemoryStore DeviceState Fallible Runs

/-- What a frame that is no confirmation may do to group objects and individual address. -/
structure Scoped (b : Bau) (frame : CemiFrame) (b' : Bau) : Prop where
  group : b'.groupObjects ≠ b.groupObjects → frame.addressType = .group ∧
    b.addressTable.contains frame.destinationAddressRaw = true
  broadcast : ∀ dst address, served b frame = some (dst, .individualAddressWrite address) →
    b'.individualAddress ≠ b.individualAddress →
      frame.addressType = .group ∧ frame.destinationAddressRaw = 0
  numbered : ∀ seqNo apdu, frame.tpdu = some (.data .dataConnected seqNo apdu) →
    b'.groupObjects = b.groupObjects ∧
      ∀ dst address, served b frame = some (dst, .individualAddressWrite address) →
        b'.individualAddress = b.individualAddress

def changesObjects (d : Device) (ga : UInt16) (data : List UInt8)
    (checkFlag : GroupObjectDescriptor → Bool) : Bool :=
  match d.addressTable.getTsap ga with
  | none => false
  | some tsap => (d.associationTable.asapsForTsap tsap).any (fun asap =>
      d.accepts asap checkFlag &&
        (d.groupObjects.get asap).any (fun go => go.valueFromBus data ≠ go))

/-- A connection carries a group value that changes an object of the group address with the
    device's own raw address, or a new individual address in programming mode. -/
def escapesScope (b : Bau) (frame : CemiFrame) : Bool :=
  match connectedService b frame with
  | some (.groupValueWrite _ data) =>
    changesObjects b.toDevice b.individualAddress.raw data GroupObjectDescriptor.writeEnable
  | some (.groupValueResponse _ data) =>
    changesObjects b.toDevice b.individualAddress.raw data GroupObjectDescriptor.updateEnable
  | some (.individualAddressWrite address) =>
    progMode b.device ∧
      (b.toDevice.setIndividualAddress address).individualAddress ≠ b.individualAddress
  | _ => false

/-! ## Group objects -/

theorem setObject_groupObjects (d : Device) (index : UInt8) (o : InterfaceObject) :
    (d.setObject index o).groupObjects = d.groupObjects := by
  unfold Device.setObject
  split <;> rfl

theorem writePropertyValue_groupObjects (d : Device) (objectIndex : UInt8) (pid : PropertyId)
    (count : UInt8) (startIndex : UInt16) (data : List UInt8) :
    (d.writePropertyValue objectIndex pid count startIndex data).groupObjects =
      d.groupObjects := by
  unfold Device.writePropertyValue
  split_ifs
  · rfl
  · split
    · exact setObject_groupObjects d _ _
    · rfl

theorem applyExtPropertyWrite_groupObjects (d : Device) (params : ExtPropertyParams)
    (data : List UInt8) : (d.applyExtPropertyWrite params data).1.groupObjects =
      d.groupObjects := by
  unfold Device.applyExtPropertyWrite
  split
  · rfl
  · split
    · rfl
    · split
      · rfl
      · split
        · rfl
        · rfl
        · exact setObject_groupObjects d _ _

theorem applyMasterReset_groupObjects (d : Device) (eraseCode : UInt8) :
    (d.applyMasterReset eraseCode).groupObjects = d.groupObjects := by
  unfold Device.applyMasterReset
  dsimp only
  split_ifs
  · rfl
  · rfl

theorem effect_groupObjects (d : Device) (dst : UInt16) {indication : AppIndication}
    (hw : ∀ asap data, indication ≠ .groupValueWrite asap data)
    (hr : ∀ asap data, indication ≠ .groupValueResponse asap data) :
    (effect d dst indication).groupObjects = d.groupObjects := by
  cases indication with
  | groupValueWrite asap data => exact absurd rfl (hw asap data)
  | groupValueResponse asap data => exact absurd rfl (hr asap data)
  | individualAddressWrite address =>
    dsimp only [effect]
    split_ifs <;> rfl
  | restartMasterReset eraseCode channel =>
    dsimp only [effect]
    split_ifs
    · exact applyMasterReset_groupObjects d eraseCode
    · rfl
  | propertyValueWrite =>
    dsimp only [effect]
    split
    · exact writePropertyValue_groupObjects d _ _ _ _ _
    · rfl
  | propertyValueExtWriteCon => exact applyExtPropertyWrite_groupObjects d _ _
  | propertyValueExtWriteUnCon => exact applyExtPropertyWrite_groupObjects d _ _
  | individualAddressSerialNumberWrite serial address =>
    dsimp only [effect]
    split_ifs <;> rfl
  | _ => rfl

def receives (d : Device) (dst : UInt16) (checkFlag : GroupObjectDescriptor → Bool)
    (asap : UInt16) : Bool :=
  match d.addressTable.getTsap dst with
  | some tsap => asap ∈ d.associationTable.asapsForTsap tsap ∧ d.accepts asap checkFlag
  | none => false

theorem updateGroupObjectFromBus_get (d : Device) (dst : UInt16) (data : List UInt8)
    (checkFlag : GroupObjectDescriptor → Bool) (asap : UInt16) :
    (d.updateGroupObjectFromBus dst data checkFlag).groupObjects.get asap =
      if receives d dst checkFlag asap then (d.groupObjects.get asap).map (·.valueFromBus data)
      else d.groupObjects.get asap := by
  unfold Device.updateGroupObjectFromBus receives
  cases d.addressTable.getTsap dst with
  | none => rfl
  | some tsap =>
    simp only [decide_eq_true_eq]
    exact GroupObjectStore.foldl_modify_get (fun go => go.valueFromBus_twice data)
      (fun go => go.valueFromBus_asap data) (fun asap => d.accepts asap checkFlag) _ _ asap

theorem changesObjects_iff {d : Device} {ga : UInt16} {data : List UInt8}
    {checkFlag : GroupObjectDescriptor → Bool} : changesObjects d ga data checkFlag = true ↔
      ∃ asap go, receives d ga checkFlag asap = true ∧ d.groupObjects.get asap = some go ∧
        go.valueFromBus data ≠ go := by
  unfold changesObjects receives
  cases d.addressTable.getTsap ga with
  | none => simp
  | some tsap =>
    simp only [List.any_eq_true, Bool.and_eq_true, Option.any_eq_true, decide_eq_true_eq]
    constructor
    · rintro ⟨asap, hasap, haccept, go, hgo, hne⟩
      exact ⟨asap, go, ⟨hasap, haccept⟩, hgo, hne⟩
    · rintro ⟨asap, go, ⟨hasap, haccept⟩, hgo, hne⟩
      exact ⟨asap, hasap, haccept, go, hgo, hne⟩

theorem updateGroupObjectFromBus_changes (d : Device) (ga : UInt16) (data : List UInt8)
    (checkFlag : GroupObjectDescriptor → Bool) :
    (d.updateGroupObjectFromBus ga data checkFlag).groupObjects ≠ d.groupObjects ↔
      changesObjects d ga data checkFlag = true := by
  rw [changesObjects_iff]
  constructor
  · intro hne
    by_contra hnone
    refine hne (GroupObjectStore.ext_get fun asap => ?_)
    rw [updateGroupObjectFromBus_get]
    split_ifs with hrecv
    · cases hgo : d.groupObjects.get asap with
      | none => rfl
      | some go =>
        rw [Option.map_some, Option.some.injEq]
        by_contra hgo'
        exact hnone ⟨asap, go, hrecv, hgo, hgo'⟩
    · rfl
  · rintro ⟨asap, go, hrecv, hgo, hne⟩ he
    have hget := updateGroupObjectFromBus_get d ga data checkFlag asap
    rw [he, if_pos hrecv, hgo] at hget
    exact hne (Option.some.inj hget).symm

theorem changesObjects_contains {d : Device} {ga : UInt16} {data : List UInt8}
    {checkFlag : GroupObjectDescriptor → Bool}
    (h : changesObjects d ga data checkFlag = true) : d.addressTable.contains ga = true := by
  unfold changesObjects at h
  unfold AddressTable.contains
  cases ht : d.addressTable.getTsap ga with
  | none =>
    rw [ht] at h
    cases h
  | some tsap => rfl

/-! ## Requests by the way they came -/

variable {b b' : Bau} {frame : CemiFrame}

theorem connectedService_numbered {indication : AppIndication}
    (h : connectedService b frame = some indication) :
    ∃ seqNo apdu, frame.tpdu = some (.data .dataConnected seqNo apdu) := by
  unfold connectedService at h
  split at h
  · next tpduType seqNo apdu htpdu =>
    split_ifs at h with hseq
    exact ⟨seqNo, apdu, hseq.1 ▸ htpdu⟩
  · cases h

theorem numbered_individual {seqNo : UInt8} {apdu : ApduCodec.Apdu}
    (h : frame.tpdu = some (.data .dataConnected seqNo apdu)) :
    frame.addressType = .individual :=
  (Tpdu.parse_data h).1 rfl

theorem plainService_scope {indication : AppIndication}
    (h : plainService b frame = some indication) :
    b.indicationInScope frame indication = true := by
  unfold plainService at h
  split at h
  · split_ifs at h
    exact (Option.filter_eq_some_iff.mp h).2
  · cases h

/-- A request comes over the connection, or without one and in its scope. -/
theorem served_cases {dst : UInt16} {indication : AppIndication}
    (h : served b frame = some (dst, indication)) :
    (connectedService b frame = some indication ∧ dst = b.individualAddress.raw) ∨
      (connectedService b frame = none ∧ b.indicationInScope frame indication = true ∧
        dst = frame.destinationAddressRaw) := by
  unfold served at h
  split_ifs at h
  split at h
  · next hc =>
    cases h
    exact .inl ⟨hc, rfl⟩
  · next hc =>
    obtain ⟨i, hi, he⟩ := Option.map_eq_some_iff.mp h
    cases he
    exact .inr ⟨hc, plainService_scope hi, rfl⟩

theorem served_connectedService (hcon : isConfirmation frame = false) {indication : AppIndication}
    (h : connectedService b frame = some indication) :
    served b frame = some (b.individualAddress.raw, indication) := by
  unfold served
  rw [hcon, if_neg Bool.false_ne_true, h]

/-! ## The scope of every frame -/

theorem processFrame_device (ready : Ready b) {nowMs : UInt64} (hcon : isConfirmation frame = false)
    (h : b.processFrame frame nowMs = .ok b') :
    b'.toDevice = effectOf b.toDevice (served b frame) := by
  have hdevice : b'.toDevice = deviceAfter b frame :=
    handle_device ready (show b.handle (.frame frame nowMs) = .ok b' from h)
  rw [hdevice, deviceAfter, hcon, if_neg Bool.false_ne_true]

theorem effectOf_changes {d : Device} {request : Option (UInt16 × AppIndication)}
    (h : (effectOf d request).groupObjects ≠ d.groupObjects) :
    ∃ dst asap data, (request = some (dst, .groupValueWrite asap data) ∧
        changesObjects d dst data GroupObjectDescriptor.writeEnable = true) ∨
      (request = some (dst, .groupValueResponse asap data) ∧
        changesObjects d dst data GroupObjectDescriptor.updateEnable = true) := by
  cases request with
  | none => exact absurd rfl h
  | some request =>
    obtain ⟨dst, indication⟩ := request
    cases indication with
    | groupValueWrite asap data =>
      exact ⟨dst, asap, data, .inl ⟨rfl, (updateGroupObjectFromBus_changes d dst data _).mp h⟩⟩
    | groupValueResponse asap data =>
      exact ⟨dst, asap, data, .inr ⟨rfl, (updateGroupObjectFromBus_changes d dst data _).mp h⟩⟩
    | _ => exact absurd (effect_groupObjects d dst (by simp) (by simp)) h

theorem groupScope {indication : AppIndication}
    (hscope : Bau.requiredScope indication = .group)
    (h : b.indicationInScope frame indication = true) : frame.addressType = .group := by
  unfold Bau.indicationInScope at h
  rw [hscope] at h
  exact of_decide_eq_true (Bool.and_eq_true_iff.mp h).1

theorem broadcastScope {indication : AppIndication}
    (hscope : Bau.requiredScope indication = .broadcast)
    (h : b.indicationInScope frame indication = true) :
    frame.addressType = .group ∧ frame.destinationAddressRaw = 0 := by
  unfold Bau.indicationInScope at h
  rw [hscope] at h
  obtain ⟨hgroup, hdst⟩ := Bool.and_eq_true_iff.mp h
  exact ⟨of_decide_eq_true hgroup, of_decide_eq_true hdst⟩

theorem scoped_stays (ready : Ready b) {nowMs : UInt64} (hcon : isConfirmation frame = false)
    (h : b.processFrame frame nowMs = .ok b') (hscoped : Scoped b frame b') :
    escapesScope b frame = false := by
  have hdevice := processFrame_device ready hcon h
  cases hc : connectedService b frame with
  | none =>
    unfold escapesScope
    rw [hc]
  | some indication =>
    obtain ⟨seqNo, apdu, htpdu⟩ := connectedService_numbered hc
    obtain ⟨hobjects, haddress⟩ := hscoped.numbered seqNo apdu htpdu
    have hserved := served_connectedService hcon hc
    rw [hserved] at hdevice
    rw [Bool.eq_false_iff]
    intro hescape
    unfold escapesScope at hescape
    rw [hc] at hescape
    have objects {data : List UInt8} {flag : GroupObjectDescriptor → Bool}
        (he : b'.toDevice = b.toDevice.updateGroupObjectFromBus b.individualAddress.raw data
          flag) : changesObjects b.toDevice b.individualAddress.raw data flag ≠ true := by
      intro hchange
      refine (updateGroupObjectFromBus_changes _ _ _ _).mpr hchange ?_
      rw [← he]
      exact hobjects
    cases indication with
    | groupValueWrite asap data => exact objects hdevice hescape
    | groupValueResponse asap data => exact objects hdevice hescape
    | individualAddressWrite address =>
      obtain ⟨hprog, hne⟩ := of_decide_eq_true hescape
      have hset : b'.toDevice = b.toDevice.setIndividualAddress address := by
        rw [hdevice]
        exact if_pos hprog
      refine hne ?_
      rw [← hset]
      exact haddress _ _ hserved
    | _ => cases hescape

theorem changed_inScope (hescape : escapesScope b frame = false)
    (hne : (effectOf b.toDevice (served b frame)).groupObjects ≠ b.groupObjects) :
    frame.addressType = .group ∧ b.addressTable.contains frame.destinationAddressRaw = true := by
  obtain ⟨dst, asap, data, hchange⟩ := effectOf_changes hne
  unfold escapesScope at hescape
  rcases hchange with ⟨hserved, hchange⟩ | ⟨hserved, hchange⟩
  · rcases served_cases hserved with ⟨hc, rfl⟩ | ⟨_, hscope, rfl⟩
    · rw [hc] at hescape
      exact absurd hchange (Bool.eq_false_iff.mp hescape)
    · exact ⟨groupScope rfl hscope, changesObjects_contains hchange⟩
  · rcases served_cases hserved with ⟨hc, rfl⟩ | ⟨_, hscope, rfl⟩
    · rw [hc] at hescape
      exact absurd hchange (Bool.eq_false_iff.mp hescape)
    · exact ⟨groupScope rfl hscope, changesObjects_contains hchange⟩

theorem addressed_inScope (hescape : escapesScope b frame = false) {dst address : UInt16}
    (hserved : served b frame = some (dst, .individualAddressWrite address))
    (hne : (effectOf b.toDevice (served b frame)).individualAddress ≠ b.individualAddress) :
    frame.addressType = .group ∧ frame.destinationAddressRaw = 0 := by
  rcases served_cases hserved with ⟨hc, rfl⟩ | ⟨_, hscope, rfl⟩
  · unfold escapesScope at hescape
    rw [hc] at hescape
    refine absurd ?_ (of_decide_eq_false hescape)
    rw [hserved] at hne
    dsimp only [effectOf, effect] at hne
    split_ifs at hne with hprog
    · exact ⟨hprog, hne⟩
    · exact absurd rfl hne
  · exact broadcastScope rfl hscope

/-- A frame keeps to its scope exactly when no connection makes it escape. -/
theorem scoped_iff (ready : Ready b) {nowMs : UInt64} (hcon : isConfirmation frame = false)
    (h : b.processFrame frame nowMs = .ok b') :
    Scoped b frame b' ↔ escapesScope b frame = false := by
  refine ⟨scoped_stays ready hcon h, fun hescape => ?_⟩
  have hdevice := processFrame_device ready hcon h
  have objects (hne : b'.groupObjects ≠ b.groupObjects) : frame.addressType = .group ∧
      b.addressTable.contains frame.destinationAddressRaw = true := by
    refine changed_inScope hescape ?_
    rw [← hdevice]
    exact hne
  have address (dst address : UInt16)
      (hserved : served b frame = some (dst, .individualAddressWrite address))
      (hne : b'.individualAddress ≠ b.individualAddress) :
      frame.addressType = .group ∧ frame.destinationAddressRaw = 0 := by
    refine addressed_inScope hescape hserved ?_
    rw [← hdevice]
    exact hne
  refine ⟨objects, address, fun seqNo apdu htpdu => ?_⟩
  have hind := numbered_individual htpdu
  have notGroup {p : Prop} (h : frame.addressType = .group ∧ p) : False := by
    rw [hind] at h
    cases h.1
  exact ⟨by_contra fun hne => notGroup (objects hne),
    fun dst a hserved => by_contra fun hne => notGroup (address dst a hserved hne)⟩

/-- In every run, a received frame keeps to its scope exactly when it does not escape it. -/
theorem scope_respected {device : InterfaceObject} {count : UInt16} {size : Nat}
    {tr : List (Transition Bau Input)} {b : Bau} (h : Run Operates (.new device count size) tr b) :
    ∀ x ∈ tr, ∀ frame nowMs, x.event = .event (.frame frame nowMs) →
      isConfirmation frame = false →
      (Scoped x.source frame x.target ↔ escapesScope x.source frame = false) := by
  refine h.always (I := Ready) (fun _ => True) (ofDevice_ready _) (fun _ _ => trivial)
    (fun _ hx _ hstep => operates_ready hx hstep) ?_
  intro x hx _ hstep frame nowMs he hcon
  rw [he] at hstep
  exact scoped_iff hx hcon hstep

/-! ## An individual address written over a connection -/

theorem broadcast_address_scoped : ∃ a b,
    Run Operates standardBau [⟨standardBau, .event (.frame progModeOn 0), a⟩,
      ⟨a, .event (.frame broadcastAddressWrite 1), b⟩] b ∧
    b.individualAddress.raw = 0x1234 ∧ Scoped a broadcastAddressWrite b := by
  obtain ⟨a, ha⟩ := eq_ok (r := standardBau.handle (.frame progModeOn 0)) (by decide +kernel)
  have hstate : (standardBau.handle (.frame progModeOn 0)).toOption.map (fun a =>
      (escapesScope a broadcastAddressWrite, failure (a.handle (.frame broadcastAddressWrite 1)),
        (a.handle (.frame broadcastAddressWrite 1)).toOption.map
          (fun b => b.individualAddress.raw))) = some (false, none, some 0x1234) := by
    decide +kernel
  rw [ha] at hstate
  simp only [Except.toOption, Option.map_some, Option.some.injEq, Prod.mk.injEq] at hstate
  obtain ⟨hescape, hfail, haddress⟩ := hstate
  obtain ⟨b, hb⟩ := eq_ok hfail
  rw [hb] at haddress
  have run : Run Operates standardBau [⟨standardBau, .event (.frame progModeOn 0), a⟩,
      ⟨a, .event (.frame broadcastAddressWrite 1), b⟩] b :=
    .next (e := Input.event _) ha (.next (e := Input.event _) hb (.refl b))
  exact ⟨a, b, run, Option.some.inj haddress, (scope_respected run _
    (List.mem_cons_of_mem _ (List.mem_cons_self ..)) _ _ rfl (by decide +kernel)).mpr hescape⟩

theorem connected_address_escapes : ∃ tr b c, Handles standardBau tr b ∧
    b.processFrame connectedAddressWrite 2 = .ok c ∧ b.individualAddress.raw = 0xFFFF ∧
    c.individualAddress.raw = 0x1234 ∧ ¬ Scoped b connectedAddressWrite c := by
  have hstate : ([Event.frame progModeOn 0, .frame connectToDevice 1].foldlM
      (Bau.handleIf fun _ _ => true) standardBau).map (fun b =>
        (b.individualAddress.raw, served b connectedAddressWrite,
          failure (b.processFrame connectedAddressWrite 2),
          (b.processFrame connectedAddressWrite 2).toOption.map
            (fun c => c.individualAddress.raw))) =
      some (0xFFFF, some (0xFFFF, .individualAddressWrite 0x1234), none, some 0x1234) := by
    decide +kernel
  obtain ⟨b, hb, hstate⟩ := Option.map_eq_some_iff.mp hstate
  simp only [Prod.mk.injEq] at hstate
  obtain ⟨hold, hserved, hfail, hnew⟩ := hstate
  obtain ⟨c, hc⟩ := eq_ok hfail
  obtain ⟨tr, run, _⟩ := handles_of_checked hb
  rw [hc] at hnew
  have hnew : c.individualAddress.raw = 0x1234 := Option.some.inj hnew
  refine ⟨tr, b, c, run, hc, hold, hnew, fun hscoped => ?_⟩
  have htpdu : connectedAddressWrite.tpdu =
      some (.data .dataConnected 0 ⟨.individualAddressWrite, [0x12, 0x34]⟩) := by decide +kernel
  have hsame := (hscoped.numbered _ _ htpdu).2 _ _ hserved
  rw [hsame, hold] at hnew
  cases hnew

end KnxRs.BusAccessUnit
