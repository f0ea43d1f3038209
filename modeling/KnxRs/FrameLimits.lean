import KnxRs.BauSteps

set_option autoImplicit false

/-!
# No response outgrows a frame

A device with the standard objects answers within 256 octets, whatever it is sent,
but for two requests: their responses make `new_l_data` panic.
-/
namespace KnxRs.BusAccessUnit
open CoreTypes Properties GroupObjects InterfaceObjects ApduCodec TpduCodec CemiCodec AppParse
open AppEncode
open GroupTables Transport MemoryStore DeviceState Fallible Runs

/-! ## The standard objects -/

theorem addData_fullWithin {n : Nat} {o : InterfaceObject} (h : o.FullWithin n)
    {p : DataProperty} (full : p.Full) (le : p.data.length ≤ n) : (o.addData p).FullWithin n := by
  intro q hq
  rcases List.mem_append.mp hq with hq | hq
  · exact h q hq
  · cases List.mem_singleton.mp hq
    exact ⟨p, rfl, full, le⟩

theorem unsignedInt_size : 0 < PropertyDataType.unsignedInt.size.toNat := by decide

theorem generic06_size : 0 < PropertyDataType.generic06.size.toNat := by decide

theorem newObject_fullWithin (t : ObjectType) : (InterfaceObject.new t).FullWithin 10 :=
  addData_fullWithin (by simp [InterfaceObject.FullWithin]) ⟨unsignedInt_size, rfl⟩
    (Nat.le_trans (Nat.le_of_eq (m := 2) rfl) (by decide))

theorem addTableProperties_fullWithin {o : InterfaceObject} (h : o.FullWithin 10) :
    (addTableProperties o).FullWithin 10 := by
  unfold addTableProperties
  refine addData_fullWithin (addData_fullWithin (addData_fullWithin (addData_fullWithin h
    ?_ ?_) ?_ ?_) ?_ ?_) ?_ ?_
  all_goals first | exact ⟨by decide, rfl⟩ | decide

theorem newApplicationProgramObject_fullWithin : newApplicationProgramObject.FullWithin 10 := by
  refine addTableProperties_fullWithin (addData_fullWithin (addData_fullWithin
    (newObject_fullWithin _) ?_ ?_) ?_ ?_)
  all_goals first | exact ⟨by decide, rfl⟩ | decide

theorem newDeviceObject_fullWithin (serialNumber hardwareType : Bytes6) :
    (newDeviceObject serialNumber hardwareType).FullWithin 10 := by
  have identity : (addIdentityProperties (.new .device) serialNumber).FullWithin 10 := by
    unfold addIdentityProperties
    refine addData_fullWithin (addData_fullWithin (addData_fullWithin (addData_fullWithin
      (addData_fullWithin (addData_fullWithin (newObject_fullWithin _) ⟨generic06_size,
      serialNumber.length_eq⟩ (Nat.le_trans (Nat.le_of_eq serialNumber.length_eq) (by decide)))
      ⟨unsignedInt_size, ?_⟩ ?_) ?_ ?_) ?_ ?_) ?_ ?_) ?_ ?_
    · simp [DataProperty.readOnly, PropertyDataType.size, serialNumber.length_eq]
    · simp [DataProperty.readOnly, serialNumber.length_eq]
    all_goals first | exact ⟨by decide, rfl⟩ | decide
  unfold newDeviceObject addConfigProperties
  refine addData_fullWithin (addData_fullWithin (addData_fullWithin (addData_fullWithin
    (addData_fullWithin (addData_fullWithin (addData_fullWithin identity ?_ ?_) ?_ ?_) ?_ ?_)
    ?_ ?_) ?_ ?_) ⟨generic06_size, hardwareType.length_eq⟩
    (Nat.le_trans (Nat.le_of_eq hardwareType.length_eq) (by decide))) ?_ ?_
  all_goals first | exact ⟨by decide, rfl⟩ | decide

theorem new_modest (serialNumber hardwareType : Bytes6) (count : UInt16) {size : Nat}
    (h : size ≤ 254) : Modest (.new (newDeviceObject serialNumber hardwareType) count size) := by
  refine ⟨fun o ho => ?_, fun go hgo => ?_⟩
  · rcases List.mem_cons.mp ho with rfl | ho
    · refine addData_fullWithin (newDeviceObject_fullWithin _ _) ⟨unsignedInt_size, ?_⟩ ?_
      · rfl
      · exact Nat.le_refl 10
    · simp only [Device.new, Device.installIoList, List.mem_cons, List.not_mem_nil,
        or_false] at ho
      rcases ho with rfl | rfl | rfl | rfl
      · exact newObject_fullWithin _
      · exact newObject_fullWithin _
      · exact addTableProperties_fullWithin (newObject_fullWithin _)
      · exact newApplicationProgramObject_fullWithin
  · obtain ⟨i, _, rfl⟩ := List.mem_map.mp hgo
    simpa [GroupObject.new] using h

/-! ## What a served request keeps -/

theorem Modest.withStore {d : Device} (h : Modest d) (s : Store) :
    Modest { d with toStore := s } := ⟨h.objects, h.groupObjects⟩

theorem Modest.withDevice {d : Device} (h : Modest d) {o : InterfaceObject}
    (ho : o.FullWithin 10) : Modest { d with device := o } := h.setObject 0 ho

theorem Modest.setIndividualAddress {d : Device} (h : Modest d) (addr : UInt16) :
    Modest (d.setIndividualAddress addr) :=
  h.withDevice (((h.objects d.device (List.mem_cons_self ..)).writeProperty _ _ _ _).writeProperty
    _ _ _ _)

theorem Modest.modify {d : Device} (h : Modest d) {f : GroupObject → GroupObject}
    (hf : ∀ go, (f go).data.length = go.data.length) (asap : UInt16)
    (keeps : ∀ go, (f go).asap = go.asap) :
    Modest { d with groupObjects := d.groupObjects.modify asap f keeps } :=
  ⟨h.objects, GroupObjectStore.modify_forall h.groupObjects
    (fun go hgo => (hf go).symm ▸ hgo) asap keeps⟩

theorem Modest.updateGroupObjectFromBus {d : Device} (h : Modest d) (gaRaw : UInt16)
    (data : List UInt8) (checkFlag : GroupObjectDescriptor → Bool) :
    Modest (d.updateGroupObjectFromBus gaRaw data checkFlag) := by
  unfold Device.updateGroupObjectFromBus
  split
  · exact h
  · next tsap _ =>
    refine ⟨h.objects, ?_⟩
    have hall := h.groupObjects
    dsimp only
    generalize d.groupObjects = objects at hall
    induction d.associationTable.asapsForTsap tsap generalizing objects with
    | nil => exact hall
    | cons asap asaps ih =>
      rw [List.foldl_cons]
      split_ifs
      · refine ih _ (GroupObjectStore.modify_forall hall (fun go hgo => ?_) asap _)
        exact (go.valueFromBus_length data).symm ▸ hgo
      · exact ih _ hall

theorem Modest.applyMasterReset {d : Device} (h : Modest d) (eraseCode : UInt8) :
    Modest (d.applyMasterReset eraseCode) := by
  unfold Device.applyMasterReset
  dsimp only
  split_ifs
  · exact (h.withStore _).setIndividualAddress _
  · exact h.withStore _

theorem Modest.applyExtPropertyWrite {d : Device} (h : Modest d) (params : ExtPropertyParams)
    (data : List UInt8) : Modest (d.applyExtPropertyWrite params data).1 := by
  unfold Device.applyExtPropertyWrite
  split
  · exact h
  · split
    · exact h
    · split
      · exact h
      · next o ho =>
        split
        · exact h
        · exact h
        · exact h.setObject _ ((h.object ho).writeProperty _ _ _ _)

theorem Modest.effect {d : Device} (h : Modest d) (dst : UInt16) (indication : AppIndication) :
    Modest (effect d dst indication) := by
  cases indication with
  | groupValueWrite _ data => exact h.updateGroupObjectFromBus dst data _
  | groupValueResponse _ data => exact h.updateGroupObjectFromBus dst data _
  | individualAddressWrite address =>
    dsimp only [BusAccessUnit.effect]
    split_ifs
    · exact h.setIndividualAddress address
    · exact h
  | restart => exact ⟨h.objects, h.groupObjects⟩
  | restartMasterReset eraseCode _ =>
    dsimp only [BusAccessUnit.effect]
    split_ifs
    · exact ⟨(h.applyMasterReset eraseCode).objects, (h.applyMasterReset eraseCode).groupObjects⟩
    · exact h
  | propertyValueWrite objectIndex propertyId count startIndex data =>
    dsimp only [BusAccessUnit.effect]
    split
    · exact h.writePropertyValue _ _ _ _ _
    · exact h
  | memoryWrite _ address data => exact h.withStore _
  | memoryExtWrite _ address data => exact h.withStore _
  | propertyValueExtWriteCon => exact h.applyExtPropertyWrite _ _
  | propertyValueExtWriteUnCon => exact h.applyExtPropertyWrite _ _
  | individualAddressSerialNumberWrite serial address =>
    dsimp only [BusAccessUnit.effect]
    split_ifs
    · exact h.setIndividualAddress address
    · exact h
  | _ => exact h

theorem Modest.effectOf {d : Device} (h : Modest d)
    (request : Option (UInt16 × AppIndication)) : Modest (effectOf d request) := by
  cases request with
  | none => exact h
  | some request => exact h.effect request.1 request.2

theorem Modest.deviceAfter {b : Bau} (h : Modest b.toDevice) (frame : CemiFrame) :
    Modest (deviceAfter b frame) := by
  unfold BusAccessUnit.deviceAfter
  split_ifs
  · unfold Bau.handleTransmitConfirmation
    split_ifs
    · exact h
    · unfold Device.confirmTransmission
      dsimp only
      split
      · exact h.modify (f := fun go => go.transmitDone _) (fun _ => rfl) _ _
      · exact h
  · exact h.effectOf _

theorem Modest.sameButFlags {d e : Device} (h : Modest d) (same : SameButFlags d e) :
    Modest e := by
  obtain ⟨objects, rfl, hdata⟩ := same
  refine ⟨h.objects, fun go hgo => ?_⟩
  have hmem : go.data ∈ d.groupObjects.objects.map GroupObject.data :=
    hdata ▸ List.mem_map_of_mem hgo
  obtain ⟨go', hgo', hsame⟩ := List.mem_map.mp hmem
  exact hsame ▸ h.groupObjects go' hgo'

/-! ## Runs -/

/-- Everything queued and everything that may be answered fits a frame. -/
structure WithinLimits (b : Bau) : Prop where
  ready : Ready b
  modest : Modest b.toDevice
  carries : Carries (fun apdu : List UInt8 => apdu.length ≤ 256) b.transport

def Event.oversized (b : Bau) (event : Event) : Bool :=
  (event.served b).any (fun request => BusAccessUnit.oversized b.toDevice request.2)

theorem new_withinLimits (serialNumber hardwareType : Bytes6) (count : UInt16) {size : Nat}
    (h : size ≤ 254) : WithinLimits (.new (newDeviceObject serialNumber hardwareType) count size) :=
  ⟨ofDevice_ready _, new_modest _ _ _ h, new_carries _⟩

/-- A unit within its limits returns from every call but an oversized request, within them. -/
theorem WithinLimits.handle {b : Bau} (h : WithinLimits b) {event : Event}
    (small : event.oversized b = false) : ∃ b', b.handle event = .ok b' ∧ WithinLimits b' := by
  have carries : Carries (Short True) b.transport := h.carries.mono fun _ hlen _ => hlen
  have kept {e : Device} {b' : Bau} (hc : Completed True b e b') (he : Modest e) :
      WithinLimits b' :=
    ⟨hc.ready h.ready, hc.device.symm ▸ he,
      (hc.transport.carries carries).mono fun _ hs => hs trivial⟩
  cases event with
  | frame frame nowMs =>
    have fits : ∀ dst indication, served b frame = some (dst, indication) →
        BusAccessUnit.oversized b.toDevice indication = false := by
      intro dst indication hs
      have hany : (served b frame).any
          (fun request => BusAccessUnit.oversized b.toDevice request.2) = false := small
      rw [hs] at hany
      exact hany
    obtain ⟨b', hb', hc⟩ := (processFrame_completed h.ready carries (fun _ => h.modest) frame
      nowMs (fun _ => fits)).exists_ok trivial
    exact ⟨b', hb', kept hc (h.modest.deviceAfter frame)⟩
  | poll nowMs =>
    obtain ⟨b', hb', same, hc⟩ := (poll_completed h.ready carries (fun _ => h.modest)
      nowMs).exists_ok trivial
    exact ⟨b', hb', kept hc (h.modest.sameButFlags same)⟩

theorem dispatchIndication_panics {b : Bau} (answering : b.answeringConnection = none)
    {indication : AppIndication} (large : oversized b.toDevice indication = true)
    (frame : CemiFrame) (source : IndividualAddress) :
    ∃ len, 256 < len ∧
      b.dispatchIndication frame source indication = .error (.cemiPayloadTooLong len) := by
  cases indication with
  | memoryExtRead count address =>
    obtain ⟨hcount, hread⟩ := of_decide_eq_true large
    have hslice : b.memSlice address.toNat count.toNat =
        some (Octets.slice b.memoryArea address.toNat count.toNat) := if_pos hread
    have hlen := Octets.slice_length hread
    change ∃ len, 256 < len ∧ b.handleMemoryExtRead source count address = _
    unfold Bau.handleMemoryExtRead Bau.queueIndividualFrame
    rw [hslice, answering]
    dsimp only
    rw [if_neg (by simp)]
    refine pushFrame_panics b _ _ ?_
    rw [encodeMemoryExtReadResponse_length]
    omega
  | systemNetworkParameterRead objectType propertyId testInfo =>
    obtain ⟨hanswer, hinfo⟩ := of_decide_eq_true large
    change ∃ len, 256 < len ∧
      b.handleSystemNetworkParameterRead objectType propertyId testInfo = _
    unfold Bau.handleSystemNetworkParameterRead
    rw [if_pos hanswer]
    refine pushFrame_panics b _ _ ?_
    rw [encodeSystemNetworkParameterResponse_length, (serialNumber b.device).length_eq]
    omega
  | _ => cases large

/-- In a run without an oversized request no call panics, the next one included, and all that
    is queued or kept for sending fits a frame. -/
theorem responses_fit (serialNumber hardwareType : Bytes6) (count : UInt16) {size : Nat}
    (hsize : size ≤ 254) {tr : List (Transition Bau Event)} {b : Bau}
    (h : Handles (.new (newDeviceObject serialNumber hardwareType) count size) tr b)
    (small : ∀ x ∈ tr, x.event.oversized x.source = false) (event : Event)
    (hevent : event.oversized b = false) :
    ∃ b', b.handle event = .ok b' ∧ (∀ frame ∈ b'.outbox, frame.payload.length ≤ 256) ∧
      Carries (fun apdu : List UInt8 => apdu.length ≤ 256) b'.transport := by
  have limits : WithinLimits b :=
    Run.invariant h (fun x => x.event.oversized x.source = false)
      (new_withinLimits _ _ _ hsize) small fun x hx hsmall hstep => by
        obtain ⟨b', hb', hlimits⟩ := hx.handle hsmall
        obtain rfl : b' = x.target := Except.ok.inj (hb'.symm.trans hstep)
        exact hlimits
  obtain ⟨b', hb', hlimits⟩ := limits.handle hevent
  exact ⟨b', hb', fun frame _ => frame.payload_length_le, hlimits.carries⟩

/-! ## Two requests at the limit -/

theorem extended_read_answered : ∃ b b', b.memoryArea.length = 250 ∧
    Handles standardBau [⟨standardBau, extendedWrite 249, b⟩] b ∧
    b.handle (extendedRead 250) = .ok b' := by
  obtain ⟨b, hb⟩ := eq_ok (r := standardBau.handle (extendedWrite 249)) (by decide +kernel)
  have hmem : (standardBau.handle (extendedWrite 249)).toOption.map
      (fun b => (b.memoryArea.length, (extendedRead 250).oversized b)) = some (250, false) := by
    decide +kernel
  rw [hb] at hmem
  obtain ⟨hlen, hsmall⟩ := Prod.mk.inj (Option.some.inj hmem)
  have run : Handles standardBau [⟨standardBau, extendedWrite 249, b⟩] b := .next hb (.refl b)
  have write : (extendedWrite 249).oversized standardBau = false := by decide +kernel
  obtain ⟨b', hb', _⟩ := responses_fit _ _ _ (by decide) run
    (fun x hx => List.mem_singleton.mp hx ▸ write) (extendedRead 250) hsmall
  exact ⟨b, b', hlen, run, hb'⟩

/-- One octet more does not fit. -/
theorem extended_read_panics : ∃ b, Handles standardBau [⟨standardBau, extendedWrite 254, b⟩] b ∧
    b.handle (extendedRead 255) = .error (.cemiPayloadTooLong 261) := by
  obtain ⟨b, hb⟩ := eq_ok (r := standardBau.handle (extendedWrite 254)) (by decide +kernel)
  have hfail : (standardBau.handle (extendedWrite 254)).toOption.bind
      (fun b => failure (b.handle (extendedRead 255))) = some (.cemiPayloadTooLong 261) := by
    decide +kernel
  rw [hb] at hfail
  exact ⟨b, .next hb (.refl b), eq_error hfail⟩

end KnxRs.BusAccessUnit
