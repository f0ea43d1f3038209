import KnxRs.BauSteps

set_option autoImplicit false

/-!
# What telegrams do to the store

Every frame and every poll is one event of the store, so that runs of the unit are
runs of the store: memory, segments and load states can be followed there.
-/
namespace KnxRs.BusAccessUnit
open CoreTypes Properties InterfaceObjects GroupTables CemiCodec AppParse MemoryStore DeviceState
open Runs

/-- The event a served indication is for the store. -/
def storeEvent : AppIndication → StoreEvent
  | .memoryWrite _ address data => .written address.toNat data
  | .memoryExtWrite _ address data => .written address.toNat data
  | .propertyValueWrite objectIndex propertyId _ _ data =>
    if PropertyId.tryFrom propertyId = some .loadStateControl then
      .loadControl objectIndex data
    else .idle
  | .restartMasterReset eraseCode _ =>
    if Bau.masterResetErrorCode eraseCode = restartErrorCodeOk then .masterReset eraseCode
    else .idle
  | _ => .idle

/-- The event a frame or a poll is for the store. -/
def Event.storeEvent (b : Bau) (event : Event) : StoreEvent :=
  match event.served b with
  | some (_, indication) => BusAccessUnit.storeEvent indication
  | none => .idle

/-! ## One request -/

theorem setObject_toStore (d : Device) (index : UInt8) (o : InterfaceObject) :
    (d.setObject index o).toStore = d.toStore := by
  unfold Device.setObject
  split <;> rfl

theorem applyExtPropertyWrite_toStore (d : Device) (params : ExtPropertyParams)
    (data : List UInt8) : (d.applyExtPropertyWrite params data).1.toStore = d.toStore := by
  unfold Device.applyExtPropertyWrite
  repeat' split
  all_goals first | rfl | exact setObject_toStore d _ _

theorem applyMasterReset_toStore (d : Device) (eraseCode : UInt8) :
    (d.applyMasterReset eraseCode).toStore = d.toStore.masterReset eraseCode := by
  unfold Device.applyMasterReset
  dsimp only
  split_ifs <;> rfl

theorem updateGroupObjectFromBus_toStore (d : Device) (ga : UInt16) (data : List UInt8)
    (checkFlag : GroupObjectDescriptor → Bool) :
    (d.updateGroupObjectFromBus ga data checkFlag).toStore = d.toStore := by
  unfold Device.updateGroupObjectFromBus
  split <;> rfl

theorem effect_toStore (d : Device) (dst : UInt16) (indication : AppIndication) :
    (effect d dst indication).toStore = d.toStore.apply (storeEvent indication) := by
  cases indication with
  | groupValueWrite asap data => exact updateGroupObjectFromBus_toStore d dst data _
  | groupValueResponse asap data => exact updateGroupObjectFromBus_toStore d dst data _
  | individualAddressWrite address =>
    dsimp only [effect]
    split_ifs <;> rfl
  | individualAddressSerialNumberWrite serial address =>
    dsimp only [effect]
    split_ifs <;> rfl
  | restartMasterReset eraseCode channel =>
    dsimp only [effect, storeEvent]
    split_ifs
    · exact applyMasterReset_toStore d eraseCode
    · rfl
  | propertyValueWrite objectIndex propertyId count startIndex data =>
    dsimp only [effect, storeEvent]
    cases PropertyId.tryFrom propertyId with
    | none => rfl
    | some pid =>
      dsimp only
      unfold Device.writePropertyValue
      by_cases hpid : pid = .loadStateControl
      · rw [if_pos hpid, if_pos (congrArg some hpid)]
        rfl
      · rw [if_neg hpid, if_neg (fun h => hpid (Option.some.inj h))]
        split
        · exact setObject_toStore d _ _
        · rfl
  | propertyValueExtWriteCon => exact applyExtPropertyWrite_toStore d _ _
  | propertyValueExtWriteUnCon => exact applyExtPropertyWrite_toStore d _ _
  | _ => rfl

theorem confirmTransmission_toStore (d : Device) (ga : UInt16) (success : Bool) :
    (d.confirmTransmission ga success).toStore = d.toStore := by
  unfold Device.confirmTransmission
  split <;> rfl

/-! ## Every call -/

variable {b b' : Bau}

theorem handle_toStore (ready : Ready b) {event : Event} (h : b.handle event = .ok b') :
    b'.toStore = b.toStore.apply (event.storeEvent b) := by
  have hdevice := handle_device ready h
  cases event with
  | frame frame nowMs =>
    dsimp only at hdevice
    rw [show b'.toStore = b'.toDevice.toStore from rfl, hdevice]
    unfold deviceAfter Event.storeEvent
    dsimp only [Event.served]
    by_cases hcon : isConfirmation frame = true
    · have hserved : served b frame = none := by
        unfold served
        rw [if_pos hcon]
      rw [if_pos hcon, hserved]
      unfold Bau.handleTransmitConfirmation
      split_ifs
      · rfl
      · exact confirmTransmission_toStore _ _ _
    · rw [if_neg hcon]
      cases served b frame with
      | none => rfl
      | some request => exact effect_toStore b.toDevice request.1 request.2
  | poll nowMs =>
    obtain ⟨objects, hobjects, _⟩ := hdevice
    rw [show b'.toStore = b'.toDevice.toStore from rfl, hobjects]
    rfl

/-! ## Runs -/

abbrev StoreRun (s : Store) (tr : List (Transition Store StoreEvent)) (t : Store) : Prop :=
  Run (fun a e b => a.apply e = b) s tr t

def storeTransition (x : Transition Bau Event) : Transition Store StoreEvent :=
  ⟨x.source.toStore, x.event.storeEvent x.source, x.target.toStore⟩

/-- A run of the unit is, for its store, a run of the store. -/
theorem handles_storeRun {tr : List (Transition Bau Event)} (ready : Ready b)
    (h : Handles b tr b') : StoreRun b.toStore (tr.map storeTransition) b'.toStore :=
  h.map (fun b => b.toStore) (fun b event => event.storeEvent b) ready
    (fun _ _ _ hready hstep => ⟨handle_ready hready hstep, (handle_toStore hready hstep).symm⟩)

end KnxRs.BusAccessUnit
