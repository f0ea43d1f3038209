import KnxRs.Persistence
import KnxRs.StoreRuns
import KnxRs.StoreSteps

set_option autoImplicit false

/-!
# States that come back

A state saved after any run, restored in a unit of the same construction: what comes
back, what is decoded anew from the memory image, and what is not saved.
-/
namespace KnxRs.BusAccessUnit
open Properties TableObjects GroupTables GroupObjects InterfaceObjects CemiCodec AppParse
open MemoryStore DeviceState Persistence Runs

/-! ## The program version of every state -/

/-- At most one of the objects after the device object has been written, through a property. -/
def OthersWritten (d e : Device) : Prop :=
  e.others = d.others ∨ ∃ (i : Nat) (o : InterfaceObject) (pid : PropertyId) (start : UInt16)
    (count : UInt8) (data : List UInt8), d.others[i]? = some o ∧
      e.others = d.others.set i (o.writeProperty pid start count data).2

theorem setObject_written {d : Device} {index : UInt8} {o : InterfaceObject}
    (ho : d.object index = some o) (pid : PropertyId) (start : UInt16) (count : UInt8)
    (data : List UInt8) :
    OthersWritten d (d.setObject index (o.writeProperty pid start count data).2) := by
  unfold Device.setObject
  unfold Device.object Device.objects at ho
  cases hi : index.toNat with
  | zero => exact .inl rfl
  | succ i =>
    rw [hi, List.getElem?_cons_succ] at ho
    exact .inr ⟨i, o, pid, start, count, data, ho, rfl⟩

theorem applyExtPropertyWrite_written (d : Device) (params : ExtPropertyParams)
    (data : List UInt8) : OthersWritten d (d.applyExtPropertyWrite params data).1 := by
  unfold Device.applyExtPropertyWrite
  split
  · exact .inl rfl
  · split
    · exact .inl rfl
    · split
      · exact .inl rfl
      · next o ho =>
        split
        · exact .inl rfl
        · exact .inl rfl
        · exact setObject_written ho _ _ _ _

theorem effect_written (d : Device) (dst : UInt16) (indication : AppIndication) :
    OthersWritten d (effect d dst indication) := by
  have update (data : List UInt8) (flag : GroupObjectDescriptor → Bool) :
      OthersWritten d (d.updateGroupObjectFromBus dst data flag) := by
    unfold Device.updateGroupObjectFromBus
    split <;> exact .inl rfl
  cases indication with
  | groupValueWrite asap data => exact update data _
  | groupValueResponse asap data => exact update data _
  | individualAddressWrite address =>
    dsimp only [effect]
    split_ifs <;> exact .inl rfl
  | individualAddressSerialNumberWrite serial address =>
    dsimp only [effect]
    split_ifs <;> exact .inl rfl
  | restartMasterReset eraseCode channel =>
    dsimp only [effect, Device.applyMasterReset]
    split_ifs <;> exact .inl rfl
  | propertyValueWrite objectIndex propertyId count startIndex data =>
    dsimp only [effect]
    split
    · unfold Device.writePropertyValue
      split_ifs
      · exact .inl rfl
      · split
        · next o ho => exact setObject_written ho _ _ _ _
        · exact .inl rfl
    · exact .inl rfl
  | propertyValueExtWriteCon => exact applyExtPropertyWrite_written d _ _
  | propertyValueExtWriteUnCon => exact applyExtPropertyWrite_written d _ _
  | _ => exact .inl rfl

theorem programVersionProperty_written {octets : List UInt8}
    (h : octets.length = programVersionSize) (start : UInt16) (count : UInt8)
    (data : List UInt8) : ∃ version, version.length = programVersionSize ∧
      ((programVersionProperty octets).write start count data).2 =
        programVersionProperty version := by
  let held : DataProperty := ⟨.programVersion, true, .generic05, 1, .writeHigh, octets⟩
  have full : held.Full := ⟨(by decide : 0 < PropertyDataType.generic05.size.toNat), h⟩
  obtain ⟨version, hwrite, hlen⟩ := DataProperty.write_full full start count data
  refine ⟨version, hlen.trans h, ?_⟩
  have hproperty : ((programVersionProperty octets).write start count data).2 =
      { programVersionProperty octets with storage := .data (held.write start count data).2 } := rfl
  rw [hproperty, hwrite]
  rfl

theorem HasProgramVersion.written {d e : Device} {octets : List UInt8}
    (h : HasProgramVersion d octets) (hw : OthersWritten d e) :
    ∃ version, HasProgramVersion e version := by
  obtain ⟨hlen, o, ho, hproperty⟩ := h
  have ho : d.others[3]? = some o := ho
  rcases hw with hw | ⟨i, o', pid, start, count, data, ho', hw⟩
  · exact ⟨octets, HasProgramVersion.of_others ⟨hlen, o, ho, hproperty⟩ hw⟩
  · by_cases hi : i = 3
    · subst hi
      obtain rfl : o = o' := Option.some.inj (ho.symm.trans ho')
      have hobject : e.object objAppProgram =
          some (o.writeProperty pid start count data).2 := by
        change e.others[3]? = _
        rw [hw]
        exact List.getElem?_set_self (List.getElem?_eq_some_iff.mp ho).1
      by_cases hpid : .programVersion = pid
      · subst hpid
        obtain ⟨version, hversion, hwrite⟩ :=
          programVersionProperty_written hlen start count data
        refine ⟨version, hversion, _, hobject, ?_⟩
        rw [InterfaceObject.property_writeProperty, if_pos rfl, hproperty, Option.map_some, hwrite]
      · refine ⟨octets, hlen, _, hobject, ?_⟩
        rw [InterfaceObject.property_writeProperty, if_neg hpid, hproperty]
    · refine ⟨octets, hlen, o, ?_, hproperty⟩
      change e.others[3]? = some o
      rw [hw, List.getElem?_set_ne hi, ho]

variable {b b' : Bau}

theorem handle_programVersion (ready : Ready b) {event : Event} (h : b.handle event = .ok b')
    (hb : ∃ version, HasProgramVersion b.toDevice version) :
    ∃ version, HasProgramVersion b'.toDevice version := by
  obtain ⟨octets, hoctets⟩ := hb
  have hdevice := handle_device ready h
  have same (hothers : b'.others = b.others) : ∃ version, HasProgramVersion b'.toDevice version :=
    HasProgramVersion.written hoctets (.inl hothers)
  cases event with
  | frame frame nowMs =>
    dsimp only at hdevice
    unfold deviceAfter at hdevice
    split_ifs at hdevice with hcon
    · refine same ((congrArg Device.others hdevice).trans ?_)
      unfold Bau.handleTransmitConfirmation
      split_ifs
      · rfl
      · unfold Device.confirmTransmission
        dsimp only
        split <;> rfl
    · cases hserved : served b frame with
      | none =>
        rw [hserved] at hdevice
        exact same (congrArg Device.others hdevice)
      | some request =>
        rw [hserved] at hdevice
        rw [hdevice]
        exact HasProgramVersion.written hoctets (effect_written _ request.1 request.2)
  | poll nowMs =>
    obtain ⟨objects, hobjects, _⟩ := hdevice
    exact same (by rw [hobjects])

theorem new_programVersion (device : InterfaceObject) (count : UInt16) (size : Nat) :
    HasProgramVersion (Bau.new device count size).toDevice (List.replicate 5 0) :=
  ⟨rfl, newApplicationProgramObject, rfl, rfl⟩

theorem handles_saveable {device : InterfaceObject} {count : UInt16} {size : Nat}
    {tr : List (Transition Bau Event)} (h : Handles (.new device count size) tr b) :
    (∃ version, HasProgramVersion b.toDevice version) ∧ b.memoryArea.length ≤ maxMemorySize := by
  have invariant := h.invariant
    (I := fun b => Ready b ∧ ∃ version, HasProgramVersion b.toDevice version) (fun _ => True)
    ⟨ofDevice_ready _, _, new_programVersion device count size⟩ (fun _ _ => trivial)
    (fun _ hx _ hstep => ⟨handle_ready hx.1 hstep, handle_programVersion hx.1 hstep hx.2⟩)
  refine ⟨invariant.2, ?_⟩
  have bounded : Store.Bounded b.toStore :=
    (handles_storeRun (ofDevice_ready _) h).invariant (fun _ => True) Store.new_bounded
      (fun _ _ => trivial) (fun x hx _ hstep => hstep ▸ Store.apply_bounded hx x.event)
  exact bounded

/-! ## What comes back -/

def Bau.save (b : Bau) : List UInt8 := saveBauState b.toDevice

def Bau.restore (b : Bau) (data : List UInt8) : Bau × Except PersistenceError Unit :=
  ({ b with toDevice := (restoreBauState b.toDevice data).1 }, (restoreBauState b.toDevice data).2)

def addressImage (b : Bau) : List UInt8 := b.addrTableObject.data b.memoryArea

def associationImage (b : Bau) : List UInt8 := b.assocTableObject.data b.memoryArea

/-- What restoring the saved state of `a` in `b` has made of it. -/
structure Restored (a b c : Bau) : Prop where
  memory : c.memoryArea = a.memoryArea
  version : programVersion c.toDevice = programVersion a.toDevice
  tables : ∀ i t, i ≠ objGroupObjTable → a.tableObject i = some t →
    ∃ u, c.tableObject i = some u ∧ if outOfRange t then u = .new
      else u.state = t.state ∧ u.dataOffset = t.dataOffset ∧ u.dataSize = t.dataSize
  groupObjects : c.groupObjectTableObject = b.groupObjectTableObject
  addresses : addressImage a ≠ [] → c.addressTable = .load .new (addressImage a)
  associations : associationImage a ≠ [] → c.associationTable = .load .new (associationImage a)
  addressLookups : a.addressTable = .load .new (addressImage a) →
    (addressImage a = [] → b.addressTable = .new) →
      (∀ tsap, c.addressTable.getGroupAddress tsap = a.addressTable.getGroupAddress tsap) ∧
        ∀ ga, c.addressTable.getTsap ga = a.addressTable.getTsap ga
  associationLookups : a.associationTable = .load .new (associationImage a) →
    (associationImage a = [] → b.associationTable = .new) →
      (∀ asap, c.associationTable.translateAsap asap = a.associationTable.translateAsap asap) ∧
        ∀ tsap, c.associationTable.asapsForTsap tsap = a.associationTable.asapsForTsap tsap
  configured : b.groupObjectTableObject.state = a.groupObjectTableObject.state →
    (∀ i t, i ≠ objGroupObjTable → a.tableObject i = some t → outOfRange t = false) →
      c.configured = a.configured

theorem restored_new {t : TableObject} (h : outOfRange t = true) : restored t = .new :=
  if_pos h

theorem restored_same {t : TableObject} (h : outOfRange t = false) :
    restored t = { t with error := .noFault } := by
  unfold restored
  rw [h, if_neg Bool.false_ne_true]

/-- A state saved after any run is restored in every unit of the same construction. -/
theorem restored_state {device : InterfaceObject} {count : UInt16} {size : Nat}
    {tr tr' : List (Transition Bau Event)} {a b : Bau}
    (ha : Handles (.new device count size) tr a) (hb : Handles (.new device count size) tr' b) :
    ∃ c, b.restore a.save = (c, .ok ()) ∧ Restored a b c := by
  obtain ⟨⟨version, hversion⟩, hmemory⟩ := handles_saveable ha
  obtain ⟨⟨octets, hoctets⟩, _⟩ := handles_saveable hb
  obtain ⟨others, hresult, hrestored⟩ := restoreBauState_save hversion hoctets hmemory
  refine ⟨{ b with toDevice := restoredDevice a.toDevice b.toDevice others }, ?_, ?_⟩
  · rw [Bau.restore, Bau.save, hresult]
  have addresses : (restoredDevice a.toDevice b.toDevice others).addressTable =
      if addressImage a = [] then b.addressTable else .load .new (addressImage a) := rfl
  have associations : (restoredDevice a.toDevice b.toDevice others).associationTable =
      if associationImage a = [] then b.associationTable
      else .load .new (associationImage a) := rfl
  refine ⟨rfl, ?_, ?_, rfl, ?_, ?_, ?_, ?_, ?_⟩
  · exact hrestored.programVersion.trans hversion.programVersion.symm
  · intro i t hi ht
    refine ⟨restored t, ?_, ?_⟩
    · rcases Store.tableObject_index ht with rfl | rfl | rfl | rfl
      · exact congrArg (fun t => some (restored t)) (Option.some.inj ht)
      · exact congrArg (fun t => some (restored t)) (Option.some.inj ht)
      · exact absurd rfl hi
      · exact congrArg (fun t => some (restored t)) (Option.some.inj ht)
    · cases hrange : outOfRange t with
      | true => exact restored_new hrange
      | false =>
        rw [restored_same hrange]
        exact ⟨rfl, rfl, rfl⟩
  · intro hne
    exact addresses.trans (if_neg hne)
  · intro hne
    exact associations.trans (if_neg hne)
  · intro hloaded hempty
    have same : (restoredDevice a.toDevice b.toDevice others).addressTable = a.addressTable := by
      rw [addresses, hloaded]
      split_ifs with himage
      · rw [hempty himage, himage]
        rfl
      · rfl
    dsimp only
    rw [same]
    exact ⟨fun _ => rfl, fun _ => rfl⟩
  · intro hloaded hempty
    have same : (restoredDevice a.toDevice b.toDevice others).associationTable =
        a.associationTable := by
      rw [associations, hloaded]
      split_ifs with himage
      · rw [hempty himage, himage]
        rfl
      · rfl
    dsimp only
    rw [same]
    exact ⟨fun _ => rfl, fun _ => rfl⟩
  · intro hgroup hrange
    have state (i : UInt8) (t : TableObject) (hi : i ≠ objGroupObjTable)
        (ht : a.tableObject i = some t) : (restored t).state = t.state := by
      rw [restored_same (hrange i t hi ht)]
    unfold Store.configured restoredDevice
    dsimp only
    rw [state objAddrTable _ (by decide) rfl, state objAssocTable _ (by decide) rfl,
      state objAppProgram _ (by decide) rfl, hgroup]

/-! ## Downloads before saving -/

/-- An address table with the group address 0, an association table without entries and an
    application program without octets. -/
def wholeDownload : List Event :=
  [loadEventFrame 1 1, allocationFrame 1 1 4, memoryWriteFrame 1 1, loadEventFrame 1 2,
    loadEventFrame 2 1, allocationFrame 2 1 2, loadEventFrame 2 2,
    loadEventFrame 4 1, loadEventFrame 4 2]

theorem download_restored : ∃ tr a c, Handles standardBau tr a ∧
    tr.map Transition.event = wholeDownload ∧ standardBau.restore a.save = (c, .ok ()) ∧
    a.configured = true ∧ c.configured = true ∧ c.addressTable.getTsap 0 = some 1 := by
  have hstate : (wholeDownload.foldlM (Bau.handleIf fun _ _ => true) standardBau).map
      (fun a => (a.configured, a.groupObjectTableObject.state, addressImage a,
        (outOfRange a.addrTableObject, outOfRange a.assocTableObject,
          outOfRange a.appProgramObject))) =
      some (true, .loaded, [0, 1, 0, 0], (false, false, false)) := by
    decide +kernel
  obtain ⟨a, ha, hstate⟩ := Option.map_eq_some_iff.mp hstate
  simp only [Prod.mk.injEq] at hstate
  obtain ⟨hconfigured, hgroup, himage, haddr, hassoc, happ⟩ := hstate
  obtain ⟨tr, run, hevents, _⟩ := handles_of_checked ha
  obtain ⟨c, hc, hrestored⟩ := restored_state run (.refl standardBau)
  refine ⟨tr, a, c, run, hevents, hc, hconfigured, ?_, ?_⟩
  · rw [hrestored.configured hgroup.symm ?_, hconfigured]
    intro i t hi ht
    rcases Store.tableObject_index ht with rfl | rfl | rfl | rfl
    · exact Option.some.inj ht ▸ haddr
    · exact Option.some.inj ht ▸ hassoc
    · exact absurd rfl hi
    · exact Option.some.inj ht ▸ happ
  · rw [hrestored.addresses (by rw [himage]; nofun), himage]
    decide

/-- An association table that is changed after it was loaded, an address table that ends beyond
    the largest memory, and an unloaded group object table. -/
def unusualDownload : List Event :=
  [loadEventFrame 2 1, allocationFrame 2 1 6, loadEventFrame 2 2, memoryWriteFrame 1 1,
    loadEventFrame 1 1, allocationFrame 1 0 0x40000, loadEventFrame 1 2, loadEventFrame 3 4]

def otherDownload : List Event :=
  [loadEventFrame 1 1, allocationFrame 1 1 4, memoryWriteFrame 1 1, loadEventFrame 1 2]

/-- Restored where another address table was loaded, that state does not come back as it was. -/
theorem unusual_not_restored : ∃ tr tr' a b c, Handles standardBau tr a ∧
    Handles standardBau tr' b ∧ b.restore a.save = (c, .ok ()) ∧
    a.groupObjectTableObject.state = .unloaded ∧ c.groupObjectTableObject.state = .loaded ∧
    a.addrTableObject.state = .loaded ∧ c.addrTableObject.state = .unloaded ∧
    a.associationTable.translateAsap 0 = none ∧ c.associationTable.translateAsap 0 = some 0 ∧
    a.addressTable.getTsap 0 = none ∧ c.addressTable.getTsap 0 = some 1 := by
  have hstate : (unusualDownload.foldlM (Bau.handleIf fun _ _ => true) standardBau).bind
      (fun a => (otherDownload.foldlM (Bau.handleIf fun _ _ => true) standardBau).map
        (fun b => [a, (b.restore a.save).1].map (fun u =>
          (u.groupObjectTableObject.state, u.addrTableObject.state,
            u.associationTable.translateAsap 0, u.addressTable.getTsap 0)))) =
      some [(.unloaded, .loaded, none, none), (.loaded, .unloaded, some 0, some 1)] := by
    decide +kernel
  obtain ⟨a, ha, hstate⟩ := Option.bind_eq_some_iff.mp hstate
  obtain ⟨b, hb, hstate⟩ := Option.map_eq_some_iff.mp hstate
  simp only [List.map_cons, List.cons.injEq, Prod.mk.injEq] at hstate
  obtain ⟨⟨hgroup, haddr, htranslate, htsap⟩, ⟨hgroup', haddr', htranslate', htsap'⟩, _⟩ := hstate
  obtain ⟨tr, run, _⟩ := handles_of_checked ha
  obtain ⟨tr', run', _⟩ := handles_of_checked hb
  have hresult : (b.restore a.save).2 = .ok () := by
    obtain ⟨⟨version, hversion⟩, hmemory⟩ := handles_saveable run
    obtain ⟨⟨octets, hoctets⟩, _⟩ := handles_saveable run'
    obtain ⟨others, hrestored, _⟩ := restoreBauState_save hversion hoctets hmemory
    exact congrArg Prod.snd hrestored
  exact ⟨tr, tr', a, b, (b.restore a.save).1, run, run', Prod.ext rfl hresult, hgroup, hgroup',
    haddr, haddr', htranslate, htranslate', htsap, htsap'⟩

end KnxRs.BusAccessUnit
