import KnxRs.BusAccessUnit
import KnxRs.Fallible
import KnxRs.TransportTraffic

set_option autoImplicit false

/-!
# What serving an indication does

Each handler once: the device it leaves, that it only adds to what is sent, and
that what it sends fits a frame unless the request is one of two oversized ones.
-/
namespace KnxRs.BusAccessUnit
open CoreTypes Properties GroupObjects InterfaceObjects ApduCodec TpduCodec CemiCodec AppParse
open AppEncode DptCodec GroupTables Transport MemoryStore DeviceState Fallible

/-! ## The device a served indication leaves -/

/-- What serving an indication, received for the destination `dst`, makes of the device. -/
def effect (d : Device) (dst : UInt16) : AppIndication → Device
  | .groupValueWrite _ data =>
    d.updateGroupObjectFromBus dst data GroupObjectDescriptor.writeEnable
  | .groupValueResponse _ data =>
    d.updateGroupObjectFromBus dst data GroupObjectDescriptor.updateEnable
  | .individualAddressWrite address =>
    if progMode d.device then d.setIndividualAddress address else d
  | .restart => { d with restartPending := true }
  | .restartMasterReset eraseCode _ =>
    if Bau.masterResetErrorCode eraseCode = restartErrorCodeOk then
      { d.applyMasterReset eraseCode with restartPending := true }
    else d
  | .propertyValueWrite objectIndex propertyId count startIndex data =>
    match PropertyId.tryFrom propertyId with
    | some pid => d.writePropertyValue objectIndex pid count startIndex data
    | none => d
  | .memoryWrite _ address data =>
    { d with toStore := (d.toStore.writeToMemory address.toNat data).1 }
  | .memoryExtWrite _ address data =>
    { d with toStore := (d.toStore.writeToMemory address.toNat data).1 }
  | .propertyValueExtWriteCon objectType objectInstance propertyId count startIndex data =>
    (d.applyExtPropertyWrite ⟨objectType, objectInstance, propertyId, count, startIndex⟩ data).1
  | .propertyValueExtWriteUnCon objectType objectInstance propertyId count startIndex data =>
    (d.applyExtPropertyWrite ⟨objectType, objectInstance, propertyId, count, startIndex⟩ data).1
  | .individualAddressSerialNumberWrite serial address =>
    if serial = serialNumber d.device then d.setIndividualAddress address else d
  | _ => d

/-- The requests whose response is longer than a frame: extended memory reads of more than
    250 readable octets, and answered parameter reads with more than 244 octets of test
    information. -/
def oversized (d : Device) : AppIndication → Bool
  | .memoryExtRead count address =>
    250 < count.toNat ∧ address.toNat + count.toNat ≤ d.memoryArea.length
  | .systemNetworkParameterRead objectType propertyId testInfo =>
    Bau.answersSystemNetworkParameter d objectType propertyId testInfo ∧ 244 < testInfo.length
  | _ => false

/-- Full properties of at most 10 octets and group objects of at most 254. -/
structure Modest (d : Device) : Prop where
  objects : ∀ o ∈ d.objects, o.FullWithin 10
  groupObjects : ∀ go ∈ d.groupObjects.objects, go.data.length ≤ 254

def Short (fits : Prop) (payload : List UInt8) : Prop := fits → payload.length ≤ 256

theorem short_unlimited (payload : List UInt8) : Short False payload := False.elim

/-- How far the unit has come within a call: it has made `e` of the device, has sent frames
    and has used the transport layer, but not to serve another request. -/
structure Progress (fits : Prop) (b : Bau) (e : Device) (b' : Bau) : Prop where
  device : b'.toDevice = e
  sent : b.outbox <+: b'.outbox
  transport : Evolves (Short fits) b.transport b'.transport
  unserved : (∀ a ∈ b.transport.actions, a.serves = false) →
    ∀ a ∈ b'.transport.actions, a.serves = false
  answering : b'.answeringConnection = b.answeringConnection

variable {fits : Prop} {b b' : Bau} {e : Device}

theorem Progress.changed (b : Bau) (e : Device) : Progress fits b e { b with toDevice := e } :=
  ⟨rfl, List.prefix_rfl, .refl _ _, fun h => h, rfl⟩

theorem Progress.same (b : Bau) : Progress fits b b.toDevice b := .changed b b.toDevice

theorem Progress.trans {c : Bau} {d : Device} (h : Progress fits b d c)
    (h' : Progress fits c e b') : Progress fits b e b' :=
  ⟨h'.device, h.sent.trans h'.sent, h.transport.trans h'.transport,
    fun hs => h'.unserved (h.unserved hs), h'.answering.trans h.answering⟩

theorem Progress.called {c : Call (List UInt8)} (hc : c.Answering (Short fits))
    (h : ∀ source seqNo priority apdu nowMs,
      c = .dataConnectedIndication source seqNo priority apdu nowMs →
        inSequence b.transport source seqNo = false) :
    Progress fits b b.toDevice { b with transport := apply b.transport c } :=
  ⟨rfl, List.prefix_rfl, .call _ hc, fun hs => outcome_serves (apply_outcome _ c) hs h, rfl⟩

theorem Progress.after {d : Device} (h : Progress fits { b with toDevice := d } e b') :
    Progress fits b e b' :=
  (Progress.changed b d).trans h

/-! ## Sending -/

theorem pushFrame_yields (b : Bau) (destination : DestinationAddress) (priority : Priority)
    {payload : List UInt8} (h : Short fits payload) :
    Yields fits (fun b' => ∃ frame, b' = { b with outbox := b.outbox ++ [frame] })
      (b.pushFrame destination priority payload) := by
  refine Yields.map (Q := fun _ => True) ⟨fun _ _ => trivial, fun hf => newLData_ok (h hf)⟩ ?_
  intro frame _
  exact ⟨frame, rfl⟩

theorem pushFrame_panics (b : Bau) (destination : DestinationAddress) (priority : Priority)
    {payload : List UInt8} (h : 256 < payload.length) :
    ∃ len, 256 < len ∧
      b.pushFrame destination priority payload = .error (.cemiPayloadTooLong len) := by
  refine ⟨payload.length, h, ?_⟩
  unfold Bau.pushFrame
  rw [newLData_error h]
  rfl

theorem pushFrame_progress (b : Bau) (destination : DestinationAddress) (priority : Priority)
    {payload : List UInt8} (h : Short fits payload) :
    Yields fits (Progress fits b b.toDevice) (b.pushFrame destination priority payload) := by
  refine (pushFrame_yields b destination priority h).mono ?_
  rintro _ ⟨frame, rfl⟩
  exact ⟨rfl, List.prefix_append .., .refl _ _, fun hs => hs, rfl⟩

theorem queueIndividualFrame_progress (b : Bau) (destination : IndividualAddress)
    {payload : List UInt8} (h : Short fits payload) :
    Yields fits (Progress fits b b.toDevice)
      (b.queueIndividualFrame destination .system payload) := by
  unfold Bau.queueIndividualFrame
  split_ifs
  · exact .ok (.called (c := .dataConnectedRequest .system payload b.nowMs) h nofun)
  · exact pushFrame_progress b _ _ h

theorem short_of_le {n : Nat} {payload : List UInt8} (h : payload.length ≤ n) (hn : n ≤ 256) :
    Short fits payload :=
  fun _ => Nat.le_trans h hn

/-! ## Property services -/

theorem Modest.object {d : Device} (h : Modest d) {index : UInt8} {o : InterfaceObject}
    (ho : d.object index = some o) : o.FullWithin 10 :=
  h.objects o (List.mem_of_getElem? ho)

theorem tryInterceptTableProperty_length {d : Device} {objectIndex : UInt8} {pid : PropertyId}
    {startIndex : UInt16} {data : List UInt8}
    (h : d.tryInterceptTableProperty objectIndex pid startIndex = some data) :
    data.length ≤ 8 := by
  unfold Device.tryInterceptTableProperty at h
  split_ifs at h
  split at h
  · cases h
  · split at h
    · cases h
      simp
    · cases h
      simp [be32Bytes_length]
    · cases h
      unfold TableObjects.TableObject.mcbTable
      split_ifs <;> simp [be32Bytes_length, be16Bytes_length]
    · cases h
      simp
    · cases h

theorem handlePropertyRead_progress (modest : fits → Modest b.toDevice)
    (source : IndividualAddress) (objectIndex propertyId count : UInt8) (startIndex : UInt16) :
    Yields fits (Progress fits b b.toDevice)
      (b.handlePropertyRead source objectIndex propertyId count startIndex) := by
  have respond {n : UInt8} {start : UInt16} {data : List UInt8}
      (hlen : fits → data.length ≤ 10) : Yields fits (Progress fits b b.toDevice)
      (b.queuePropertyResponse source objectIndex propertyId n start data) := by
    refine queueIndividualFrame_progress b source fun hf => ?_
    rw [encodePropertyResponse_length]
    have := hlen hf
    omega
  unfold Bau.handlePropertyRead
  split
  · exact respond (by simp)
  · split
    · next hdata =>
      have := tryInterceptTableProperty_length hdata
      exact respond (fun _ => by omega)
    · split
      · exact respond (by simp)
      · next o ho =>
        split_ifs
        · exact respond (by simp [be16Bytes_length])
        · exact respond (fun hf => ((modest hf).object ho).readProperty _ _ _)

theorem Modest.setObject {d : Device} (h : Modest d) (index : UInt8) {o : InterfaceObject}
    (ho : o.FullWithin 10) : Modest (d.setObject index o) := by
  unfold Device.setObject
  split
  · refine ⟨fun o' ho' => ?_, h.groupObjects⟩
    rcases List.mem_cons.mp ho' with rfl | ho'
    · exact ho
    · exact h.objects o' (List.mem_cons_of_mem _ ho')
  · refine ⟨fun o' ho' => ?_, h.groupObjects⟩
    rcases List.mem_cons.mp ho' with rfl | ho'
    · exact h.objects _ (List.mem_cons_self ..)
    · rcases List.mem_or_eq_of_mem_set ho' with ho' | rfl
      · exact h.objects o' (List.mem_cons_of_mem _ ho')
      · exact ho

theorem Modest.writePropertyValue {d : Device} (h : Modest d) (objectIndex : UInt8)
    (pid : PropertyId) (count : UInt8) (startIndex : UInt16) (data : List UInt8) :
    Modest (d.writePropertyValue objectIndex pid count startIndex data) := by
  unfold Device.writePropertyValue
  split_ifs
  · exact ⟨h.objects, h.groupObjects⟩
  · split
    · next o ho => exact h.setObject _ ((h.object ho).writeProperty _ _ _ _)
    · exact h

theorem handlePropertyWrite_progress (modest : fits → Modest b.toDevice)
    (source : IndividualAddress) (objectIndex propertyId count : UInt8) (startIndex : UInt16)
    (data : List UInt8) {dst : UInt16} :
    Yields fits (Progress fits b (effect b.toDevice dst
        (.propertyValueWrite objectIndex propertyId count startIndex data)))
      (b.handlePropertyWrite source objectIndex propertyId count startIndex data) := by
  dsimp only [Bau.handlePropertyWrite, effect]
  cases PropertyId.tryFrom propertyId with
  | none => exact .ok (.same b)
  | some pid =>
    refine (handlePropertyRead_progress (fun hf => ?_) source _ _ _ _).mono (fun _ h => h.after)
    exact (modest hf).writePropertyValue objectIndex pid count startIndex data

theorem handlePropertyDescriptionRead_progress (source : IndividualAddress)
    (objectIndex propertyId propertyIndex : UInt8) :
    Yields fits (Progress fits b b.toDevice)
      (b.handlePropertyDescriptionRead source objectIndex propertyId propertyIndex) := by
  have respond {id idx pdt access : UInt8} {writeEnable : Bool} {maxElements : UInt16} :
      Short fits (encodePropertyDescriptionResponse objectIndex id idx writeEnable pdt
        maxElements access) :=
    short_of_le (n := 9) (by simp [encodePropertyDescriptionResponse, service,
      propertyDescriptionFields]) (by decide)
  unfold Bau.handlePropertyDescriptionRead
  split
  · exact queueIndividualFrame_progress b source respond
  · split
    · exact queueIndividualFrame_progress b source respond
    · exact queueIndividualFrame_progress b source respond

theorem handlePropertyExtDescriptionRead_progress (source : IndividualAddress)
    (objectType objectInstance propertyId : UInt16) (descriptionType : UInt8)
    (propertyIndex : UInt16) :
    Yields fits (Progress fits b b.toDevice)
      (b.handlePropertyExtDescriptionRead source objectType objectInstance propertyId
        descriptionType propertyIndex) := by
  unfold Bau.handlePropertyExtDescriptionRead
  split_ifs
  · exact .ok (.same b)
  · exact .ok (.same b)
  · exact .ok (.same b)
  · refine queueIndividualFrame_progress b source (short_of_le (n := 20) ?_ (by decide))
    simp [encodePropertyExtDescriptionResponse, service, encodeExtOtOiPid, be16Bytes_length,
      propertyDescriptionFields]

theorem handlePropertyValueExtRead_progress (modest : fits → Modest b.toDevice)
    (source : IndividualAddress) (objectType objectInstance propertyId : UInt16)
    (count : UInt8) (startIndex : UInt16) :
    Yields fits (Progress fits b b.toDevice)
      (b.handlePropertyValueExtRead source objectType objectInstance propertyId count
        startIndex) := by
  have respond {n : UInt8} {data : List UInt8} (hlen : fits → data.length ≤ 10) :
      Yields fits (Progress fits b b.toDevice) (b.queueIndividualFrame source .system
        (encodePropertyValueExtResponse objectType objectInstance propertyId n startIndex
          data)) := by
    refine queueIndividualFrame_progress b source fun hf => ?_
    rw [encodePropertyValueExtResponse_length]
    have := hlen hf
    omega
  unfold Bau.handlePropertyValueExtRead
  dsimp only
  split
  · exact respond (by simp)
  · split
    · exact respond (by simp)
    · split
      · exact respond (by simp)
      · next o ho => exact respond (fun hf => ((modest hf).object ho).readProperty _ _ _)

theorem handlePropertyValueExtWrite_progress (source : IndividualAddress)
    (params : ExtPropertyParams) (data : List UInt8) (confirmed : Bool) :
    Yields fits (Progress fits b (b.toDevice.applyExtPropertyWrite params data).1)
      (b.handlePropertyValueExtWrite source params data confirmed) := by
  unfold Bau.handlePropertyValueExtWrite
  dsimp only
  split_ifs
  · refine (queueIndividualFrame_progress _ source (short_of_le (n := 11) ?_ (by decide))).mono
      (fun _ h => h.after)
    simp [encodePropertyValueExtWriteConResponse, service, encodeExtPropertyHeader,
      encodeExtOtOiPid, be16Bytes_length]
  · exact .ok (.changed b _)

/-! ## Memory services -/

theorem memSlice_length {s : Store} {addr len : Nat} {octets : List UInt8}
    (h : s.memSlice addr len = some octets) :
    addr + len ≤ s.memoryArea.length ∧ octets.length = len := by
  unfold Store.memSlice at h
  split_ifs at h with hle
  cases h
  exact ⟨hle, Octets.slice_length hle⟩

theorem handleMemoryExtRead_progress (source : IndividualAddress) (count : UInt8)
    (address : UInt32) (small : fits → oversized b.toDevice (.memoryExtRead count address) = false) :
    Yields fits (Progress fits b b.toDevice) (b.handleMemoryExtRead source count address) := by
  unfold Bau.handleMemoryExtRead
  refine queueIndividualFrame_progress b source fun hf => ?_
  have hsmall := of_decide_eq_false (small hf)
  rw [encodeMemoryExtReadResponse_length]
  cases hs : b.memSlice address.toNat count.toNat with
  | none => simp
  | some octets =>
    obtain ⟨hle, hlen⟩ := memSlice_length hs
    have : ¬ 250 < count.toNat := fun hc => hsmall ⟨hc, hle⟩
    simp only [hlen]
    omega

theorem handleMemoryExtWrite_progress (source : IndividualAddress) (address : UInt32)
    (data : List UInt8) :
    Yields fits (Progress fits b
        { b.toDevice with toStore := (b.toStore.writeToMemory address.toNat data).1 })
      (b.handleMemoryExtWrite source address data) := by
  unfold Bau.handleMemoryExtWrite
  dsimp only
  split_ifs
  · refine (queueIndividualFrame_progress _ source (short_of_le (n := 6) ?_ (by decide))).mono
      (fun _ h => h.after)
    simp [encodeMemoryExtWriteResponse, service, be32Bytes_length]
  · exact .ok (.changed b _)

/-! ## Restart, group and broadcast services -/

theorem disconnectRequest_progress (b : Bau) (e : Device) :
    Progress fits b e { b with toDevice := e, transport := b.transport.disconnectRequest } := by
  have h : Progress fits { b with toDevice := e } e _ :=
    .called (c := .disconnectRequest) trivial nofun
  exact h.after

theorem handleRestartMasterReset_progress (source : IndividualAddress)
    (eraseCode channel : UInt8) {dst : UInt16} :
    Yields fits (Progress fits b (effect b.toDevice dst (.restartMasterReset eraseCode channel)))
      (b.handleRestartMasterReset source eraseCode) := by
  unfold Bau.handleRestartMasterReset
  refine Yields.bind (queueIndividualFrame_progress b source (short_of_le (n := 5)
    (by simp [encodeRestartResponse, be16Bytes_length]) (by decide))) ?_
  intro c hc
  dsimp only [effect]
  by_cases hcode : Bau.masterResetErrorCode eraseCode = restartErrorCodeOk
  · rw [if_neg (not_not_intro hcode), if_pos hcode, hc.device]
    exact .ok (hc.trans (disconnectRequest_progress c _))
  · rw [if_pos hcode, if_neg hcode]
    exact .ok hc

theorem readableObject_some {d : Device} {tsap : UInt16} {go : GroupObject}
    (h : d.readableObject tsap = some go) :
    ∃ asap, d.groupObjects.get asap = some go ∧ go.initialized = true := by
  obtain ⟨asap, _, hfound⟩ := List.exists_of_findSome?_eq_some h
  split_ifs at hfound
  · obtain ⟨hget, hinit⟩ := Option.filter_eq_some_iff.mp hfound
    exact ⟨asap, hget, hinit⟩

theorem handleGroupValueRead_progress (modest : fits → Modest b.toDevice) (frame : CemiFrame) :
    Yields fits (Progress fits b b.toDevice) (b.handleGroupValueRead frame) := by
  unfold Bau.handleGroupValueRead
  dsimp only
  split
  · exact .ok (.same b)
  · split
    · exact .ok (.same b)
    · next go hgo =>
      unfold Bau.queueGroupValueResponse
      split
      · exact .ok (.same b)
      · next payload hp =>
        refine pushFrame_progress b _ _ fun hf => ?_
        obtain ⟨asap, hget, _⟩ := readableObject_some hgo
        have hdata := (modest hf).groupObjects go (GroupObjectStore.get_mem hget)
        have := encodeGroupValueForDpt_length hp
        omega

theorem handleSystemNetworkParameterRead_progress (objectType propertyId : UInt16)
    (testInfo : List UInt8) (small : fits →
      oversized b.toDevice (.systemNetworkParameterRead objectType propertyId testInfo) = false) :
    Yields fits (Progress fits b b.toDevice)
      (b.handleSystemNetworkParameterRead objectType propertyId testInfo) := by
  unfold Bau.handleSystemNetworkParameterRead
  split_ifs with ha
  · refine pushFrame_progress b _ _ fun hf => ?_
    have hsmall := of_decide_eq_false (small hf)
    have : ¬ 244 < testInfo.length := fun hl => hsmall ⟨ha, hl⟩
    rw [encodeSystemNetworkParameterResponse_length, (serialNumber b.device).length_eq]
    omega
  · exact .ok (.same b)

/-! ## Dispatch -/

theorem fixed_progress {source : IndividualAddress} {payload : List UInt8}
    (h : payload.length ≤ 256) :
    Yields fits (Progress fits b b.toDevice)
      (b.queueIndividualFrame source .system payload) :=
  queueIndividualFrame_progress b source (fun _ => h)

theorem dispatchIndication_progress (modest : fits → Modest b.toDevice) (frame : CemiFrame)
    (source : IndividualAddress) (indication : AppIndication)
    (small : fits → oversized b.toDevice indication = false) :
    Yields fits (Progress fits b (effect b.toDevice frame.destinationAddressRaw indication))
      (b.dispatchIndication frame source indication) := by
  cases indication with
  | groupValueWrite asap data => exact .ok (.changed b _)
  | groupValueResponse asap data => exact .ok (.changed b _)
  | groupValueRead asap => exact handleGroupValueRead_progress modest frame
  | propertyValueRead objectIndex propertyId count startIndex =>
    exact handlePropertyRead_progress modest source objectIndex propertyId count startIndex
  | propertyValueWrite objectIndex propertyId count startIndex data =>
    exact handlePropertyWrite_progress modest source objectIndex propertyId count startIndex data
  | deviceDescriptorRead descriptorType =>
    dsimp only [Bau.dispatchIndication, Bau.dispatchDeviceManagement, effect]
    split_ifs
    · exact fixed_progress (by decide)
    · exact fixed_progress (by decide)
  | memoryRead count address =>
    exact fixed_progress (Nat.le_trans (encodeMemoryResponse_length _ _) (by decide))
  | memoryWrite count address data => exact .ok (.changed b _)
  | restart => exact .ok (disconnectRequest_progress b _)
  | individualAddressWrite address =>
    dsimp only [Bau.dispatchIndication, Bau.dispatchDeviceManagement, effect]
    split_ifs
    · exact .ok (.changed b _)
    · exact .ok (.same b)
  | individualAddressRead =>
    dsimp only [Bau.dispatchIndication, Bau.dispatchDeviceManagement, effect]
    split_ifs
    · have hlen : encodeIndividualAddressResponse.length ≤ 256 := by decide
      exact pushFrame_progress b _ _ (fun _ => hlen)
    · exact .ok (.same b)
  | authorizeRequest key => exact fixed_progress (by decide)
  | restartMasterReset eraseCode channel => exact handleRestartMasterReset_progress source _ _
  | propertyDescriptionRead objectIndex propertyId propertyIndex =>
    exact handlePropertyDescriptionRead_progress source objectIndex propertyId propertyIndex
  | memoryExtRead count address => exact handleMemoryExtRead_progress source count address small
  | memoryExtWrite count address data => exact handleMemoryExtWrite_progress source address data
  | individualAddressSerialNumberRead serial =>
    dsimp only [Bau.dispatchIndication, Bau.dispatchExtPropertyServices, effect,
      Bau.handleIndividualAddressSerialNumberRead]
    split_ifs
    · refine pushFrame_progress b _ _ (short_of_le (n := 10) ?_ (by decide))
      simp [encodeIndividualAddressSerialNumberResponse, service, be16Bytes_length,
        serial.length_eq]
    · exact .ok (.same b)
  | individualAddressSerialNumberWrite serial address =>
    dsimp only [Bau.dispatchIndication, Bau.dispatchExtPropertyServices, effect,
      Bau.handleIndividualAddressSerialNumberWrite]
    split_ifs
    · exact .ok (.changed b _)
    · exact .ok (.same b)
  | keyWrite level key => exact fixed_progress (by simp [encodeKeyResponse, service])
  | functionPropertyCommand objectIndex propertyId data =>
    exact fixed_progress (by simp [encodeFunctionPropertyStateResponse, service])
  | functionPropertyState objectIndex propertyId data =>
    exact fixed_progress (by simp [encodeFunctionPropertyStateResponse, service])
  | systemNetworkParameterRead objectType propertyId testInfo =>
    exact handleSystemNetworkParameterRead_progress objectType propertyId testInfo small
  | adcRead channel count =>
    exact fixed_progress (by simp [encodeAdcResponse, be16Bytes_length])
  | propertyValueExtRead objectType objectInstance propertyId count startIndex =>
    exact handlePropertyValueExtRead_progress modest source objectType objectInstance propertyId
      count startIndex
  | propertyValueExtWriteCon objectType objectInstance propertyId count startIndex data =>
    exact handlePropertyValueExtWrite_progress source _ data true
  | propertyValueExtWriteUnCon objectType objectInstance propertyId count startIndex data =>
    exact handlePropertyValueExtWrite_progress source _ data false
  | propertyExtDescriptionRead objectType objectInstance propertyId descriptionType index =>
    exact handlePropertyExtDescriptionRead_progress source objectType objectInstance propertyId
      descriptionType index

end KnxRs.BusAccessUnit
