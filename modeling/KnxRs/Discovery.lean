import KnxRs.DibSequences
import KnxRs.DptTexts

set_option autoImplicit false

/-!
# Discovery

How a client reads a search response, and what it reads from the one of a server.
-/
namespace KnxRs.Discovery
open CoreTypes KnxIpCodec KnxIpNetwork ServerDescription Dibs Iterators

structure GatewayInfo where
  address : SocketAddr
  name : String
  individualAddress : UInt16
  rawBody : List UInt8

inductive SearchResponseParseError where
  | frame (error : KnxIpParseError)
  | controlEndpoint
  | dib (error : DibParseError)
  | missingDeviceInformation
  | missingSupportedServiceFamilies

/-- `none` when a search in the checked blocks panics. -/
def parseSearchResponse (data : List UInt8) (src : SocketAddr) :
    Option (Except SearchResponseParseError (Option GatewayInfo)) :=
  match KnxIpFrame.parse data with
  | .error error => some (.error (.frame error))
  | .ok frame =>
    if frame.serviceType ≠ .searchResponse then some (.ok none)
    else match Hpai.parse frame.body with
    | none => some (.error .controlEndpoint)
    | some hpai =>
      let address : SocketAddr :=
        if hpai.isUnspecified then socketAddrWithPort src hpai.port else .v4 hpai.ip hpai.port
      match DibSequence.parse (frame.body.drop Hpai.len) with
      | .error error => some (.error (.dib error))
      | .ok dibs =>
        match dibs.get .deviceInformation with
        | none => none
        | some none => some (.error .missingDeviceInformation)
        | some (some dib) =>
          match DeviceInformationDib.parse dib with
          | .error error => some (.error (.dib error))
          | .ok information =>
            match dibs.get .supportedServiceFamilies with
            | none => none
            | some none => some (.error .missingSupportedServiceFamilies)
            | some (some _) =>
              some (.ok (some ⟨address, information.friendlyName, information.individualAddress,
                frame.body⟩))

/-! ## The name of a device -/

/-- A character of ISO-8859-1, `?` for one outside that set. -/
def printable (ch : Char) : Char := if ch.toNat < 256 then ch else '?'

/-- A name as it is read: at most 30 characters, and none from the first NUL on. -/
def readName (name : String) : String :=
  String.ofList (((name.toList.map printable).take friendlyNameLen).takeWhile (· ≠ DptConvert.nul))

theorem ofUInt8_latin1 (ch : Char) : Char.ofUInt8 (latin1 ch) = printable ch := by
  unfold latin1 printable
  split_ifs with h
  · exact DptTexts.ofUInt8_ofNat (Nat.le_of_lt_succ h)
  · rfl

theorem latin1_ne_zero (ch : Char) : latin1 ch ≠ 0 ↔ printable ch ≠ DptConvert.nul := by
  unfold latin1 printable
  split_ifs with h
  · constructor
    · rintro hne rfl
      exact hne rfl
    · exact DptTexts.ofNat_ne_zero (Nat.le_of_lt_succ h)
  · exact iff_of_true (by decide) (by decide)

theorem chars_latin1 (chars : List Char) (n : Nat) :
    (((chars.map latin1) ++ List.replicate n 0).takeWhile (· ≠ 0)).map Char.ofUInt8 =
      (chars.map printable).takeWhile (· ≠ DptConvert.nul) := by
  induction chars with
  | nil =>
    cases n with
    | zero => rfl
    | succ n => rfl
  | cons ch chars ih =>
    rw [List.map_cons, List.map_cons, List.cons_append]
    by_cases h : latin1 ch = 0
    · rw [List.takeWhile_cons_of_neg (by simpa using h), List.takeWhile_cons_of_neg, List.map_nil]
      have := mt (latin1_ne_zero ch).mpr (not_not.mpr h)
      simpa using this
    · rw [List.takeWhile_cons_of_pos (by simpa using h), List.takeWhile_cons_of_pos, List.map_cons,
        ih, ofUInt8_latin1]
      have := (latin1_ne_zero ch).mp h
      simpa using this

/-! ## The blocks of a server -/

variable (information : DeviceInformation) (families : List (ServiceFamily × UInt8))

def beforeName : List UInt8 :=
  [54, 0x01, information.medium.raw, if information.programmingMode then 1 else 0] ++
    be16Bytes information.individualAddress ++
    be16Bytes information.projectInstallationIdentifier ++ information.serialNumber.val ++
    information.routingMulticastAddress.octets ++ information.macAddress.val

theorem beforeName_length : (beforeName information).length = friendlyNameOffset := by
  simp only [beforeName, List.length_append, information.serialNumber.property,
    information.macAddress.property]
  rfl

def nameChars : List Char := information.friendlyName.toList.take friendlyNameLen

theorem toBytes_eq : information.toBytes = beforeName information ++
    ((nameChars information).map latin1 ++
      List.replicate (friendlyNameLen - (nameChars information).length) 0) := by
  rw [← List.append_assoc, ← List.length_map latin1]
  rfl

theorem nameField_length : ((nameChars information).map latin1 ++
    List.replicate (friendlyNameLen - (nameChars information).length) 0).length =
      friendlyNameLen := by
  have hle : (nameChars information).length ≤ friendlyNameLen := List.length_take_le _ _
  rw [List.length_append, List.length_map, List.length_replicate]
  omega

theorem toBytes_length : information.toBytes.length = deviceInformationLen := by
  rw [toBytes_eq, List.length_append, beforeName_length, nameField_length]
  rfl

theorem information_wellFormed : WellFormed information.toBytes := by
  have hlen := toBytes_length information
  refine ⟨hlen ▸ by decide, hlen ▸ rfl, hlen ▸ rfl⟩

theorem families_length :
    (supportedServiceFamiliesDib families).length =
      2 + 2 * (families.take maxServiceFamilies).length := by
  unfold supportedServiceFamiliesDib
  dsimp only
  rw [List.length_append, List.length_flatMap]
  induction families.take maxServiceFamilies with
  | nil => rfl
  | cons pair pairs ih =>
    simp only [List.map_cons, List.sum_cons, List.length_cons, List.length_nil] at ih ⊢
    omega

theorem families_wellFormed : WellFormed (supportedServiceFamiliesDib families) := by
  have hlen := families_length families
  have hle : (families.take maxServiceFamilies).length ≤ 126 := List.length_take_le _ _
  refine ⟨?_, ?_, ?_⟩
  · rw [hlen]
    exact Nat.le_add_right 2 _
  · omega
  · rw [hlen]
    show (UInt8.ofNat (2 + 2 * (families.take maxServiceFamilies).length)).toNat = _
    rw [UInt8.toNat_ofNat', Nat.mod_eq_of_lt (by omega)]

/-! ## What a client reads -/

def blocks : List (List UInt8) := [information.toBytes, supportedServiceFamiliesDib families]

theorem blocks_wellFormed : ∀ block ∈ blocks information families, WellFormed block := by
  intro block hblock
  rcases List.mem_cons.mp hblock with rfl | hblock
  · exact information_wellFormed information
  · rw [List.mem_singleton.mp hblock]
    exact families_wellFormed families

theorem dibs_parse : DibSequence.parse (blocks information families).flatten =
    .ok ⟨(blocks information families).flatten⟩ := by
  have hno : NoBlock WellFormed [] := by
    intro block rest hblock hnil
    exact hblock.ne_nil (List.append_eq_nil_iff.mp hnil.symm).1
  have hnodup : ((blocks information families).map (·.getD 1 0)).Nodup := by
    show ([0x01, 0x02] : List UInt8).Nodup
    decide
  have hcheck := (checkFrom_ok_iff 0 (blocks_wellFormed information families) hno Seen.none).mpr
    ⟨rfl, hnodup, fun _ _ => List.not_mem_nil⟩
  rw [List.append_nil] at hcheck
  unfold DibSequence.parse DibIterator.new
  rw [hcheck]
  rfl

theorem dibs_getRaw (typeCode : UInt8) :
    DibSequence.getRaw ⟨(blocks information families).flatten⟩ typeCode =
      some (((blocks information families).map Dib.mk).find?
        fun dib => dib.descriptionTypeRaw = typeCode) := by
  have hfuel : ((blocks information families).map Dib.mk).length <
      (blocks information families).flatten.length + 1 := by
    have := toBytes_length information
    rw [List.length_map, blocks, List.flatten_cons, List.length_append, this]
    exact Nat.lt_succ_of_le (Nat.le_trans (show 2 ≤ 54 by decide) (Nat.le_add_right _ _))
  exact (sequence_yields (blocks_wellFormed information families)).find _ _ hfuel

theorem information_parse : ∃ h, DeviceInformationDib.parse ⟨information.toBytes⟩ =
    .ok ⟨⟨information.toBytes⟩, h⟩ := by
  have hlen : (Dib.mk information.toBytes).structureLength = deviceInformationLen :=
    toBytes_length information
  refine ⟨hlen, ?_⟩
  unfold DeviceInformationDib.parse
  rw [if_neg (fun h => h rfl), dif_pos hlen]

theorem information_friendlyName (dib : DeviceInformationDib)
    (h : dib.dib = ⟨information.toBytes⟩) :
    dib.friendlyName = readName information.friendlyName := by
  have hfield : dib.friendlyNameBytes = (nameChars information).map latin1 ++
      List.replicate (friendlyNameLen - (nameChars information).length) 0 := by
    rw [DeviceInformationDib.friendlyNameBytes, h, toBytes_eq,
      List.drop_left' (beforeName_length information),
      List.take_of_length_le (Nat.le_of_eq (nameField_length information))]
  rw [DeviceInformationDib.friendlyName, hfield, chars_latin1, nameChars, readName, List.map_take]

theorem information_individualAddress (dib : DeviceInformationDib)
    (h : dib.dib = ⟨information.toBytes⟩) :
    dib.individualAddress = information.individualAddress := by
  rw [DeviceInformationDib.individualAddress, h]
  exact be16_be16Bytes information.individualAddress

/-- Where a client finds the control endpoint: its own address if it names one, and else where
the answer came from, on the port of the endpoint if it has one. -/
def gatewayAddress (control : Hpai) (src : SocketAddr) : SocketAddr :=
  if control.isUnspecified then socketAddrWithPort src control.port
  else .v4 control.ip control.port

/-- A search response with these blocks is read as one from a device of this name and address,
whatever its control endpoint and wherever it came from. -/
def ReadAs (dibs : List UInt8) (name : String) (individualAddress : UInt16) : Prop :=
  ∀ (control : Hpai) (src : SocketAddr), ∃ bytes,
    (KnxIpFrame.searchResponse control dibs).tryToBytes = .ok bytes ∧
      parseSearchResponse bytes src = some (.ok (some ⟨gatewayAddress control src, readName name,
        individualAddress, control.toBytes ++ dibs⟩))

theorem blocks_readAs : ReadAs (information.toBytes ++ supportedServiceFamiliesDib families)
    information.friendlyName information.individualAddress := by
  intro control src
  have hdibs : information.toBytes ++ supportedServiceFamiliesDib families =
      (blocks information families).flatten := by
    rw [blocks, List.flatten_cons, List.flatten_cons, List.flatten_nil, List.append_nil]
  have hshort : headerLen + (KnxIpFrame.searchResponse control
      (information.toBytes ++ supportedServiceFamiliesDib families)).body.length < 2 ^ 16 := by
    have hinformation := toBytes_length information
    have hfamilies := families_length families
    have hle : (families.take maxServiceFamilies).length ≤ 126 := List.length_take_le _ _
    simp only [KnxIpFrame.searchResponse, List.length_append, Hpai.toBytes_length, hinformation,
      hfamilies, headerLen, Hpai.len, deviceInformationLen]
    omega
  have hbytes := KnxIpFrame.tryToBytes_ok hshort
  refine ⟨_, hbytes, ?_⟩
  obtain ⟨hlen, hparse⟩ := information_parse information
  have hfirst : DibSequence.get ⟨(blocks information families).flatten⟩ .deviceInformation =
      some (some ⟨information.toBytes⟩) := dibs_getRaw information families 0x01
  have hsecond : DibSequence.get ⟨(blocks information families).flatten⟩
      .supportedServiceFamilies = some (some ⟨supportedServiceFamiliesDib families⟩) :=
    dibs_getRaw information families 0x02
  unfold parseSearchResponse
  rw [KnxIpFrame.parse_tryToBytes hbytes]
  dsimp only [KnxIpFrame.searchResponse]
  rw [if_neg (fun h => h rfl), Hpai.parse_toBytes]
  dsimp only
  rw [List.drop_left' control.toBytes_length, hdibs, dibs_parse]
  dsimp only
  rw [hfirst]
  dsimp only
  rw [hparse]
  dsimp only
  rw [hsecond, information_friendlyName information _ rfl,
    information_individualAddress information _ rfl]
  rfl

/-- What a client reads from a search response is the name and the address of the device, for
any blocks of device information and service families, and so for those of any server. -/
theorem searchResponse_read :
    (∀ (information : DeviceInformation) (families : List (ServiceFamily × UInt8)),
      ReadAs (information.toBytes ++ supportedServiceFamiliesDib families)
        information.friendlyName information.individualAddress) ∧
    ∀ (description : DeviceDescription) (routing : Bool), ReadAs (description.dibs routing)
      description.name description.individualAddress.raw := by
  refine ⟨blocks_readAs, ?_⟩
  intro description routing
  exact blocks_readAs _ _

theorem natEndpoint_differs : ∃ (description : DeviceDescription) (control : Hpai)
    (src : SocketAddr) (bytes : List UInt8) (info : GatewayInfo),
    (KnxIpFrame.searchResponse control (description.dibs false)).tryToBytes = .ok bytes ∧
      parseSearchResponse bytes src = some (.ok (some info)) ∧
      info.address ≠ .v4 control.ip control.port := by
  let serial : SixOctets := ⟨[0, 0, 0, 0, 0, 1], rfl⟩
  let description : DeviceDescription := ⟨"gateway", ⟨0x1101⟩, serial, serial, .ip, 0, false⟩
  obtain ⟨bytes, hbytes, hread⟩ :=
    blocks_readAs ⟨.ip, false, 0x1101, 0, serial, .unspecified, serial, "gateway"⟩
      (DeviceDescription.families false) (.natUdp 3671) (.v4 ⟨192, 168, 1, 2⟩ 50000)
  refine ⟨description, .natUdp 3671, .v4 ⟨192, 168, 1, 2⟩ 50000, bytes, _, hbytes, hread, ?_⟩
  decide

end KnxRs.Discovery
