import KnxRs.AcceptedLines
import KnxRs.AuthoredDocuments
import KnxRs.Digests

set_option autoImplicit false

/-!
# The hash of an authored document

The registry reads some attributes as numbers that are narrower than the fields they are written
from. A document is hashed exactly when these fit.
-/
namespace KnxRs.Author
open Texts XmlDocuments XmlValues Hash Renumber Fallible

/-! ## Fields and their types -/

def isI64 (n : Int) : Prop := -2 ^ 63 ≤ n ∧ n < 2 ^ 63

def ParamTypeKind.Typed : ParamTypeKind → Prop
  | text sizeBits => sizeBits < 2 ^ 16
  | number sizeBits _ min max => sizeBits < 2 ^ 16 ∧ isI64 min ∧ isI64 max
  | enumeration sizeBits values => sizeBits < 2 ^ 16 ∧ ∀ v ∈ values, isI64 v.2

def Segment.Typed : Segment → Prop
  | absolute _ size address _ _ => size < 2 ^ 32 ∧ address < 2 ^ 32
  | relative _ size loadStateMachine offset =>
    size < 2 ^ 32 ∧ loadStateMachine < 2 ^ 8 ∧ offset < 2 ^ 32

def ObjTarget.Typed : ObjTarget → Prop
  | lsm n => n < 2 ^ 8
  | object objType occurrence => objType < 2 ^ 16 ∧ occurrence < 2 ^ 16
  | objIdx index occurrence => index < 2 ^ 8 ∧ occurrence < 2 ^ 16

def LoadControl.Typed : LoadControl → Prop
  | connect | disconnect | restart | progressText _ _ => True
  | unload target | load target | loadCompleted target => target.Typed
  | absSegment target segType address size access memType segFlags =>
    target.Typed ∧ segType < 2 ^ 8 ∧ address < 2 ^ 32 ∧ size < 2 ^ 32 ∧ access < 2 ^ 8 ∧
      memType < 2 ^ 8 ∧ segFlags < 2 ^ 8
  | relSegment target size mode fill =>
    target.Typed ∧ size < 2 ^ 32 ∧ mode < 2 ^ 8 ∧ fill < 2 ^ 8
  | writeMem address size _ _ | loadImageMem address size => address < 2 ^ 32 ∧ size < 2 ^ 32
  | writeRelMem target offset size _ _ => target.Typed ∧ offset < 2 ^ 32 ∧ size < 2 ^ 32
  | compareProp target propId _ | loadImageProp target propId => target.Typed ∧ propId < 2 ^ 16
  | delay milliseconds => milliseconds < 2 ^ 16

structure LoadProcedure.Typed (proc : LoadProcedure) : Prop where
  mergeId : ∀ id, proc.mergeId = some id → id < 2 ^ 8
  steps : ∀ step ∈ proc.steps, step.1.Typed

/-- The numbers that the registry knows are values of their fields' types. -/
structure AppProgram.Typed (app : AppProgram) : Prop where
  parameterTypes : ∀ pt ∈ app.parameterTypes, pt.kind.Typed
  comObjects : ∀ co ∈ app.comObjects, co.number < 2 ^ 32
  segments : ∀ seg ∈ app.segments, seg.Typed
  loadProcedures : ∀ proc ∈ app.loadProcedures, proc.Typed
  addressTableMax : ∀ n, app.addressTableMax = some n → n < 2 ^ 32
  associationTableMax : ∀ n, app.associationTableMax = some n → n < 2 ^ 32

/-! ## Numbers that fit -/

/-- A number has an octet for its size, and an enumeration has no negative values. -/
def ParamTypeKind.Fits : ParamTypeKind → Prop
  | text _ => True
  | number sizeBits _ _ _ => sizeBits < 2 ^ 8
  | enumeration _ values => ∀ v ∈ values, 0 ≤ v.2 ∧ v.2 < 2 ^ 32

def ObjTarget.Fits : ObjTarget → Prop
  | lsm _ => True
  | object _ occurrence | objIdx _ occurrence => occurrence < 2 ^ 8

def LoadControl.Fits : LoadControl → Prop
  | unload target | load target | loadCompleted target | relSegment target _ _ _
  | writeRelMem target _ _ _ _ => target.Fits
  | absSegment target _ address _ _ _ _ => target.Fits ∧ address < 2 ^ 16
  | compareProp target propId _ | loadImageProp target propId => target.Fits ∧ propId < 2 ^ 8
  | connect | disconnect | restart | writeMem _ _ _ _ | loadImageMem _ _ | delay _
  | progressText _ _ => True

structure ProgramInfo.Fits (info : ProgramInfo) : Prop where
  applicationNumber : info.applicationNumber < 2 ^ 16
  applicationVersion : info.applicationVersion < 2 ^ 8
  peiType : info.peiType = [] ∨ (parseUnsigned 8 info.peiType).isSome = true

structure AppProgram.Fits (app : AppProgram) : Prop where
  parameterTypes : ∀ pt ∈ app.parameterTypes, pt.kind.Fits
  parameters : ∀ p ∈ app.parameters, p.offset < 2 ^ 32
  steps : ∀ proc ∈ app.loadProcedures, ∀ step ∈ proc.steps, step.1.Fits

/-! ## Values -/

/-- The reader's attribute normalization is that of XML. -/
def Normalizes (lib : Library) : Prop :=
  ∀ raw value, attributeValue raw = some value → lib.normalizedValue raw = some value

section
variable {lib : Library} (normalizes : Normalizes lib)
include normalizes

theorem read_written {value : Value} (h : value.isSound = true) :
    lib.read value.written = value.read flattened := by
  unfold Library.read
  rw [normalizes _ _ (attributeValue_written h)]
  rfl

theorem decimal_accepts {t : AttrType} (h : t.isNumeric = true) (n : Nat) :
    t.accepts (lib.read (Value.plain (decimal n)).written) ↔ n < t.limit := by
  have hsound : (Value.plain (decimal n)).isSound = true := plainText_decimal n
  rw [read_written normalizes hsound]
  exact decimal_accepted h n

theorem number_accepts (n : Nat) :
    (AttrType.byte.accepts (lib.read (Value.plain (decimal n)).written) ↔ n < 2 ^ 8) ∧
      (AttrType.uint16.accepts (lib.read (Value.plain (decimal n)).written) ↔ n < 2 ^ 16) ∧
      (AttrType.uint32.accepts (lib.read (Value.plain (decimal n)).written) ↔ n < 2 ^ 32) :=
  ⟨decimal_accepts normalizes rfl n, decimal_accepts normalizes rfl n,
    decimal_accepts normalizes rfl n⟩

theorem zero_accepts : AttrType.byte.accepts (lib.read (Value.plain ['0']).written) ∧
    AttrType.uint32.accepts (lib.read (Value.plain ['0']).written) := by
  obtain ⟨hbyte, _, huint32⟩ := number_accepts normalizes 0
  exact ⟨hbyte.mpr (by decide), huint32.mpr (by decide)⟩

theorem signed_accepts (n : Int) :
    (AttrType.uint32.accepts (lib.read (Value.plain (signed n)).written) ↔ 0 ≤ n ∧ n < 2 ^ 32) ∧
      (AttrType.int64.accepts (lib.read (Value.plain (signed n)).written) ↔ isI64 n) := by
  cases n with
  | ofNat n =>
    rw [show signed (.ofNat n) = decimal n from rfl, decimal_accepts normalizes rfl,
      decimal_accepts normalizes rfl]
    unfold AttrType.limit isI64
    rw [Int.ofNat_eq_natCast]
    dsimp only
    constructor <;> omega
  | negSucc n =>
    have hsound : (Value.plain (signed (.negSucc n))).isSound = true := plainText_signed _
    rw [read_written normalizes hsound]
    show (_ ∨ (parseUnsigned 32 ('-' :: decimal (n + 1))).isSome = true ↔ _) ∧
      (_ ∨ (parseSigned 64 ('-' :: decimal (n + 1))).isSome = true ↔ _)
    rw [parseSigned_negative, Option.isSome_ite]
    have hne : ('-' :: decimal (n + 1)) ≠ [] := List.cons_ne_nil _ _
    constructor
    · refine ⟨fun h => ?_, fun h => absurd h.1 (by omega)⟩
      rcases h with h | h
      · exact absurd h hne
      · cases h
    · unfold isI64
      constructor
      · intro h
        have := h.resolve_left hne
        constructor <;> omega
      · intro h
        exact .inr (by omega)

omit normalizes in
theorem space_mem_flattened {s : Text} (h : unbroken s = false) : ' ' ∈ flattened s := by
  have hends : ∃ c ∈ lineEnds s, isBreak c = true := by
    unfold lineEnds
    induction s with
    | nil => cases h
    | cons c cs ih =>
      unfold lineEndsFrom
      split_ifs with hreturn hfeed
      · exact ⟨'\n', List.mem_cons_self, rfl⟩
      · exact hfeed.2.elim
      · cases hc : isBreak c with
        | true => exact ⟨c, List.mem_cons_self, hc⟩
        | false =>
          have hcs : unbroken cs = false := by
            unfold unbroken at h ⊢
            rw [List.all_cons, hc] at h
            exact h
          obtain ⟨d, hd, hbreak⟩ := ih hcs
          exact ⟨d, List.mem_cons_of_mem c hd, hbreak⟩
  obtain ⟨c, hc, hbreak⟩ := hends
  refine List.mem_map.mpr ⟨c, hc, ?_⟩
  unfold isBreak at hbreak
  unfold whiteSpace isSpace
  simp only [Bool.or_eq_true, decide_eq_true_eq] at hbreak ⊢
  exact if_pos (by tauto)

omit normalizes in
theorem parses_chars {bits : Nat} {s : Text} (h : (parseUnsigned bits s).isSome = true) :
    ∀ c ∈ s, c.isDigit = true ∨ c = '+' := by
  intro c hc
  have hdigits (digits : Text) (hn : isNumeral digits = true) (hmem : c ∈ digits) :
      c.isDigit = true := List.all_eq_true.mp (Bool.and_eq_true_iff.mp hn).2 c hmem
  unfold parseUnsigned at h
  dsimp only at h
  split at h
  · next rest =>
    split_ifs at h with hn
    · rcases List.mem_cons.mp hc with rfl | hc
      · exact .inr rfl
      · exact .inl (hdigits rest hn hc)
    all_goals cases h
  · split_ifs at h with hn
    · exact .inl (hdigits s hn hc)
    all_goals cases h

theorem peiType_accepts (s : Text) : AttrType.byte.accepts (lib.read (Value.given s).written) ↔
    s = [] ∨ (parseUnsigned 8 s).isSome = true := by
  have hsound : (Value.given s).isSound = true := rfl
  rw [read_written normalizes hsound]
  show flattened s = [] ∨ (parseUnsigned 8 (flattened s)).isSome = true ↔ _
  cases hbroken : unbroken s with
  | true => rw [flattened_eq_self.mpr hbroken]
  | false =>
    have hspace := space_mem_flattened hbroken
    obtain ⟨c, hc, hbreak⟩ : ∃ c ∈ s, isBreak c = true := by
      by_contra hnone
      refine absurd (unbroken_iff.mpr fun c hc => ?_) (by rw [hbroken]; exact Bool.false_ne_true)
      exact Bool.eq_false_iff.mpr fun hbreak => hnone ⟨c, hc, hbreak⟩
    constructor
    · rintro (h | h)
      · rw [h] at hspace
        cases hspace
      · exact absurd (parses_chars h _ hspace) (by decide)
    · rintro (rfl | h)
      · cases hc
      · exfalso
        unfold isBreak at hbreak
        simp only [Bool.or_eq_true, decide_eq_true_eq] at hbreak
        rcases hbreak with (rfl | rfl) | rfl <;>
          exact absurd (parses_chars h _ hc) (by decide)

end

/-! ## Tags -/

@[simp] def documentTags : List (String × List String × List (String × AttrType)) :=
  [("ParameterRefs", [], []), ("ParameterRef", ["Id", "RefId"], []), ("ComObjectRefs", [], []),
    ("ComObjectRef", ["Id", "RefId"], []), ("Messages", [], []),
    ("Message", ["Id", "Name", "Text"], []), ("Catalog", [], []),
    ("CatalogSection", ["Id", "Name", "Number", "DefaultLanguage"], []),
    ("CatalogItem", ["Id", "Name", "Number", "ProductRefId", "Hardware2ProgramRefId",
      "DefaultLanguage"], []),
    ("Baggages", [], []), ("Baggage", ["TargetPath", "Name", "FileIntegrity", "Id"], []),
    ("FileInfo", ["TimeInfo"], []), ("Products", [], []),
    ("Product", ["Id", "Text", "OrderNumber", "IsRailMounted", "DefaultLanguage"], []),
    ("RegistrationInfo", ["RegistrationStatus"], []), ("Hardware2Programs", [], []),
    ("Hardware2Program", ["Id", "MediumTypes"], []), ("ApplicationProgramRef", ["RefId"], []),
    ("RegistrationInfo", ["RegistrationStatus", "RegistrationNumber"], []), ("Hardware", [], []),
    ("Hardware", ["Id", "Name", "SerialNumber", "VersionNumber", "BusCurrent",
      "HasIndividualAddress", "HasApplicationProgram"], []),
    ("Languages", [], []), ("Language", ["Identifier"], []), ("TranslationUnit", ["RefId"], []),
    ("TranslationElement", ["RefId"], []), ("Translation", ["AttributeName", "Text"], []),
    ("Options", ["TextParameterEncoding", "SupportsExtendedMemoryServices",
      "SupportsExtendedPropertyServices"], [("MaxRoutingApduLength", .uint32)]),
    ("ChannelIndependentBlock", [], []), ("Channel", ["Id", "Number", "Name", "Text"], []),
    ("ParameterBlock", ["Id", "Name", "Text", "TextParameterRefId", "ShowInComObjectTree"], []),
    ("ParameterRefRef", ["RefId"], []), ("ComObjectRefRef", ["RefId"], []),
    ("ParameterSeparator", ["Id", "Text", "UIHint"], []), ("choose", ["ParamRefId"], []),
    ("when", ["test"], []), ("Dynamic", [], []),
    ("TypeText", ["SizeInBit"], [("SizeInBit", .uint32)]),
    ("TypeNumber", ["SizeInBit", "Type", "minInclusive", "maxInclusive"], [("Increment", .int64),
      ("maxInclusive", .int64), ("minInclusive", .int64), ("SizeInBit", .byte)]),
    ("Enumeration", ["Text", "Value", "Id"], [("Value", .uint32)]),
    ("TypeRestriction", ["Base", "SizeInBit"], [("SizeInBit", .uint32)]),
    ("ParameterTypes", [], []), ("ParameterType", ["Id", "Name"], []), ("Parameters", [], []),
    ("Union", ["SizeInBit"], []),
    ("Memory", ["CodeSegment", "Offset", "BitOffset"], [("BitOffset", .byte), ("Offset", .uint32)]),
    ("Parameter", ["Id", "Name", "Offset", "BitOffset", "ParameterType", "Text", "Value"],
      [("BitOffset", .byte), ("Offset", .uint32)]),
    ("ComObjectTable", [], [("Offset", .uint32)]),
    ("ComObject", ["Id", "Name", "Number", "Text", "FunctionText", "ObjectSize", "DatapointType",
      "Priority", "ReadFlag", "WriteFlag", "CommunicationFlag", "TransmitFlag", "UpdateFlag",
      "ReadOnInitFlag"], [("Number", .uint32)]),
    ("AbsoluteSegment", ["Id", "Name", "Size", "MemoryType", "Address", "UserMemory"], [("Address",
      .uint32), ("Size", .uint32)]),
    ("RelativeSegment", ["Id", "Name", "Offset", "Size", "LoadStateMachine"], [("LoadStateMachine",
      .byte), ("Offset", .uint32), ("Size", .uint32)]),
    ("Code", [], []), ("OnError", ["Cause", "Ignore", "MessageRef"], []),
    ("LoadProcedures", [], []), ("LoadProcedure", ["MergeId"], [("MergeId", .byte)]),
    ("AddressTable", ["MaxEntries"], [("MaxEntries", .uint32), ("Offset", .uint32)]),
    ("AssociationTable", ["MaxEntries"], [("MaxEntries", .uint32), ("Offset", .uint32)]),
    ("ApplicationProgram", ["Id", "ProgramType", "MaskVersion", "Name", "LoadProcedureStyle",
      "PeiType", "DefaultLanguage", "DynamicTableManagement", "Linkable", "MinEtsVersion",
      "IPConfig", "ApplicationNumber", "ApplicationVersion", "ReplacesVersions"],
      [("AdditionalAddressesCount", .int32), ("ApplicationNumber", .uint16), ("ApplicationVersion",
      .byte), ("MaxSecurityGroupKeyTableEntries", .uint16), ("MaxSecurityIndividualAddressEntries",
      .uint16), ("MaxSecurityP2PKeyTableEntries", .uint16), ("MaxSecurityProxyGroupKeyTableEntries",
      .uint16), ("MaxSecurityProxyIndividualAddressTableEntries", .uint16),
      ("MaxTunnelingUserEntries", .uint16), ("MaxUserEntries", .uint16), ("PeiType", .byte)]),
    ("Static", [], []), ("KNX", ["xmlns", "CreatedBy", "ToolVersion"], []),
    ("ManufacturerData", [], []), ("Manufacturer", ["RefId"], [])]

theorem documentTags_readable :
    ∀ tag ∈ documentTags, readableTag tag.1 tag.2.1 tag.2.2 = true := by decide +kernel

theorem readable {name : String} {names : List String} {types : List (String × AttrType)}
    (h : (name, names, types) ∈ documentTags) : readableTag name names types = true :=
  documentTags_readable (name, names, types) h

theorem readable_tag {name : String} {names : List String}
    (h : (name, names, []) ∈ documentTags) : readableNames name names = true :=
  (Bool.and_eq_true_iff.mp (readable h)).1

@[simp] def stepNumbers : List (String × List (String × AttrType)) :=
  [("LdCtrlUnload", [("LsmIdx", .byte), ("ObjType", .uint16), ("Occurrence", .byte)]),
    ("LdCtrlLoad", [("LsmIdx", .byte), ("ObjType", .uint16), ("Occurrence", .byte)]),
    ("LdCtrlLoadCompleted", [("LsmIdx", .byte), ("ObjType", .uint16), ("Occurrence", .byte)]),
    ("LdCtrlAbsSegment", [("Access", .byte), ("Address", .uint16), ("LsmIdx", .byte), ("MemType",
      .byte), ("ObjType", .uint16), ("Occurrence", .byte), ("SegFlags", .byte), ("SegType", .byte),
      ("Size", .uint32)]),
    ("LdCtrlRelSegment", [("Fill", .byte), ("LsmIdx", .byte), ("Mode", .byte), ("ObjType", .uint16),
      ("Occurrence", .byte), ("Size", .uint32)]),
    ("LdCtrlWriteMem", [("Address", .uint32), ("Size", .uint32)]),
    ("LdCtrlLoadImageMem", [("Address", .uint32), ("Size", .uint32)]),
    ("LdCtrlWriteRelMem", [("ObjIdx", .byte), ("ObjType", .uint16), ("Occurrence", .byte),
      ("Offset", .uint32), ("Size", .uint32)]),
    ("LdCtrlCompareProp", [("Count", .uint16), ("ObjIdx", .byte), ("ObjType", .uint16),
      ("Occurrence", .byte), ("PropId", .byte), ("RetryInterval", .uint16), ("StartElement",
      .uint16), ("TimeOut", .uint16)]),
    ("LdCtrlLoadImageProp", [("Count", .uint16), ("ObjIdx", .byte), ("ObjType", .uint16),
      ("Occurrence", .byte), ("PropId", .byte), ("StartElement", .uint16)]),
    ("LdCtrlDelay", [("MilliSeconds", .uint16)]), ("LdCtrlProgressText", []), ("LdCtrlConnect", []),
    ("LdCtrlDisconnect", []), ("LdCtrlRestart", [])]

theorem stepNumbers_numbered : ∀ step ∈ stepNumbers, numbered step.1 step.2 = true := by
  decide +kernel

/-! ## Sections -/

section
variable {lib : Library} (app : AppProgram) (indent : Nat)

theorem writeParameterRefs_accepted : Accepted lib (app.writeParameterRefs indent) True :=
  (Accepted.plainNode [] (readable (by simp)) (.refl _) (by decide) (.map fun _ _ =>
    .plainSingle ["Id", "RefId"] (readable (by simp)) (.refl _) _) indent).congr (by simp)

theorem writeComObjectRefs_accepted : Accepted lib (app.writeComObjectRefs indent) True :=
  (Accepted.plainNode [] (readable (by simp)) (.refl _) (by decide) (.map fun _ _ =>
    .plainSingle ["Id", "RefId"] (readable (by simp)) (.refl _) _) indent).congr (by simp)

theorem writeMessages_accepted : Accepted lib (app.writeMessages indent) True :=
  (Accepted.unlessEmpty (.plainNode [] (readable (by simp)) (.refl _) (by decide) (.map fun _ _ =>
    .plainSingle ["Id", "Name", "Text"] (readable (by simp)) (.refl _) _) indent)
    (by simp)).congr (by simp)

theorem writeCatalog_accepted : Accepted lib (app.writeCatalog indent) True :=
  (Accepted.collection (readable (by simp)) (by decide) (fun _ _ => .plainNode ["Id", "Name",
    "Number", "DefaultLanguage"] (readable (by simp)) (.refl _) (by decide) (.map fun _ _ =>
      .plainSingle ["Id", "Name", "Number", "ProductRefId", "Hardware2ProgramRefId",
        "DefaultLanguage"] (readable (by simp)) (.refl _) _) _) indent).congr (by simp)

theorem writeBaggages_accepted : Accepted lib (app.writeBaggages indent) True := by
  refine (Accepted.collection (readable (by simp)) (by decide) (fun b _ => .plainNode ["TargetPath",
    "Name", "FileIntegrity", "Id"] (readable (by simp)) ?_ (by decide) (.plainSingle ["TimeInfo"]
      (readable (by simp)) (names_optional _ _ _) _) _) indent).congr (by simp)
  have hnames := ((List.Sublist.refl ["TargetPath", "Name"]).append (names_optional b.fileIntegrity
    "FileIntegrity" fun crc => .plain (upperHex 8 crc.toNat))).append (.refl ["Id"])
  rw [List.map_append, List.map_append]
  exact hnames

theorem writeHardware_accepted : Accepted lib (app.writeHardware indent) True := by
  have hproducts (hwId : Text) (products : List Product) : Accepted lib
      (node (indent + 4) "Products" []
        (products.flatMap (AppProgram.writeProduct (indent + 6) hwId))) True :=
    (Accepted.plainNode [] (readable (by simp)) (.refl _) (by decide) (.flatMap fun _ _ =>
      .plainNode ["Id", "Text", "OrderNumber", "IsRailMounted", "DefaultLanguage"]
        (readable (by simp)) (.refl _) (by decide) (.plainSingle ["RegistrationStatus"]
          (readable (by simp)) (.refl _) _) _) _).congr (by simp)
  have hprograms (hwId : Text) (programs : List Hardware2Program) : Accepted lib
      (node (indent + 4) "Hardware2Programs" []
        (programs.flatMap (app.writeHardware2Program (indent + 6) hwId))) True :=
    (Accepted.plainNode [] (readable (by simp)) (.refl _) (by decide) (.flatMap fun _ _ =>
      .plainNode ["Id", "MediumTypes"] (readable (by simp)) (.refl _) (by decide) (.cons
        (.plainSingle ["RefId"] (readable (by simp)) (.refl _) _) (.plainSingle
          ["RegistrationStatus", "RegistrationNumber"] (readable (by simp)) (.refl _) _)) _)
      _).congr (by simp)
  exact (Accepted.collection (readable (by simp)) (by decide) (fun _ _ => .plainNode ["Id", "Name",
    "SerialNumber", "VersionNumber", "BusCurrent", "HasIndividualAddress",
    "HasApplicationProgram"] (readable (by simp)) (.refl _) (by decide)
      (.append (hproducts _ _) (hprograms _ _)) _) indent).congr (by simp)

theorem writeLanguages_accepted : Accepted lib (app.writeLanguages indent) True := by
  refine .unlessEmpty (.congr (.plainNode [] (readable (by simp)) (.refl _) (by decide) (.flatMap
    fun _ _ => .plainNode ["Identifier"] (readable (by simp)) (.refl _) (by decide) (.plainNode
      ["RefId"] (readable (by simp)) (.refl _) (by decide) (.flatMap fun _ _ => .plainNode ["RefId"]
        (readable (by simp)) (.refl _) (by decide) (.map fun _ _ => .plainSingle ["AttributeName",
          "Text"] (readable (by simp)) (.refl _) _) _) _) _) indent) (by simp)) fun _ => trivial

theorem options_accepted (options : Options) : Accepted lib (options.write indent) True := by
  refine (Accepted.single ["TextParameterEncoding", "SupportsExtendedMemoryServices",
    "SupportsExtendedPropertyServices"] [("MaxRoutingApduLength", .uint32)] (readable (by simp))
      (.refl _) indent).congr (iff_true_intro ?_)
  simp [Accepts]

/-! ### The dynamic tree -/

mutual

theorem writeDynNode_accepted (indent : Nat) : (d : Dyn) →
    Accepted lib (app.writeDynNode indent d) True
  | .channelIndependentBlock children => by
    unfold AppProgram.writeDynNode
    exact .plainNode [] (readable (by simp)) (.refl _) (by decide)
      (writeDynNodes_accepted (indent + 2) children) indent
  | .channel suffix channelNumber name text children => by
    unfold AppProgram.writeDynNode
    exact .plainNode ["Id", "Number", "Name", "Text"] (readable (by simp)) (.refl _) (by decide)
      (writeDynNodes_accepted (indent + 2) children) indent
  | .parameterBlock suffix name text textParamRef showInComObjectTree children => by
    unfold AppProgram.writeDynNode
    refine .plainNode ["Id", "Name", "Text", "TextParameterRefId", "ShowInComObjectTree"]
      (readable (by simp)) ?_ (by decide) (writeDynNodes_accepted (indent + 2) children) indent
    have hnames := ((List.Sublist.refl ["Id", "Name", "Text"]).append (names_optional textParamRef
      "TextParameterRefId" fun r => .plain (app.paramRefRefId r))).append
        (names_flag showInComObjectTree "ShowInComObjectTree")
    simp only [List.map_append]
    exact hnames
  | .paramRefRef r => by
    unfold AppProgram.writeDynNode
    exact .plainSingle ["RefId"] (readable (by simp)) (.refl _) indent
  | .comObjRefRef r => by
    unfold AppProgram.writeDynNode
    exact .plainSingle ["RefId"] (readable (by simp)) (.refl _) indent
  | .separator suffix text uiHint => by
    unfold AppProgram.writeDynNode
    exact .plainSingle ["Id", "Text", "UIHint"] (readable (by simp)) (.refl _) indent
  | .choose paramRef whens => by
    unfold AppProgram.writeDynNode
    exact .plainNode ["ParamRefId"] (readable (by simp)) (.refl _) (by decide)
      (writeWhens_accepted (indent + 2) whens) indent

theorem writeDynNodes_accepted (indent : Nat) : (children : List Dyn) →
    Accepted lib (app.writeDynNodes indent children) True
  | [] => by
    unfold AppProgram.writeDynNodes
    exact .nil
  | child :: children => by
    unfold AppProgram.writeDynNodes
    exact ((writeDynNode_accepted indent child).append
      (writeDynNodes_accepted indent children)).congr (and_true _).to_iff

theorem writeWhen_accepted (indent : Nat) : (branch : When) →
    Accepted lib (app.writeWhen indent branch) True
  | .mk test children => by
    unfold AppProgram.writeWhen
    exact .plainNode ["test"] (readable (by simp)) (.refl _) (by decide)
      (writeDynNodes_accepted (indent + 2) children) indent

theorem writeWhens_accepted (indent : Nat) : (whens : List When) →
    Accepted lib (app.writeWhens indent whens) True
  | [] => by
    unfold AppProgram.writeWhens
    exact .nil
  | branch :: whens => by
    unfold AppProgram.writeWhens
    exact ((writeWhen_accepted indent branch).append
      (writeWhens_accepted indent whens)).congr (and_true _).to_iff

end

theorem writeDynamic_accepted : Accepted lib (app.writeDynamic indent) True :=
  .unlessEmpty (.plainNode [] (readable (by simp)) (.refl _) (by decide)
    (writeDynNodes_accepted app (indent + 2) app.dynamic) indent) fun _ => trivial

theorem stepTags_readable :
    ∀ tag ∈ stepTags, readableNames tag.1 (tag.2 ++ ["AppliesTo"]) = true := by decide +kernel

variable (normalizes : Normalizes lib)
include normalizes

/-! ### Parameters and group objects -/

theorem paramTypeKind_accepted (id : Text) {kind : ParamTypeKind}
    (typed : kind.Typed) :
    Accepted lib (AppProgram.writeParamTypeKind indent id kind) kind.Fits := by
  cases kind with
  | text sizeBits =>
    refine (Accepted.single ["SizeInBit"] [("SizeInBit", .uint32)] (readable (by simp)) (.refl _)
      indent).congr ?_
    have hsize : sizeBits < 2 ^ 16 := typed
    simp [Accepts, number, number_accepts normalizes, ParamTypeKind.Fits]
    omega
  | number sizeBits numberType min max =>
    refine (Accepted.single ["SizeInBit", "Type", "minInclusive", "maxInclusive"]
      [("Increment", .int64), ("maxInclusive", .int64), ("minInclusive", .int64),
        ("SizeInBit", .byte)] (readable (by simp)) (.refl _) indent).congr ?_
    simp [Accepts, number, number_accepts normalizes, ParamTypeKind.Fits,
      signed_accepts normalizes, typed.2.1, typed.2.2]
  | enumeration sizeBits values =>
    have hvalues : Accepted lib (values.zipIdx.map fun v =>
        .single (indent + 2) "Enumeration" [("Text", .given v.1.1),
          ("Value", .plain (signed v.1.2)), ("Id", .plain (id ++ "_EN-".toList ++ decimal v.2))])
        (∀ v ∈ values, 0 ≤ v.2 ∧ v.2 < 2 ^ 32) := by
      refine (Accepted.map fun v _ => .single ["Text", "Value", "Id"] [("Value", .uint32)]
        (readable (by simp)) (.refl _) (indent + 2)).congr ?_
      have hvalue (v : (Text × Int) × Nat) : Accepts lib [("Value", .uint32)]
          [("Text", .given v.1.1), ("Value", .plain (signed v.1.2)),
            ("Id", .plain (id ++ "_EN-".toList ++ decimal v.2))] ↔ 0 ≤ v.1.2 ∧ v.1.2 < 2 ^ 32 := by
        simp [Accepts, signed_accepts normalizes]
      rw [forall₂_congr fun v _ => hvalue v]
      constructor
      · intro h v hv
        obtain ⟨i, hi, rfl⟩ := List.getElem_of_mem hv
        exact h (values[i], i) (List.mem_zipIdx_iff_getElem?.mpr (List.getElem?_eq_getElem hi))
      · exact fun h v hv => h v.1 (List.mem_of_getElem? (List.mem_zipIdx_iff_getElem?.mp hv))
    have hsize : sizeBits < 2 ^ 16 := typed.1
    refine (Accepted.node ["Base", "SizeInBit"] [("SizeInBit", .uint32)] (readable (by simp))
      (.refl _) (by decide) hvalues indent).congr ?_
    simp [Accepts, number, constant, number_accepts normalizes, ParamTypeKind.Fits]
    omega

theorem writeParameterTypes_accepted (typed : ∀ pt ∈ app.parameterTypes, pt.kind.Typed) :
    Accepted lib (app.writeParameterTypes indent) (∀ pt ∈ app.parameterTypes, pt.kind.Fits) :=
  .collection (readable (by simp)) (by decide) (fun pt hpt => .plainNode ["Id", "Name"]
    (readable (by simp)) (.refl _) (by decide) (paramTypeKind_accepted _ normalizes _
      (typed pt hpt)) _) indent

theorem writeParameters_accepted
    (registered : ∀ q ∈ app.parameters, q.paramType < app.parameterTypes.length) :
    Accepted lib (app.writeParameters indent) (∀ q ∈ app.parameters, q.offset < 2 ^ 32) := by
  refine .plainNode [] (readable (by simp)) (.refl _) (by decide) (.flatMap fun q hq => ?_) _
  unfold AppProgram.writeParameter
  rw [List.getElem?_eq_getElem (registered q hq)]
  dsimp only
  refine (Accepted.plainNode ["SizeInBit"] (readable (by simp)) (.refl _) (by decide)
    (.cons (.single ["CodeSegment", "Offset", "BitOffset"] [("BitOffset", .byte),
      ("Offset", .uint32)] (readable (by simp)) (.refl _) _) (.single ["Id", "Name", "Offset",
        "BitOffset", "ParameterType", "Text", "Value"] [("BitOffset", .byte), ("Offset", .uint32)]
        (readable (by simp)) (.refl _) _)) _).congr ?_
  simp [Accepts, number, constant, number_accepts normalizes, zero_accepts normalizes]

theorem writeComObjectTable_accepted (typed : ∀ co ∈ app.comObjects, co.number < 2 ^ 32) :
    Accepted lib (app.writeComObjectTable indent) True := by
  refine (Accepted.node [] [("Offset", .uint32)] (readable (by simp)) (.refl _) (by decide)
    (.map fun co _ => .single ["Id", "Name", "Number", "Text", "FunctionText", "ObjectSize",
      "DatapointType", "Priority", "ReadFlag", "WriteFlag", "CommunicationFlag", "TransmitFlag",
      "UpdateFlag", "ReadOnInitFlag"] [("Number", .uint32)] (readable (by simp)) (.refl _) _)
    indent).congr (iff_true_intro ⟨?_, fun co hco => ?_⟩)
  · simp [Accepts]
  · have hnumber := typed co hco
    simpa [Accepts, number, constant, number_accepts normalizes] using hnumber

/-! ### Segments -/

theorem writeSegment_accepted (id : Nat) {seg : Segment} (typed : seg.Typed) :
    Accepted lib [app.writeSegment indent id seg] True := by
  cases seg with
  | absolute name size address memoryType userMemory =>
    refine (Accepted.single ["Id", "Name", "Size", "MemoryType", "Address", "UserMemory"]
      [("Address", .uint32), ("Size", .uint32)] (readable (by simp)) ?_ indent).congr
        (iff_true_intro ?_)
    · have hnames := (((((List.Sublist.refl ["Id"]).append (names_optional name "Name" .given)).append
        (.refl ["Size"])).append (names_optional memoryType "MemoryType" fun mt =>
          .plain mt.ets)).append (.refl ["Address"])).append (names_flag userMemory "UserMemory")
      simp only [List.map_append]
      exact hnames
    · have hsize : size < 2 ^ 32 := typed.1
      have haddress : address < 2 ^ 32 := typed.2
      refine accepts_append.mpr ⟨accepts_append.mpr ⟨accepts_append.mpr
        ⟨accepts_append.mpr ⟨accepts_append.mpr ⟨?_, accepts_optional _ _ (by simp)⟩,
          ?_⟩, accepts_optional _ _ (by simp)⟩, ?_⟩, accepts_flag _ (by simp)⟩
      · simp [Accepts]
      · simpa [Accepts, number, number_accepts normalizes] using hsize
      · simpa [Accepts, number, number_accepts normalizes] using haddress
  | relative name size loadStateMachine offset =>
    obtain ⟨hsize, hmachine, hoffset⟩ := typed
    refine (Accepted.single ["Id", "Name", "Offset", "Size", "LoadStateMachine"]
      [("LoadStateMachine", .byte), ("Offset", .uint32), ("Size", .uint32)] (readable (by simp))
        ?_ indent).congr (iff_true_intro ?_)
    · have hnames := ((List.Sublist.refl ["Id"]).append (names_optional name "Name" .given)).append
        (.refl ["Offset", "Size", "LoadStateMachine"])
      simp only [List.map_append]
      exact hnames
    refine accepts_append.mpr ⟨accepts_append.mpr ⟨?_,
      accepts_optional _ _ (by simp)⟩, ?_⟩
    · simp [Accepts]
    · simpa [Accepts, number, number_accepts normalizes] using ⟨hoffset, hsize, hmachine⟩

theorem writeCode_accepted (typed : ∀ seg ∈ app.segments, seg.Typed) :
    Accepted lib (app.writeCode indent) True := by
  have hsegments (wantAbs : Bool) : Accepted lib
      ((app.segments.zipIdx.filter fun v => AppProgram.isAbsolute v.1 = wantAbs).map
        fun v => app.writeSegment (indent + 2) v.2 v.1) True := by
    refine (Accepted.map fun v hv => writeSegment_accepted app (indent + 2) normalizes v.2
      (typed v.1 ?_)).congr (by simp)
    exact List.mem_of_getElem? (List.mem_zipIdx_iff_getElem?.mp (List.mem_of_mem_filter hv))
  refine .unlessEmpty (.plainNode [] (readable (by simp)) (.refl _) (by decide)
    ((Accepted.flatMap fun wantAbs _ => hsegments wantAbs).congr (by simp)) indent) (by simp)

/-! ### Load procedures -/

omit app indent in
theorem target_accepts {types : List (String × AttrType)} {target : ObjTarget}
    (typed : target.Typed) (hlsm : ∀ t, ("LsmIdx", t) ∈ types → t = .byte)
    (htype : ∀ t, ("ObjType", t) ∈ types → t = .uint16)
    (hidx : ∀ t, ("ObjIdx", t) ∈ types → t = .byte)
    (hoccurrence : ("Occurrence", .byte) ∈ types ∧ ∀ t, ("Occurrence", t) ∈ types → t = .byte) :
    Accepts lib types target.attrs ↔ target.Fits := by
  have hoptional (occurrence : Nat) : Accepts lib types
      (if occurrence ≠ 0 then [number "Occurrence" occurrence] else []) ↔ occurrence < 2 ^ 8 := by
    split_ifs with hzero
    · rw [← (number_accepts normalizes occurrence).1]
      constructor
      · exact fun h => h _ List.mem_cons_self _ hoccurrence.1
      · intro h a ha t ht
        obtain rfl := List.mem_singleton.mp ha
        rw [hoccurrence.2 t ht]
        exact h
    · rw [not_not.mp hzero]
      exact iff_of_true (fun a ha => absurd ha List.not_mem_nil) (by decide)
  cases target with
  | lsm n =>
    refine iff_of_true (fun a ha t ht => ?_) trivial
    obtain rfl := List.mem_singleton.mp ha
    rw [hlsm t ht]
    exact (number_accepts normalizes n).1.mpr typed
  | object objType occurrence =>
    refine List.forall_mem_cons.trans ((and_iff_right fun t ht => ?_).trans (hoptional occurrence))
    rw [htype t ht]
    exact (number_accepts normalizes objType).2.1.mpr typed.1
  | objIdx index occurrence =>
    refine List.forall_mem_cons.trans ((and_iff_right fun t ht => ?_).trans (hoptional occurrence))
    rw [hidx t ht]
    exact (number_accepts normalizes index).1.mpr typed.1

omit app indent in
theorem element_accepts {control : LoadControl} (typed : control.Typed) :
    ∃ types, numbered control.element.1 types = true ∧ (∀ t, ("AppliesTo", t) ∉ types) ∧
      (Accepts lib types control.element.2 ↔ control.Fits) := by
  have hinline {types : List (String × AttrType)} (h : ∀ t, ("InlineData", t) ∉ types)
      (data : Option (List UInt8)) : Accepts lib types (pushInline data) :=
    accepts_optional data _ h
  have hnumbered {types : List (String × AttrType)} (name : String)
      (hname : control.element.1 = name) (h : (name, types) ∈ stepNumbers) :
      numbered control.element.1 types = true := by
    rw [hname]
    exact stepNumbers_numbered (name, types) h
  have htable (target : ObjTarget) (htarget : target.Typed) : Accepts lib
      [("LsmIdx", .byte), ("ObjType", .uint16), ("Occurrence", .byte)] target.attrs ↔
        target.Fits :=
    target_accepts normalizes htarget (by simp) (by simp) (by simp) (by simp)
  cases control with
  | connect =>
    exact ⟨[], hnumbered "LdCtrlConnect" rfl (by simp), by simp,
      iff_of_true (accepts_none _) trivial⟩
  | disconnect =>
    exact ⟨[], hnumbered "LdCtrlDisconnect" rfl (by simp), by simp,
      iff_of_true (accepts_none _) trivial⟩
  | restart =>
    exact ⟨[], hnumbered "LdCtrlRestart" rfl (by simp), by simp,
      iff_of_true (accepts_none _) trivial⟩
  | unload target =>
    exact ⟨_, hnumbered "LdCtrlUnload" rfl (by simp), by simp, htable target typed⟩
  | load target =>
    exact ⟨_, hnumbered "LdCtrlLoad" rfl (by simp), by simp, htable target typed⟩
  | loadCompleted target =>
    exact ⟨_, hnumbered "LdCtrlLoadCompleted" rfl (by simp), by simp,
      htable target typed⟩
  | absSegment target segType address size access memType segFlags =>
    obtain ⟨htarget, hsegType, haddress, hsize, haccess, hmemType, hsegFlags⟩ := typed
    refine ⟨[("Access", .byte), ("Address", .uint16), ("LsmIdx", .byte), ("MemType", .byte),
      ("ObjType", .uint16), ("Occurrence", .byte), ("SegFlags", .byte), ("SegType", .byte),
      ("Size", .uint32)], hnumbered "LdCtrlAbsSegment" rfl (by simp), by simp, ?_⟩
    refine accepts_append.trans (and_congr (target_accepts normalizes htarget (by simp) (by simp)
      (by simp) (by simp)) ?_)
    simp [Accepts, number, number_accepts normalizes]
    omega
  | relSegment target size mode fill =>
    obtain ⟨htarget, hsize, hmode, hfill⟩ := typed
    refine ⟨[("Fill", .byte), ("LsmIdx", .byte), ("Mode", .byte), ("ObjType", .uint16),
      ("Occurrence", .byte), ("Size", .uint32)], hnumbered "LdCtrlRelSegment" rfl (by simp),
      by simp, ?_⟩
    refine accepts_append.trans ((and_iff_left ?_).trans (target_accepts normalizes htarget
      (by simp) (by simp) (by simp) (by simp)))
    simp [Accepts, number, number_accepts normalizes]
    omega
  | writeMem address size verify inlineData =>
    refine ⟨[("Address", .uint32), ("Size", .uint32)],
      hnumbered "LdCtrlWriteMem" rfl (by simp), by simp,
      iff_of_true ?_ trivial⟩
    refine accepts_append.mpr ⟨accepts_append.mpr ⟨?_, accepts_flag _ (by simp)⟩,
      hinline (by simp) inlineData⟩
    have hsizes : address < 2 ^ 32 ∧ size < 2 ^ 32 := typed
    simpa [Accepts, number, number_accepts normalizes] using hsizes
  | loadImageMem address size =>
    refine ⟨[("Address", .uint32), ("Size", .uint32)],
      hnumbered "LdCtrlLoadImageMem" rfl (by simp), by simp,
      iff_of_true ?_ trivial⟩
    have hsizes : address < 2 ^ 32 ∧ size < 2 ^ 32 := typed
    simpa [LoadControl.element, Accepts, number, number_accepts normalizes] using hsizes
  | writeRelMem target offset size verify inlineData =>
    obtain ⟨htarget, hoffset, hsize⟩ := typed
    refine ⟨[("ObjIdx", .byte), ("ObjType", .uint16), ("Occurrence", .byte), ("Offset", .uint32),
      ("Size", .uint32)], hnumbered "LdCtrlWriteRelMem" rfl (by simp), by simp, ?_⟩
    refine accepts_append.trans ((and_iff_left (hinline (by simp) inlineData)).trans
      (accepts_append.trans ((and_iff_left (accepts_flag _ (by simp))).trans
        (accepts_append.trans ((and_iff_left ?_).trans (target_accepts normalizes htarget
          (by simp) (by simp) (by simp) (by simp)))))))
    simp [Accepts, number, number_accepts normalizes]
    omega
  | compareProp target propId inlineData =>
    refine ⟨[("Count", .uint16), ("ObjIdx", .byte), ("ObjType", .uint16), ("Occurrence", .byte),
      ("PropId", .byte), ("RetryInterval", .uint16), ("StartElement", .uint16),
      ("TimeOut", .uint16)], hnumbered "LdCtrlCompareProp" rfl (by simp), by simp, ?_⟩
    refine accepts_append.trans (and_congr (accepts_append.trans ((and_iff_right
      (hinline (by simp) inlineData)).trans (target_accepts normalizes typed.1 (by simp) (by simp)
        (by simp) (by simp)))) ?_)
    simp [Accepts, number, number_accepts normalizes]
  | loadImageProp target propId =>
    refine ⟨[("Count", .uint16), ("ObjIdx", .byte), ("ObjType", .uint16), ("Occurrence", .byte),
      ("PropId", .byte), ("StartElement", .uint16)],
      hnumbered "LdCtrlLoadImageProp" rfl (by simp), by simp, ?_⟩
    refine accepts_append.trans (and_congr (target_accepts normalizes typed.1 (by simp) (by simp)
      (by simp) (by simp)) ?_)
    simp [Accepts, number, number_accepts normalizes]
  | delay milliseconds =>
    refine ⟨[("MilliSeconds", .uint16)], hnumbered "LdCtrlDelay" rfl (by simp), by simp,
      iff_of_true ?_ trivial⟩
    have hdelay : milliseconds < 2 ^ 16 := typed
    simpa [LoadControl.element, Accepts, number, number_accepts normalizes] using hdelay
  | progressText textId messageRef =>
    exact ⟨[], hnumbered "LdCtrlProgressText" rfl (by simp), by simp,
      iff_of_true (accepts_none _) trivial⟩

omit app in
theorem writeStep_accepted {control : LoadControl} (typed : control.Typed) (base : StepBase) :
    Accepted lib (writeStep indent control base) control.Fits := by
  obtain ⟨tag, hmem, hname, hnames⟩ := element_names control
  obtain ⟨types, htypes, happlies, haccepts⟩ := element_accepts normalizes typed
  have htag : readableTag control.element.1 (tag.2 ++ ["AppliesTo"]) types = true :=
    Bool.and_eq_true_iff.mpr ⟨hname ▸ stepTags_readable tag hmem, htypes⟩
  have hsub : ((control.element.2 ++ optional base.appliesTo fun pt =>
      ("AppliesTo", .plain pt.ets)).map Prod.fst).Sublist (tag.2 ++ ["AppliesTo"]) :=
    names_append hnames (names_optional _ _ _)
  have hfits : Accepts lib types (control.element.2 ++ optional base.appliesTo fun pt =>
      ("AppliesTo", .plain pt.ets)) ↔ control.Fits :=
    accepts_append.trans ((and_iff_left (accepts_optional _ _ happlies)).trans haccepts)
  have hother : control.element.1 ≠ "ApplicationPrograms" := by
    have hnone : ∀ tag ∈ stepTags, tag.1 ≠ "ApplicationPrograms" := by decide
    exact hname ▸ hnone tag hmem
  unfold writeStep
  dsimp only
  split_ifs
  · exact (Accepted.single _ types htag hsub indent).congr hfits
  · have herrors : Accepted lib (base.onError.map fun e => .single (indent + 2) "OnError" e.attrs)
        True := by
      refine (Accepted.map fun e _ => .plainSingle ["Cause", "Ignore", "MessageRef"]
        (readable (by simp)) ?_ (indent + 2)).congr (by simp)
      have hnames := (List.Sublist.refl ["Cause"]).append ((names_flag e.ignore "Ignore").append
        (names_optional e.messageRef "MessageRef" .given))
      rw [← List.map_append] at hnames
      exact hnames
    exact (Accepted.node _ types htag hsub hother herrors indent).congr
      ((and_iff_left trivial).trans hfits)

theorem writeLoadProcedures_accepted (typed : ∀ proc ∈ app.loadProcedures, proc.Typed) :
    Accepted lib (app.writeLoadProcedures indent)
      (∀ proc ∈ app.loadProcedures, ∀ step ∈ proc.steps, step.1.Fits) := by
  refine .collection (readable (by simp)) (by decide) (fun proc hproc => ?_) indent
  refine (Accepted.node ["MergeId"] [("MergeId", .byte)] (readable (by simp))
    (names_optional proc.mergeId _ _) (by decide) (.flatMap fun step hstep =>
      writeStep_accepted _ normalizes ((typed proc hproc).steps step hstep) step.2) _).congr
        (and_iff_right ?_)
  intro a ha t ht
  obtain ⟨id, hid, rfl⟩ := List.mem_map.mp ha
  have ht : t = .byte := by simpa [number] using ht
  rw [ht]
  exact (number_accepts normalizes id).1.mpr ((typed proc hproc).mergeId id (by simpa using hid))

/-! ### The document -/

theorem tables_accepted (name : String) (hname : readableTag name ["MaxEntries"]
      [("MaxEntries", .uint32), ("Offset", .uint32)] = true) {max : Option Nat}
    (typed : ∀ n, max = some n → n < 2 ^ 32) : Accepted lib
      (max.toList.flatMap fun n => [.single indent name [number "MaxEntries" n]]) True := by
  refine (Accepted.flatMap fun n _ => .single ["MaxEntries"] _ hname (.refl _) indent).congr
    (iff_true_intro fun n hn => ?_)
  have hmax := typed n (by simpa using hn)
  simpa [Accepts, number, number_accepts normalizes] using hmax

theorem writeStatic_accepted (typed : app.Typed) (registered : app.registered = true) :
    Accepted lib (app.writeStatic indent) app.Fits := by
  refine ((((((((((writeCode_accepted app indent normalizes typed.segments).append
    (writeParameterTypes_accepted app indent normalizes typed.parameterTypes)).append
    (writeParameters_accepted app indent normalizes (registered_types registered))).append
    (writeParameterRefs_accepted app indent)).append
    (writeComObjectTable_accepted app indent normalizes typed.comObjects)).append
    (writeComObjectRefs_accepted app indent)).append
    (tables_accepted indent normalizes "AddressTable" (readable (by simp))
      typed.addressTableMax)).append
    (tables_accepted indent normalizes "AssociationTable" (readable (by simp))
      typed.associationTableMax)).append
    (writeLoadProcedures_accepted app indent normalizes typed.loadProcedures)).append
    (writeMessages_accepted app indent)).append
    (.flatMap fun options _ => options_accepted indent options) |>.congr ⟨?_, ?_⟩
  · rintro ⟨⟨⟨⟨⟨⟨⟨⟨⟨⟨_, htypes⟩, hparameters⟩, _⟩, _⟩, _⟩, _⟩, _⟩, hsteps⟩, _⟩, _⟩
    exact ⟨htypes, hparameters, hsteps⟩
  · intro h
    exact ⟨⟨⟨⟨⟨⟨⟨⟨⟨⟨trivial, h.parameterTypes⟩, h.parameters⟩, trivial⟩, trivial⟩, trivial⟩,
      trivial⟩, trivial⟩, h.steps⟩, trivial⟩, fun _ _ => trivial⟩

theorem applicationProgram_accepted (info : ProgramInfo) (typed : app.Typed)
    (registered : app.registered = true) : Accepted lib
      (node indent "ApplicationProgram" [("Id", .plain app.appPrefix),
        ("ProgramType", .given info.programType), ("MaskVersion", .given info.maskVersion),
        ("Name", .given info.name), ("LoadProcedureStyle", .given info.loadProcedureStyle),
        ("PeiType", .given info.peiType), ("DefaultLanguage", .given info.defaultLanguage),
        ("DynamicTableManagement", .plain (xmlBool info.dynamicTableManagement)),
        ("Linkable", .plain (xmlBool info.linkable)),
        ("MinEtsVersion", .given info.minEtsVersion), ("IPConfig", .given info.ipConfig),
        number "ApplicationNumber" info.applicationNumber,
        number "ApplicationVersion" info.applicationVersion,
        ("ReplacesVersions", .plain (AppProgram.replacesVersions info.applicationVersion))]
        (node (indent + 2) "Static" [] (app.writeStatic (indent + 4)) ++
          app.writeDynamic (indent + 2))) (info.Fits ∧ app.Fits) := by
  refine (Accepted.node ["Id", "ProgramType", "MaskVersion", "Name", "LoadProcedureStyle",
    "PeiType", "DefaultLanguage", "DynamicTableManagement", "Linkable", "MinEtsVersion",
    "IPConfig", "ApplicationNumber", "ApplicationVersion", "ReplacesVersions"]
    [("AdditionalAddressesCount", .int32), ("ApplicationNumber", .uint16),
      ("ApplicationVersion", .byte), ("MaxSecurityGroupKeyTableEntries", .uint16),
      ("MaxSecurityIndividualAddressEntries", .uint16),
      ("MaxSecurityP2PKeyTableEntries", .uint16),
      ("MaxSecurityProxyGroupKeyTableEntries", .uint16),
      ("MaxSecurityProxyIndividualAddressTableEntries", .uint16),
      ("MaxTunnelingUserEntries", .uint16), ("MaxUserEntries", .uint16), ("PeiType", .byte)]
    (readable (by simp)) (.refl _) (by decide)
    (.append (.plainNode [] (readable (by simp)) (.refl _) (by decide)
      (writeStatic_accepted app _ normalizes typed registered) _)
      (writeDynamic_accepted app _)) indent).congr (and_congr ?_ (and_iff_left trivial))
  simp [Accepts, number, number_accepts normalizes, peiType_accepts normalizes]
  exact ⟨fun h => ⟨h.2.1, h.2.2, h.1⟩, fun h => ⟨h.peiType, h.applicationNumber,
    h.applicationVersion⟩⟩

theorem documentLines_holding (info : ProgramInfo) (createdBy toolVersion : Text)
    (typed : app.Typed) (registered : app.registered = true) : Holding lib
      (app.documentLines info createdBy toolVersion) (info.Fits ∧ app.Fits) := by
  have hprograms : Holding lib (app.writeApplicationProgram info 6) (info.Fits ∧ app.Fits) :=
    .programs (applicationProgram_accepted app 8 normalizes info typed registered) 6
  exact .node ["xmlns", "CreatedBy", "ToolVersion"] (readable_tag (by simp)) (.refl _) (by decide)
    (.node [] (readable_tag (by simp)) (.refl _) (by decide) (.node ["RefId"]
      (readable_tag (by simp)) (.refl _) (by decide) ((((writeCatalog_accepted app 6).holding
        hprograms).append (writeBaggages_accepted app 6)).append (writeHardware_accepted app 6) |>.append
          (writeLanguages_accepted app 6)) 4) 2) 0

end

/-- The document of a program is hashed exactly when the numbers that the registry reads in a
    narrower type are in it. -/
theorem document_hashed_iff {lib : Library} {reader : Text → List Event} {app : AppProgram}
    {info : ProgramInfo} {createdBy toolVersion xml : Text} (documented : lib.Documented)
    (normalizes : Normalizes lib) (typed : app.Typed)
    (emitted : app.writeKnxDocument info createdBy toolVersion = some xml)
    (reads : reader xml = documentEvents (app.documentLines info createdBy toolVersion)) :
    (∃ hash, hashApplicationProgram lib reader xml = .ok hash) ↔ info.Fits ∧ app.Fits := by
  unfold AppProgram.writeKnxDocument at emitted
  split_ifs at emitted with registered
  exact hash_holding documented reads
    (documentLines_holding app normalizes info createdBy toolVersion typed registered)

/-! ## A dimmer, and a switch with a negative value -/

/-- What the document of a program without octets in inner text needs of the other crates. -/
def crateLibrary : Library :=
  { libraryOf [] with
    normalizedValue := attributeValue
    md5 := Digests.digest
    encode := Digests.encode }

def dimmerProgram : AppProgram :=
  { AppProgram.new "M-00FA_A-0001-01-0000".toList with
    parameterTypes := [⟨"Level".toList, .number 8 "unsignedInt".toList 0 100⟩,
      ⟨"Switch".toList, .enumeration 8 [("Off".toList, 0), ("On".toList, 1)]⟩]
    parameters := [⟨"1".toList, "Start".toList, 0, "Start".toList, "50".toList, 0⟩,
      ⟨"2".toList, "Active".toList, 1, "Active".toList, "1".toList, 1⟩]
    comObjects := [⟨"1".toList, "Dim".toList, 1, "Dimmer".toList, "Level".toList, "1 Byte".toList,
      ⟨5, 1⟩, ⟨false, true, false, false⟩⟩]
    segments := [.relative (some "Values".toList) 2 4 0]
    parameterSegment := some 0
    loadProcedures := [⟨some 1, [(.relSegment (.lsm 4) 2 0 0, ⟨none, []⟩),
      (.writeRelMem (.object 4 1) 0 2 true (some [50, 1]), ⟨some .full, []⟩),
      (.delay 100, ⟨none, []⟩)]⟩]
    addressTableMax := some 64
    associationTableMax := some 64 }

theorem dimmerProgram_typed : dimmerProgram.Typed where
  parameterTypes := by
    simp only [dimmerProgram, List.forall_mem_cons, ParamTypeKind.Typed, isI64]
    simp
  comObjects := by simp [dimmerProgram]
  segments := by simp [dimmerProgram, Segment.Typed]
  loadProcedures := by
    intro proc hproc
    obtain rfl := List.mem_singleton.mp hproc
    refine ⟨by simp, ?_⟩
    simp only [List.forall_mem_cons, LoadControl.Typed, ObjTarget.Typed]
    simp
  addressTableMax := by simp [dimmerProgram]
  associationTableMax := by simp [dimmerProgram]

theorem dimmerProgram_fits : dimmerProgram.Fits where
  parameterTypes := by
    simp only [dimmerProgram, List.forall_mem_cons, ParamTypeKind.Fits]
    simp
  parameters := by simp [dimmerProgram]
  steps := by
    simp only [dimmerProgram, List.forall_mem_cons, LoadControl.Fits, ObjTarget.Fits]
    simp

theorem dimmerProgram_hashed : ∃ xml,
    dimmerProgram.writeKnxDocument helpInfo "xtask".toList "1.0".toList = some xml ∧
    ∃ hash, hashApplicationProgram crateLibrary (fun _ => documentEvents
      (dimmerProgram.documentLines helpInfo "xtask".toList "1.0".toList)) xml = .ok hash :=
  ⟨_, if_pos (by decide), (document_hashed_iff (fun raw h => if_neg h) (fun _ _ h => h)
    dimmerProgram_typed (if_pos (by decide)) rfl).mpr
      ⟨⟨by decide, by decide, .inr (by decide)⟩, dimmerProgram_fits⟩⟩

/-- A program with a parameter type of one value. -/
def switchProgram (value : Int) : AppProgram :=
  { AppProgram.new "M-00FA_A-0001-01-0000".toList with
    parameterTypes := [⟨"Switch".toList, .enumeration 8 [("Off".toList, value)]⟩] }

/-- A negative value of an enumeration is emitted, but cannot be hashed. -/
theorem negative_value_rejected : (switchProgram (-1)).Typed ∧ crateLibrary.Documented ∧
    Normalizes crateLibrary ∧ ∃ xml,
      (switchProgram (-1)).writeKnxDocument helpInfo "xtask".toList "1.0".toList = some xml ∧
      hashApplicationProgram crateLibrary (fun _ => documentEvents
          ((switchProgram (-1)).documentLines helpInfo "xtask".toList "1.0".toList)) xml =
        .error (.error (.invalidStructure (.unparseable "V".toList "-1".toList))) := by
  refine ⟨⟨?types, ?_, ?_, ?_, ?_, ?_⟩, fun raw h => if_neg h, fun _ _ h => h, _,
    if_pos (by decide), eq_error (by decide +kernel)⟩
  case types =>
    intro pt hpt
    obtain rfl := List.mem_singleton.mp hpt
    refine ⟨by decide, fun v hv => ?_⟩
    obtain rfl := List.mem_singleton.mp hv
    exact ⟨by decide, by decide⟩
  all_goals
    intro _ h
    cases h

end KnxRs.Author
