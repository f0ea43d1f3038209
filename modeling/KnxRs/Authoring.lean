import KnxRs.AuthoredLines

set_option autoImplicit false

/-!
# The authoring API

The typed model of a product and the sections it is written as, each as the lines it adds.
Where the code panics on a handle of another program, nothing is written for it.
-/
namespace KnxRs.Author
open Texts

/-! ## Formats -/

/-- `{n:0width}`. -/
def padded (width n : Nat) : Text := List.replicate (width - (decimal n).length) '0' ++ decimal n

def upperDigit (n : Nat) : Char := (Nat.digitChar n).toUpper

/-- `{n:0widthX}` of a number of at most that many digits. -/
def upperHex (width n : Nat) : Text :=
  (List.range width).reverse.map fun i => upperDigit (n / 16 ^ i % 16)

def signed : Int → Text
  | .ofNat n => decimal n
  | .negSucc n => '-' :: decimal (n + 1)

def xmlBool (b : Bool) : Text := if b then "true".toList else "false".toList

def isAsciiAlphanumeric (c : Char) : Bool := c.isAlphanum

/-- Every other character as its octets. -/
def encodeIdComponent (s : Text) : Text :=
  s.flatMap fun c =>
    if isAsciiAlphanumeric c then [c]
    else (String.utf8EncodeChar c).flatMap fun b => '.' :: upperHex 2 b.toNat

/-! ## The model -/

structure Dpt where
  main : Nat
  sub : Nat

def Dpt.dpst (dpt : Dpt) : Text :=
  "DPST-".toList ++ decimal dpt.main ++ "-".toList ++ decimal dpt.sub

structure Flags where
  read : Bool
  write : Bool
  transmit : Bool
  update : Bool

def Flags.ets (enabled : Bool) : Text := if enabled then "Enabled".toList else "Disabled".toList

inductive Attr where
  | text | name | functionText | suffixText | visibleDescription | initialValue | value

def Attr.asStr : Attr → Text
  | text => "Text".toList
  | name => "Name".toList
  | functionText => "FunctionText".toList
  | suffixText => "SuffixText".toList
  | visibleDescription => "VisibleDescription".toList
  | initialValue => "InitialValue".toList
  | value => "Value".toList

structure Translation where
  refId : Text
  attr : Attr
  text : Text

structure ComObject where
  suffix : Text
  name : Text
  number : Nat
  text : Text
  functionText : Text
  objectSize : Text
  dpt : Dpt
  flags : Flags

/-- `paramType` is the handle of a parameter type. -/
structure Parameter where
  suffix : Text
  name : Text
  paramType : Nat
  text : Text
  value : Text
  offset : Nat

structure Baggage where
  targetPath : Text
  name : Text
  timeInfo : Option Text
  fileIntegrity : Option UInt32

inductive ParamTypeKind where
  | text (sizeBits : Nat)
  | number (sizeBits : Nat) (numberType : Text) (min max : Int)
  | enumeration (sizeBits : Nat) (values : List (Text × Int))

def ParamTypeKind.sizeBits : ParamTypeKind → Nat
  | text sizeBits => sizeBits
  | number sizeBits _ _ _ => sizeBits
  | enumeration sizeBits _ => sizeBits

structure ParameterType where
  name : Text
  kind : ParamTypeKind

/-! ### Segments and load procedures -/

inductive ProcType where
  | full | par | grp | fullPar | fullGrp | parGrp | all

def ProcType.ets : ProcType → Text
  | full => "full".toList
  | par => "par".toList
  | grp => "grp".toList
  | fullPar => "full,par".toList
  | fullGrp => "full,grp".toList
  | parGrp => "par,grp".toList
  | all => "all".toList

inductive SegMemoryType where
  | ram | eeprom | flash

def SegMemoryType.ets : SegMemoryType → Text
  | ram => "RAM".toList
  | eeprom => "EEPROM".toList
  | flash => "FLASH".toList

inductive ErrorCause where
  | resourceNotFound | compareMismatch

def ErrorCause.ets : ErrorCause → Text
  | resourceNotFound => "ResourceNotFound".toList
  | compareMismatch => "CompareMismatch".toList

inductive ObjTarget where
  | lsm (n : Nat)
  | object (objType occurrence : Nat)
  | objIdx (objIdx occurrence : Nat)

structure OnError where
  cause : ErrorCause
  ignore : Bool
  messageRef : Option Text

structure StepBase where
  appliesTo : Option ProcType
  onError : List OnError

inductive Segment where
  | absolute (name : Option Text) (size address : Nat) (memoryType : Option SegMemoryType)
      (userMemory : Bool)
  | relative (name : Option Text) (size loadStateMachine offset : Nat)

inductive LoadControl where
  | connect
  | disconnect
  | restart
  | unload (target : ObjTarget)
  | load (target : ObjTarget)
  | loadCompleted (target : ObjTarget)
  | absSegment (target : ObjTarget) (segType address size access memType segFlags : Nat)
  | relSegment (target : ObjTarget) (size mode fill : Nat)
  | writeMem (address size : Nat) (verify : Bool) (inlineData : Option (List UInt8))
  | loadImageMem (address size : Nat)
  | writeRelMem (target : ObjTarget) (offset size : Nat) (verify : Bool)
      (inlineData : Option (List UInt8))
  | compareProp (target : ObjTarget) (propId : Nat) (inlineData : Option (List UInt8))
  | loadImageProp (target : ObjTarget) (propId : Nat)
  | delay (milliseconds : Nat)
  | progressText (textId : Option Nat) (messageRef : Option Text)

structure LoadProcedure where
  mergeId : Option Nat
  steps : List (LoadControl × StepBase)

/-! ### The dynamic tree -/

mutual

/-- References are the handles of a parameter or of a group object. -/
inductive Dyn where
  | channelIndependentBlock (children : List Dyn)
  | channel (suffix number name text : Text) (children : List Dyn)
  | parameterBlock (suffix name text : Text) (textParamRef : Option Nat)
      (showInComObjectTree : Bool) (children : List Dyn)
  | paramRefRef (r : Nat)
  | comObjRefRef (r : Nat)
  | separator (suffix text uiHint : Text)
  | choose (paramRef : Nat) (whens : List When)

inductive When where
  | mk (test : Text) (children : List Dyn)

end

/-! ### Products -/

structure Product where
  orderNumber : Text
  text : Text
  isRailMounted : Bool
  defaultLanguage : Text

structure Hardware2Program where
  mediumTypes : Text
  registrationNumber : Text

structure Hardware where
  serialNumber : Text
  versionNumber : Nat
  name : Text
  busCurrent : Nat
  hasIndividualAddress : Bool
  hasApplicationProgram : Bool
  products : List Product
  programs : List Hardware2Program

structure CatalogItem where
  name : Text
  number : Text
  serialNumber : Text
  versionNumber : Nat
  orderNumber : Text
  defaultLanguage : Text

structure CatalogSection where
  key : Text
  name : Text
  number : Text
  defaultLanguage : Text
  items : List CatalogItem

structure Message where
  suffix : Text
  name : Text
  text : Text

structure Options where
  textParameterEncoding : Text
  supportsExtendedMemoryServices : Bool
  supportsExtendedPropertyServices : Bool

structure ProgramInfo where
  name : Text
  maskVersion : Text
  defaultLanguage : Text
  applicationNumber : Nat
  applicationVersion : Nat
  programType : Text
  loadProcedureStyle : Text
  peiType : Text
  dynamicTableManagement : Bool
  linkable : Bool
  minEtsVersion : Text
  ipConfig : Text

/-- The order of the locales has those of the translations. -/
structure AppProgram where
  appPrefix : Text
  parameters : List Parameter
  parameterTypes : List ParameterType
  comObjects : List ComObject
  languageOrder : List Text
  translations : List (Text × Translation)
  baggages : List Baggage
  segments : List Segment
  parameterSegment : Option Nat
  loadProcedures : List LoadProcedure
  dynamic : List Dyn
  catalogSections : List CatalogSection
  hardware : List Hardware
  messages : List Message
  addressTableMax : Option Nat
  associationTableMax : Option Nat
  options : Option Options
  spoken : ∀ language, language ∈ languageOrder ↔ ∃ t ∈ translations, t.1 = language

/-! ## Attributes -/

def number (name : String) (n : Nat) : String × Value := (name, .plain (decimal n))

def constant (name : String) (value : String) : String × Value := (name, .plain value.toList)

def optional {α : Type} (value : Option α) (f : α → String × Value) : Attributes :=
  value.toList.map f

def flag (set : Bool) (name : String) : Attributes := if set then [constant name "true"] else []

def unlessEmpty {α : Type} (xs : List α) (lines : List Line) : List Line :=
  if xs.isEmpty then [] else lines

/-! ## Load procedures -/

def ObjTarget.attrs : ObjTarget → Attributes
  | lsm n => [number "LsmIdx" n]
  | object objType occurrence => number "ObjType" objType ::
      (if occurrence ≠ 0 then [number "Occurrence" occurrence] else [])
  | objIdx index occurrence => number "ObjIdx" index ::
      (if occurrence ≠ 0 then [number "Occurrence" occurrence] else [])

def pushInline (data : Option (List UInt8)) : Attributes :=
  optional data fun bytes =>
    ("InlineData", .plain (bytes.flatMap fun b => upperHex 2 b.toNat))

def LoadControl.element : LoadControl → String × Attributes
  | connect => ("LdCtrlConnect", [])
  | disconnect => ("LdCtrlDisconnect", [])
  | restart => ("LdCtrlRestart", [])
  | unload target => ("LdCtrlUnload", target.attrs)
  | load target => ("LdCtrlLoad", target.attrs)
  | loadCompleted target => ("LdCtrlLoadCompleted", target.attrs)
  | absSegment target segType address size access memType segFlags =>
    ("LdCtrlAbsSegment", target.attrs ++ [number "SegType" segType, number "Address" address,
      number "Size" size, number "Access" access, number "MemType" memType,
      number "SegFlags" segFlags])
  | relSegment target size mode fill =>
    ("LdCtrlRelSegment", target.attrs ++ [number "Size" size, number "Mode" mode,
      number "Fill" fill])
  | writeMem address size verify inlineData =>
    ("LdCtrlWriteMem", [number "Address" address, number "Size" size] ++ flag verify "Verify" ++
      pushInline inlineData)
  | loadImageMem address size =>
    ("LdCtrlLoadImageMem", [number "Address" address, number "Size" size])
  | writeRelMem target offset size verify inlineData =>
    ("LdCtrlWriteRelMem", target.attrs ++ [number "Offset" offset, number "Size" size] ++
      flag verify "Verify" ++ pushInline inlineData)
  | compareProp target propId inlineData =>
    ("LdCtrlCompareProp", pushInline inlineData ++ target.attrs ++ [number "PropId" propId])
  | loadImageProp target propId =>
    ("LdCtrlLoadImageProp", target.attrs ++ [number "PropId" propId])
  | delay milliseconds => ("LdCtrlDelay", [number "MilliSeconds" milliseconds])
  | progressText textId messageRef =>
    ("LdCtrlProgressText", optional textId (number "TextId") ++
      optional messageRef fun m => ("MessageRef", .given m))

def OnError.attrs (e : OnError) : Attributes :=
  ("Cause", .plain e.cause.ets) :: (flag e.ignore "Ignore" ++
    optional e.messageRef fun m => ("MessageRef", .given m))

/-- A step is one tag, unless it has handlers of errors. -/
def writeStep (indent : Nat) (control : LoadControl) (base : StepBase) : List Line :=
  let attrs := control.element.2 ++ optional base.appliesTo fun pt => ("AppliesTo", .plain pt.ets)
  if base.onError.isEmpty then [.single indent control.element.1 attrs]
  else node indent control.element.1 attrs
    (base.onError.map fun e => .single (indent + 2) "OnError" e.attrs)

def writeLoadProcedure (indent : Nat) (proc : LoadProcedure) : List Line :=
  node indent "LoadProcedure" (optional proc.mergeId (number "MergeId"))
    (proc.steps.flatMap fun (control, base) => writeStep (indent + 2) control base)

/-! ## Products -/

def Options.write (options : Options) (indent : Nat) : List Line :=
  [.single indent "Options" [("TextParameterEncoding", .given options.textParameterEncoding),
    ("SupportsExtendedMemoryServices", .plain (xmlBool options.supportsExtendedMemoryServices)),
    ("SupportsExtendedPropertyServices",
      .plain (xmlBool options.supportsExtendedPropertyServices))]]

def writeAddressTable (indent maxEntries : Nat) : List Line :=
  [.single indent "AddressTable" [number "MaxEntries" maxEntries]]

def writeAssociationTable (indent maxEntries : Nat) : List Line :=
  [.single indent "AssociationTable" [number "MaxEntries" maxEntries]]

def productId (hardwareId orderNumber : Text) : Text :=
  hardwareId ++ "_P-".toList ++ encodeIdComponent orderNumber

namespace AppProgram
variable (app : AppProgram)

/-! ## Ids -/

/-- The prefix up to its `_A-` tail. -/
def manufacturer : Text :=
  match splitOnce "_A-".toList app.appPrefix with
  | some (m, _) => m
  | none => app.appPrefix

def appTail : Text :=
  match splitOnce "_A-".toList app.appPrefix with
  | some (_, tail) => tail
  | none => []

def hardwareId (serialNumber : Text) (versionNumber : Nat) : Text :=
  app.manufacturer ++ "_H-".toList ++ encodeIdComponent serialNumber ++ "-".toList ++
    decimal versionNumber

def baggageId (b : Baggage) : Text :=
  let path := b.targetPath.map fun c => if c = '\\' then '/' else c
  app.manufacturer ++ "_BG-".toList ++ encodeIdComponent path ++ "-".toList ++
    encodeIdComponent b.name

def paramId (p : Parameter) : Text := app.appPrefix ++ "_UP-".toList ++ p.suffix

def comObjectId (co : ComObject) : Text := app.appPrefix ++ "_O-".toList ++ co.suffix

def paramTypeXmlId (type : ParameterType) : Text :=
  app.appPrefix ++ "_PT-".toList ++ encodeIdComponent type.name

/-- The `<ParameterRef>` that a handle resolves to. -/
def paramRefRefId (r : Nat) : Text :=
  match app.parameters[r]? with
  | some p => app.paramId p ++ "_R-".toList ++ app.paramId p
  | none => []

def comObjectRefRefId (r : Nat) : Text :=
  match app.comObjects[r]? with
  | some co => app.comObjectId co ++ "_R-".toList ++ decimal co.number
  | none => []

def segmentId (id : Nat) : Text :=
  match app.segments[id]? with
  | some (.absolute _ _ _ _ _) => app.appPrefix ++ "_AS-".toList ++ decimal id
  | some (.relative _ _ loadStateMachine _) =>
    app.appPrefix ++ "_RS-".toList ++ padded 2 loadStateMachine ++ "-".toList ++ padded 5 id
  | none => []

/-! ## Sections -/

def writeBaggage (indent : Nat) (b : Baggage) : List Line :=
  node indent "Baggage" ([("TargetPath", .given b.targetPath), ("Name", .given b.name)] ++
      (optional b.fileIntegrity fun crc => ("FileIntegrity", .plain (upperHex 8 crc.toNat))) ++
      [("Id", .plain (app.baggageId b))])
    [.single (indent + 2) "FileInfo" (optional b.timeInfo fun t => ("TimeInfo", .given t))]

def writeBaggages (indent : Nat) : List Line :=
  unlessEmpty app.baggages
    (node indent "Baggages" [] (app.baggages.flatMap (app.writeBaggage (indent + 2))))

/-- The element ids that a language translates, in first-seen order. -/
def translatedIds (lang : Text) : List Text :=
  app.translations.foldl
    (fun order (l, t) =>
      if l = lang && !order.contains t.refId then order ++ [t.refId] else order) []

def writeTranslations (indent : Nat) (lang refId : Text) : List Line :=
  (app.translations.filter fun (l, t) => l = lang ∧ t.refId = refId).map fun (_, t) =>
    .single indent "Translation" [("AttributeName", .plain t.attr.asStr), ("Text", .given t.text)]

def writeLanguage (indent : Nat) (lang : Text) : List Line :=
  node indent "Language" [("Identifier", .given lang)]
    (node (indent + 2) "TranslationUnit" [("RefId", .plain app.appPrefix)]
      ((app.translatedIds lang).flatMap fun refId =>
        node (indent + 4) "TranslationElement" [("RefId", .plain refId)]
          (app.writeTranslations (indent + 6) lang refId)))

def writeLanguages (indent : Nat) : List Line :=
  unlessEmpty app.translations
    (node indent "Languages" [] (app.languageOrder.flatMap (app.writeLanguage (indent + 2))))

def writeParamTypeKind (indent : Nat) (id : Text) : ParamTypeKind → List Line
  | .text sizeBits => [.single indent "TypeText" [number "SizeInBit" sizeBits]]
  | .number sizeBits numberType min max =>
    [.single indent "TypeNumber" [number "SizeInBit" sizeBits, ("Type", .given numberType),
      ("minInclusive", .plain (signed min)), ("maxInclusive", .plain (signed max))]]
  | .enumeration sizeBits values =>
    node indent "TypeRestriction" [constant "Base" "Value", number "SizeInBit" sizeBits]
      (values.zipIdx.map fun ((text, value), i) =>
        .single (indent + 2) "Enumeration" [("Text", .given text), ("Value", .plain (signed value)),
          ("Id", .plain (id ++ "_EN-".toList ++ decimal i))])

def writeParameterType (indent : Nat) (pt : ParameterType) : List Line :=
  node indent "ParameterType" [("Id", .plain (app.paramTypeXmlId pt)), ("Name", .given pt.name)]
    (writeParamTypeKind (indent + 2) (app.paramTypeXmlId pt) pt.kind)

def writeParameterTypes (indent : Nat) : List Line :=
  unlessEmpty app.parameterTypes
    (node indent "ParameterTypes" []
      (app.parameterTypes.flatMap (app.writeParameterType (indent + 2))))

def codeSegment : Text :=
  match app.parameterSegment with
  | none => app.appPrefix ++ "_RS-04-00000".toList
  | some seg => app.segmentId seg

def writeParameter (indent : Nat) (p : Parameter) : List Line :=
  match app.parameterTypes[p.paramType]? with
  | none => []
  | some type =>
    node indent "Union" [number "SizeInBit" type.kind.sizeBits]
      [.single (indent + 2) "Memory" [("CodeSegment", .plain app.codeSegment),
          number "Offset" p.offset, constant "BitOffset" "0"],
        .single (indent + 2) "Parameter" [("Id", .plain (app.paramId p)), ("Name", .given p.name),
          constant "Offset" "0", constant "BitOffset" "0",
          ("ParameterType", .plain (app.paramTypeXmlId type)), ("Text", .given p.text),
          ("Value", .given p.value)]]

def writeParameters (indent : Nat) : List Line :=
  node indent "Parameters" [] (app.parameters.flatMap (app.writeParameter (indent + 2)))

def writeParameterRefs (indent : Nat) : List Line :=
  node indent "ParameterRefs" [] (app.parameters.map fun p =>
    .single (indent + 2) "ParameterRef"
      [("Id", .plain (app.paramId p ++ "_R-".toList ++ app.paramId p)),
        ("RefId", .plain (app.paramId p))])

def writeComObject (indent : Nat) (co : ComObject) : Line :=
  .single indent "ComObject" [("Id", .plain (app.comObjectId co)), ("Name", .given co.name),
    number "Number" co.number, ("Text", .given co.text), ("FunctionText", .given co.functionText),
    ("ObjectSize", .given co.objectSize), ("DatapointType", .plain co.dpt.dpst),
    constant "Priority" "Low", ("ReadFlag", .plain (Flags.ets co.flags.read)),
    ("WriteFlag", .plain (Flags.ets co.flags.write)), constant "CommunicationFlag" "Enabled",
    ("TransmitFlag", .plain (Flags.ets co.flags.transmit)),
    ("UpdateFlag", .plain (Flags.ets co.flags.update)), constant "ReadOnInitFlag" "Disabled"]

def writeComObjectTable (indent : Nat) : List Line :=
  node indent "ComObjectTable" [] (app.comObjects.map (app.writeComObject (indent + 2)))

def writeComObjectRefs (indent : Nat) : List Line :=
  node indent "ComObjectRefs" [] (app.comObjects.map fun co =>
    .single (indent + 2) "ComObjectRef"
      [("Id", .plain (app.comObjectId co ++ "_R-".toList ++ decimal co.number)),
        ("RefId", .plain (app.comObjectId co))])

def writeSegment (indent id : Nat) : Segment → Line
  | .absolute name size address memoryType userMemory =>
    .single indent "AbsoluteSegment" ([("Id", .plain (app.segmentId id))] ++
      (optional name fun n => ("Name", .given n)) ++ [number "Size" size] ++
      (optional memoryType fun mt => ("MemoryType", .plain mt.ets)) ++
      [number "Address" address] ++ flag userMemory "UserMemory")
  | .relative name size loadStateMachine offset =>
    .single indent "RelativeSegment" ([("Id", .plain (app.segmentId id))] ++
      (optional name fun n => ("Name", .given n)) ++ [number "Offset" offset, number "Size" size,
        number "LoadStateMachine" loadStateMachine])

def isAbsolute : Segment → Bool
  | .absolute _ _ _ _ _ => true
  | .relative _ _ _ _ => false

/-- The absolute segments come first. -/
def writeCode (indent : Nat) : List Line :=
  unlessEmpty app.segments
    (node indent "Code" [] ([true, false].flatMap fun wantAbs =>
      (app.segments.zipIdx.filter fun (seg, _) => isAbsolute seg = wantAbs).map
        fun (seg, i) => app.writeSegment (indent + 2) i seg))

def writeLoadProcedures (indent : Nat) : List Line :=
  unlessEmpty app.loadProcedures
    (node indent "LoadProcedures" []
      (app.loadProcedures.flatMap (writeLoadProcedure (indent + 2))))

def writeCatalogItem (indent : Nat) (item : CatalogItem) : Line :=
  let hw := app.hardwareId item.serialNumber item.versionNumber
  .single indent "CatalogItem"
    [("Id", .plain (hw ++ "_HP-".toList ++ app.appTail ++ "_CI-".toList ++
        encodeIdComponent item.serialNumber ++ "-".toList ++ decimal item.versionNumber)),
      ("Name", .given item.name), ("Number", .given item.number),
      ("ProductRefId", .plain (productId hw item.orderNumber)),
      ("Hardware2ProgramRefId", .plain (hw ++ "_HP-".toList ++ app.appTail)),
      ("DefaultLanguage", .given item.defaultLanguage)]

def writeCatalogSection (indent : Nat) (sect : CatalogSection) : List Line :=
  node indent "CatalogSection"
    [("Id", .plain (app.manufacturer ++ "_CS-".toList ++ encodeIdComponent sect.key)),
      ("Name", .given sect.name), ("Number", .given sect.number),
      ("DefaultLanguage", .given sect.defaultLanguage)]
    (sect.items.map (app.writeCatalogItem (indent + 2)))

def writeCatalog (indent : Nat) : List Line :=
  unlessEmpty app.catalogSections
    (node indent "Catalog" [] (app.catalogSections.flatMap (app.writeCatalogSection (indent + 2))))

def writeProduct (indent : Nat) (hwId : Text) (p : Product) : List Line :=
  node indent "Product" [("Id", .plain (productId hwId p.orderNumber)), ("Text", .given p.text),
      ("OrderNumber", .given p.orderNumber), ("IsRailMounted", .plain (xmlBool p.isRailMounted)),
      ("DefaultLanguage", .given p.defaultLanguage)]
    [.single (indent + 2) "RegistrationInfo" [constant "RegistrationStatus" "Registered"]]

def writeHardware2Program (indent : Nat) (hwId : Text) (prog : Hardware2Program) : List Line :=
  node indent "Hardware2Program" [("Id", .plain (hwId ++ "_HP-".toList ++ app.appTail)),
      ("MediumTypes", .given prog.mediumTypes)]
    [.single (indent + 2) "ApplicationProgramRef" [("RefId", .plain app.appPrefix)],
      .single (indent + 2) "RegistrationInfo" [constant "RegistrationStatus" "Registered",
        ("RegistrationNumber", .given prog.registrationNumber)]]

def writeHardwareEntry (indent : Nat) (hw : Hardware) : List Line :=
  let hwId := app.hardwareId hw.serialNumber hw.versionNumber
  node indent "Hardware" [("Id", .plain hwId), ("Name", .given hw.name),
      ("SerialNumber", .given hw.serialNumber), number "VersionNumber" hw.versionNumber,
      number "BusCurrent" hw.busCurrent,
      ("HasIndividualAddress", .plain (xmlBool hw.hasIndividualAddress)),
      ("HasApplicationProgram", .plain (xmlBool hw.hasApplicationProgram))]
    (node (indent + 2) "Products" [] (hw.products.flatMap (writeProduct (indent + 4) hwId)) ++
      node (indent + 2) "Hardware2Programs" []
        (hw.programs.flatMap (app.writeHardware2Program (indent + 4) hwId)))

def writeHardware (indent : Nat) : List Line :=
  unlessEmpty app.hardware
    (node indent "Hardware" [] (app.hardware.flatMap (app.writeHardwareEntry (indent + 2))))

def writeMessages (indent : Nat) : List Line :=
  unlessEmpty app.messages
    (node indent "Messages" [] (app.messages.map fun m =>
      .single (indent + 2) "Message" [("Id", .plain (app.appPrefix ++ "_M-".toList ++ m.suffix)),
        ("Name", .given m.name), ("Text", .given m.text)]))

/-! ## The dynamic tree -/

mutual

def writeDynNode (indent : Nat) : Dyn → List Line
  | .channelIndependentBlock children =>
    node indent "ChannelIndependentBlock" [] (writeDynNodes (indent + 2) children)
  | .channel suffix channelNumber name text children =>
    node indent "Channel" [("Id", .plain (app.appPrefix ++ "_CH-".toList ++ suffix)),
        ("Number", .given channelNumber), ("Name", .given name), ("Text", .given text)]
      (writeDynNodes (indent + 2) children)
  | .parameterBlock suffix name text textParamRef showInComObjectTree children =>
    node indent "ParameterBlock" ([("Id", .plain (app.appPrefix ++ "_PB-".toList ++ suffix)),
        ("Name", .given name), ("Text", .given text)] ++
        (optional textParamRef fun r => ("TextParameterRefId", .plain (app.paramRefRefId r))) ++
        flag showInComObjectTree "ShowInComObjectTree")
      (writeDynNodes (indent + 2) children)
  | .paramRefRef r => [.single indent "ParameterRefRef" [("RefId", .plain (app.paramRefRefId r))]]
  | .comObjRefRef r =>
    [.single indent "ComObjectRefRef" [("RefId", .plain (app.comObjectRefRefId r))]]
  | .separator suffix text uiHint =>
    [.single indent "ParameterSeparator"
      [("Id", .plain (app.appPrefix ++ "_PS-".toList ++ suffix)), ("Text", .given text),
        ("UIHint", .given uiHint)]]
  | .choose paramRef whens =>
    node indent "choose" [("ParamRefId", .plain (app.paramRefRefId paramRef))]
      (writeWhens (indent + 2) whens)

def writeDynNodes (indent : Nat) : List Dyn → List Line
  | [] => []
  | child :: children => writeDynNode indent child ++ writeDynNodes indent children

def writeWhen (indent : Nat) : When → List Line
  | .mk test children =>
    node indent "when" [("test", .given test)] (writeDynNodes (indent + 2) children)

def writeWhens (indent : Nat) : List When → List Line
  | [] => []
  | branch :: whens => writeWhen indent branch ++ writeWhens indent whens

end

def writeDynamic (indent : Nat) : List Line :=
  unlessEmpty app.dynamic (node indent "Dynamic" [] (app.writeDynNodes (indent + 2) app.dynamic))

/-! ## The document -/

/-- The numbers below this one, with a space between each two. -/
def replacesVersions (version : Nat) : Text :=
  [' '].intercalate ((List.range version).map decimal)

def writeStatic (indent : Nat) : List Line :=
  app.writeCode indent ++ app.writeParameterTypes indent ++ app.writeParameters indent ++
    app.writeParameterRefs indent ++ app.writeComObjectTable indent ++
    app.writeComObjectRefs indent ++
    app.addressTableMax.toList.flatMap (writeAddressTable indent) ++
    app.associationTableMax.toList.flatMap (writeAssociationTable indent) ++
    app.writeLoadProcedures indent ++ app.writeMessages indent ++
    app.options.toList.flatMap fun options => options.write indent

def writeApplicationProgram (info : ProgramInfo) (indent : Nat) : List Line :=
  node indent "ApplicationPrograms" []
    (node (indent + 2) "ApplicationProgram" [("Id", .plain app.appPrefix),
        ("ProgramType", .given info.programType), ("MaskVersion", .given info.maskVersion),
        ("Name", .given info.name), ("LoadProcedureStyle", .given info.loadProcedureStyle),
        ("PeiType", .given info.peiType), ("DefaultLanguage", .given info.defaultLanguage),
        ("DynamicTableManagement", .plain (xmlBool info.dynamicTableManagement)),
        ("Linkable", .plain (xmlBool info.linkable)),
        ("MinEtsVersion", .given info.minEtsVersion), ("IPConfig", .given info.ipConfig),
        number "ApplicationNumber" info.applicationNumber,
        number "ApplicationVersion" info.applicationVersion,
        ("ReplacesVersions", .plain (replacesVersions info.applicationVersion))]
      (node (indent + 4) "Static" [] (app.writeStatic (indent + 6)) ++
        app.writeDynamic (indent + 4)))

def writeManufacturer (info : ProgramInfo) (indent : Nat) : List Line :=
  app.writeCatalog indent ++ app.writeApplicationProgram info indent ++ app.writeBaggages indent ++
    app.writeHardware indent ++ app.writeLanguages indent

def documentLines (info : ProgramInfo) (createdBy toolVersion : Text) : List Line :=
  node 0 "KNX" [constant "xmlns" "http://knx.org/xml/project/20", ("CreatedBy", .given createdBy),
      ("ToolVersion", .given toolVersion)]
    (node 2 "ManufacturerData" []
      (node 4 "Manufacturer" [("RefId", .plain app.manufacturer)] (app.writeManufacturer info 6)))

/-! ## Handles -/

mutual

/-- Every handle in the tree is one of this many parameters and group objects. -/
def registeredNode (params comObjects : Nat) : Dyn → Bool
  | .channelIndependentBlock children => registeredNodes params comObjects children
  | .channel _ _ _ _ children => registeredNodes params comObjects children
  | .parameterBlock _ _ _ textParamRef _ children =>
    textParamRef.all (fun r => r < params) && registeredNodes params comObjects children
  | .paramRefRef r => r < params
  | .comObjRefRef r => r < comObjects
  | .separator _ _ _ => true
  | .choose paramRef whens => paramRef < params && registeredWhens params comObjects whens

def registeredNodes (params comObjects : Nat) : List Dyn → Bool
  | [] => true
  | child :: children =>
    registeredNode params comObjects child && registeredNodes params comObjects children

def registeredWhen (params comObjects : Nat) : When → Bool
  | .mk _ children => registeredNodes params comObjects children

def registeredWhens (params comObjects : Nat) : List When → Bool
  | [] => true
  | branch :: whens => registeredWhen params comObjects branch && registeredWhens params comObjects whens

end

def registered : Bool :=
  app.parameters.all (fun p => p.paramType < app.parameterTypes.length) &&
    app.parameterSegment.all (fun seg => seg < app.segments.length) &&
    registeredNodes app.parameters.length app.comObjects.length app.dynamic

/-- The document; a handle that is not registered makes the code panic. -/
def writeKnxDocument (info : ProgramInfo) (createdBy toolVersion : Text) : Option Text :=
  if app.registered then some (documentText (app.documentLines info createdBy toolVersion))
  else none

/-! ## Building -/

def new (appPrefix : Text) : AppProgram where
  appPrefix := appPrefix
  parameters := []
  parameterTypes := []
  comObjects := []
  languageOrder := []
  translations := []
  baggages := []
  segments := []
  parameterSegment := none
  loadProcedures := []
  dynamic := []
  catalogSections := []
  hardware := []
  messages := []
  addressTableMax := none
  associationTableMax := none
  options := none
  spoken := fun _ => ⟨fun h => absurd h List.not_mem_nil,
    fun ⟨_, h, _⟩ => absurd h List.not_mem_nil⟩

def pushTranslation (language refId : Text) (attr : Attr) (text : Text) : AppProgram :=
  { app with
    languageOrder :=
      if app.languageOrder.contains language then app.languageOrder
      else app.languageOrder ++ [language]
    translations := app.translations ++ [(language, ⟨refId, attr, text⟩)]
    spoken := by
      intro l
      have hold := app.spoken l
      have hnew : (∃ t ∈ app.translations ++ [(language, Translation.mk refId attr text)],
          t.1 = l) ↔ (∃ t ∈ app.translations, t.1 = l) ∨ language = l := by
        constructor
        · rintro ⟨t, ht, hl⟩
          rcases List.mem_append.mp ht with ht | ht
          · exact .inl ⟨t, ht, hl⟩
          · rw [List.mem_singleton.mp ht] at hl
            exact .inr hl
        · rintro (⟨t, ht, hl⟩ | hl)
          · exact ⟨t, List.mem_append_left _ ht, hl⟩
          · exact ⟨_, List.mem_append_right _ (List.mem_singleton.mpr rfl), hl⟩
      rw [hnew, ← hold]
      split_ifs with h
      · exact ⟨.inl, fun hl => hl.elim id fun he => he ▸ List.contains_iff_mem.mp h⟩
      · rw [List.mem_append, List.mem_singleton]
        exact or_congr_right eq_comm }

def translateParam (language : Text) (param : Nat) (attr : Attr) (text : Text) :
    Option AppProgram :=
  app.parameters[param]?.map fun p => app.pushTranslation language (app.paramId p) attr text

def translateComObject (language : Text) (comObject : Nat) (attr : Attr) (text : Text) :
    Option AppProgram :=
  app.comObjects[comObject]?.map fun co =>
    app.pushTranslation language (app.comObjectId co) attr text

def translateRaw (language refId : Text) (attr : Attr) (text : Text) : AppProgram :=
  app.pushTranslation language refId attr text

end AppProgram
end KnxRs.Author
