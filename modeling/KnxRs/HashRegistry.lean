import KnxRs.HashWriter

set_option autoImplicit false

/-!
# The registry of elements

The elements that are relevant for registration, with their attributes in the order in which
they are written.
-/
namespace KnxRs.Hash
open Texts

def registryOrder : List (Text × ElementInfo) :=
  List.map (fun (name, info) => (String.toList name, info)) [
    ("ApplicationProgram", els [a "AdditionalAddressesCount" "AAC" .int32 (some "0"),
      a "ApplicationNumber" "AN" .uint16 none, a "ApplicationVersion" "AV" .byte none,
      a "ConvertedFromPreEts4Data" "CVETS" .bool (some "0"),
      a "DynamicTableManagement" "DTM" .bool none, a "Id" "I" .applProgId none,
      a "IPConfig" "IP" .string (some "Tool"), a "IsSecureEnabled" "ISE" .bool none,
      a "Linkable" "L" .bool none, a "LoadProcedureStyle" "LPS" .string none,
      a "MaskVersion" "MV" .string none,
      a "MaxSecurityGroupKeyTableEntries" "MSGK" .uint16 (some "0"),
      a "MaxSecurityIndividualAddressEntries" "MSIAE" .uint16 (some "0"),
      a "MaxSecurityP2PKeyTableEntries" "MSP2" .uint16 (some "0"),
      a "MaxSecurityProxyGroupKeyTableEntries" "MSPGK" .uint16 (some "0"),
      a "MaxSecurityProxyIndividualAddressTableEntries" "MSPIA" .uint16 (some "0"),
      a "MaxTunnelingUserEntries" "MTUE" .uint16 (some "0"),
      a "MaxUserEntries" "MUE" .uint16 (some "0"), a "OriginalManufacturer" "OEM" .string none,
      a "PeiType" "PT" .byte none, a "PreEts4Style" "PES" .bool (some "0"),
      a "ProgramType" "PrT" .string none, a "ReplacesVersions" "RV" .string none,
      a "TunnelingAddressIndices" "TAI" .string none] "Id"),
    ("ComObjectRef", els [a "Id" "I" .applProgId none, a "MayRead" "MR" .bool (some "0"),
      a "ObjectSize" "S" .string none, a "ReadFlagLocked" "RFL" .bool (some "0"),
      a "ReadOnInitFlagLocked" "ROIFL" .bool (some "0"), a "RefId" "R" .applProgId none,
      a "TransmitFlagLocked" "TFL" .bool (some "0"), a "UpdateFlagLocked" "UFL" .bool (some "0"),
      a "WriteFlagLocked" "WFL" .bool (some "0")] "Id"),
    ("AbsoluteSegment", els [a "Address" "A" .uint32 none, a "Id" "I" .applProgId none,
      a "Size" "S" .uint32 none, a "UserMemory" "UM" .bool (some "0")] "Id"),
    ("Data", b64 'D'),
    ("Mask", b64 'M'),
    ("AddressTable", el [a "CodeSegment" "C" .applProgId none, a "MaxEntries" "ATM" .uint32 none,
      a "Offset" "O" .uint32 none]),
    ("LoadProcedure", el [a "MergeId" "M" .byte none]),
    ("LdCtrlConnect", elo [a "AppliesTo" "AT" .string (some "auto")]),
    ("LdCtrlCompareProp", elo [a "AllowCachedValue" "ACV" .bool (some "0"),
      a "AppliesTo" "AT" .string (some "auto"), a "Count" "C" .uint16 (some "1"),
      a "InlineData" "D" .string none, a "Invert" "Inv" .bool (some "0"),
      a "Mask" "M" .string none, a "ObjIdx" "I" .byte none, a "ObjType" "T" .uint16 none,
      a "Occurrence" "O" .byte (some "0"), a "PropId" "P" .byte none, a "Range" "R" .string none,
      a "RetryInterval" "RI" .uint16 (some "0"), a "StartElement" "S" .uint16 (some "1"),
      a "TimeOut" "TO" .uint16 (some "0")]),
    ("LdCtrlUnload", elo [a "AppliesTo" "AT" .string (some "auto"), a "LsmIdx" "I" .byte none,
      a "ObjType" "T" .uint16 none, a "Occurrence" "O" .byte (some "0")]),
    ("LdCtrlAbsSegment", elo [a "Access" "AC" .byte none, a "Address" "A" .uint16 none,
      a "AppliesTo" "AT" .string (some "auto"), a "LsmIdx" "I" .byte none,
      a "MemType" "M" .byte none, a "ObjType" "T" .uint16 none,
      a "Occurrence" "O" .byte (some "0"), a "SegFlags" "SF" .byte none,
      a "SegType" "ST" .byte none, a "Size" "S" .uint32 none]),
    ("LdCtrlTaskSegment", elo [a "Address" "A" .uint16 none,
      a "AppliesTo" "AT" .string (some "auto"), a "LsmIdx" "I" .byte none,
      a "ObjType" "T" .uint16 none, a "Occurrence" "O" .byte (some "0")]),
    ("LdCtrlLoad", elo [a "AppliesTo" "AT" .string (some "auto"), a "LsmIdx" "I" .byte none,
      a "ObjType" "T" .uint16 none, a "Occurrence" "O" .byte (some "0")]),
    ("LdCtrlLoadCompleted", elo [a "AppliesTo" "AT" .string (some "auto"),
      a "LsmIdx" "I" .byte none, a "ObjType" "T" .uint16 none, a "Occurrence" "O" .byte (some "0")]),
    ("LdCtrlRestart", elo [a "AppliesTo" "AT" .string (some "auto")]),
    ("LdCtrlDisconnect", elo [a "AppliesTo" "AT" .string (some "auto")]),
    ("Options", el [a "CustomerAdjustableParameters" "CAP" .string (some "0"),
      a "LegacyPatchManufacturerIdInTaskSegment" "LPMTS" .bool (some "0"),
      a "LineCoupler0912NewProgrammingStyle" "L" .bool (some "0"),
      a "MasterResetOnCRCMismatch" "MR" .bool (some "0"),
      a "MaxRoutingApduLength" "MPAL" .uint32 (some "0"), a "NotLoadable" "NL" .string none,
      a "SupportsExtendedMemoryServices" "SEMS" .bool (some "0"),
      a "SupportsExtendedPropertyServices" "SEPS" .bool (some "0"),
      a "SupportsIpSystemBroadcast" "SISB" .bool (some "0")]),
    ("ComObjectTable", els [a "CodeSegment" "C" .applProgId none, a "Offset" "O" .uint32 none] "CodeSegment"),
    ("ComObject", els [a "Id" "I" .applProgId none, a "MayRead" "MR" .bool (some "0"),
      a "Number" "N" .uint32 none, a "ReadFlagLocked" "RFL" .bool (some "0"),
      a "ReadOnInitFlagLocked" "ROIFL" .bool (some "0"),
      a "SecurityRequired" "SR" .string (some "None"),
      a "TransmitFlagLocked" "TFL" .bool (some "0"), a "UpdateFlagLocked" "UFL" .bool (some "0"),
      a "WriteFlagLocked" "WFL" .bool (some "0")] "Id"),
    ("ParameterType", els [a "Id" "I" .applProgId none, a "Name" "N" .string none] "Id"),
    ("TypeNumber", el [a "Increment" "I" .int64 (some "1"), a "maxInclusive" "max" .int64 none,
      a "minInclusive" "min" .int64 none, a "SizeInBit" "S" .byte none, a "Type" "T" .string none]),
    ("TypeRestriction", el [a "Base" "B" .string none, a "SizeInBit" "S" .uint32 none]),
    ("Enumeration", els [a "BinaryValue" "BV" .string none, a "Id" "I" .applProgId none,
      a "Value" "V" .uint32 none] "Id"),
    ("ParameterRef", els [a "CustomerAdjustable" "CA" .bool (some "0"),
      a "Id" "I" .applProgId none, a "RefId" "R" .applProgId none, a "Value" "V" .string none] "Id"),
    ("AssociationTable", el [a "CodeSegment" "C" .applProgId none,
      a "MaxEntries" "ASM" .uint32 none, a "Offset" "O" .uint32 none]),
    ("Parameter", els [a "BitOffset" "BO" .byte (some "0"),
      a "CustomerAdjustable" "CA" .bool (some "0"),
      a "DefaultUnionParameter" "DEF" .bool (some "0"), a "Id" "I" .applProgId none,
      a "LegacyPatchAlways" "LPA" .bool (some "0"), a "Offset" "O" .uint32 (some "0"),
      a "ParameterType" "PT" .applProgId none, a "Value" "V" .string none] "Id"),
    ("Memory", els [a "BitOffset" "BO" .byte none, a "CodeSegment" "C" .applProgId none,
      a "Offset" "O" .uint32 none] "CodeSegment"),
    ("ParameterBlock", elo [a "Id" "I" .applProgId none, a "ParamRefId" "R" .applProgId none]),
    ("ParameterCalculation", els [a "Id" "I" .applProgId none, a "Language" "L" .string none,
      a "LRTransformationFunc" "LRF" .string (some "1"),
      a "LRTransformationParameters" "LRP" .string (some "1"),
      a "RLTransformationFunc" "RLF" .string (some "1"),
      a "RLTransformationParameters" "RLP" .string (some "1")] "Id"),
    ("ComObjectRefRef", elo [a "RefId" "R" .applProgId none]),
    ("ParameterRefRef", elo [a "AliasName" "AN" .string none, a "RefId" "R" .applProgId none]),
    ("ParameterValidation", els [a "Id" "I" .applProgId none,
      a "ValidationFunc" "VF" .string none, a "ValidationParameters" "VP" .string (some "0")] "Id"),
    ("When", elo [a "default" "D" .bool (some "0"), a "test" "T" .string none]),
    ("when", elo [a "default" "D" .bool (some "0"), a "test" "T" .string none]),
    ("ParameterSeparator", elo [a "Id" "I" .applProgId none]),
    ("Choose", elo [a "ParamRefId" "R" .applProgId none]),
    ("choose", elo [a "ParamRefId" "R" .applProgId none]),
    ("RelativeSegment", els [a "Id" "I" .applProgId none, a "LoadStateMachine" "LSM" .byte none,
      a "Offset" "O" .uint32 none, a "Size" "S" .uint32 none] "Id"),
    ("TypeFloat", el [a "Encoding" "E" .string none, a "Increment" "I" .double (some "1"),
      a "maxInclusive" "max" .double none, a "minInclusive" "min" .double none]),
    ("TypeText", el [a "SizeInBit" "S" .uint32 none]),
    ("TypeTime", el [a "maxInclusive" "max" .int64 none, a "minInclusive" "min" .int64 none,
      a "SizeInBit" "S" .byte none, a "Unit" "U" .string none]),
    ("TypeDate", el [a "DisplayTheYear" "Y" .bool (some "1"), a "Encoding" "E" .string none]),
    ("TypeIPAddress", el [a "AddressType" "AT" .string none, a "Version" "V" .string (some "IPv4")]),
    ("TypeColor", el [a "Space" "S" .string none]),
    ("TypeRawData", el [a "MaxSize" "M" .uint32 none]),
    ("Property", el [a "BitOffset" "BO" .byte none, a "ObjectIndex" "OI" .byte none,
      a "ObjectType" "OT" .uint16 none, a "Occurrence" "OC" .byte (some "0"),
      a "Offset" "O" .uint32 none, a "PropertyId" "PID" .byte none]),
    ("Offset", u32t 'O'),
    ("Fixup", el [a "CodeSegment" "C" .applProgId none, a "FunctionRef" "F" .string none]),
    ("OnError", els [a "Cause" "C" .string none, a "Ignore" "I" .bool (some "0")] "Cause"),
    ("SecurityRole", els [a "Id" "I" .applProgId none, a "Mask" "M" .uint16 none] "Id"),
    ("BusInterface", els [a "AccessType" "AT" .string none, a "AddressIndex" "AI" .uint16 none,
      a "Id" "I" .applProgId none] "Id"),
    ("Allocator", el [a "maxInclusive" "MI" .int64 none, a "Name" "N" .string none,
      a "Start" "S" .int64 none]),
    ("Argument", el [a "Alignment" "Ali" .uint16 (some "1"), a "Allocates" "A" .int64 none,
      a "Name" "N" .string none]),
    ("Extension", el []),
    ("ChannelIndependentBlock", elo []),
    ("Channel", elo [a "Id" "I" .applProgId none, a "Number" "N" .string none]),
    ("Rename", elo [a "Id" "I" .applProgId none, a "RefId" "R" .applProgId none]),
    ("Assign", elo [a "SourceParamRefRef" "S" .applProgId none,
      a "TargetParamRefRef" "T" .applProgId none, a "Value" "V" .string none]),
    ("BinaryDataRef", elo [a "RefId" "R" .applProgId none]),
    ("Module", elo [a "RefId" "R" .applProgId none]),
    ("Repeat", elo [a "Count" "C" .uint32 (some "0"), a "ParameterRefId" "PRID" .applProgId none]),
    ("NumericArg", el [a "AllocatorRefId" "ARI" .applProgId none,
      a "BaseValue" "BV" .applProgId none, a "RefId" "R" .applProgId none,
      a "Value" "V" .int64 none]),
    ("TextArg", el [a "RefId" "R" .applProgId none]),
    ("LdCtrlMaxLength", elo [a "AppliesTo" "A" .string (some "auto"), a "LsmIdx" "I" .byte none,
      a "ObjType" "T" .uint16 none, a "Occurrence" "O" .byte (some "0"), a "Size" "S" .uint32 none]),
    ("LdCtrlRelSegment", elo [a "AppliesTo" "AT" .string (some "auto"), a "Fill" "F" .byte none,
      a "LsmIdx" "I" .byte none, a "Mode" "M" .byte none, a "ObjType" "T" .uint16 none,
      a "Occurrence" "O" .byte (some "0"), a "Size" "S" .uint32 none]),
    ("LdCtrlTaskPtr", elo [a "AppliesTo" "AT" .string (some "auto"),
      a "InitPtr" "IP" .uint16 none, a "LsmIdx" "I" .byte none, a "ObjType" "T" .uint16 none,
      a "Occurrence" "O" .byte (some "0"), a "SavePtr" "S" .uint16 none,
      a "SerialPtr" "SP" .uint16 none]),
    ("LdCtrlTaskCtrl1", elo [a "Address" "A" .uint16 none,
      a "AppliesTo" "AT" .string (some "auto"), a "Count" "C" .byte none,
      a "LsmIdx" "I" .byte none, a "ObjType" "T" .uint16 none, a "Occurrence" "O" .byte (some "0")]),
    ("LdCtrlTaskCtrl2", elo [a "Address" "A" .uint16 none,
      a "AppliesTo" "AT" .string (some "auto"), a "Callback" "C" .uint16 none,
      a "LsmIdx" "I" .byte none, a "ObjType" "T" .uint16 none,
      a "Occurrence" "O" .byte (some "0"), a "Seg0" "S0" .uint16 none, a "Seg1" "S1" .uint16 none]),
    ("LdCtrlWriteProp", elo [a "AppliesTo" "AT" .string (some "auto"),
      a "Count" "C" .uint16 (some "1"), a "InlineData" "D" .string none,
      a "ObjIdx" "I" .byte none, a "ObjType" "T" .uint16 none,
      a "Occurrence" "O" .byte (some "0"), a "PropId" "P" .byte none,
      a "StartElement" "S" .uint16 (some "1"), a "Verify" "V" .bool none]),
    ("LdCtrlLoadImageProp", elo [a "AppliesTo" "AT" .string (some "auto"),
      a "Count" "C" .uint16 (some "1"), a "ObjIdx" "I" .byte none, a "ObjType" "T" .uint16 none,
      a "Occurrence" "O" .byte (some "0"), a "PropId" "P" .byte none,
      a "StartElement" "S" .uint16 (some "1")]),
    ("LdCtrlInvokeFunctionProp", elo [a "AppliesTo" "AT" .string (some "auto"),
      a "InlineData" "D" .string none, a "ObjIdx" "I" .byte none, a "ObjType" "T" .uint16 none,
      a "Occurrence" "O" .byte (some "0"), a "PropId" "P" .byte none]),
    ("LdCtrlReadFunctionProp", elo [a "AppliesTo" "AT" .string (some "auto"),
      a "ObjIdx" "I" .byte none, a "ObjType" "T" .uint16 none,
      a "Occurrence" "O" .byte (some "0"), a "PropId" "P" .byte none]),
    ("LdCtrlWriteMem", elo [a "Address" "A" .uint32 none,
      a "AddressSpace" "AS" .string (some "Standard"), a "AppliesTo" "AT" .string (some "auto"),
      a "InlineData" "D" .string none, a "Size" "S" .uint32 none, a "Verify" "V" .bool none]),
    ("LdCtrlCompareMem", elo [a "Address" "A" .uint32 none,
      a "AddressSpace" "AS" .string (some "Standard"),
      a "AllowCachedValue" "ACV" .bool (some "0"), a "AppliesTo" "AT" .string (some "auto"),
      a "InlineData" "D" .string none, a "Invert" "Inv" .bool (some "0"),
      a "Mask" "M" .string none, a "Range" "R" .string none,
      a "RetryInterval" "RI" .uint16 (some "0"), a "Size" "S" .uint32 none,
      a "TimeOut" "TO" .uint16 (some "0")]),
    ("LdCtrlLoadImageMem", elo [a "Address" "A" .uint32 none,
      a "AddressSpace" "AS" .string (some "Standard"), a "AppliesTo" "AT" .string (some "auto"),
      a "Size" "S" .uint32 none]),
    ("LdCtrlWriteRelMem", elo [a "AppliesTo" "AT" .string (some "auto"),
      a "InlineData" "D" .string none, a "ObjIdx" "I" .byte none, a "ObjType" "T" .uint16 none,
      a "Occurrence" "O" .byte (some "0"), a "Offset" "O" .uint32 none, a "Size" "S" .uint32 none,
      a "Verify" "V" .bool none]),
    ("LdCtrlCompareRelMem", elo [a "AllowCachedValue" "ACV" .bool (some "0"),
      a "AppliesTo" "AT" .string (some "auto"), a "InlineData" "D" .string none,
      a "Invert" "Inv" .bool (some "0"), a "Mask" "M" .string none, a "ObjIdx" "I" .byte none,
      a "ObjType" "T" .uint16 none, a "Occurrence" "O" .byte (some "0"),
      a "Offset" "O" .uint32 none, a "Range" "R" .string none,
      a "RetryInterval" "RI" .uint16 (some "0"), a "Size" "S" .uint32 none,
      a "TimeOut" "TO" .uint16 (some "0")]),
    ("LdCtrlLoadImageRelMem", elo [a "AppliesTo" "AT" .string (some "auto"),
      a "ObjIdx" "I" .byte none, a "ObjType" "T" .uint16 none,
      a "Occurrence" "O" .byte (some "0"), a "Offset" "O" .uint32 none, a "Size" "S" .uint32 none]),
    ("LdCtrlMasterReset", elo [a "AppliesTo" "AT" .string (some "auto"),
      a "ChannelNumber" "CN" .byte none, a "EraseCode" "EC" .byte none]),
    ("LdCtrlDelay", elo [a "AppliesTo" "AT" .string (some "auto"),
      a "MilliSeconds" "M" .uint16 none]),
    ("LdCtrlSetControlVariable", elo [a "AppliesTo" "AT" .string (some "auto"),
      a "Name" "N" .string none, a "Value" "V" .bool none]),
    ("LdCtrlMapError", elo [a "AppliesTo" "AT" .string (some "auto"),
      a "LdCtrlFilter" "L" .byte (some "0"), a "MappedError" "M" .uint32 none,
      a "OriginalError" "O" .uint32 none]),
    ("LdCtrlProgressText", elo [a "AppliesTo" "AT" .string (some "auto")]),
    ("LdCtrlDeclarePropDesc", elo [a "AppliesTo" "AT" .string (some "auto"),
      a "LsmIdx" "I" .byte none, a "MaxElements" "M" .uint16 none, a "ObjType" "T" .uint16 none,
      a "Occurrence" "O" .byte (some "0"), a "PropId" "P" .byte none,
      a "PropType" "PT" .string none, a "ReadAccess" "R" .byte none, a "Writable" "W" .bool none,
      a "WriteAccess" "WA" .byte none]),
    ("LdCtrlClearLCFilterTable", elo [a "AppliesTo" "AT" .string (some "auto"),
      a "UseFunctionProp" "U" .bool (some "0")]),
    ("LdCtrlClearCachedObjectTypes", elo [a "AppliesTo" "A" .string (some "auto")]),
    ("LdCtrlMerge", elo [a "AppliesTo" "AT" .string (some "auto"), a "MergeId" "M" .byte none]),
    ("RLTransformation", strt 'R'),
    ("LRTransformation", strt 'L'),
    ("Script", strt 'S'),
    ("Manufacturer", el [a "RefId" "R" .string none])]

/-- `registry.get(name)`. -/
def registry (name : Text) : Option ElementInfo := registryOrder.lookup name

end KnxRs.Hash
