import KnxRs.AuthoredTags

set_option autoImplicit false

/-!
# What an authored document says

The texts given to a program are read back from its document exactly when none of them has a
tab or a line end: attribute values are escaped once, but white space is not.
-/
namespace KnxRs.Author
open Texts XmlDocuments XmlValues

/-! ## The whole document -/

section
variable {app : AppProgram}

theorem writeStatic_nested (h : app.PlainIds) (indent : Nat) : Nested (app.writeStatic indent) := by
  have htable (name : String) (hname : namesSound name ["MaxEntries"] = true) (n : Nat) :
      Nested [.single indent name [number "MaxEntries" n]] :=
    .single (soundTag_of ["MaxEntries"] (.refl _) hname (soundValues_number _ _ _))
  have hoptions (options : Options) : Nested (options.write indent) := by
    refine .single (soundTag_of ["TextParameterEncoding", "SupportsExtendedMemoryServices",
      "SupportsExtendedPropertyServices"] (.refl _) (by decide) ?_)
    simp [soundValues, Value.isSound, plainText_xmlBool]
  exact ((((((((((writeCode_nested h indent).append (writeParameterTypes_nested h indent)).append
    (writeParameters_nested h indent)).append (writeParameterRefs_nested h indent)).append
    (writeComObjectTable_nested h indent)).append (writeComObjectRefs_nested h indent)).append
    (.flatMap fun n _ => htable _ (by decide) n)).append
    (.flatMap fun n _ => htable _ (by decide) n)).append
    (writeLoadProcedures_nested app indent)).append (writeMessages_nested h indent)).append
    (.flatMap fun options _ => hoptions options)

theorem writeApplicationProgram_nested (h : app.PlainIds) (info : ProgramInfo) (indent : Nat) :
    Nested (app.writeApplicationProgram info indent) := by
  refine .node (by decide) (.node (soundTag_of ["Id", "ProgramType", "MaskVersion", "Name",
    "LoadProcedureStyle", "PeiType", "DefaultLanguage", "DynamicTableManagement", "Linkable",
    "MinEtsVersion", "IPConfig", "ApplicationNumber", "ApplicationVersion", "ReplacesVersions"]
    (.refl _) (by decide) ?_) (.append (.node (by decide) (writeStatic_nested h _))
      (writeDynamic_nested h _)))
  simp [soundValues, Value.isSound, number, plainText_decimal, plainText_xmlBool,
    plainText_replacesVersions, plain_appPrefix h]

theorem writeManufacturer_nested (h : app.PlainIds) (info : ProgramInfo) (indent : Nat) :
    Nested (app.writeManufacturer info indent) :=
  ((((writeCatalog_nested h indent).append (writeApplicationProgram_nested h info indent)).append
    (writeBaggages_nested h indent)).append (writeHardware_nested h indent)).append
    (writeLanguages_nested h indent)

theorem registered_types (h : app.registered = true) :
    ∀ q ∈ app.parameters, q.paramType < app.parameterTypes.length := by
  unfold AppProgram.registered at h
  rw [Bool.and_eq_true, Bool.and_eq_true, List.all_eq_true] at h
  exact fun q hq => of_decide_eq_true (h.1.1 q hq)

theorem root_sound (createdBy toolVersion : Text) : soundTag "KNX"
    [constant "xmlns" "http://knx.org/xml/project/20", ("CreatedBy", .given createdBy),
      ("ToolVersion", .given toolVersion)] = true := by
  refine soundTag_of ["xmlns", "CreatedBy", "ToolVersion"] (.refl _) (by decide) ?_
  have hxmlns : plainText "http://knx.org/xml/project/20".toList = true := by decide
  exact congrArg₂ and hxmlns rfl

theorem inner_nested (ids : app.PlainIds) (info : ProgramInfo) :
    Nested (node 2 "ManufacturerData" [] (node 4 "Manufacturer"
      [("RefId", .plain app.manufacturer)] (app.writeManufacturer info 6))) :=
  .node (by decide) (.node (soundTag_of ["RefId"] (.refl _) (by decide)
    (congrArg₂ and (plain_manufacturer ids).1 rfl)) (writeManufacturer_nested ids info 6))

theorem documentLines_nested (ids : app.PlainIds) (info : ProgramInfo)
    (createdBy toolVersion : Text) : Nested (app.documentLines info createdBy toolVersion) :=
  .node (root_sound createdBy toolVersion) (inner_nested ids info)

/-- A document that is written is well-formed XML, and the texts given to the program are read
    back from it exactly when none of them has a tab or a line end. -/
theorem document_read_iff (info : ProgramInfo) (createdBy toolVersion : Text)
    (registered : app.registered = true) (ids : app.PlainIds)
    (texts : (app.documentTexts info createdBy toolVersion).all legal = true) :
    ∃ xml, app.writeKnxDocument info createdBy toolVersion = some xml ∧ WellFormedXml xml ∧
      (readXml xml = some (elementsOf id (app.documentLines info createdBy toolVersion)) ↔
        (app.documentTexts info createdBy toolVersion).all unbroken = true) := by
  have htexts (p : Text → Bool) := documentLines_texts p app info createdBy toolVersion
    (registered_types registered)
  refine ⟨_, if_pos registered, ?_, ?_⟩
  · exact document_wellFormed (root_sound createdBy toolVersion) (inner_nested ids info)
      ((htexts legal).trans texts)
  · rw [readXml_document (documentLines_nested ids info createdBy toolVersion), Option.some_inj,
      elementsOf_iff, htexts]

def helpProgram (help : String) : AppProgram :=
  (AppProgram.new "M-00FA_A-0001-01-0000".toList).translateRaw "de-DE".toList
    "M-00FA_A-0001-01-0000_UP-1".toList .visibleDescription help.toList

def helpInfo : ProgramInfo :=
  ⟨"Sensor".toList, "MV-07B0".toList, "de-DE".toList, 1, 1, "ApplicationProgram".toList,
    "MergedProcedure".toList, "0".toList, false, true, "5.0".toList, "Custom".toList⟩

theorem help_ids (help : String) : (helpProgram help).PlainIds := by
  have hids : ∀ s ∈ (helpProgram "").ids, plainText s = true := by decide
  exact hids

theorem ampersand_read : ∃ xml,
    (helpProgram "Ein & Aus").writeKnxDocument helpInfo "xtask".toList "1.0".toList = some xml ∧
    WellFormedXml xml ∧
    (readXml xml = some (elementsOf id
        ((helpProgram "Ein & Aus").documentLines helpInfo "xtask".toList "1.0".toList)) ↔
      ((helpProgram "Ein & Aus").documentTexts helpInfo "xtask".toList
        "1.0".toList).all unbroken = true) :=
  document_read_iff helpInfo "xtask".toList "1.0".toList (by decide) (help_ids _) (by decide)

/-- A help text of two lines comes back as one. -/
theorem two_lines_joined : ∃ xml,
    (helpProgram "Ein\nAus").writeKnxDocument helpInfo "xtask".toList "1.0".toList = some xml ∧
    readXml xml ≠ some (elementsOf id
      ((helpProgram "Ein\nAus").documentLines helpInfo "xtask".toList "1.0".toList)) ∧
    attributeValue (escapeAttr "Ein\nAus".toList) = some "Ein Aus".toList := by
  refine ⟨_, if_pos (by decide), ?_, by decide⟩
  rw [readXml_document (documentLines_nested (help_ids _) _ _ _), ne_eq, Option.some_inj,
    elementsOf_iff]
  decide

end

end KnxRs.Author
