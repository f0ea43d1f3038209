import KnxRs.AuthoredTexts

set_option autoImplicit false

/-!
# The tags of an authored document

Every section is written tag by tag, with different attributes in a tag, and what is not
escaped is plain as long as the explicit ids are.
-/
namespace KnxRs.Author
open Texts XmlDocuments XmlValues

/-! ## The ids of a program -/

mutual

def Dyn.ids : Dyn → List Text
  | .channelIndependentBlock children => idsOfNodes children
  | .channel suffix _ _ _ children => suffix :: idsOfNodes children
  | .parameterBlock suffix _ _ _ _ children => suffix :: idsOfNodes children
  | .paramRefRef _ => []
  | .comObjRefRef _ => []
  | .separator suffix _ _ => [suffix]
  | .choose _ whens => idsOfWhens whens

def idsOfNodes : List Dyn → List Text
  | [] => []
  | child :: children => child.ids ++ idsOfNodes children

def When.ids : When → List Text
  | .mk _ children => idsOfNodes children

def idsOfWhens : List When → List Text
  | [] => []
  | branch :: whens => branch.ids ++ idsOfWhens whens

end

/-- The explicit ids and suffixes, which the caller supplies as names. -/
def AppProgram.ids (app : AppProgram) : List Text :=
  app.appPrefix :: (app.parameters.map Parameter.suffix ++ app.comObjects.map ComObject.suffix ++
    app.messages.map Message.suffix ++ app.translations.map (fun t => t.2.refId) ++
    idsOfNodes app.dynamic)

def AppProgram.PlainIds (app : AppProgram) : Prop := ∀ s ∈ app.ids, plainText s = true

/-! ## Plain ids -/

theorem plainText_append (s t : Text) : plainText (s ++ t) = (plainText s && plainText t) :=
  List.all_append

theorem plainText_flatMap {α : Type} {xs : List α} {f : α → Text}
    (h : ∀ x ∈ xs, plainText (f x) = true) : plainText (xs.flatMap f) = true := by
  unfold plainText
  rw [List.all_flatMap, List.all_eq_true]
  exact h

theorem isPlainChar_digit {c : Char} (h : c.isDigit = true) : isPlainChar c = true := by
  have hname : isNameChar c = true := by
    unfold isNameChar Char.isAlphanum
    rw [h, Bool.or_true]
    rfl
  exact XmlScan.nameChar_induction (P := fun c => isPlainChar c = true) (by decide +kernel) hname

theorem plainText_decimal (n : Nat) : plainText (decimal n) = true :=
  List.all_eq_true.mpr fun _ hc => isPlainChar_digit (decimal_isDigit hc)

theorem plainText_padded (width n : Nat) : plainText (padded width n) = true := by
  unfold padded
  rw [plainText_append, plainText_decimal, Bool.and_true]
  refine List.all_eq_true.mpr fun c hc => ?_
  rw [List.eq_of_mem_replicate hc]
  decide

theorem plainText_upperHex (width n : Nat) : plainText (upperHex width n) = true := by
  have hdigit : ∀ d < 16, isPlainChar (upperDigit d) = true := by decide +kernel
  refine List.all_eq_true.mpr fun c hc => ?_
  obtain ⟨i, _, rfl⟩ := List.mem_map.mp hc
  exact hdigit _ (Nat.mod_lt _ (by decide))

theorem plainText_signed (n : Int) : plainText (signed n) = true := by
  cases n with
  | ofNat n => exact plainText_decimal n
  | negSucc n =>
    show (isPlainChar '-' && plainText (decimal (n + 1))) = true
    rw [plainText_decimal]
    decide

theorem plainText_encode (s : Text) : plainText (encodeIdComponent s) = true := by
  refine plainText_flatMap fun c _ => ?_
  split_ifs with h
  · have hname : isNameChar c = true := by
      unfold isNameChar
      rw [show c.isAlphanum = true from h]
      rfl
    have hplain := XmlScan.nameChar_induction (P := fun c => isPlainChar c = true)
      (by decide +kernel) hname
    show (isPlainChar c && true) = true
    rw [hplain]
    rfl
  · refine plainText_flatMap fun b _ => ?_
    show (isPlainChar '.' && plainText (upperHex 2 b.toNat)) = true
    rw [plainText_upperHex]
    decide

theorem plainText_xmlBool (b : Bool) : plainText (xmlBool b) = true := by
  cases b <;> decide

theorem plainText_flagsEts (b : Bool) : plainText (Flags.ets b) = true := by
  cases b <;> decide

theorem plainText_attr (attr : Attr) : plainText attr.asStr = true := by
  cases attr <;> decide

theorem plainText_procType (pt : ProcType) : plainText pt.ets = true := by
  cases pt <;> decide

theorem plainText_memoryType (mt : SegMemoryType) : plainText mt.ets = true := by
  cases mt <;> decide

theorem plainText_errorCause (cause : ErrorCause) : plainText cause.ets = true := by
  cases cause <;> decide

theorem plainText_dpst (dpt : Dpt) : plainText dpt.dpst = true := by
  unfold Dpt.dpst
  rw [plainText_append, plainText_append, plainText_append, plainText_decimal, plainText_decimal]
  decide

theorem plainText_replacesVersions (version : Nat) :
    plainText (AppProgram.replacesVersions version) = true := by
  unfold AppProgram.replacesVersions
  have hjoin (xs : List Text) (h : ∀ s ∈ xs, plainText s = true) :
      plainText ([' '].intercalate xs) = true := by
    induction xs with
    | nil => rfl
    | cons s xs ih =>
      have hs := h s List.mem_cons_self
      have hrest := ih fun t ht => h t (List.mem_cons_of_mem s ht)
      cases xs with
      | nil =>
        rw [List.intercalate_singleton]
        exact hs
      | cons t xs =>
        rw [List.intercalate_cons_cons, plainText_append, plainText_append, hs, hrest]
        decide
  refine hjoin _ fun s hs => ?_
  obtain ⟨n, _, rfl⟩ := List.mem_map.mp hs
  exact plainText_decimal n

section
variable {app : AppProgram} (h : app.PlainIds)
include h

theorem plain_appPrefix : plainText app.appPrefix = true := h _ List.mem_cons_self

theorem plain_parameter {q : Parameter} (hq : q ∈ app.parameters) : plainText q.suffix = true := by
  refine h _ (List.mem_cons_of_mem _ ?_)
  simp only [List.mem_append]
  exact .inl (.inl (.inl (.inl (List.mem_map_of_mem hq))))

theorem plain_comObject {co : ComObject} (hco : co ∈ app.comObjects) :
    plainText co.suffix = true := by
  refine h _ (List.mem_cons_of_mem _ ?_)
  simp only [List.mem_append]
  exact .inl (.inl (.inl (.inr (List.mem_map_of_mem hco))))

theorem plain_message {m : Message} (hm : m ∈ app.messages) : plainText m.suffix = true := by
  refine h _ (List.mem_cons_of_mem _ ?_)
  simp only [List.mem_append]
  exact .inl (.inl (.inr (List.mem_map_of_mem hm)))

theorem plain_translation {t : Text × Translation} (ht : t ∈ app.translations) :
    plainText t.2.refId = true := by
  refine h _ (List.mem_cons_of_mem _ ?_)
  simp only [List.mem_append]
  exact .inl (.inr (List.mem_map_of_mem ht))

theorem plain_dynamic : ∀ s ∈ idsOfNodes app.dynamic, plainText s = true := by
  intro s hs
  refine h _ (List.mem_cons_of_mem _ ?_)
  exact List.mem_append_right _ hs

theorem plain_manufacturer : plainText app.manufacturer = true ∧ plainText app.appTail = true := by
  have hstart := plain_appPrefix h
  unfold AppProgram.manufacturer AppProgram.appTail
  cases hsplit : splitOnce "_A-".toList app.appPrefix with
  | none => exact ⟨hstart, rfl⟩
  | some found =>
    rw [splitOnce_eq hsplit, plainText_append, plainText_append] at hstart
    simp only [Bool.and_eq_true] at hstart
    exact ⟨hstart.1.1, hstart.2⟩

theorem plain_hardwareId (serialNumber : Text) (versionNumber : Nat) :
    plainText (app.hardwareId serialNumber versionNumber) = true := by
  unfold AppProgram.hardwareId
  rw [plainText_append, plainText_append, plainText_append, plainText_append, plainText_encode,
    plainText_decimal, (plain_manufacturer h).1]
  decide

theorem plain_baggageId (b : Baggage) : plainText (app.baggageId b) = true := by
  unfold AppProgram.baggageId
  dsimp only
  rw [plainText_append, plainText_append, plainText_append, plainText_append, plainText_encode,
    plainText_encode, (plain_manufacturer h).1]
  decide

theorem plain_paramId {q : Parameter} (hq : q ∈ app.parameters) :
    plainText (app.paramId q) = true := by
  unfold AppProgram.paramId
  rw [plainText_append, plainText_append, plain_appPrefix h, plain_parameter h hq]
  decide

theorem plain_comObjectId {co : ComObject} (hco : co ∈ app.comObjects) :
    plainText (app.comObjectId co) = true := by
  unfold AppProgram.comObjectId
  rw [plainText_append, plainText_append, plain_appPrefix h, plain_comObject h hco]
  decide

theorem plain_paramTypeXmlId (type : ParameterType) : plainText (app.paramTypeXmlId type) = true := by
  unfold AppProgram.paramTypeXmlId
  rw [plainText_append, plainText_append, plain_appPrefix h, plainText_encode]
  decide

theorem plain_paramRefRefId (r : Nat) : plainText (app.paramRefRefId r) = true := by
  unfold AppProgram.paramRefRefId
  split
  · next q hq =>
    rw [plainText_append, plainText_append, plain_paramId h (List.mem_of_getElem? hq)]
    decide
  · rfl

theorem plain_comObjectRefRefId (r : Nat) : plainText (app.comObjectRefRefId r) = true := by
  unfold AppProgram.comObjectRefRefId
  split
  · next co hco =>
    rw [plainText_append, plainText_append, plain_comObjectId h (List.mem_of_getElem? hco),
      plainText_decimal]
    decide
  · rfl

theorem plain_segmentId (id : Nat) : plainText (app.segmentId id) = true := by
  unfold AppProgram.segmentId
  split
  · rw [plainText_append, plainText_append, plain_appPrefix h, plainText_decimal]
    decide
  · rw [plainText_append, plainText_append, plainText_append, plainText_append,
      plain_appPrefix h, plainText_padded, plainText_padded]
    decide
  · rfl

theorem plain_codeSegment : plainText app.codeSegment = true := by
  unfold AppProgram.codeSegment
  split
  · rw [plainText_append, plain_appPrefix h]
    decide
  · exact plain_segmentId h _

end

theorem plain_productId {hwId : Text} (hid : plainText hwId = true) (orderNumber : Text) :
    plainText (productId hwId orderNumber) = true := by
  unfold productId
  rw [plainText_append, plainText_append, hid, plainText_encode]
  decide

/-! ## Sound tags -/

def soundValues (attributes : Attributes) : Bool := attributes.all fun a => a.2.isSound

theorem soundTag_of {name : String} {attributes : Attributes} (names : List String)
    (hnames : (attributes.map Prod.fst).Sublist names) (hsound : namesSound name names = true)
    (hvalues : soundValues attributes = true) : soundTag name attributes = true := by
  unfold soundTag
  unfold namesSound at hsound ⊢
  rw [Bool.and_eq_true, Bool.and_eq_true, List.all_eq_true, decide_eq_true_eq] at hsound
  obtain ⟨⟨hname, hall⟩, hdistinct⟩ := hsound
  rw [hname, List.all_eq_true.mpr fun s hs => hall s (hnames.subset hs),
    decide_eq_true (hdistinct.sublist hnames)]
  exact hvalues

theorem soundValues_append (attributes more : Attributes) :
    soundValues (attributes ++ more) = (soundValues attributes && soundValues more) :=
  List.all_append

theorem soundValues_cons (name : String) (value : Value) (attributes : Attributes) :
    soundValues ((name, value) :: attributes) = (value.isSound && soundValues attributes) := rfl

theorem soundValues_number (name : String) (n : Nat) (attributes : Attributes) :
    soundValues (number name n :: attributes) = soundValues attributes := by
  show (plainText (decimal n) && soundValues attributes) = _
  rw [plainText_decimal, Bool.true_and]

theorem soundValues_given {name : String} (value : Option Text) :
    soundValues (optional value fun s => (name, .given s)) = true := by
  cases value <;> rfl

theorem soundValues_plain {α : Type} {name : String} {value : Option α} {f : α → Text}
    (h : ∀ x, plainText (f x) = true) :
    soundValues (optional value fun x => (name, .plain (f x))) = true := by
  cases value with
  | none => rfl
  | some x =>
    show (plainText (f x) && true) = true
    rw [h]
    rfl

theorem soundValues_flag (set : Bool) (name : String) : soundValues (flag set name) = true := by
  cases set with
  | false => rfl
  | true =>
    show (plainText "true".toList && true) = true
    decide

theorem names_optional {α : Type} (value : Option α) (name : String) (f : α → Value) :
    ((optional value fun x => (name, f x)).map Prod.fst).Sublist [name] := by
  cases value with
  | none => exact List.nil_sublist _
  | some x => exact .refl [name]

theorem names_append {attributes more : Attributes} {names names' : List String}
    (h : (attributes.map Prod.fst).Sublist names) (h' : (more.map Prod.fst).Sublist names') :
    ((attributes ++ more).map Prod.fst).Sublist (names ++ names') := by
  rw [List.map_append]
  exact h.append h'

theorem names_flag (set : Bool) (name : String) :
    ((flag set name).map Prod.fst).Sublist [name] := by
  cases set with
  | false => exact List.nil_sublist _
  | true => exact List.Sublist.refl _

section
variable {app : AppProgram} (h : app.PlainIds) (indent : Nat)
include h

theorem writeBaggages_nested : Nested (app.writeBaggages indent) := by
  refine .unlessEmpty _ (.node (by decide) (.flatMap fun b _ => ?_))
  refine .node (soundTag_of ["TargetPath", "Name", "FileIntegrity", "Id"] ?_ (by decide) ?_)
    (.single (soundTag_of ["TimeInfo"] (names_optional _ _ _) (by decide) (soundValues_given _)))
  · have hnames := ((List.Sublist.refl ["TargetPath", "Name"]).append
      (names_optional b.fileIntegrity "FileIntegrity" fun crc =>
        .plain (upperHex 8 crc.toNat))).append (.refl ["Id"])
    rw [List.map_append, List.map_append]
    exact hnames
  · rw [soundValues_append, soundValues_append,
      soundValues_plain fun crc : UInt32 => plainText_upperHex 8 crc.toNat]
    show (true && plainText (app.baggageId b) && true) = true
    rw [plain_baggageId h]
    rfl

theorem writeLanguages_nested : Nested (app.writeLanguages indent) := by
  refine .unlessEmpty _ (.node (by decide) (.flatMap fun lang _ => ?_))
  refine .node (soundTag_of ["Identifier"] (.refl _) (by decide) rfl)
    (.node (soundTag_of ["RefId"] (.refl _) (by decide) ?_) (.flatMap fun refId hrefId =>
      .node (soundTag_of ["RefId"] (.refl _) (by decide) ?_) (.map fun t _ => ?_)))
  · show (plainText app.appPrefix && true) = true
    rw [plain_appPrefix h]
    rfl
  · obtain ⟨t, ht, _, rfl⟩ := (mem_translatedIds app lang refId).mp hrefId
    show (plainText t.2.refId && true) = true
    rw [plain_translation h ht]
    rfl
  · refine .single (soundTag_of ["AttributeName", "Text"] (.refl _) (by decide) ?_)
    show (plainText t.2.attr.asStr && true) = true
    rw [plainText_attr]
    rfl

theorem writeParameterTypes_nested : Nested (app.writeParameterTypes indent) := by
  refine .unlessEmpty _ (.node (by decide) (.flatMap fun pt _ => ?_))
  have hid := plain_paramTypeXmlId h pt
  refine .node (soundTag_of ["Id", "Name"] (.refl _) (by decide) ?_) ?_
  · simp [soundValues, Value.isSound, hid]
  · unfold AppProgram.writeParamTypeKind
    split
    · refine .single (soundTag_of ["SizeInBit"] (.refl _) (by decide) (soundValues_number _ _ _))
    · refine .single (soundTag_of ["SizeInBit", "Type", "minInclusive", "maxInclusive"] (.refl _)
        (by decide) ?_)
      simp [soundValues, Value.isSound, number, plainText_decimal, plainText_signed]
    · refine .node (soundTag_of ["Base", "SizeInBit"] (.refl _) (by decide) ?_)
        (.map fun v _ => .single (soundTag_of ["Text", "Value", "Id"] (.refl _) (by decide) ?_))
      · simp +decide [soundValues, Value.isSound, number, constant, plainText_decimal]
      · have hen : plainText (app.paramTypeXmlId pt ++ "_EN-".toList ++ decimal v.2) = true := by
          rw [plainText_append, plainText_append, hid, plainText_decimal]
          decide
        rw [soundValues_cons, soundValues_cons, soundValues_cons]
        exact congrArg₂ and rfl (congrArg₂ and (plainText_signed v.1.2) (congrArg₂ and hen rfl))

theorem writeParameters_nested : Nested (app.writeParameters indent) := by
  refine .node (by decide) (.flatMap fun q hq => ?_)
  unfold AppProgram.writeParameter
  split
  · exact .nil
  · next type htype =>
    refine .node (soundTag_of ["SizeInBit"] (.refl _) (by decide) (soundValues_number _ _ _))
      (.cons (.single (soundTag_of ["CodeSegment", "Offset", "BitOffset"] (.refl _)
        (by decide) ?_)) (.single (soundTag_of ["Id", "Name", "Offset", "BitOffset",
          "ParameterType", "Text", "Value"] (.refl _) (by decide) ?_)))
    · simp +decide [soundValues, Value.isSound, number, constant, plainText_decimal,
        plain_codeSegment h]
    · simp +decide [soundValues, Value.isSound, constant, plain_paramId h hq,
        plain_paramTypeXmlId h type]

theorem writeParameterRefs_nested : Nested (app.writeParameterRefs indent) := by
  refine .node (by decide) (.map fun q hq => .single (soundTag_of ["Id", "RefId"] (.refl _)
    (by decide) ?_))
  have hid := plain_paramId h hq
  have href : plainText (app.paramId q ++ "_R-".toList ++ app.paramId q) = true := by
    rw [plainText_append, plainText_append, hid]
    decide
  exact congrArg₂ and href (congrArg₂ and hid rfl)

theorem writeComObjectTable_nested : Nested (app.writeComObjectTable indent) := by
  refine .node (by decide) (.map fun co hco => .single (soundTag_of ["Id", "Name", "Number", "Text",
    "FunctionText", "ObjectSize", "DatapointType", "Priority", "ReadFlag", "WriteFlag",
    "CommunicationFlag", "TransmitFlag", "UpdateFlag", "ReadOnInitFlag"] (.refl _) (by decide) ?_))
  simp +decide [soundValues, Value.isSound, number, constant, plainText_decimal,
    plain_comObjectId h hco, plainText_dpst, plainText_flagsEts]

theorem writeComObjectRefs_nested : Nested (app.writeComObjectRefs indent) := by
  refine .node (by decide) (.map fun co hco => .single (soundTag_of ["Id", "RefId"] (.refl _)
    (by decide) ?_))
  have hid := plain_comObjectId h hco
  have href : plainText (app.comObjectId co ++ "_R-".toList ++ decimal co.number) = true := by
    rw [plainText_append, plainText_append, hid, plainText_decimal]
    decide
  exact congrArg₂ and href (congrArg₂ and hid rfl)

theorem writeSegment_nested (id : Nat) (seg : Segment) :
    Nested [app.writeSegment indent id seg] := by
  have hid := plain_segmentId h id
  cases seg with
  | absolute name size address memoryType userMemory =>
    refine .single (soundTag_of ["Id", "Name", "Size", "MemoryType", "Address", "UserMemory"] ?_
      (by decide) ?_)
    · have hnames := (((((List.Sublist.refl ["Id"]).append (names_optional name "Name" .given)).append
        (.refl ["Size"])).append (names_optional memoryType "MemoryType" fun mt =>
          .plain mt.ets)).append (.refl ["Address"])).append (names_flag userMemory "UserMemory")
      simp only [List.map_append]
      exact hnames
    · rw [soundValues_append, soundValues_append, soundValues_append, soundValues_append,
        soundValues_append, soundValues_given, soundValues_plain plainText_memoryType,
        soundValues_flag, soundValues_number, soundValues_number, soundValues_cons]
      exact congrArg₂ and (congrArg₂ and (congrArg₂ and (congrArg₂ and (congrArg₂ and
        (congrArg₂ and hid rfl) rfl) rfl) rfl) rfl) rfl
  | relative name size loadStateMachine offset =>
    refine .single (soundTag_of ["Id", "Name", "Offset", "Size", "LoadStateMachine"] ?_
      (by decide) ?_)
    · have hnames := ((List.Sublist.refl ["Id"]).append (names_optional name "Name" .given)).append
        (.refl ["Offset", "Size", "LoadStateMachine"])
      simp only [List.map_append]
      exact hnames
    · rw [soundValues_append, soundValues_append, soundValues_given, soundValues_number,
        soundValues_number, soundValues_number, soundValues_cons]
      exact congrArg₂ and (congrArg₂ and (congrArg₂ and hid rfl) rfl) rfl

theorem writeCode_nested : Nested (app.writeCode indent) :=
  .unlessEmpty _ (.node (by decide) (.flatMap fun _ _ => .map fun seg _ =>
    writeSegment_nested h (indent + 2) seg.2 seg.1))

theorem writeMessages_nested : Nested (app.writeMessages indent) := by
  refine .unlessEmpty _ (.node (by decide) (.map fun m hm => .single
    (soundTag_of ["Id", "Name", "Text"] (.refl _) (by decide) ?_)))
  have hid : plainText (app.appPrefix ++ "_M-".toList ++ m.suffix) = true := by
    rw [plainText_append, plainText_append, plain_appPrefix h, plain_message h hm]
    decide
  exact congrArg₂ and hid rfl

theorem plain_hardware2ProgramId {hwId : Text} (hid : plainText hwId = true) :
    plainText (hwId ++ "_HP-".toList ++ app.appTail) = true := by
  rw [plainText_append, plainText_append, hid, (plain_manufacturer h).2]
  decide

theorem writeCatalog_nested : Nested (app.writeCatalog indent) := by
  refine .unlessEmpty _ (.node (by decide) (.flatMap fun sect _ => ?_))
  refine .node (soundTag_of ["Id", "Name", "Number", "DefaultLanguage"] (.refl _) (by decide) ?_)
    (.map fun item _ => .single (soundTag_of ["Id", "Name", "Number", "ProductRefId",
      "Hardware2ProgramRefId", "DefaultLanguage"] (.refl _) (by decide) ?_))
  · have hid : plainText (app.manufacturer ++ "_CS-".toList ++ encodeIdComponent sect.key) =
        true := by
      rw [plainText_append, plainText_append, (plain_manufacturer h).1, plainText_encode]
      decide
    exact congrArg₂ and hid rfl
  · have hhw := plain_hardwareId h item.serialNumber item.versionNumber
    have hhp := plain_hardware2ProgramId h hhw
    have hid : plainText (app.hardwareId item.serialNumber item.versionNumber ++ "_HP-".toList ++
        app.appTail ++ "_CI-".toList ++ encodeIdComponent item.serialNumber ++ "-".toList ++
        decimal item.versionNumber) = true := by
      rw [plainText_append, plainText_append, plainText_append, plainText_append, hhp,
        plainText_encode, plainText_decimal]
      decide
    exact congrArg₂ and hid (congrArg₂ and rfl (congrArg₂ and rfl (congrArg₂ and
      (plain_productId hhw item.orderNumber) (congrArg₂ and hhp rfl))))

theorem writeHardware_nested : Nested (app.writeHardware indent) := by
  refine .unlessEmpty _ (.node (by decide) (.flatMap fun hw _ => ?_))
  have hhw := plain_hardwareId h hw.serialNumber hw.versionNumber
  refine .node (soundTag_of ["Id", "Name", "SerialNumber", "VersionNumber", "BusCurrent",
    "HasIndividualAddress", "HasApplicationProgram"] (.refl _) (by decide) ?_)
      (.append (.node (by decide) (.flatMap fun product _ => ?_))
        (.node (by decide) (.flatMap fun prog _ => ?_)))
  · simp [soundValues, Value.isSound, number, plainText_decimal, plainText_xmlBool, hhw]
  · refine .node (soundTag_of ["Id", "Text", "OrderNumber", "IsRailMounted", "DefaultLanguage"]
      (.refl _) (by decide) ?_) (.single (by decide))
    simp [soundValues, Value.isSound, plainText_xmlBool, plain_productId hhw]
  · refine .node (soundTag_of ["Id", "MediumTypes"] (.refl _) (by decide) ?_) (.cons (.single
      (soundTag_of ["RefId"] (.refl _) (by decide) ?_)) (.single (soundTag_of
        ["RegistrationStatus", "RegistrationNumber"] (.refl _) (by decide) ?_)))
    · exact congrArg₂ and (plain_hardware2ProgramId h hhw) rfl
    · exact congrArg₂ and (plain_appPrefix h) rfl
    · simp +decide [soundValues, Value.isSound, constant]

/-! ### The dynamic tree -/

theorem plain_suffix {tail : Text} (htail : plainText tail = true) {suffix : Text}
    (hsuffix : plainText suffix = true) : plainText (app.appPrefix ++ tail ++ suffix) = true := by
  rw [plainText_append, plainText_append, plain_appPrefix h, htail, hsuffix]
  rfl

end

section
variable {app : AppProgram}

mutual

theorem writeDynNode_nested (h : app.PlainIds) (n : Nat) : (d : Dyn) →
    (∀ s ∈ d.ids, plainText s = true) → Nested (app.writeDynNode n d)
  | .channelIndependentBlock children, hids => by
    unfold Dyn.ids at hids
    unfold AppProgram.writeDynNode
    exact .node (by decide) (writeDynNodes_nested h (n + 2) children hids)
  | .channel suffix channelNumber name text children, hids => by
    unfold Dyn.ids at hids
    unfold AppProgram.writeDynNode
    refine .node (soundTag_of ["Id", "Number", "Name", "Text"] (.refl _) (by decide) ?_)
      (writeDynNodes_nested h (n + 2) children fun s hs => hids s (List.mem_cons_of_mem _ hs))
    exact congrArg₂ and (plain_suffix h (by decide) (hids _ List.mem_cons_self)) rfl
  | .parameterBlock suffix name text textParamRef showInComObjectTree children, hids => by
    unfold Dyn.ids at hids
    unfold AppProgram.writeDynNode
    refine .node (soundTag_of ["Id", "Name", "Text", "TextParameterRefId", "ShowInComObjectTree"] ?_
      (by decide) ?_)
      (writeDynNodes_nested h (n + 2) children fun s hs => hids s (List.mem_cons_of_mem _ hs))
    · have hnames := ((List.Sublist.refl ["Id", "Name", "Text"]).append (names_optional textParamRef
        "TextParameterRefId" fun r => .plain (app.paramRefRefId r))).append
          (names_flag showInComObjectTree "ShowInComObjectTree")
      simp only [List.map_append]
      exact hnames
    · rw [soundValues_append, soundValues_append, soundValues_plain (plain_paramRefRefId h),
        soundValues_flag, soundValues_cons]
      exact congrArg₂ and (congrArg₂ and (congrArg₂ and
        (plain_suffix h (by decide) (hids _ List.mem_cons_self)) rfl) rfl) rfl
  | .paramRefRef r, _ => by
    unfold AppProgram.writeDynNode
    exact .single (soundTag_of ["RefId"] (.refl _) (by decide)
      (congrArg₂ and (plain_paramRefRefId h r) rfl))
  | .comObjRefRef r, _ => by
    unfold AppProgram.writeDynNode
    exact .single (soundTag_of ["RefId"] (.refl _) (by decide)
      (congrArg₂ and (plain_comObjectRefRefId h r) rfl))
  | .separator suffix text uiHint, hids => by
    unfold Dyn.ids at hids
    unfold AppProgram.writeDynNode
    exact .single (soundTag_of ["Id", "Text", "UIHint"] (.refl _) (by decide)
      (congrArg₂ and (plain_suffix h (by decide) (hids _ List.mem_cons_self)) rfl))
  | .choose paramRef whens, hids => by
    unfold Dyn.ids at hids
    unfold AppProgram.writeDynNode
    exact .node (soundTag_of ["ParamRefId"] (.refl _) (by decide)
      (congrArg₂ and (plain_paramRefRefId h paramRef) rfl)) (writeWhens_nested h (n + 2) whens hids)

theorem writeDynNodes_nested (h : app.PlainIds) (n : Nat) : (children : List Dyn) →
    (∀ s ∈ idsOfNodes children, plainText s = true) → Nested (app.writeDynNodes n children)
  | [], _ => by
    unfold AppProgram.writeDynNodes
    exact .nil
  | child :: children, hids => by
    unfold idsOfNodes at hids
    unfold AppProgram.writeDynNodes
    exact .append (writeDynNode_nested h n child fun s hs => hids s (List.mem_append_left _ hs))
      (writeDynNodes_nested h n children fun s hs => hids s (List.mem_append_right _ hs))

theorem writeWhen_nested (h : app.PlainIds) (n : Nat) : (branch : When) →
    (∀ s ∈ branch.ids, plainText s = true) → Nested (app.writeWhen n branch)
  | .mk test children, hids => by
    unfold When.ids at hids
    unfold AppProgram.writeWhen
    exact .node (soundTag_of ["test"] (.refl _) (by decide) rfl)
      (writeDynNodes_nested h (n + 2) children hids)

theorem writeWhens_nested (h : app.PlainIds) (n : Nat) : (whens : List When) →
    (∀ s ∈ idsOfWhens whens, plainText s = true) → Nested (app.writeWhens n whens)
  | [], _ => by
    unfold AppProgram.writeWhens
    exact .nil
  | branch :: whens, hids => by
    unfold idsOfWhens at hids
    unfold AppProgram.writeWhens
    exact .append (writeWhen_nested h n branch fun s hs => hids s (List.mem_append_left _ hs))
      (writeWhens_nested h n whens fun s hs => hids s (List.mem_append_right _ hs))

end

theorem writeDynamic_nested (h : app.PlainIds) (indent : Nat) :
    Nested (app.writeDynamic indent) :=
  .unlessEmpty _ (.node (by decide)
    (writeDynNodes_nested h (indent + 2) app.dynamic (plain_dynamic h)))

/-! ### Load procedures -/

def targetNames : List String := ["LsmIdx", "ObjType", "ObjIdx", "Occurrence"]

theorem names_target (target : ObjTarget) :
    (target.attrs.map Prod.fst).Sublist targetNames := by
  cases target with
  | lsm n => exact List.Sublist.cons_cons _ (List.nil_sublist _)
  | object objType occurrence =>
    unfold ObjTarget.attrs
    dsimp only
    split_ifs
    · exact .cons _ (.cons_cons _ (.cons _ (.cons_cons _ .slnil)))
    · exact .cons _ (.cons_cons _ (List.nil_sublist _))
  | objIdx index occurrence =>
    unfold ObjTarget.attrs
    dsimp only
    split_ifs
    · exact .cons _ (.cons _ (.cons_cons _ (.cons_cons _ .slnil)))
    · exact .cons _ (.cons _ (.cons_cons _ (List.nil_sublist _)))

theorem soundValues_target (target : ObjTarget) : soundValues target.attrs = true := by
  cases target with
  | lsm n => exact soundValues_number _ _ _
  | object objType occurrence =>
    unfold ObjTarget.attrs
    dsimp only
    split_ifs
    · rw [soundValues_number, soundValues_number]
      rfl
    · exact soundValues_number _ _ _
  | objIdx index occurrence =>
    unfold ObjTarget.attrs
    dsimp only
    split_ifs
    · rw [soundValues_number, soundValues_number]
      rfl
    · exact soundValues_number _ _ _

theorem plainText_inline (bytes : List UInt8) :
    plainText (bytes.flatMap fun b => upperHex 2 b.toNat) = true :=
  plainText_flatMap fun _ _ => plainText_upperHex _ _

theorem element_values (control : LoadControl) : soundValues control.element.2 = true := by
  have hinline (data : Option (List UInt8)) : soundValues (pushInline data) = true :=
    soundValues_plain plainText_inline
  cases control with
  | connect | disconnect | restart => rfl
  | unload target | load target | loadCompleted target => exact soundValues_target target
  | absSegment target segType address size access memType segFlags =>
    refine (soundValues_append _ _).trans ?_
    rw [soundValues_target, soundValues_number, soundValues_number, soundValues_number,
      soundValues_number, soundValues_number, soundValues_number]
    rfl
  | relSegment target size mode fill =>
    refine (soundValues_append _ _).trans ?_
    rw [soundValues_target, soundValues_number, soundValues_number, soundValues_number]
    rfl
  | writeMem address size verify inlineData =>
    refine (soundValues_append _ _).trans ?_
    rw [soundValues_append, soundValues_flag, hinline, soundValues_number, soundValues_number]
    rfl
  | loadImageMem address size =>
    refine (soundValues_number _ _ _).trans ?_
    rw [soundValues_number]
    rfl
  | writeRelMem target offset size verify inlineData =>
    refine (soundValues_append _ _).trans ?_
    rw [soundValues_append, soundValues_append, soundValues_flag, hinline, soundValues_target,
      soundValues_number, soundValues_number]
    rfl
  | compareProp target propId inlineData =>
    refine (soundValues_append _ _).trans ?_
    rw [soundValues_append, hinline, soundValues_target, soundValues_number]
    rfl
  | loadImageProp target propId =>
    refine (soundValues_append _ _).trans ?_
    rw [soundValues_target, soundValues_number]
    rfl
  | delay milliseconds => exact soundValues_number _ _ _
  | progressText textId messageRef =>
    refine (soundValues_append _ _).trans ?_
    rw [soundValues_given, Bool.and_true]
    exact soundValues_plain plainText_decimal

/-- Every step has one of these names, and its attributes are among these. -/
def stepTags : List (String × List String) :=
  [("LdCtrlConnect", []), ("LdCtrlDisconnect", []), ("LdCtrlRestart", []),
    ("LdCtrlUnload", targetNames), ("LdCtrlLoad", targetNames),
    ("LdCtrlLoadCompleted", targetNames),
    ("LdCtrlAbsSegment", targetNames ++
      ["SegType", "Address", "Size", "Access", "MemType", "SegFlags"]),
    ("LdCtrlRelSegment", targetNames ++ ["Size", "Mode", "Fill"]),
    ("LdCtrlWriteMem", ["Address", "Size"] ++ ["Verify"] ++ ["InlineData"]),
    ("LdCtrlLoadImageMem", ["Address", "Size"]),
    ("LdCtrlWriteRelMem", targetNames ++ ["Offset", "Size"] ++ ["Verify"] ++ ["InlineData"]),
    ("LdCtrlCompareProp", ["InlineData"] ++ targetNames ++ ["PropId"]),
    ("LdCtrlLoadImageProp", targetNames ++ ["PropId"]), ("LdCtrlDelay", ["MilliSeconds"]),
    ("LdCtrlProgressText", ["TextId"] ++ ["MessageRef"])]

theorem stepTags_sound : ∀ tag ∈ stepTags, namesSound tag.1 (tag.2 ++ ["AppliesTo"]) = true := by
  decide

theorem element_names (control : LoadControl) : ∃ tag ∈ stepTags, control.element.1 = tag.1 ∧
    (control.element.2.map Prod.fst).Sublist tag.2 := by
  have hinline (data : Option (List UInt8)) :
      ((pushInline data).map Prod.fst).Sublist ["InlineData"] := names_optional data _ _
  have htag (i : Nat) (hi : i < stepTags.length) (hname : control.element.1 = stepTags[i].1)
      (hnames : (control.element.2.map Prod.fst).Sublist stepTags[i].2) :
      ∃ tag ∈ stepTags, control.element.1 = tag.1 ∧
        (control.element.2.map Prod.fst).Sublist tag.2 :=
    ⟨stepTags[i], List.getElem_mem hi, hname, hnames⟩
  cases control with
  | connect => exact htag 0 (by decide) rfl .slnil
  | disconnect => exact htag 1 (by decide) rfl .slnil
  | restart => exact htag 2 (by decide) rfl .slnil
  | unload target => exact htag 3 (by decide) rfl (names_target target)
  | load target => exact htag 4 (by decide) rfl (names_target target)
  | loadCompleted target => exact htag 5 (by decide) rfl (names_target target)
  | absSegment target _ _ _ _ _ _ =>
    exact htag 6 (by decide) rfl (names_append (names_target target) (.refl _))
  | relSegment target _ _ _ =>
    exact htag 7 (by decide) rfl (names_append (names_target target) (.refl _))
  | writeMem address size verify inlineData =>
    exact htag 8 (by decide) rfl
      (names_append (names_append (.refl _) (names_flag verify _)) (hinline inlineData))
  | loadImageMem address size => exact htag 9 (by decide) rfl (.refl _)
  | writeRelMem target offset size verify inlineData =>
    exact htag 10 (by decide) rfl (names_append (names_append
      (names_append (names_target target) (.refl _)) (names_flag verify _)) (hinline inlineData))
  | compareProp target propId inlineData =>
    exact htag 11 (by decide) rfl
      (names_append (names_append (hinline inlineData) (names_target target)) (.refl _))
  | loadImageProp target _ =>
    exact htag 12 (by decide) rfl (names_append (names_target target) (.refl _))
  | delay milliseconds => exact htag 13 (by decide) rfl (.refl _)
  | progressText textId messageRef =>
    exact htag 14 (by decide) rfl
      (names_append (names_optional textId _ _) (names_optional messageRef _ _))

theorem writeStep_nested (indent : Nat) (control : LoadControl) (base : StepBase) :
    Nested (writeStep indent control base) := by
  have htag : soundTag control.element.1 (control.element.2 ++
      optional base.appliesTo fun pt => ("AppliesTo", .plain pt.ets)) = true := by
    obtain ⟨tag, hmem, hname, hnames⟩ := element_names control
    refine soundTag_of (tag.2 ++ ["AppliesTo"]) (names_append hnames (names_optional _ _ _))
      (hname ▸ stepTags_sound tag hmem) ?_
    rw [soundValues_append, element_values, soundValues_plain plainText_procType]
    rfl
  unfold writeStep
  dsimp only
  split_ifs
  · exact .single htag
  · refine .node htag (.map fun e _ => .single (soundTag_of ["Cause", "Ignore", "MessageRef"]
      ?_ (by decide) ?_))
    · have hnames := (List.Sublist.refl ["Cause"]).append ((names_flag e.ignore "Ignore").append
        (names_optional e.messageRef "MessageRef" .given))
      rw [← List.map_append] at hnames
      exact hnames
    · show (plainText e.cause.ets && soundValues (_ ++ _)) = true
      rw [plainText_errorCause, soundValues_append, soundValues_flag, soundValues_given]
      rfl

theorem writeLoadProcedures_nested (app : AppProgram) (indent : Nat) :
    Nested (app.writeLoadProcedures indent) :=
  .unlessEmpty _ (.node (by decide) (.flatMap fun proc _ =>
    .node (soundTag_of ["MergeId"] (names_optional proc.mergeId _ _) (by decide)
      (soundValues_plain plainText_decimal))
      (.flatMap fun step _ => writeStep_nested _ step.1 step.2)))

end

end KnxRs.Author
