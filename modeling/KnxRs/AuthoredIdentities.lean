import KnxRs.AuthoredElements

set_option autoImplicit false

/-!
# What is read of an authored document

The sections of a document, each with the elements of the program that are read of it, and the
sections of which none is read: their ids have no application prefix, or are not read as such.
-/
namespace KnxRs.Author
open Texts XmlDocuments XmlScan Renumber Sanity

section
variable {scope : Text} {name : String} {attributes : Attributes} {lines : List Line}

theorem readIdentities_plain (indent : Nat) :
    readIdentities scope (node indent name [] lines) = readIdentities scope lines :=
  readIdentities_node indent

theorem readIdentities_bare (indent : Nat) (names : List String)
    (hnames : (attributes.map Prod.fst).Sublist names) (h : unwatched name names = true) :
    readIdentities scope (node indent name attributes lines) = readIdentities scope lines := by
  rw [readIdentities_node, identifying_unwatched names hnames h]
  rfl

theorem readIdentities_none (indent : Nat) (names : List String)
    (hnames : (attributes.map Prod.fst).Sublist names) (h : unwatched name names = true) :
    readIdentities scope [.single indent name attributes] = [] := by
  rw [readIdentities_single, identifying_unwatched names hnames h]
  rfl

theorem readIdentities_unlessEmpty {α : Type} {xs : List α} {els : List Element}
    (h : readIdentities scope lines = els) (hempty : xs = [] → els = []) :
    readIdentities scope (unlessEmpty xs lines) = els := by
  unfold unlessEmpty
  split_ifs with hxs
  · exact (hempty (List.isEmpty_iff.mp hxs)).symm
  · exact h

theorem readIdentities_silent {α : Type} {xs : List α} {f : α → List Line}
    (h : ∀ x ∈ xs, readIdentities scope (f x) = []) : readIdentities scope (xs.flatMap f) = [] := by
  rw [readIdentities_flatMap h]
  exact List.flatMap_eq_nil_iff.mpr fun _ _ => rfl

/-- An element that is read for its id alone. -/
theorem identifying_id {appPrefix : Text} {d : ElementId} {id : Text} (hid : id = d.id appPrefix)
    (names : List String) (hnames : (attributes.map Prod.fst).Sublist names)
    (h : unwatched name names = true) :
    identifying (scopeOf appPrefix) name (("Id", .plain id) :: attributes) =
      [("Id".toList, d.id appPrefix)] := by
  subst hid
  rw [identifying_inside (by simp [watched, isId]) (inside_id appPrefix d),
    identifying_unwatched names hnames h]
  rfl

end

section
variable (app : AppProgram)

theorem suffixed_eq (kind : Suffixed) {tail : Text} (h : tail = '_' :: kind.kind ++ ['-'])
    (suffix : Text) :
    app.appPrefix ++ tail ++ suffix = (ElementId.suffixed kind suffix).id app.appPrefix := by
  rw [h]
  simp [ElementId.id, ElementId.kind, ElementId.body, ElementId.ending, scopeOf]

theorem paramId_eq (p : Parameter) :
    app.paramId p = (ElementId.suffixed .parameter p.suffix).id app.appPrefix :=
  suffixed_eq app .parameter (by decide) p.suffix

theorem comObjectId_eq (co : ComObject) :
    app.comObjectId co = (ElementId.suffixed .comObject co.suffix).id app.appPrefix :=
  suffixed_eq app .comObject (by decide) co.suffix

theorem parameterRef_eq (p : Parameter) : app.paramId p ++ "_R-".toList ++ app.paramId p =
    (ElementId.parameterRef p.suffix).id app.appPrefix := by
  simp [AppProgram.paramId, ElementId.id, ElementId.kind, ElementId.body, ElementId.ending, scopeOf]

theorem comObjectRef_eq (co : ComObject) :
    app.comObjectId co ++ "_R-".toList ++ decimal co.number =
      (ElementId.comObjectRef co.suffix co.number).id app.appPrefix := by
  simp [AppProgram.comObjectId, ElementId.id, ElementId.kind, ElementId.body, ElementId.ending,
    scopeOf]

theorem paramTypeXmlId_eq (type : ParameterType) :
    app.paramTypeXmlId type = (ElementId.parameterType type.name).id app.appPrefix := by
  simp [AppProgram.paramTypeXmlId, ElementId.id, ElementId.kind, ElementId.body, ElementId.ending,
    scopeOf]

theorem enumeration_eq (type : ParameterType) (i : Nat) :
    app.paramTypeXmlId type ++ "_EN-".toList ++ decimal i =
      (ElementId.enumeration type.name i).id app.appPrefix := by
  simp [AppProgram.paramTypeXmlId, ElementId.id, ElementId.kind, ElementId.body, ElementId.ending,
    scopeOf]

theorem segment_identity (indent : Nat) {seg : Segment × Nat} (h : seg ∈ app.segments.zipIdx) :
    readIdentities (scopeOf app.appPrefix) [app.writeSegment indent seg.2 seg.1] =
      [(AppProgram.segmentEntity seg).element (ElementId.id app.appPrefix)] := by
  obtain ⟨seg, i⟩ := seg
  have hget := List.mem_zipIdx_iff_getElem?.mp h
  cases seg with
  | absolute name size address memoryType userMemory =>
    have hid : app.segmentId i = (ElementId.absoluteSegment i).id app.appPrefix := by
      unfold AppProgram.segmentId
      rw [hget]
      simp [ElementId.id, ElementId.kind, ElementId.body, ElementId.ending, scopeOf]
    have one (attr : String) (n : Nat) : ([number attr n].map Prod.fst).Sublist [attr] := .refl _
    have hnames := names_append (names_optional name "Name" .given) (names_append (one "Size" size)
      (names_append (names_optional memoryType "MemoryType" fun mt => .plain mt.ets)
        (names_append (one "Address" address) (names_flag userMemory "UserMemory"))))
    unfold AppProgram.writeSegment
    dsimp only
    rw [readIdentities_single, List.append_assoc, List.append_assoc, List.append_assoc,
      List.append_assoc, List.singleton_append, identifying_id hid _ hnames (by decide)]
    rfl
  | relative name size loadStateMachine offset =>
    have hid : app.segmentId i =
        (ElementId.relativeSegment loadStateMachine i).id app.appPrefix := by
      unfold AppProgram.segmentId
      rw [hget]
      simp [ElementId.id, ElementId.kind, ElementId.body, ElementId.ending, scopeOf]
    have hnumbers : ([number "Offset" offset, number "Size" size, number "LoadStateMachine"
        loadStateMachine].map Prod.fst).Sublist ["Offset", "Size", "LoadStateMachine"] := .refl _
    have hnames := names_append (names_optional name "Name" .given) hnumbers
    unfold AppProgram.writeSegment
    dsimp only
    rw [readIdentities_single, List.append_assoc, List.singleton_append,
      identifying_id hid _ hnames (by decide)]
    rfl

theorem code_identities (indent : Nat) :
    readIdentities (scopeOf app.appPrefix) (app.writeCode indent) =
      ([true, false].flatMap fun wantAbs => (app.segments.zipIdx.filter fun (seg, _) =>
        AppProgram.isAbsolute seg = wantAbs).map AppProgram.segmentEntity).map
          (Entity.element (ElementId.id app.appPrefix)) := by
  refine readIdentities_unlessEmpty ?_ fun hxs => by rw [hxs]; rfl
  rw [readIdentities_plain, List.map_flatMap]
  refine readIdentities_flatMap fun wantAbs _ => ?_
  rw [List.map_map]
  exact readIdentities_map fun seg hseg => segment_identity app _ (List.mem_of_mem_filter hseg)

theorem types_identities (indent : Nat) :
    readIdentities (scopeOf app.appPrefix) (app.writeParameterTypes indent) =
      (app.parameterTypes.flatMap AppProgram.typeEntities).map
        (Entity.element (ElementId.id app.appPrefix)) := by
  refine readIdentities_unlessEmpty ?_ fun hxs => by rw [hxs]; rfl
  rw [readIdentities_plain, List.map_flatMap]
  refine readIdentities_flatMap fun type _ => ?_
  unfold AppProgram.writeParameterType AppProgram.typeEntities
  rw [readIdentities_node, identifying_id (paramTypeXmlId_eq app type) ["Name"] (by exact .refl _)
    (by decide)]
  refine congrArg (List.cons _) ?_
  rw [List.map_map]
  cases type.kind with
  | text sizeBits => exact readIdentities_none _ ["SizeInBit"] (.refl _) (by decide)
  | number sizeBits numberType min max =>
    exact readIdentities_none _ ["SizeInBit", "Type", "minInclusive", "maxInclusive"] (.refl _)
      (by decide)
  | enumeration sizeBits values =>
    unfold AppProgram.writeParamTypeKind AppProgram.enumerationIds
    rw [readIdentities_bare _ ["Base", "SizeInBit"] (by exact .refl _) (by decide), List.map_map]
    refine readIdentities_map fun v _ => ?_
    rw [readIdentities_single, identifying_skip (by decide), identifying_skip (by decide),
      identifying_id (enumeration_eq app type v.2) [] (.refl _) (by decide)]
    rfl

theorem parameters_identities (indent : Nat)
    (h : ∀ q ∈ app.parameters, q.paramType < app.parameterTypes.length) :
    readIdentities (scopeOf app.appPrefix) (app.writeParameters indent) =
      (app.parameters.map AppProgram.parameterEntity).map
        (Entity.element (ElementId.id app.appPrefix)) := by
  unfold AppProgram.writeParameters
  rw [readIdentities_plain, List.map_map, List.map_eq_flatMap]
  refine readIdentities_flatMap fun p hp => ?_
  unfold AppProgram.writeParameter
  rw [List.getElem?_eq_getElem (h p hp)]
  dsimp only
  rw [readIdentities_bare _ ["SizeInBit"] (by exact .refl _) (by decide), ← List.singleton_append,
    readIdentities_append, readIdentities_none _ ["CodeSegment", "Offset", "BitOffset"]
      (by exact .refl _) (by decide),
    readIdentities_single, identifying_id (paramId_eq app p) ["Name", "Offset", "BitOffset",
      "ParameterType", "Text", "Value"] (by exact .refl _) (by decide)]
  rfl

theorem inside_paramId (p : Parameter) :
    (scopeOf app.appPrefix).isPrefixOf (app.paramId p) = true :=
  paramId_eq app p ▸ inside_id _ _

theorem inside_comObjectId (co : ComObject) :
    (scopeOf app.appPrefix).isPrefixOf (app.comObjectId co) = true :=
  comObjectId_eq app co ▸ inside_id _ _

theorem parameterRefs_identities (indent : Nat) :
    readIdentities (scopeOf app.appPrefix) (app.writeParameterRefs indent) =
      (app.parameters.map AppProgram.parameterRefEntity).map
        (Entity.element (ElementId.id app.appPrefix)) := by
  unfold AppProgram.writeParameterRefs
  rw [readIdentities_plain, List.map_map]
  refine readIdentities_map fun p _ => ?_
  rw [readIdentities_single, parameterRef_eq, identifying_inside (by decide) (inside_id _ _),
    identifying_inside (by decide) (inside_paramId app p), paramId_eq]
  rfl

theorem comObjects_identities (indent : Nat) :
    readIdentities (scopeOf app.appPrefix) (app.writeComObjectTable indent) =
      (app.comObjects.map AppProgram.comObjectEntity).map
        (Entity.element (ElementId.id app.appPrefix)) := by
  unfold AppProgram.writeComObjectTable
  rw [readIdentities_plain, List.map_map]
  refine readIdentities_map fun co _ => ?_
  have hid := inside_id app.appPrefix (.suffixed .comObject co.suffix)
  have hnumber (attributes : Attributes) : identifying (scopeOf app.appPrefix) "ComObject"
      (number "Number" co.number :: attributes) = ("Number".toList, decimal co.number) ::
        identifying (scopeOf app.appPrefix) "ComObject" attributes := by
    unfold identifying
    have hwatched : watched "ComObject".toList "Number".toList = true := by decide
    rw [List.map_cons, List.filter_cons_of_pos]
    · rfl
    · unfold identifies number
      rw [hwatched]
      simp
  unfold AppProgram.writeComObject
  rw [readIdentities_single, comObjectId_eq, identifying_inside (by decide) hid,
    identifying_skip (by decide), hnumber, identifying_unwatched ["Text", "FunctionText",
      "ObjectSize", "DatapointType", "Priority", "ReadFlag", "WriteFlag", "CommunicationFlag",
      "TransmitFlag", "UpdateFlag", "ReadOnInitFlag"] (by exact .refl _) (by decide)]
  rfl

theorem comObjectRefs_identities (indent : Nat) :
    readIdentities (scopeOf app.appPrefix) (app.writeComObjectRefs indent) =
      (app.comObjects.map AppProgram.comObjectRefEntity).map
        (Entity.element (ElementId.id app.appPrefix)) := by
  unfold AppProgram.writeComObjectRefs
  rw [readIdentities_plain, List.map_map]
  refine readIdentities_map fun co _ => ?_
  rw [readIdentities_single, comObjectRef_eq, identifying_inside (by decide) (inside_id _ _),
    identifying_inside (by decide) (inside_comObjectId app co), comObjectId_eq]
  rfl

theorem messages_identities (indent : Nat) :
    readIdentities (scopeOf app.appPrefix) (app.writeMessages indent) =
      (app.messages.map AppProgram.messageEntity).map
        (Entity.element (ElementId.id app.appPrefix)) := by
  refine readIdentities_unlessEmpty ?_ fun hxs => by rw [hxs]; rfl
  rw [readIdentities_plain, List.map_map]
  refine readIdentities_map fun m _ => ?_
  rw [readIdentities_single, identifying_id (suffixed_eq app .message (by decide) m.suffix)
    ["Name", "Text"] (by exact .refl _) (by decide)]
  rfl

end

section
variable {app : AppProgram}

/-! ## The dynamic tree -/

theorem paramRefRefId_of {r : Nat} (h : r < app.parameters.length) :
    ∃ d, app.parameterRefOf r = some d ∧ app.paramRefRefId r = d.id app.appPrefix := by
  unfold AppProgram.parameterRefOf AppProgram.paramRefRefId
  rw [List.getElem?_eq_getElem h]
  exact ⟨_, rfl, parameterRef_eq app _⟩

theorem comObjectRefRefId_of {r : Nat} (h : r < app.comObjects.length) :
    ∃ d, app.comObjectRefOf r = some d ∧ app.comObjectRefRefId r = d.id app.appPrefix := by
  unfold AppProgram.comObjectRefOf AppProgram.comObjectRefRefId
  rw [List.getElem?_eq_getElem h]
  exact ⟨_, rfl, comObjectRef_eq app _⟩

theorem title_identifying {textParamRef : Option Nat} {shown : Bool}
    (h : (textParamRef.all fun r => r < app.parameters.length) = true) :
    identifying (scopeOf app.appPrefix) "ParameterBlock"
      ((optional textParamRef fun r => ("TextParameterRefId", .plain (app.paramRefRefId r))) ++
        flag shown "ShowInComObjectTree") =
      (textParamRef.bind app.parameterRefOf).toList.map fun d =>
        ("TextParameterRefId".toList, d.id app.appPrefix) := by
  have hflag : identifying (scopeOf app.appPrefix) "ParameterBlock"
      (flag shown "ShowInComObjectTree") = [] :=
    identifying_unwatched _ (names_flag shown "ShowInComObjectTree") (by decide)
  rw [identifying_append, hflag, List.append_nil]
  cases textParamRef with
  | none => rfl
  | some r =>
    obtain ⟨d, hd, hid⟩ := paramRefRefId_of (of_decide_eq_true h)
    have hone : (optional (some r) fun r =>
        ("TextParameterRefId", Value.plain (app.paramRefRefId r))) =
          [("TextParameterRefId", .plain (d.id app.appPrefix))] := by
      rw [← hid]
      rfl
    rw [Option.bind_some, hd, hone]
    exact identifying_inside (by decide) (inside_id _ d)

mutual

theorem writeDynNode_identities (n : Nat) : (d : Dyn) →
    AppProgram.registeredNode app.parameters.length app.comObjects.length d = true →
    readIdentities (scopeOf app.appPrefix) (app.writeDynNode n d) =
      (app.entitiesOf d).map (Entity.element (ElementId.id app.appPrefix))
  | .channelIndependentBlock children, h => by
    unfold AppProgram.registeredNode at h
    unfold AppProgram.writeDynNode AppProgram.entitiesOf
    rw [readIdentities_plain]
    exact writeDynNodes_identities (n + 2) children h
  | .channel suffix channelNumber name text children, h => by
    unfold AppProgram.registeredNode at h
    unfold AppProgram.writeDynNode AppProgram.entitiesOf
    rw [readIdentities_node, identifying_id (suffixed_eq app .channel (by decide) suffix)
      ["Number", "Name", "Text"] (by exact .refl _) (by decide),
      writeDynNodes_identities (n + 2) children h]
    rfl
  | .parameterBlock suffix name text textParamRef showInComObjectTree children, h => by
    unfold AppProgram.registeredNode at h
    obtain ⟨htitle, hchildren⟩ := Bool.and_eq_true_iff.mp h
    unfold AppProgram.writeDynNode AppProgram.entitiesOf
    rw [suffixed_eq app .block (by decide) suffix, readIdentities_node, List.append_assoc,
      List.cons_append, identifying_inside (by decide) (inside_id _ _), List.cons_append,
      identifying_skip (by decide), List.cons_append, identifying_skip (by decide), List.nil_append,
      title_identifying htitle, writeDynNodes_identities (n + 2) children hchildren]
    rfl
  | .paramRefRef r, h => by
    unfold AppProgram.registeredNode at h
    obtain ⟨d, hd, hid⟩ := paramRefRefId_of (of_decide_eq_true h)
    unfold AppProgram.writeDynNode AppProgram.entitiesOf
    rw [readIdentities_single, hd, hid, identifying_inside (by decide) (inside_id _ d)]
    rfl
  | .comObjRefRef r, h => by
    unfold AppProgram.registeredNode at h
    obtain ⟨d, hd, hid⟩ := comObjectRefRefId_of (of_decide_eq_true h)
    unfold AppProgram.writeDynNode AppProgram.entitiesOf
    rw [readIdentities_single, hd, hid, identifying_inside (by decide) (inside_id _ d)]
    rfl
  | .separator suffix text uiHint, _ => by
    unfold AppProgram.writeDynNode AppProgram.entitiesOf
    rw [readIdentities_single, identifying_id (suffixed_eq app .separator (by decide) suffix)
      ["Text", "UIHint"] (by exact .refl _) (by decide)]
    rfl
  | .choose paramRef whens, h => by
    unfold AppProgram.registeredNode at h
    obtain ⟨hparam, hwhens⟩ := Bool.and_eq_true_iff.mp h
    obtain ⟨d, hd, hid⟩ := paramRefRefId_of (of_decide_eq_true hparam)
    unfold AppProgram.writeDynNode AppProgram.entitiesOf
    rw [readIdentities_node, hd, hid, identifying_inside (by decide) (inside_id _ d),
      writeWhens_identities (n + 2) whens hwhens]
    rfl

theorem writeDynNodes_identities (n : Nat) : (children : List Dyn) →
    AppProgram.registeredNodes app.parameters.length app.comObjects.length children = true →
    readIdentities (scopeOf app.appPrefix) (app.writeDynNodes n children) =
      (app.entitiesOfNodes children).map (Entity.element (ElementId.id app.appPrefix))
  | [], _ => by
    unfold AppProgram.writeDynNodes AppProgram.entitiesOfNodes
    rfl
  | child :: children, h => by
    unfold AppProgram.registeredNodes at h
    obtain ⟨hchild, hchildren⟩ := Bool.and_eq_true_iff.mp h
    unfold AppProgram.writeDynNodes AppProgram.entitiesOfNodes
    rw [readIdentities_append, writeDynNode_identities n child hchild,
      writeDynNodes_identities n children hchildren, List.map_append]

theorem writeWhen_identities (n : Nat) : (branch : When) →
    AppProgram.registeredWhen app.parameters.length app.comObjects.length branch = true →
    readIdentities (scopeOf app.appPrefix) (app.writeWhen n branch) =
      (app.entitiesOfWhen branch).map (Entity.element (ElementId.id app.appPrefix))
  | .mk test children, h => by
    unfold AppProgram.registeredWhen at h
    unfold AppProgram.writeWhen AppProgram.entitiesOfWhen
    rw [readIdentities_bare n ["test"] (by exact .refl _) (by decide)]
    exact writeDynNodes_identities (n + 2) children h

theorem writeWhens_identities (n : Nat) : (whens : List When) →
    AppProgram.registeredWhens app.parameters.length app.comObjects.length whens = true →
    readIdentities (scopeOf app.appPrefix) (app.writeWhens n whens) =
      (app.entitiesOfWhens whens).map (Entity.element (ElementId.id app.appPrefix))
  | [], _ => by
    unfold AppProgram.writeWhens AppProgram.entitiesOfWhens
    rfl
  | branch :: whens, h => by
    unfold AppProgram.registeredWhens at h
    obtain ⟨hbranch, hwhens⟩ := Bool.and_eq_true_iff.mp h
    unfold AppProgram.writeWhens AppProgram.entitiesOfWhens
    rw [readIdentities_append, writeWhen_identities n branch hbranch,
      writeWhens_identities n whens hwhens, List.map_append]

end

theorem dynamic_identities (indent : Nat) (h : app.registered = true) :
    readIdentities (scopeOf app.appPrefix) (app.writeDynamic indent) =
      (app.entitiesOfNodes app.dynamic).map
        (Entity.element (ElementId.id app.appPrefix)) := by
  unfold AppProgram.registered at h
  rw [Bool.and_eq_true] at h
  refine readIdentities_unlessEmpty ?_ fun hxs => ?_
  · rw [readIdentities_plain]
    exact writeDynNodes_identities (indent + 2) app.dynamic h.2
  · rw [hxs]
    unfold AppProgram.entitiesOfNodes
    rfl

/-! ## What has no id -/

theorem step_identities {scope : Text} (indent : Nat) (control : LoadControl) (base : StepBase) :
    readIdentities scope (writeStep indent control base) = [] := by
  obtain ⟨tag, hmem, hname, hnames⟩ := element_names control
  have hnames := names_append hnames
    (names_optional base.appliesTo "AppliesTo" fun pt => .plain pt.ets)
  have hunwatched : ∀ tag ∈ stepTags, unwatched tag.1 (tag.2 ++ ["AppliesTo"]) = true := by decide
  have hunwatched := hname ▸ hunwatched tag hmem
  unfold writeStep
  dsimp only
  split_ifs
  · exact readIdentities_none indent _ hnames hunwatched
  · rw [readIdentities_bare indent _ hnames hunwatched, List.map_eq_flatMap]
    refine readIdentities_silent fun e _ => ?_
    have hcause : ([("Cause", Value.plain e.cause.ets)].map Prod.fst).Sublist ["Cause"] := .refl _
    have herror := names_append hcause (names_append (names_flag e.ignore "Ignore")
      (names_optional e.messageRef "MessageRef" .given))
    exact readIdentities_none _ _ herror (by decide)

theorem loadProcedures_identities {scope : Text} (indent : Nat) :
    readIdentities scope (app.writeLoadProcedures indent) = [] := by
  refine readIdentities_unlessEmpty ?_ fun _ => rfl
  rw [readIdentities_plain]
  refine readIdentities_silent fun proc _ => ?_
  unfold writeLoadProcedure
  have hmerge : ((optional proc.mergeId (number "MergeId")).map Prod.fst).Sublist ["MergeId"] :=
    names_optional proc.mergeId "MergeId" fun n => .plain (decimal n)
  rw [readIdentities_bare _ _ hmerge (by decide)]
  exact readIdentities_silent fun step _ => step_identities _ step.1 step.2

theorem program_identities (static dynamic : Nat) (h : app.registered = true) :
    readIdentities (scopeOf app.appPrefix)
        (node dynamic "Static" [] (app.writeStatic static) ++ app.writeDynamic dynamic) =
      app.declaringSections.flatten.map
        (Entity.element (ElementId.id app.appPrefix)) := by
  have htable (name : String) (hname : unwatched name ["MaxEntries"] = true) (n : Nat) :
      readIdentities (scopeOf app.appPrefix) [.single static name [number "MaxEntries" n]] = [] :=
    readIdentities_none static ["MaxEntries"] (.refl _) hname
  have haddress : readIdentities (scopeOf app.appPrefix)
      (app.addressTableMax.toList.flatMap (writeAddressTable static)) = [] :=
    readIdentities_silent fun n _ => htable "AddressTable" (by decide) n
  have hassociation : readIdentities (scopeOf app.appPrefix)
      (app.associationTableMax.toList.flatMap (writeAssociationTable static)) = [] :=
    readIdentities_silent fun n _ => htable "AssociationTable" (by decide) n
  have hoptions : readIdentities (scopeOf app.appPrefix)
      (app.options.toList.flatMap fun options => options.write static) = [] :=
    readIdentities_silent fun options _ => readIdentities_none static ["TextParameterEncoding",
      "SupportsExtendedMemoryServices", "SupportsExtendedPropertyServices"] (.refl _) (by decide)
  unfold AppProgram.writeStatic
  simp only [readIdentities_append, readIdentities_plain]
  rw [code_identities, types_identities, parameters_identities app static (registered_types h),
    parameterRefs_identities, comObjects_identities, comObjectRefs_identities, haddress,
    hassociation, loadProcedures_identities, messages_identities, hoptions,
    dynamic_identities dynamic h]
  simp [AppProgram.declaringSections]

end

section
variable {app : AppProgram} (happ : IsAppPrefix app.appPrefix)
include happ

/-! ## What lies outside the scope -/

theorem outside_hardwareId (s : Text) (v : Nat) (rest : Text) :
    (scopeOf app.appPrefix).isPrefixOf (app.hardwareId s v ++ rest) = false := by
  rw [app.hardwareId_tail, List.append_assoc]
  exact outside_manufacturer happ (by decide) _

theorem outside_productId (s : Text) (v : Nat) (orderNumber : Text) :
    (scopeOf app.appPrefix).isPrefixOf (productId (app.hardwareId s v) orderNumber) = false := by
  unfold productId
  rw [List.append_assoc]
  exact outside_hardwareId happ s v _

theorem outside_program (s : Text) (v : Nat) : (scopeOf app.appPrefix).isPrefixOf
    (app.hardwareId s v ++ "_HP-".toList ++ app.appTail) = false := by
  rw [List.append_assoc]
  exact outside_hardwareId happ s v _

theorem catalog_identities (indent : Nat) :
    readIdentities (scopeOf app.appPrefix) (app.writeCatalog indent) = [] := by
  refine readIdentities_unlessEmpty ?_ fun _ => rfl
  rw [readIdentities_plain]
  refine readIdentities_silent fun sect _ => ?_
  have hsect : (scopeOf app.appPrefix).isPrefixOf
      (app.manufacturer ++ "_CS-".toList ++ encodeIdComponent sect.key) = false := by
    rw [List.append_assoc]
    exact outside_manufacturer happ (by decide) _
  unfold AppProgram.writeCatalogSection
  rw [readIdentities_node, identifying_outside (by decide) hsect, identifying_unwatched
    ["Name", "Number", "DefaultLanguage"] (by exact .refl _) (by decide), List.map_eq_flatMap]
  refine readIdentities_silent fun item _ => ?_
  have hitem : (scopeOf app.appPrefix).isPrefixOf (app.hardwareId item.serialNumber
      item.versionNumber ++ "_HP-".toList ++ app.appTail ++ "_CI-".toList ++
        encodeIdComponent item.serialNumber ++ "-".toList ++ decimal item.versionNumber) =
          false := by
    simp only [List.append_assoc]
    exact outside_hardwareId happ _ _ _
  unfold AppProgram.writeCatalogItem
  dsimp only
  rw [readIdentities_single, identifying_outside (by decide) hitem, identifying_skip (by decide),
    identifying_skip (by decide),
    identifying_outside (by decide) (outside_productId happ _ _ item.orderNumber),
    identifying_outside (by decide) (outside_program happ _ _), identifying_skip (by decide)]
  rfl

theorem baggages_identities (indent : Nat) :
    readIdentities (scopeOf app.appPrefix) (app.writeBaggages indent) = [] := by
  refine readIdentities_unlessEmpty ?_ fun _ => rfl
  rw [readIdentities_plain]
  refine readIdentities_silent fun b _ => ?_
  have hid : (scopeOf app.appPrefix).isPrefixOf (app.baggageId b) = false := by
    unfold AppProgram.baggageId
    simp only [List.append_assoc]
    exact outside_manufacturer happ (by decide) _
  have hcrc : identifying (scopeOf app.appPrefix) "Baggage" (optional b.fileIntegrity fun crc =>
      ("FileIntegrity", .plain (upperHex 8 crc.toNat))) = [] :=
    identifying_unwatched _ (names_optional b.fileIntegrity "FileIntegrity" fun crc =>
      .plain (upperHex 8 crc.toNat)) (by decide)
  unfold AppProgram.writeBaggage
  have hplain : identifying (scopeOf app.appPrefix) "Baggage"
      [("TargetPath", .given b.targetPath), ("Name", .given b.name)] = [] :=
    identifying_unwatched ["TargetPath", "Name"] (.refl _) (by decide)
  rw [readIdentities_node, identifying_append, identifying_append, hcrc, hplain,
    identifying_outside (by decide) hid,
    readIdentities_none _ _ (names_optional b.timeInfo "TimeInfo" .given) (by decide)]
  rfl

theorem hardware_identities (indent : Nat) :
    readIdentities (scopeOf app.appPrefix) (app.writeHardware indent) = [] := by
  refine readIdentities_unlessEmpty ?_ fun _ => rfl
  rw [readIdentities_plain]
  refine readIdentities_silent fun hw _ => ?_
  have hid := outside_hardwareId happ hw.serialNumber hw.versionNumber []
  rw [List.append_nil] at hid
  have hproducts : readIdentities (scopeOf app.appPrefix) (hw.products.flatMap
      (AppProgram.writeProduct (indent + 2 + 4)
        (app.hardwareId hw.serialNumber hw.versionNumber))) = [] := by
    refine readIdentities_silent fun p _ => ?_
    unfold AppProgram.writeProduct
    rw [readIdentities_node,
      identifying_outside (by decide) (outside_productId happ _ _ p.orderNumber),
      identifying_unwatched ["Text", "OrderNumber", "IsRailMounted", "DefaultLanguage"]
        (by exact .refl _) (by decide),
      readIdentities_none _ ["RegistrationStatus"] (by exact .refl _) (by decide)]
    rfl
  have hprograms : readIdentities (scopeOf app.appPrefix) (hw.programs.flatMap
      (app.writeHardware2Program (indent + 2 + 4)
        (app.hardwareId hw.serialNumber hw.versionNumber))) = [] := by
    refine readIdentities_silent fun prog _ => ?_
    unfold AppProgram.writeHardware2Program
    rw [readIdentities_node, identifying_outside (by decide) (outside_program happ _ _),
      identifying_unwatched ["MediumTypes"] (by exact .refl _) (by decide), ← List.singleton_append,
      readIdentities_append, readIdentities_single, identifying_outside (by decide)
        (outside_short (List.prefix_refl _)),
      readIdentities_none _ ["RegistrationStatus", "RegistrationNumber"] (by exact .refl _)
        (by decide)]
    rfl
  unfold AppProgram.writeHardwareEntry
  dsimp only
  rw [readIdentities_node, identifying_outside (by decide) hid, identifying_unwatched ["Name",
    "SerialNumber", "VersionNumber", "BusCurrent", "HasIndividualAddress", "HasApplicationProgram"]
    (by exact .refl _) (by decide), readIdentities_append, readIdentities_plain,
    readIdentities_plain, hproducts, hprograms]
  rfl

end

/-! ## The document -/

section
variable {app : AppProgram}

theorem identifiedBy_some {id : Text} {d : ElementId} (h : app.identifiedBy id = some d) :
    d ∈ app.elementIds ∧ d.id app.appPrefix = id := by
  unfold AppProgram.identifiedBy at h
  exact ⟨List.mem_of_find?_eq_some h, of_decide_eq_true (List.find?_some h :)⟩

/-- What is translated under the prefix of the program is declared. -/
def AppProgram.Translated (app : AppProgram) : Prop := ∀ t ∈ app.translations,
  scopeOf app.appPrefix <+: t.2.refId → t.2.refId ∈ app.elementIds.map (ElementId.id app.appPrefix)

theorem translated_identifying (h : app.Translated) {lang id : Text}
    (hid : id ∈ app.translatedIds lang) :
    identifying (scopeOf app.appPrefix) "TranslationElement" [("RefId", .plain id)] =
      (app.identifiedBy id).toList.map fun d => ("RefId".toList, d.id app.appPrefix) := by
  cases hfound : app.identifiedBy id with
  | some d =>
    obtain ⟨_, rfl⟩ := identifiedBy_some hfound
    exact identifying_inside (by decide) (inside_id _ d)
  | none =>
    refine identifying_outside (by decide) (Bool.eq_false_iff.mpr fun hscope => ?_)
    obtain ⟨t, ht, _, rfl⟩ := (mem_translatedIds app lang id).mp hid
    obtain ⟨d, hd, heq⟩ := List.mem_map.mp (h t ht (List.isPrefixOf_iff_prefix.mp hscope))
    exact absurd (decide_eq_true heq) (List.find?_eq_none.mp hfound d hd)

theorem languages_identities (h : app.Translated) (indent : Nat) :
    readIdentities (scopeOf app.appPrefix) (app.writeLanguages indent) =
      app.translationEntities.map
        (Entity.element (ElementId.id app.appPrefix)) := by
  refine readIdentities_unlessEmpty ?_ fun hnone => ?_
  · unfold AppProgram.translationEntities
    rw [readIdentities_plain, List.map_flatMap]
    refine readIdentities_flatMap fun lang _ => ?_
    have htranslations (n : Nat) (id : Text) :
        readIdentities (scopeOf app.appPrefix) (app.writeTranslations n lang id) = [] := by
      unfold AppProgram.writeTranslations
      rw [List.map_eq_flatMap]
      exact readIdentities_silent fun t _ =>
        readIdentities_none _ ["AttributeName", "Text"] (.refl _) (by decide)
    unfold AppProgram.writeLanguage
    rw [readIdentities_bare _ ["Identifier"] (by exact .refl _) (by decide), readIdentities_node,
      identifying_outside (by decide) (outside_short (List.prefix_refl _)), List.map_filterMap]
    refine (List.nil_append _).trans ((readIdentities_flatMap fun id hid => ?_).trans
      (List.filterMap_eq_flatMap_toList _ _).symm)
    rw [readIdentities_node, htranslations, List.append_nil, translated_identifying h hid]
    cases app.identifiedBy id <;> rfl
  · have hsilent : app.languageOrder = [] := by
      rw [List.eq_nil_iff_forall_not_mem]
      intro lang hlang
      obtain ⟨t, ht, _⟩ := (app.spoken lang).mp hlang
      rw [hnone] at ht
      cases ht
    unfold AppProgram.translationEntities
    rw [hsilent]
    rfl

theorem applicationProgram_identities (info : ProgramInfo) (indent : Nat)
    (h : app.registered = true) :
    readIdentities (scopeOf app.appPrefix) (app.writeApplicationProgram info indent) =
      app.declaringSections.flatten.map
        (Entity.element (ElementId.id app.appPrefix)) := by
  unfold AppProgram.writeApplicationProgram
  rw [readIdentities_plain, readIdentities_node,
    identifying_outside (by decide) (outside_short (List.prefix_refl _)),
    identifying_unwatched ["ProgramType", "MaskVersion", "Name", "LoadProcedureStyle", "PeiType",
      "DefaultLanguage", "DynamicTableManagement", "Linkable", "MinEtsVersion", "IPConfig",
      "ApplicationNumber", "ApplicationVersion", "ReplacesVersions"] (by exact .refl _) (by decide)]
  exact (List.nil_append _).trans (program_identities (indent + 6) (indent + 4) h)

/-- What is read of a document are the elements of its program. -/
theorem document_identities (happ : IsAppPrefix app.appPrefix) (h : app.registered = true)
    (translated : app.Translated) (info : ProgramInfo) (createdBy toolVersion : Text) :
    readIdentities (scopeOf app.appPrefix) (app.documentLines info createdBy toolVersion) =
      app.entities.map
        (Entity.element (ElementId.id app.appPrefix)) := by
  have hmanufacturer : (scopeOf app.appPrefix).isPrefixOf app.manufacturer = false := by
    obtain ⟨_, _, heq⟩ := prefix_parts happ
    exact outside_short ⟨_, heq.symm⟩
  unfold AppProgram.documentLines AppProgram.writeManufacturer AppProgram.entities
  rw [readIdentities_bare _ ["xmlns", "CreatedBy", "ToolVersion"] (by exact .refl _) (by decide),
    readIdentities_plain, readIdentities_node, identifying_outside (by decide) hmanufacturer,
    readIdentities_append, readIdentities_append, readIdentities_append, readIdentities_append,
    catalog_identities happ, applicationProgram_identities info _ h, baggages_identities happ,
    hardware_identities happ, languages_identities translated, List.map_append, List.append_nil,
    List.append_nil, List.nil_append]
  exact List.nil_append _

end

end KnxRs.Author
