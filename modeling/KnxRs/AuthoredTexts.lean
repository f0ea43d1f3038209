import KnxRs.Authoring

set_option autoImplicit false

/-!
# The texts of an authored document

The texts given to a program, and that its lines give exactly these.
-/
namespace KnxRs.Author
open Texts

/-! ## The texts of a program -/

def ComObject.texts (co : ComObject) : List Text :=
  [co.name, co.text, co.functionText, co.objectSize]

def Parameter.texts (p : Parameter) : List Text := [p.name, p.text, p.value]

def Baggage.texts (b : Baggage) : List Text := [b.targetPath, b.name] ++ b.timeInfo.toList

def ParamTypeKind.texts : ParamTypeKind → List Text
  | text _ => []
  | number _ numberType _ _ => [numberType]
  | enumeration _ values => values.map Prod.fst

def ParameterType.texts (pt : ParameterType) : List Text := pt.name :: pt.kind.texts

def Segment.texts : Segment → List Text
  | absolute name _ _ _ _ => name.toList
  | relative name _ _ _ => name.toList

def LoadControl.texts : LoadControl → List Text
  | progressText _ messageRef => messageRef.toList
  | _ => []

def LoadProcedure.texts (proc : LoadProcedure) : List Text :=
  proc.steps.flatMap fun (control, base) =>
    control.texts ++ base.onError.flatMap fun e => e.messageRef.toList

def CatalogItem.texts (item : CatalogItem) : List Text :=
  [item.name, item.number, item.defaultLanguage]

def CatalogSection.texts (sect : CatalogSection) : List Text :=
  [sect.name, sect.number, sect.defaultLanguage] ++ sect.items.flatMap CatalogItem.texts

def Product.texts (p : Product) : List Text := [p.text, p.orderNumber, p.defaultLanguage]

def Hardware2Program.texts (prog : Hardware2Program) : List Text :=
  [prog.mediumTypes, prog.registrationNumber]

def Hardware.texts (hw : Hardware) : List Text :=
  [hw.name, hw.serialNumber] ++ hw.products.flatMap Product.texts ++
    hw.programs.flatMap Hardware2Program.texts

def Message.texts (m : Message) : List Text := [m.name, m.text]

def ProgramInfo.texts (info : ProgramInfo) : List Text :=
  [info.programType, info.maskVersion, info.name, info.loadProcedureStyle, info.peiType,
    info.defaultLanguage, info.minEtsVersion, info.ipConfig]

mutual

def Dyn.texts : Dyn → List Text
  | .channelIndependentBlock children => textsOfNodes children
  | .channel _ channelNumber name text children => [channelNumber, name, text] ++ textsOfNodes children
  | .parameterBlock _ name text _ _ children => [name, text] ++ textsOfNodes children
  | .paramRefRef _ => []
  | .comObjRefRef _ => []
  | .separator _ text uiHint => [text, uiHint]
  | .choose _ whens => textsOfWhens whens

def textsOfNodes : List Dyn → List Text
  | [] => []
  | child :: children => child.texts ++ textsOfNodes children

def When.texts : When → List Text
  | .mk test children => test :: textsOfNodes children

def textsOfWhens : List When → List Text
  | [] => []
  | branch :: whens => branch.texts ++ textsOfWhens whens

end

namespace AppProgram
variable (app : AppProgram)

/-- The texts given to a program, ids and suffixes apart. -/
def texts : List Text :=
  app.catalogSections.flatMap CatalogSection.texts ++ app.segments.flatMap Segment.texts ++
    app.parameterTypes.flatMap ParameterType.texts ++ app.parameters.flatMap Parameter.texts ++
    app.comObjects.flatMap ComObject.texts ++ app.loadProcedures.flatMap LoadProcedure.texts ++
    app.messages.flatMap Message.texts ++
    app.options.toList.map Options.textParameterEncoding ++ textsOfNodes app.dynamic ++
    app.baggages.flatMap Baggage.texts ++ app.hardware.flatMap Hardware.texts ++
    app.translations.flatMap fun (language, t) => [language, t.text]

def documentTexts (info : ProgramInfo) (createdBy toolVersion : Text) : List Text :=
  [createdBy, toolVersion] ++ info.texts ++ app.texts

end AppProgram

/-! ## Lines and their texts -/

section
variable (p : Text → Bool)

theorem givesAll_append (lines more : List Line) :
    givesAll p (lines ++ more) = (givesAll p lines && givesAll p more) := List.all_append

theorem givesAll_flatMap {α : Type} {f : α → List Line} {g : α → List Text} {xs : List α}
    (h : ∀ x ∈ xs, givesAll p (f x) = (g x).all p) :
    givesAll p (xs.flatMap f) = (xs.flatMap g).all p := by
  induction xs with
  | nil => rfl
  | cons x xs ih =>
    rw [List.flatMap_cons, List.flatMap_cons, givesAll_append, List.all_append,
      h x List.mem_cons_self, ih fun y hy => h y (List.mem_cons_of_mem x hy)]

theorem givesAll_map {α : Type} {f : α → Line} {g : α → List Text} {xs : List α}
    (h : ∀ x ∈ xs, (f x).gives p = (g x).all p) :
    givesAll p (xs.map f) = (xs.flatMap g).all p := by
  rw [← List.flatMap_singleton' (xs.map f), List.flatMap_map]
  exact givesAll_flatMap p fun x hx => (Bool.and_true _).trans (h x hx)

theorem givesAll_node (indent : Nat) (name : String) (attributes : Attributes)
    (lines : List Line) : givesAll p (node indent name attributes lines) =
      (attributes.all (fun a => a.2.gives p) && givesAll p lines) := by
  unfold node
  show (_ && givesAll p (lines ++ _)) = _
  rw [givesAll_append]
  exact congrArg _ (Bool.and_true _)

theorem givesAll_unlessEmpty {α : Type} {xs : List α} {lines : List Line} {texts : List Text}
    (h : givesAll p lines = texts.all p) (hempty : xs = [] → texts = []) :
    givesAll p (unlessEmpty xs lines) = texts.all p := by
  unfold unlessEmpty
  split_ifs with hxs
  · rw [hempty (List.isEmpty_iff.mp hxs)]
    rfl
  · exact h

def attributeTexts (attributes : Attributes) : List Text :=
  attributes.flatMap fun a => match a.2 with
    | .plain _ => []
    | .given s => [s]

theorem gives_attributes (attributes : Attributes) :
    attributes.all (fun a => a.2.gives p) = (attributeTexts attributes).all p := by
  unfold attributeTexts
  induction attributes with
  | nil => rfl
  | cons a attributes ih =>
    rw [List.all_cons, List.flatMap_cons, List.all_append, ih]
    obtain ⟨name, value⟩ := a
    cases value with
    | plain s => rfl
    | given s =>
      rw [List.all_cons, List.all_nil, Bool.and_true]
      rfl

theorem attributeTexts_append (attributes more : Attributes) :
    attributeTexts (attributes ++ more) = attributeTexts attributes ++ attributeTexts more :=
  List.flatMap_append

theorem attributeTexts_given {name : String} (value : Option Text) :
    attributeTexts (optional value fun s => (name, .given s)) = value.toList := by
  cases value <;> rfl

theorem attributeTexts_plain {α : Type} {name : String} (value : Option α) (f : α → Text) :
    attributeTexts (optional value fun x => (name, .plain (f x))) = [] := by
  cases value <;> rfl

theorem attributeTexts_flag (set : Bool) (name : String) : attributeTexts (flag set name) = [] := by
  cases set <;> rfl

/-! ### Load procedures -/

theorem attributeTexts_target (target : ObjTarget) : attributeTexts target.attrs = [] := by
  cases target with
  | lsm n => rfl
  | object objType occurrence =>
    unfold ObjTarget.attrs
    dsimp only
    split_ifs <;> rfl
  | objIdx index occurrence =>
    unfold ObjTarget.attrs
    dsimp only
    split_ifs <;> rfl

theorem element_texts (control : LoadControl) :
    attributeTexts control.element.2 = control.texts := by
  have hinline (data : Option (List UInt8)) : attributeTexts (pushInline data) = [] :=
    attributeTexts_plain data _
  cases control with
  | connect | disconnect | restart | loadImageMem | delay => rfl
  | unload target | load target | loadCompleted target => exact attributeTexts_target target
  | absSegment target _ _ _ _ _ _ | relSegment target _ _ _ | loadImageProp target _ =>
    refine (attributeTexts_append _ _).trans ?_
    rw [attributeTexts_target]
    rfl
  | writeMem address size verify inlineData =>
    refine (attributeTexts_append _ _).trans ?_
    rw [attributeTexts_append, attributeTexts_flag, hinline]
    rfl
  | writeRelMem target offset size verify inlineData =>
    refine (attributeTexts_append _ _).trans ?_
    rw [attributeTexts_append, attributeTexts_append, attributeTexts_flag, hinline,
      attributeTexts_target]
    rfl
  | compareProp target propId inlineData =>
    refine (attributeTexts_append _ _).trans ?_
    rw [attributeTexts_append, hinline, attributeTexts_target]
    rfl
  | progressText textId messageRef =>
    refine (attributeTexts_append _ _).trans ?_
    rw [attributeTexts_given]
    cases textId <;> rfl

theorem writeStep_texts (indent : Nat) (control : LoadControl) (base : StepBase) :
    givesAll p (writeStep indent control base) =
      (control.texts ++ base.onError.flatMap fun e => e.messageRef.toList).all p := by
  have hattrs : attributeTexts (control.element.2 ++
      optional base.appliesTo fun pt => ("AppliesTo", .plain pt.ets)) = control.texts := by
    rw [attributeTexts_append, attributeTexts_plain, element_texts, List.append_nil]
  have herror (e : OnError) : attributeTexts e.attrs = e.messageRef.toList := by
    show attributeTexts ([("Cause", .plain e.cause.ets)] ++ (flag e.ignore "Ignore" ++
      optional e.messageRef fun m => ("MessageRef", .given m))) = _
    rw [attributeTexts_append, attributeTexts_append, attributeTexts_flag, attributeTexts_given]
    rfl
  unfold writeStep
  dsimp only
  split_ifs with hempty
  · rw [List.isEmpty_iff.mp hempty, List.flatMap_nil, List.append_nil, ← hattrs,
      ← gives_attributes]
    exact Bool.and_true _
  · rw [givesAll_node, gives_attributes, hattrs, List.all_append,
      givesAll_map p (g := fun e => e.messageRef.toList)]
    intro e _
    rw [← herror e]
    exact gives_attributes p _

theorem writeLoadProcedure_texts (indent : Nat) (proc : LoadProcedure) :
    givesAll p (writeLoadProcedure indent proc) = proc.texts.all p := by
  have hmerge : attributeTexts (optional proc.mergeId (number "MergeId")) = [] :=
    attributeTexts_plain proc.mergeId decimal
  unfold writeLoadProcedure LoadProcedure.texts
  rw [givesAll_node, gives_attributes, hmerge]
  exact givesAll_flatMap p fun step _ => writeStep_texts p (indent + 2) step.1 step.2

/-! ### Sections -/

variable (app : AppProgram) (indent : Nat)

theorem givesAll_plain {name : String} {attributes : Attributes} {lines : List Line}
    (h : attributeTexts attributes = []) :
    givesAll p (node indent name attributes lines) = givesAll p lines := by
  rw [givesAll_node, gives_attributes, h]
  rfl

theorem givesAll_section {α : Type} {name : String} {f : α → List Line} {g : α → List Text}
    {xs : List α} (h : ∀ x ∈ xs, givesAll p (f x) = (g x).all p) :
    givesAll p (unlessEmpty xs (node indent name [] (xs.flatMap f))) = (xs.flatMap g).all p := by
  refine givesAll_unlessEmpty p ?_ fun hxs => by rw [hxs]; rfl
  rw [givesAll_plain p indent rfl]
  exact givesAll_flatMap p h

theorem writeBaggages_texts :
    givesAll p (app.writeBaggages indent) = (app.baggages.flatMap Baggage.texts).all p := by
  refine givesAll_section p indent fun b _ => ?_
  unfold AppProgram.writeBaggage Baggage.texts
  rw [givesAll_node, gives_attributes, attributeTexts_append, attributeTexts_append,
    attributeTexts_plain, List.all_append, List.all_append, List.all_append,
    ← @attributeTexts_given "TimeInfo", ← gives_attributes p (optional _ _)]
  simp [givesAll, Line.gives, attributeTexts, Line.attributes]

theorem writeParamTypeKind_texts (id : Text) (kind : ParamTypeKind) :
    givesAll p (AppProgram.writeParamTypeKind indent id kind) = kind.texts.all p := by
  cases kind with
  | text sizeBits => rfl
  | number sizeBits numberType min max =>
    simp [AppProgram.writeParamTypeKind, ParamTypeKind.texts, givesAll, Line.gives,
      Line.attributes, number, Value.gives]
  | enumeration sizeBits values =>
    unfold AppProgram.writeParamTypeKind ParamTypeKind.texts
    rw [givesAll_plain p indent rfl, givesAll_map p (g := fun v => [v.1.1])]
    · generalize 0 = n
      induction values generalizing n with
      | nil => rfl
      | cons value values ih =>
        rw [List.zipIdx_cons, List.flatMap_cons, List.all_append, ih]
        simp
    · intro v _
      simp [Line.gives, Line.attributes, Value.gives]

theorem writeParameterTypes_texts : givesAll p (app.writeParameterTypes indent) =
    (app.parameterTypes.flatMap ParameterType.texts).all p := by
  refine givesAll_section p indent fun pt _ => ?_
  unfold AppProgram.writeParameterType ParameterType.texts
  rw [givesAll_node, writeParamTypeKind_texts]
  simp [Value.gives]

theorem writeParameters_texts (h : ∀ q ∈ app.parameters,
      q.paramType < app.parameterTypes.length) :
    givesAll p (app.writeParameters indent) = (app.parameters.flatMap Parameter.texts).all p := by
  unfold AppProgram.writeParameters
  rw [givesAll_plain p indent rfl]
  refine givesAll_flatMap p fun q hq => ?_
  unfold AppProgram.writeParameter Parameter.texts
  rw [List.getElem?_eq_getElem (h q hq)]
  dsimp only
  rw [givesAll_plain p _ rfl]
  simp [givesAll, Line.gives, Line.attributes, Value.gives, number, constant]

theorem givesAll_nothing {α : Type} {f : α → Line} {xs : List α}
    (h : ∀ x, attributeTexts (f x).attributes = []) : givesAll p (xs.map f) = true := by
  unfold givesAll
  rw [List.all_map, List.all_eq_true]
  intro x _
  show (f x).attributes.all _ = true
  rw [gives_attributes, h]
  rfl

theorem writeParameterRefs_texts : givesAll p (app.writeParameterRefs indent) = true := by
  unfold AppProgram.writeParameterRefs
  rw [givesAll_plain p indent rfl]
  exact givesAll_nothing p fun _ => rfl

theorem writeComObjectRefs_texts : givesAll p (app.writeComObjectRefs indent) = true := by
  unfold AppProgram.writeComObjectRefs
  rw [givesAll_plain p indent rfl]
  exact givesAll_nothing p fun _ => rfl

theorem writeComObjectTable_texts : givesAll p (app.writeComObjectTable indent) =
    (app.comObjects.flatMap ComObject.texts).all p := by
  unfold AppProgram.writeComObjectTable
  rw [givesAll_plain p indent rfl]
  refine givesAll_map p fun co _ => ?_
  simp [AppProgram.writeComObject, ComObject.texts, Line.gives, Line.attributes, Value.gives,
    number, constant]

theorem writeSegment_texts (id : Nat) (seg : Segment) :
    (app.writeSegment indent id seg).gives p = seg.texts.all p := by
  cases seg with
  | absolute name size address memoryType userMemory =>
    show List.all (_ ++ _) _ = _
    rw [gives_attributes, attributeTexts_append, attributeTexts_append, attributeTexts_append,
      attributeTexts_append, attributeTexts_append, attributeTexts_given, attributeTexts_plain,
      attributeTexts_flag]
    simp [attributeTexts, number, Segment.texts]
  | relative name size loadStateMachine offset =>
    show List.all (_ ++ _) _ = _
    rw [gives_attributes, attributeTexts_append, attributeTexts_append, attributeTexts_given]
    simp [attributeTexts, number, Segment.texts]

theorem writeCode_texts :
    givesAll p (app.writeCode indent) = (app.segments.flatMap Segment.texts).all p := by
  refine givesAll_unlessEmpty p ?_ fun hxs => by rw [hxs]; rfl
  rw [givesAll_plain p indent rfl, Bool.eq_iff_iff]
  unfold givesAll
  rw [List.all_eq_true, List.all_eq_true]
  constructor
  · intro h s hs
    obtain ⟨seg, hseg, hs⟩ := List.mem_flatMap.mp hs
    obtain ⟨i, hi, rfl⟩ := List.getElem_of_mem hseg
    have hline := h (app.writeSegment (indent + 2) i app.segments[i]) <| by
      refine List.mem_flatMap.mpr ⟨AppProgram.isAbsolute app.segments[i], ?_, ?_⟩
      · cases AppProgram.isAbsolute app.segments[i] <;> decide
      · refine List.mem_map.mpr ⟨(app.segments[i], i), List.mem_filter.mpr ⟨?_, ?_⟩, rfl⟩
        · exact List.mem_zipIdx_iff_getElem?.mpr (List.getElem?_eq_getElem hi)
        · exact decide_eq_true rfl
    rw [writeSegment_texts, List.all_eq_true] at hline
    exact hline s hs
  · intro h line hline
    obtain ⟨wantAbs, _, hline⟩ := List.mem_flatMap.mp hline
    obtain ⟨⟨seg, i⟩, hmem, rfl⟩ := List.mem_map.mp hline
    have hseg := List.mem_zipIdx_iff_getElem?.mp (List.mem_of_mem_filter hmem)
    rw [writeSegment_texts, List.all_eq_true]
    exact fun s hs => h s (List.mem_flatMap.mpr ⟨seg, List.mem_of_getElem? hseg, hs⟩)

theorem writeLoadProcedures_texts : givesAll p (app.writeLoadProcedures indent) =
    (app.loadProcedures.flatMap LoadProcedure.texts).all p :=
  givesAll_section p indent fun proc _ => writeLoadProcedure_texts p (indent + 2) proc

theorem writeMessages_texts :
    givesAll p (app.writeMessages indent) = (app.messages.flatMap Message.texts).all p := by
  refine givesAll_unlessEmpty p ?_ fun hxs => by rw [hxs]; rfl
  rw [givesAll_plain p indent rfl]
  refine givesAll_map p fun m _ => ?_
  simp [Message.texts, Line.gives, Line.attributes, Value.gives]

theorem writeCatalog_texts : givesAll p (app.writeCatalog indent) =
    (app.catalogSections.flatMap CatalogSection.texts).all p := by
  refine givesAll_section p indent fun sect _ => ?_
  unfold AppProgram.writeCatalogSection CatalogSection.texts
  rw [givesAll_node, givesAll_map p (g := CatalogItem.texts)]
  · simp [Value.gives, Bool.and_assoc]
  · intro item _
    simp [AppProgram.writeCatalogItem, CatalogItem.texts, Line.gives, Line.attributes, Value.gives]

theorem writeHardware_texts :
    givesAll p (app.writeHardware indent) = (app.hardware.flatMap Hardware.texts).all p := by
  refine givesAll_section p indent fun hw _ => ?_
  unfold AppProgram.writeHardwareEntry Hardware.texts
  dsimp only
  rw [givesAll_node, givesAll_append, givesAll_plain p _ rfl, givesAll_plain p _ rfl,
    givesAll_flatMap p (g := Product.texts), givesAll_flatMap p (g := Hardware2Program.texts)]
  · simp [Value.gives, number, Bool.and_assoc]
  · intro prog _
    unfold AppProgram.writeHardware2Program Hardware2Program.texts
    rw [givesAll_node]
    simp [givesAll, Line.gives, Line.attributes, Value.gives, constant]
  · intro product _
    unfold AppProgram.writeProduct Product.texts
    rw [givesAll_node]
    simp [givesAll, Line.gives, Line.attributes, Value.gives, constant]

/-! ### Translations -/

theorem mem_translatedIds (lang id : Text) : id ∈ app.translatedIds lang ↔
    ∃ t ∈ app.translations, t.1 = lang ∧ t.2.refId = id := by
  unfold AppProgram.translatedIds
  have hfold (ts : List (Text × Translation)) (order : List Text) :
      id ∈ ts.foldl (fun order (l, t) =>
        if l = lang && !order.contains t.refId then order ++ [t.refId] else order) order ↔
      id ∈ order ∨ ∃ t ∈ ts, t.1 = lang ∧ t.2.refId = id := by
    induction ts generalizing order with
    | nil => simp
    | cons t ts ih =>
      rw [List.foldl_cons, ih]
      dsimp only
      simp only [Bool.and_eq_true, decide_eq_true_eq, Bool.not_eq_true', List.contains_eq_mem,
        decide_eq_false_iff_not]
      split_ifs with h
      · rw [List.mem_append, List.mem_singleton]
        constructor
        · rintro ((hid | rfl) | ⟨t', ht', hl⟩)
          · exact .inl hid
          · exact .inr ⟨t, List.mem_cons_self, h.1, rfl⟩
          · exact .inr ⟨t', List.mem_cons_of_mem _ ht', hl⟩
        · rintro (hid | ⟨t', ht', hl⟩)
          · exact .inl (.inl hid)
          · rcases List.mem_cons.mp ht' with rfl | ht'
            · exact .inl (.inr hl.2.symm)
            · exact .inr ⟨t', ht', hl⟩
      · constructor
        · rintro (hid | ⟨t', ht', hl⟩)
          · exact .inl hid
          · exact .inr ⟨t', List.mem_cons_of_mem _ ht', hl⟩
        · rintro (hid | ⟨t', ht', hl⟩)
          · exact .inl hid
          · rcases List.mem_cons.mp ht' with rfl | ht'
            · rw [not_and, not_not] at h
              exact .inl (hl.2 ▸ h hl.1)
            · exact .inr ⟨t', ht', hl⟩
  rw [hfold]
  simp

theorem writeLanguages_texts : givesAll p (app.writeLanguages indent) =
    (app.translations.flatMap fun (language, t) => [language, t.text]).all p := by
  refine givesAll_unlessEmpty p ?_ fun hxs => by rw [hxs]; rfl
  rw [givesAll_plain p indent rfl, Bool.eq_iff_iff]
  have htranslations (lang refId : Text) (n : Nat) :
      givesAll p (app.writeTranslations n lang refId) = true ↔
        ∀ t ∈ app.translations, t.1 = lang ∧ t.2.refId = refId → p t.2.text = true := by
    unfold AppProgram.writeTranslations
    rw [givesAll_map p (g := fun t => [t.2.text]), List.all_eq_true]
    · constructor
      · intro h t ht hl
        exact h _ (List.mem_flatMap.mpr ⟨t, List.mem_filter.mpr ⟨ht, decide_eq_true hl⟩,
          List.mem_singleton.mpr rfl⟩)
      · intro h s hs
        obtain ⟨t, ht, hs⟩ := List.mem_flatMap.mp hs
        obtain ⟨ht, hl⟩ := List.mem_filter.mp ht
        rw [List.mem_singleton.mp hs]
        exact h t ht (of_decide_eq_true hl)
    · intro t _
      simp [Line.gives, Line.attributes, Value.gives]
  have hlanguage (lang : Text) (n : Nat) : givesAll p (app.writeLanguage n lang) = true ↔
      p lang = true ∧ ∀ t ∈ app.translations, t.1 = lang → p t.2.text = true := by
    unfold AppProgram.writeLanguage
    rw [givesAll_node, givesAll_plain p _ rfl, Bool.and_eq_true]
    refine and_congr (by simp [Value.gives]) ?_
    unfold givesAll
    rw [List.all_flatMap, List.all_eq_true]
    constructor
    · intro h t ht hl
      have hunit := h t.2.refId ((mem_translatedIds app lang _).mpr ⟨t, ht, hl, rfl⟩)
      have hunit : givesAll p (node _ _ _ _) = true := hunit
      rw [givesAll_plain p _ rfl, htranslations] at hunit
      exact hunit t ht ⟨hl, rfl⟩
    · intro h refId _
      show givesAll p (node _ _ _ _) = true
      rw [givesAll_plain p _ rfl, htranslations]
      exact fun t ht hl => h t ht hl.1
  unfold givesAll
  rw [List.all_flatMap, List.all_eq_true, List.all_eq_true]
  constructor
  · intro h s hs
    obtain ⟨t, ht, hs⟩ := List.mem_flatMap.mp hs
    have ⟨hlang, htexts⟩ := (hlanguage t.1 (indent + 2)).mp
      (h t.1 ((app.spoken t.1).mpr ⟨t, ht, rfl⟩))
    rcases List.mem_cons.mp hs with rfl | hs
    · exact hlang
    · rw [List.mem_singleton.mp hs]
      exact htexts t ht rfl
  · intro h lang hlang
    refine (hlanguage lang (indent + 2)).mpr ⟨?_, fun t ht _ => ?_⟩
    · obtain ⟨t, ht, rfl⟩ := (app.spoken lang).mp hlang
      exact h _ (List.mem_flatMap.mpr ⟨t, ht, List.mem_cons_self⟩)
    · exact h _ (List.mem_flatMap.mpr ⟨t, ht, List.mem_cons_of_mem _ List.mem_cons_self⟩)

/-! ### The dynamic tree -/

mutual

theorem writeDynNode_texts (n : Nat) : (node : Dyn) →
    givesAll p (app.writeDynNode n node) = node.texts.all p
  | .channelIndependentBlock children => by
    unfold AppProgram.writeDynNode Dyn.texts
    rw [givesAll_plain p _ rfl]
    exact writeDynNodes_texts (n + 2) children
  | .channel suffix channelNumber name text children => by
    unfold AppProgram.writeDynNode Dyn.texts
    rw [givesAll_node, writeDynNodes_texts]
    simp [Value.gives, Bool.and_assoc]
  | .parameterBlock suffix name text textParamRef showInComObjectTree children => by
    unfold AppProgram.writeDynNode Dyn.texts
    rw [givesAll_node, writeDynNodes_texts, gives_attributes, attributeTexts_append,
      attributeTexts_append, attributeTexts_plain, attributeTexts_flag]
    simp [attributeTexts, Bool.and_assoc]
  | .paramRefRef r => by
    unfold AppProgram.writeDynNode Dyn.texts
    rfl
  | .comObjRefRef r => by
    unfold AppProgram.writeDynNode Dyn.texts
    rfl
  | .separator suffix text uiHint => by
    unfold AppProgram.writeDynNode Dyn.texts
    simp [givesAll, Line.gives, Line.attributes, Value.gives]
  | .choose paramRef whens => by
    unfold AppProgram.writeDynNode Dyn.texts
    rw [givesAll_plain p _ rfl]
    exact writeWhens_texts (n + 2) whens

theorem writeDynNodes_texts (n : Nat) : (children : List Dyn) →
    givesAll p (app.writeDynNodes n children) = (textsOfNodes children).all p
  | [] => by
    unfold AppProgram.writeDynNodes textsOfNodes
    rfl
  | child :: children => by
    unfold AppProgram.writeDynNodes textsOfNodes
    rw [givesAll_append, List.all_append, writeDynNode_texts, writeDynNodes_texts]

theorem writeWhen_texts (n : Nat) : (branch : When) →
    givesAll p (app.writeWhen n branch) = branch.texts.all p
  | .mk test children => by
    unfold AppProgram.writeWhen When.texts
    rw [givesAll_node, writeDynNodes_texts]
    simp [Value.gives]

theorem writeWhens_texts (n : Nat) : (whens : List When) →
    givesAll p (app.writeWhens n whens) = (textsOfWhens whens).all p
  | [] => by
    unfold AppProgram.writeWhens textsOfWhens
    rfl
  | branch :: whens => by
    unfold AppProgram.writeWhens textsOfWhens
    rw [givesAll_append, List.all_append, writeWhen_texts, writeWhens_texts]

end

theorem writeDynamic_texts :
    givesAll p (app.writeDynamic indent) = (textsOfNodes app.dynamic).all p := by
  refine givesAll_unlessEmpty p ?_ fun hxs => ?_
  · rw [givesAll_plain p indent rfl]
    exact writeDynNodes_texts p app (indent + 2) app.dynamic
  · rw [hxs]
    rfl

/-! ### The document -/

theorem writeStatic_texts (h : ∀ q ∈ app.parameters,
      q.paramType < app.parameterTypes.length) :
    givesAll p (app.writeStatic indent) = (app.segments.flatMap Segment.texts ++
      app.parameterTypes.flatMap ParameterType.texts ++ app.parameters.flatMap Parameter.texts ++
      app.comObjects.flatMap ComObject.texts ++ app.loadProcedures.flatMap LoadProcedure.texts ++
      app.messages.flatMap Message.texts ++
      app.options.toList.map Options.textParameterEncoding).all p := by
  have haddress : givesAll p (app.addressTableMax.toList.flatMap (writeAddressTable indent)) =
      true := by
    cases app.addressTableMax <;> rfl
  have hassociation : givesAll p
      (app.associationTableMax.toList.flatMap (writeAssociationTable indent)) = true := by
    cases app.associationTableMax <;> rfl
  have hoptions : givesAll p (app.options.toList.flatMap fun options => options.write indent) =
      (app.options.toList.map Options.textParameterEncoding).all p := by
    cases app.options with
    | none => rfl
    | some options =>
      simp [Options.write, givesAll, Line.gives, Line.attributes, Value.gives]
  unfold AppProgram.writeStatic
  simp only [givesAll_append, List.all_append]
  rw [writeCode_texts, writeParameterTypes_texts, writeParameters_texts p app indent h,
    writeParameterRefs_texts, writeComObjectTable_texts, writeComObjectRefs_texts, haddress,
    hassociation, writeLoadProcedures_texts, writeMessages_texts, hoptions]
  simp only [Bool.and_true]

theorem documentLines_texts (info : ProgramInfo) (createdBy toolVersion : Text)
    (h : ∀ q ∈ app.parameters, q.paramType < app.parameterTypes.length) :
    givesAll p (app.documentLines info createdBy toolVersion) =
      (app.documentTexts info createdBy toolVersion).all p := by
  have hprogram (n : Nat) : givesAll p (app.writeApplicationProgram info n) =
      (info.texts.all p && (givesAll p (app.writeStatic (n + 6)) &&
        givesAll p (app.writeDynamic (n + 4)))) := by
    unfold AppProgram.writeApplicationProgram ProgramInfo.texts
    rw [givesAll_plain p _ rfl, givesAll_node, givesAll_append, givesAll_plain p _ rfl]
    simp [Value.gives, number, Bool.and_assoc]
  unfold AppProgram.documentLines AppProgram.documentTexts AppProgram.texts
    AppProgram.writeManufacturer
  rw [givesAll_node, givesAll_plain p _ rfl, givesAll_plain p _ rfl, givesAll_append,
    givesAll_append, givesAll_append, givesAll_append, hprogram, writeCatalog_texts,
    writeStatic_texts p app _ h, writeDynamic_texts, writeBaggages_texts, writeHardware_texts,
    writeLanguages_texts]
  simp only [List.all_append, List.all_cons, List.all_nil, Value.gives, constant, Bool.and_true,
    Bool.true_and]
  ac_rfl

end

end KnxRs.Author
