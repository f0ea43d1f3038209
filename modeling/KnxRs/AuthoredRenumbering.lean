import KnxRs.AuthoredNumbers

set_option autoImplicit false

/-!
# Renumbering of authored documents

An authored document can be scanned, is renumbered into one that the sanity check accepts, and
each of its references is to the renumbered element of the handle it was built from.
-/
namespace KnxRs.Author
open Texts XmlDocuments XmlScan Renumber Sanity

/-! ## The document as it is scanned -/

theorem endTag_inPlace {name : Text} (h : IsName name) : EndsInPlace (.endTag name []) := by
  have hclosed : Closed ('/' :: name) := (closed_char (by decide) rfl).append (name_closed h)
  have hfound := findTagEnd_closed hclosed []
  have hrender : (Token.endTag name []).render = '<' :: '/' :: (name ++ ['>']) := by
    show "</".toList ++ name ++ [] ++ ">".toList = _
    rw [List.append_nil]
    rfl
  have hother (pat : Text) {more : Text} (hpat : pat = '<' :: '!' :: more) :
      ¬pat.isPrefixOf ('<' :: '/' :: (name ++ ['>'])) = true := by
    intro hp
    obtain ⟨rest, hrest⟩ := List.isPrefixOf_iff_prefix.mp hp
    rw [hpat] at hrest
    exact absurd (List.cons.inj (List.cons.inj hrest).2).1 (by decide)
  show markupEnd (Token.endTag name []).render = _
  rw [hrender]
  unfold markupEnd
  rw [if_neg (hother "<!--".toList rfl), if_neg (hother "<![CDATA[".toList rfl)]
  show some ((findTagEnd none ('/' :: name ++ '>' :: [])).map _) = _
  rw [hfound]
  rfl

theorem documentOf_scannable {lines : List Line} (h : Nested lines) :
    Scannable (documentOf lines h) := by
  intro token htoken
  rcases List.mem_cons.mp htoken with rfl | htoken
  · show markupEnd _ = _
    decide
  rcases List.mem_cons.mp htoken with rfl | htoken
  · trivial
  obtain ⟨line, hline, hmem⟩ := List.mem_flatMap.mp htoken
  rcases List.mem_cons.mp hmem with rfl | hmem
  · trivial
  rcases List.mem_cons.mp hmem with rfl | hmem
  · cases line with
    | opening indent name attributes | single indent name attributes => trivial
    | closing indent name =>
      have hname := (Bool.and_eq_true_iff.mp (Bool.and_eq_true_iff.mp
        (sound_names (h.sound _ hline))).1).1
      exact endTag_inPlace (of_decide_eq_true hname)
  · obtain rfl := List.mem_singleton.mp hmem
    trivial

theorem documentOf_elements {lines : List Line} (h : Nested lines) :
    (documentOf lines h).elements = elementsOf escapeAttr lines := by
  have hline (line : Line) :
      (line.tokens.filterMap Token.tag?).map Tag.element = line.elements escapeAttr := by
    have hattributes (attributes : Attributes) :
        (attributes.map attributeOf).map Attribute.pair =
          attributes.map fun a => (a.1.toList, a.2.read escapeAttr) := by
      rw [List.map_map]
      refine List.map_congr_left fun a _ => ?_
      rw [value_read]
      rfl
    cases line with
    | opening indent name attributes | single indent name attributes =>
      exact congrArg (fun attributes => [(⟨name.toList, attributes⟩ : Element)])
        (hattributes attributes)
    | closing indent name => rfl
  show ((documentTokens lines).filterMap Token.tag?).map Tag.element = _
  unfold documentTokens tokensOf elementsOf
  rw [List.filterMap_cons_none rfl, List.filterMap_cons_none rfl, List.filterMap_flatMap,
    List.map_flatMap]
  exact List.flatMap_congr fun line _ => hline line

/-! ## The application id -/

section
variable {element attrName : Text} {lines more : List Line} {name : String}
  {attributes : Attributes}

theorem findAttribute_append :
    findAttribute (elementsOf escapeAttr (lines ++ more)) element attrName =
      (findAttribute (elementsOf escapeAttr lines) element attrName).or
        (findAttribute (elementsOf escapeAttr more) element attrName) := by
  unfold findAttribute elementsOf
  rw [List.flatMap_append, List.findSome?_append]

theorem findAttribute_line {line : Line}
    (h : line.elements escapeAttr = [line.element escapeAttr]) :
    findAttribute (elementsOf escapeAttr [line]) element attrName =
      if localName line.name.toList = element then (line.element escapeAttr).attr attrName
      else none := by
  unfold findAttribute elementsOf
  rw [List.flatMap_singleton, h, List.findSome?_singleton]
  rfl

theorem findAttribute_node (h : localName name.toList ≠ element) (indent : Nat) :
    findAttribute (elementsOf escapeAttr (node indent name attributes lines)) element attrName =
      findAttribute (elementsOf escapeAttr lines) element attrName := by
  have hopening : findAttribute (elementsOf escapeAttr [.opening indent name attributes]) element
      attrName = none := (findAttribute_line rfl).trans (if_neg h)
  unfold node
  rw [← List.singleton_append, findAttribute_append, findAttribute_append, hopening, Option.none_or]
  exact Option.or_none

theorem findAttribute_found (h : localName name.toList = element) {attr : String}
    (hattr : attr.toList = attrName) (value : Text) (indent : Nat) :
    findAttribute (elementsOf escapeAttr
      (node indent name ((attr, .plain value) :: attributes) lines)) element attrName =
        some value := by
  have hopening : findAttribute (elementsOf escapeAttr
      [.opening indent name ((attr, .plain value) :: attributes)]) element attrName =
        some value := by
    refine (findAttribute_line rfl).trans ((if_pos h).trans ?_)
    unfold Element.attr Line.element Line.attributes
    rw [List.map_cons, hattr, List.lookup_cons_self]
    rfl
  unfold node
  rw [← List.singleton_append, findAttribute_append, hopening]
  rfl

theorem findAttribute_single (h : localName name.toList ≠ element) (indent : Nat) :
    findAttribute (elementsOf escapeAttr [.single indent name attributes]) element attrName =
      none :=
  (findAttribute_line rfl).trans (if_neg h)

theorem findAttribute_flatMap {α : Type} {xs : List α} {f : α → List Line}
    (h : ∀ x ∈ xs, findAttribute (elementsOf escapeAttr (f x)) element attrName = none) :
    findAttribute (elementsOf escapeAttr (xs.flatMap f)) element attrName = none := by
  induction xs with
  | nil => rfl
  | cons x xs ih =>
    rw [List.flatMap_cons, findAttribute_append, h x List.mem_cons_self,
      ih fun y hy => h y (List.mem_cons_of_mem x hy)]
    rfl

end

theorem catalog_applicationId (app : AppProgram) (indent : Nat) :
    findAttribute (elementsOf escapeAttr (app.writeCatalog indent)) "ApplicationProgram".toList
      "Id".toList = none := by
  unfold AppProgram.writeCatalog unlessEmpty
  split_ifs
  · rfl
  · rw [findAttribute_node (by decide)]
    refine findAttribute_flatMap fun sect _ => ?_
    unfold AppProgram.writeCatalogSection
    rw [findAttribute_node (by decide), List.map_eq_flatMap]
    exact findAttribute_flatMap fun item _ => findAttribute_single (by decide) _

/-- The application id of a document is the prefix of its program. -/
theorem document_applicationId (app : AppProgram) (info : ProgramInfo)
    (createdBy toolVersion : Text) :
    findAttribute (elementsOf escapeAttr (app.documentLines info createdBy toolVersion))
      "ApplicationProgram".toList "Id".toList = some app.appPrefix := by
  unfold AppProgram.documentLines AppProgram.writeManufacturer AppProgram.writeApplicationProgram
  rw [findAttribute_node (by decide), findAttribute_node (by decide),
    findAttribute_node (by decide), findAttribute_append, findAttribute_append,
    findAttribute_append, findAttribute_append,
    catalog_applicationId, findAttribute_node (by decide), findAttribute_found (by decide) rfl]
  rfl

/-! ## Plain ids -/

theorem declared_suffix {app : AppProgram} {s : Text} (h : s ∈ idsOfNodes app.dynamic) :
    ∃ kind, s ∈ app.suffixes kind := by
  rw [← show (app.entitiesOfNodes app.dynamic).filterMap Entity.suffix? = _ from
    entitiesOfNodes_suffixes app.dynamic] at h
  obtain ⟨e, he, hs⟩ := List.mem_filterMap.mp h
  have hnode := entitiesOfNodes_nodes _ e he
  have hsuffix {kind : Suffixed} (hkind : e.suffixOf kind = some s) :
      s ∈ (app.entitiesOfNodes app.dynamic).filterMap (Entity.suffixOf kind) :=
    List.mem_filterMap.mpr ⟨e, he, hkind⟩
  cases hnode with
  | channel s' => exact ⟨.channel, hsuffix hs⟩
  | block s' target htarget => exact ⟨.block, hsuffix hs⟩
  | separator s' => exact ⟨.separator, hsuffix hs⟩
  | parameter kind p hp | comObject kind co hco => cases hs

theorem authored_translated {app : AppProgram} (h : app.Authored) : app.Translated := by
  intro t ht hscope
  generalize hid : t.2.refId = id at hscope ⊢
  cases hid ▸ h.translated t ht with
  | parameter p hp =>
    rw [paramId_eq]
    exact List.mem_map_of_mem (parameter_declared hp).1
  | comObject co hco =>
    rw [comObjectId_eq]
    exact List.mem_map_of_mem (comObject_declared hco).1
  | raw _ plain declared => exact declared hscope

theorem authored_plainIds {app : AppProgram} (h : app.Authored) : app.PlainIds := by
  have hnamed (kind : Suffixed) : ∀ s ∈ app.suffixes kind, plainText s = true :=
    fun s hs => suffix_plain (h.suffixes kind s hs)
  have happ := appPrefix_plain h.appPrefix
  have htranslated : ∀ t ∈ app.translations, plainText t.2.refId = true := by
    intro t ht
    generalize hid : t.2.refId = id
    cases hid ▸ h.translated t ht with
    | parameter p hp =>
      unfold AppProgram.paramId
      rw [plainText_append, plainText_append, happ,
        hnamed .parameter _ (List.mem_map_of_mem hp)]
      decide
    | comObject co hco =>
      unfold AppProgram.comObjectId
      rw [plainText_append, plainText_append, happ,
        hnamed .comObject _ (List.mem_map_of_mem hco)]
      decide
    | raw _ plain declared => exact plain
  unfold AppProgram.PlainIds AppProgram.ids
  simp only [List.forall_mem_cons, List.forall_mem_append]
  refine ⟨happ, ⟨⟨⟨hnamed .parameter, hnamed .comObject⟩, hnamed .message⟩,
    List.forall_mem_map.mpr htranslated⟩, fun s hs => ?_⟩
  obtain ⟨kind, hs⟩ := declared_suffix hs
  exact hnamed kind s hs

/-! ## Renumbered elements -/

theorem identified_mapValues {scope : Text} {f : Text → Text}
    (h : ∀ v, scope.isPrefixOf (f v) = scope.isPrefixOf v) (els : List Element) :
    identified scope (els.map (Element.mapValues f)) =
      (identified scope els).map (Element.mapValues f) := by
  have hidentifies (name : Text) (attr : Text × Text) :
      identifies scope name (attr.1, f attr.2) = identifies scope name attr := by
    unfold identifies
    rw [h]
  unfold identified
  rw [List.filterMap_map, List.map_filterMap]
  refine List.filterMap_congr fun e _ => ?_
  have hfilter : (e.mapValues f).attributes.filter (identifies scope e.name) =
      (e.attributes.filter (identifies scope e.name)).map fun a => (a.1, f a.2) := by
    unfold Element.mapValues
    rw [List.filter_map]
    exact congrArg _ (List.filter_congr fun attr _ => hidentifies e.name attr)
  unfold identity
  dsimp only [Function.comp_apply]
  rw [show (e.mapValues f).name = e.name from rfl, hfilter]
  cases e.attributes.filter (identifies scope e.name) <;> rfl

theorem outside_decimal (appPrefix : Text) (n : Nat) : ¬scopeOf appPrefix <+: decimal n := by
  intro h
  refine absurd (decimal_isDigit (h.subset (show '_' ∈ scopeOf appPrefix from ?_))) (by decide)
  exact List.mem_append_right _ (List.mem_singleton_self _)

theorem element_mapValues {appPrefix : Text} {idOf : ElementId → Text} {f : Text → Text}
    (hf : ∀ v, ¬scopeOf appPrefix <+: v → f v = v) (e : Entity) :
    (e.element idOf).mapValues f = e.element fun d => f (idOf d) := by
  cases e with
  | declared d number target =>
    have hnumber : (number.toList.map fun n => ("Number".toList, decimal n)).map
        (fun a => (a.1, f a.2)) = number.toList.map fun n => ("Number".toList, decimal n) := by
      rw [List.map_map]
      refine List.map_congr_left fun n _ => ?_
      exact congrArg (Prod.mk _) (hf _ (outside_decimal appPrefix n))
    unfold Element.mapValues Entity.element
    dsimp only
    rw [List.map_cons, List.map_append, hnumber, List.map_map]
    rfl
  | reference kind target => rfl

/-- An id stands for what it is the id of. -/
theorem identifiedBy_id {app : AppProgram} (h : app.Named) {d : ElementId}
    (hd : d ∈ app.elementIds) : app.identifiedBy (d.id app.appPrefix) = some d := by
  cases hfound : app.identifiedBy (d.id app.appPrefix) with
  | none => exact absurd (decide_eq_true rfl) (List.find?_eq_none.mp hfound d hd)
  | some d' =>
    obtain ⟨hd', hid⟩ := identifiedBy_some hfound
    rw [id_inj h hd' hd hid]

/-- The renumbered document has the elements of the program, each with one new id, and what
    referred to an element refers to it by the new id. -/
structure Renumbered (app : AppProgram) (els els' : List Element) (newId : Text → Text) : Prop where
  renames : Renaming els els' newId
  others : ∀ v, ¬scopeOf app.appPrefix <+: v → newId v = v
  before : identified (scopeOf app.appPrefix) els =
    app.entities.map (Entity.element (ElementId.id app.appPrefix))
  after : identified (scopeOf app.appPrefix) els' =
    app.entities.map (Entity.element fun d => newId (d.id app.appPrefix))
  distinct : (app.elementIds.map fun d => newId (d.id app.appPrefix)).Nodup
  resolved : ∀ e ∈ app.entities, ∀ d ∈ e.targets, d ∈ app.elementIds
  parameters : ∀ p ∈ app.parameters,
    app.identifiedBy (app.paramId p) = some (.suffixed .parameter p.suffix)
  comObjects : ∀ co ∈ app.comObjects,
    app.identifiedBy (app.comObjectId co) = some (.suffixed .comObject co.suffix)

/-- An authored program is renumbered into a document that is accepted, in which every reference
    is to the renumbered element of its handle. -/
theorem authored_renumbered {reader : Reader} (documented : reader.Documented) {app : AppProgram}
    (h : app.Authored) (info : ProgramInfo) (createdBy toolVersion : Text) :
    ∃ xml els out els' newId, app.writeKnxDocument info createdBy toolVersion = some xml ∧
      scan xml = .ok els ∧ renumberIds reader xml = .ok out ∧ sanityCheck reader out = .ok () ∧
      scan out = .ok els' ∧ Renumbered app els els' newId := by
  have hnested := documentLines_nested (authored_plainIds h) info createdBy toolVersion
  have scannable := documentOf_scannable hnested
  have helements := documentOf_elements hnested
  generalize hdoc : documentOf _ hnested = doc at scannable helements
  have hrender : doc.render = documentText (app.documentLines info createdBy toolVersion) := by
    rw [← hdoc, ← documentTokens_render]
    rfl
  have hidentified : identified (scopeOf app.appPrefix) doc.elements =
      app.entities.map (Entity.element (ElementId.id app.appPrefix)) := by
    rw [helements]
    exact document_identities h.appPrefix h.registered (authored_translated h) info createdBy
      toolVersion
  have emitted : Emitted app doc.elements := ⟨h.toNamed, attributes_nodup doc, hidentified⟩
  have happ : findAttribute doc.elements "ApplicationProgram".toList "Id".toList =
      some app.appPrefix := by
    rw [helements]
    exact document_applicationId app info createdBy toolVersion
  have hout := (renumberIds_ok documented scannable happ).mpr ⟨emitted.numberable, rfl⟩
  have hsound := (renumbered_sound_iff documented scannable happ emitted.nodup emitted.resolved
    hout).mpr emitted.unambiguous
  have hinjective := newId_injective emitted.nodup emitted.numberable emitted.unambiguous
  have hothers (v : Text) (hv : ¬scopeOf app.appPrefix <+: v) :
      newId (scopeOf app.appPrefix) doc.elements v = v := newId_outside hv
  refine ⟨_, _, _, _, newId (scopeOf app.appPrefix) doc.elements, if_pos h.registered,
    hrender ▸ scan_render doc scannable, hrender ▸ hout, hsound.sane,
    scan_render _ (scannable_mapValues scannable newId_replaces), ?_⟩
  rw [Document.elements_mapValues]
  refine ⟨renaming_of_injective emitted.resolved hinjective, hothers, hidentified, ?_, ?_,
    fun e he => targets_declared (entities_cases he),
    fun p hp => paramId_eq app p ▸ identifiedBy_id h.toNamed (parameter_declared hp).1,
    fun co hco => comObjectId_eq app co ▸ identifiedBy_id h.toNamed (comObject_declared hco).1⟩
  · rw [identified_mapValues newId_scope, hidentified, List.map_map]
    exact List.map_congr_left fun e _ => element_mapValues hothers e
  · have hnodup := emitted.nodup
    rw [emitted.ids] at hnodup
    have hmap := hnodup.map_on (f := newId (scopeOf app.appPrefix) doc.elements)
      fun a ha b hb => hinjective a (emitted.ids ▸ ha) b (emitted.ids ▸ hb)
    rwa [List.map_map] at hmap

/-- A program whose tree and translations refer to its parameters and its group object. -/
def lampProgram : AppProgram :=
  let base := { AppProgram.new "M-00FA_A-0001-01-0000".toList with
    parameterTypes := [⟨"Level 1".toList, .number 8 "unsignedInt".toList 0 100⟩,
      ⟨"Switch".toList, .enumeration 8 [("Off".toList, 0), ("On".toList, 1)]⟩]
    parameters := [⟨"Level.1".toList, "Level".toList, 0, "Level".toList, "50".toList, 0⟩,
      ⟨"M-1".toList, "Mode".toList, 1, "Mode".toList, "1".toList, 1⟩]
    comObjects := [⟨"A".toList, "Dim".toList, 7, "Dimmer".toList, "Level".toList, "1 Byte".toList,
      ⟨5, 1⟩, ⟨false, true, false, false⟩⟩]
    segments := [.relative (some "Values".toList) 2 4 0]
    messages := [⟨"1".toList, "Done".toList, "Done".toList⟩]
    dynamic := [.channel "A".toList "1".toList "Lamp".toList "Lamp".toList
      [.parameterBlock "A".toList "Lamp".toList "Lamp".toList (some 0) false
        [.paramRefRef 0, .separator "A".toList [] [],
          .choose 1 [.mk "1".toList [.comObjRefRef 0]]]]] }
  ((base.translateParam "en-US".toList 1 .text "Mode".toList).getD base).translateRaw
    "en-US".toList "M-00FA_A-0001-01-0000_PB-A".toList .text "Lamp".toList

theorem lampProgram_authored : lampProgram.Authored where
  appPrefix := ⟨"00FA".toList, "0001".toList, "01".toList, "0000".toList, by decide⟩
  registered := by decide
  suffixes := by
    intro kind
    cases kind <;> decide
  distinct := by
    intro kind
    cases kind <;> decide
  types := by decide
  validated := by rfl
  numbers := by decide
  translated := by
    have htranslations : lampProgram.translations.map (fun t => t.2.refId) =
        [lampProgram.paramId ⟨"M-1".toList, "Mode".toList, 1, "Mode".toList, "1".toList, 1⟩,
          "M-00FA_A-0001-01-0000_PB-A".toList] := by decide
    intro t ht
    have hid := List.mem_map_of_mem (f := fun t => t.2.refId) ht
    rw [htranslations] at hid
    rcases List.mem_cons.mp hid with hid | hid
    · rw [hid]
      exact .parameter _ (List.mem_cons_of_mem _ List.mem_cons_self)
    · rw [List.mem_singleton.mp hid]
      exact .raw _ (by decide) fun _ => by decide

theorem lampProgram_renumbered : ∃ xml els out els' newId,
    lampProgram.writeKnxDocument helpInfo "xtask".toList "1.0".toList = some xml ∧
    scan xml = .ok els ∧ renumberIds XmlReader.xmlReader xml = .ok out ∧
    sanityCheck XmlReader.xmlReader out = .ok () ∧ scan out = .ok els' ∧
    Renumbered lampProgram els els' newId :=
  authored_renumbered XmlReader.xmlReader_documented lampProgram_authored helpInfo "xtask".toList
    "1.0".toList

theorem helpProgram_named : (helpProgram "Ein & Aus").Named where
  appPrefix := ⟨"00FA".toList, "0001".toList, "01".toList, "0000".toList, by decide⟩
  registered := by decide
  suffixes := by
    intro kind
    cases kind <;> decide
  distinct := by
    intro kind
    cases kind <;> decide
  types := by decide
  validated := by rfl
  numbers := by decide

def helpText : Text :=
  documentText ((helpProgram "Ein & Aus").documentLines helpInfo "xtask".toList "1.0".toList)

/-- A raw id that nothing declares is translated, and not accepted. -/
theorem raw_translation_dangles : XmlReader.xmlReader.Documented ∧ (helpProgram "Ein & Aus").Named ∧
    ∃ xml out, (helpProgram "Ein & Aus").writeKnxDocument helpInfo "xtask".toList "1.0".toList =
      some xml ∧ renumberIds XmlReader.xmlReader xml = .ok out ∧
      sanityCheck XmlReader.xmlReader out = .error (.error (.validation
        ["dangling reference (no such Id): M-00FA_A-0001-01-0000_UP-1".toList])) := by
  have hok : (renumberIds XmlReader.xmlReader helpText).isOk = true := by decide +kernel
  have hreport : (renumberIds XmlReader.xmlReader helpText).bind
      (sanityCheck XmlReader.xmlReader) = .error (.error (.validation
        ["dangling reference (no such Id): M-00FA_A-0001-01-0000_UP-1".toList])) := by
    decide +kernel
  cases hout : renumberIds XmlReader.xmlReader helpText with
  | error e =>
    rw [hout] at hok
    cases hok
  | ok out =>
    rw [hout] at hreport
    exact ⟨XmlReader.xmlReader_documented, helpProgram_named, helpText, out,
      if_pos (by decide), hout, hreport⟩

end KnxRs.Author
