import KnxRs.TagReader
import KnxRs.Translations

set_option autoImplicit false

/-!
# The parts of a product

The split on trees: each part is the product with one of the children of its manufacturer, and
the translations that belong to it. The split of the source text is the source text of the parts.
-/
namespace KnxRs.Split
open Texts TextSearch XmlDocuments SourceTrees Renumber

namespace Product

def lineOf (n : Node) : List Node := [.token (.text "      ".toList), n, .token (.text ['\n'])]

def part (p : Product) (n : Node) (translations : Option Node) : Product :=
  { p with
    content := .token (.text ['\n']) :: lineOf n ++ translations.toList.flatMap lineOf ++
      [.token (.text "    ".toList)] }

def translations (p : Product) (lib : Library) (category : TranslationCategory) : Option Node :=
  (child "Languages".toList p.content).bind (translatedLanguages lib category)

def parts (p : Product) (lib : Library) (metadata : KnxMetadata) (catalog hardware app : Node) :
    List (Text × Product) :=
  [(catalogFile, p.part catalog (p.translations lib .catalog)),
    (hardwareFile, p.part hardware (p.translations lib .hardware)),
    (applicationFile metadata, p.part app (p.translations lib .application))] ++
    (child "Baggages".toList p.content).toList.map fun n => (baggagesFile, p.part n none)

theorem render_text (s : Text) (ns : List Node) :
    render (.token (.text s) :: ns) = s ++ render ns := by
  rw [render_cons, Node.render]
  rfl

theorem render_lineOf (n : Node) : render (lineOf n) = "      ".toList ++ n.render ++ ['\n'] := by
  unfold lineOf
  rw [render_text, render_cons, render_text, render_nil, List.append_nil, List.append_assoc]

theorem part_xml (p : Product) (n : Node) (translations : Option Node) :
    (p.part n translations).xml = p.before ++ (p.tag.render ++
      (['\n'] ++ ("      ".toList ++ n.render ++ ['\n'] ++
        (render (translations.toList.flatMap lineOf) ++ "    ".toList)) ++
          (closing p.tag p.spaces ++ p.after))) := by
  unfold part xml
  dsimp only
  rw [List.cons_append, List.cons_append, render_text, render_append, render_append,
    render_lineOf, render_text, render_nil, List.append_nil]
  simp only [List.append_assoc]

theorem document_alone (p : Product) (n : Node) : p.document n none = (p.part n none).xml := by
  rw [part_xml]
  unfold document buildDocument
  simp [List.append_assoc]

theorem document_part (p : Product) (n : Node) {translations : Option Node}
    (h : ∀ t ∈ translations, t.render ≠ []) :
    p.document n (some (translations.elim [] Node.render)) = (p.part n translations).xml := by
  rw [part_xml]
  unfold document buildDocument
  cases translations with
  | none => simp [List.append_assoc]
  | some t =>
    have hwritten : t.render ≠ [] := h t rfl
    have hline : render (List.flatMap lineOf [t]) = "      ".toList ++ t.render ++ ['\n'] := by
      rw [List.flatMap_singleton, render_lineOf]
    rw [Option.toList_some, hline]
    simp [hwritten, List.append_assoc]

end Product

/-! ## The translations of a split -/

section
variable {lib : Library} (documented : lib.reader.Documented) {p : Product} (located : p.Located)
include documented located

theorem findChild_range {name : Text} (direct : Direct name p.content) {n : Node}
    (hn : child name p.content = some n) (hplain : n.Plain) :
    ∃ pos, findChildElementRange lib.reader p.xml p.range name = .ok (some (rangeAt pos n)) ∧
      Stands p.xml pos n.render ∧ n.WellFormed := by
  rcases direct_cases direct with ⟨hnone, _⟩ | ⟨ns, tag, children, spaces, ms, hcontent, hname,
    hmentions, hchild⟩
  · rw [hnone] at hn
    cases hn
  · rw [hchild] at hn
    cases hn
    have hwell := wellFormed_append (hcontent ▸ located.wellFormed.content)
    rw [SourceTrees.WellFormed] at hwell
    have hxml : p.xml = (p.before ++ p.tag.render ++ render ns) ++
        ((Node.element tag children spaces).render ++
          (render ms ++ (closing p.tag p.spaces ++ p.after))) := by
      unfold Product.xml
      rw [hcontent, render_append, render_cons]
      simp only [List.append_assoc]
    have hpos : 0 + (render ns).length + p.range.childrenStart =
        (p.before ++ p.tag.render ++ render ns).length := by
      unfold Product.range
      simp only [List.length_append]
      omega
    have hstands : Stands p.xml (p.before ++ p.tag.render ++ render ns).length
        (Node.element tag children spaces).render := ⟨_, _, hxml, rfl⟩
    obtain ⟨childrenStart, hafter, hfound⟩ := childRangeFrom_found hname hwell.2.1
      (render ms ++ (closing p.tag p.spaces ++ p.after)) hpos
      (events (0 + (render ns).length + (Node.element tag children spaces).render.length) ms)
    rw [← hxml, afterTag_render (node_stands hstands).1 hplain] at hafter
    refine ⟨_, ?_, hstands, hwell.2.1⟩
    rw [findChild_read documented located, hcontent, events_append, pass _ _ _ _ _ _ ns hmentions,
      events_cons, hxml, hfound, ← Option.some.inj hafter]
    rfl

theorem findChild_absent {name : Text} (direct : Direct name p.content)
    (hn : child name p.content = none) :
    findChildElementRange lib.reader p.xml p.range name = .ok none := by
  obtain ⟨range, hfound, houter⟩ := findChild_outer documented located direct
  rw [hn] at houter
  rw [hfound, Option.map_eq_none_iff.mp houter]

theorem translationsOf_eq (direct : Direct "Languages".toList p.content)
    (plain : ∀ l ∈ child "Languages".toList p.content, PlainTranslations l) :
    ∃ languages, findChildElementRange lib.reader p.xml p.range "Languages".toList = .ok languages ∧
      ∀ category, ∃ translations, translationsOf lib p.xml languages category = .ok translations ∧
        ∀ n, p.document n translations = (p.part n (p.translations lib category)).xml := by
  cases hlanguages : child "Languages".toList p.content with
  | none =>
    refine ⟨none, findChild_absent documented located direct hlanguages, fun category =>
      ⟨none, rfl, fun n => ?_⟩⟩
    unfold Product.translations
    rw [hlanguages]
    exact p.document_alone n
  | some l =>
    have hplain := plain l hlanguages
    obtain ⟨pos, hfound, hstands, hwell⟩ :=
      findChild_range documented located direct hlanguages hplain.root
    refine ⟨_, hfound, fun category =>
      ⟨some ((translatedLanguages lib category l).elim [] Node.render), ?_, fun n => ?_⟩⟩
    · unfold translationsOf
      dsimp only
      rw [filterTranslations_eq documented hstands hwell hplain category]
      rfl
    · unfold Product.translations
      rw [hlanguages]
      refine p.document_part n ?_
      intro t ht
      unfold translatedLanguages at ht
      dsimp only at ht
      split_ifs at ht
      · cases ht
      · cases ht
        exact head_render rfl

theorem splitXml_found (direct : ∀ name ∈ childNames, Direct name p.content)
    {languages : Option ElementRange}
    (hlanguages : findChildElementRange lib.reader p.xml p.range "Languages".toList =
      .ok languages)
    (metadata : KnxMetadata) {catalog hardware app : Node}
    (hcatalog : child "Catalog".toList p.content = some catalog)
    (hhardware : child "Hardware".toList p.content = some hardware)
    (happ : child "ApplicationPrograms".toList p.content = some app) :
    splitXml lib p.xml metadata = p.documents lib metadata languages catalog hardware app := by
  have found (name : Text) (hname : name ∈ childNames) :=
    findChild_outer documented located (direct name hname)
  have hdocument {r : ElementRange} {n : Node} (h : r.outer p.xml = n.render) :
      childDocument p.xml p.range r = p.document n := funext (childDocument_eq h)
  obtain ⟨_, fcatalog, ecatalog⟩ := found "Catalog".toList (by decide)
  obtain ⟨_, fhardware, ehardware⟩ := found "Hardware".toList (by decide)
  obtain ⟨_, fapp, eapp⟩ := found "ApplicationPrograms".toList (by decide)
  obtain ⟨_, fbaggages, ebaggages⟩ := found "Baggages".toList (by decide)
  rw [splitXml_ranges located fcatalog fhardware fapp hlanguages fbaggages metadata]
  rw [hcatalog] at ecatalog
  rw [hhardware] at ehardware
  rw [happ] at eapp
  obtain ⟨rcatalog, rfl, ocatalog⟩ := Option.map_eq_some_iff.mp ecatalog
  obtain ⟨rhardware, rfl, ohardware⟩ := Option.map_eq_some_iff.mp ehardware
  obtain ⟨rapp, rfl, oapp⟩ := Option.map_eq_some_iff.mp eapp
  unfold Product.documents
  simp only [required_some, ok_bind, hdocument ocatalog, hdocument ohardware, hdocument oapp]
  rcases option_render ebaggages with ⟨rfl, hb⟩ | ⟨r, n, rfl, hb, ob⟩
  · rw [hb]
    rfl
  · simp only [hb, Option.toList_some, List.map_cons, List.map_nil, hdocument ob]

theorem splitXml_missing_iff (direct : ∀ name ∈ childNames, Direct name p.content)
    (metadata : KnxMetadata) :
    (∃ name, splitXml lib p.xml metadata = .error (.error (.missingElement name))) ↔
      ∃ name ∈ requiredNames, child name p.content = none := by
  have found (name : Text) (hname : name ∈ childNames) :=
    findChild_outer documented located (direct name hname)
  obtain ⟨languages, hlanguages, _⟩ := found "Languages".toList (by decide)
  constructor
  · rintro ⟨name, hmissing⟩
    by_contra hpresent
    have present {name : Text} (hname : name ∈ requiredNames) :
        ∃ n, child name p.content = some n :=
      Option.ne_none_iff_exists'.mp fun hnone => hpresent ⟨name, hname, hnone⟩
    obtain ⟨catalog, hcatalog⟩ : ∃ n, child "Catalog".toList p.content = some n :=
      present (by decide)
    obtain ⟨hardware, hhardware⟩ : ∃ n, child "Hardware".toList p.content = some n :=
      present (by decide)
    obtain ⟨app, happ⟩ : ∃ n, child "ApplicationPrograms".toList p.content = some n :=
      present (by decide)
    have hpanics : PanicsOnly (splitXml lib p.xml metadata) := by
      rw [splitXml_found documented located direct hlanguages metadata hcatalog hhardware happ]
      unfold Product.documents
      exact (translationsOf_panics _ _ _ _).bind fun _ =>
        (translationsOf_panics _ _ _ _).bind fun _ =>
          (translationsOf_panics _ _ _ _).bind fun _ => .ok _
    cases hpanics _ hmissing
  · rintro ⟨name, hname, hnone⟩
    obtain ⟨catalogRange, fcatalog, ecatalog⟩ := found "Catalog".toList (by decide)
    obtain ⟨hardwareRange, fhardware, ehardware⟩ := found "Hardware".toList (by decide)
    obtain ⟨appRange, fapp, eapp⟩ := found "ApplicationPrograms".toList (by decide)
    obtain ⟨_, fbaggages, _⟩ := found "Baggages".toList (by decide)
    rw [splitXml_ranges located fcatalog fhardware fapp hlanguages fbaggages metadata]
    -- the first of the three that is not there is the one reported
    cases catalogRange with
    | none => exact ⟨_, rfl⟩
    | some catalog =>
      cases hardwareRange with
      | none => exact ⟨_, rfl⟩
      | some hardware =>
        cases appRange with
        | none => exact ⟨_, rfl⟩
        | some app =>
          exfalso
          simp only [requiredNames, List.mem_cons, List.not_mem_nil, or_false] at hname
          rcases hname with rfl | rfl | rfl
          · rw [hnone] at ecatalog
            cases ecatalog
          · rw [hnone] at ehardware
            cases ehardware
          · rw [hnone] at eapp
            cases eapp

/-- The split of the source text is the source text of the split tree: it does not panic, and
    each file is the product with one child and the translations of its category. -/
theorem splitXml_parts (direct : ∀ name ∈ childNames, Direct name p.content)
    (plain : ∀ l ∈ child "Languages".toList p.content, PlainTranslations l)
    (metadata : KnxMetadata) {catalog hardware app : Node}
    (hcatalog : child "Catalog".toList p.content = some catalog)
    (hhardware : child "Hardware".toList p.content = some hardware)
    (happ : child "ApplicationPrograms".toList p.content = some app) :
    splitXml lib p.xml metadata =
      .ok ((p.parts lib metadata catalog hardware app).map fun f => (f.1, f.2.xml)) := by
  obtain ⟨languages, hlanguages, htranslations⟩ :=
    translationsOf_eq documented located (direct _ (by decide)) plain
  obtain ⟨tcatalog, hcat, ecatalog⟩ := htranslations .catalog
  obtain ⟨thardware, hhard, ehardware⟩ := htranslations .hardware
  obtain ⟨tapp, happl, eapp⟩ := htranslations .application
  rw [splitXml_found documented located direct hlanguages metadata hcatalog hhardware happ]
  unfold Product.documents Product.parts
  simp only [ok_bind, hcat, hhard, happl, ecatalog, ehardware, eapp, List.map_append, List.map_map,
    p.document_alone]
  rfl

end

/-- A split fails for a missing element exactly when a child is missing that must be there.
    Otherwise each document is the manufacturer around the source text of one child, with the
    translations of its category, and there is one for the baggages if there are any. It does
    not panic where the start tags of the languages and of their units have no `>` in them. -/
theorem splitXml_documents (lib : Library) (documented : lib.reader.Documented) (p : Product)
    (located : p.Located) (direct : ∀ name ∈ childNames, Direct name p.content)
    (metadata : KnxMetadata) :
    ((∃ name, splitXml lib p.xml metadata = .error (.error (.missingElement name))) ↔
      ∃ name ∈ requiredNames, child name p.content = none) ∧
    ∀ catalog hardware app, child "Catalog".toList p.content = some catalog →
      child "Hardware".toList p.content = some hardware →
      child "ApplicationPrograms".toList p.content = some app →
      (∃ languages : Option ElementRange,
        languages.map (fun r => r.outer p.xml) =
          (child "Languages".toList p.content).map Node.render ∧
        splitXml lib p.xml metadata =
          p.documents lib metadata languages catalog hardware app) ∧
      ((∀ l ∈ child "Languages".toList p.content, PlainTranslations l) →
        splitXml lib p.xml metadata =
          .ok ((p.parts lib metadata catalog hardware app).map fun f => (f.1, f.2.xml))) := by
  obtain ⟨languages, hlanguages, elanguages⟩ :=
    findChild_outer documented located (direct "Languages".toList (by decide))
  refine ⟨splitXml_missing_iff documented located direct metadata,
    fun catalog hardware app hcatalog hhardware happ => ⟨⟨languages, elanguages, ?_⟩, ?_⟩⟩
  · exact splitXml_found documented located direct hlanguages metadata hcatalog hhardware happ
  · intro plain
    exact splitXml_parts documented located direct plain metadata hcatalog hhardware happ

/-! ## A product -/

def startTag (name : String) : Tag := ⟨name.toList, [], [], false⟩

def entryTag (name key value : String) : Tag :=
  ⟨name.toList, [⟨[' '], key.toList, [], [], '"', value.toList⟩], [], true⟩

def entry (name key value : String) : Node := .token (.tag (entryTag name key value))

def filled (name inner : String) : Node := .element (startTag name) [entry inner "Id" "M-1"] []

def sample (more : List Node) : Product where
  before := []
  tag := startTag "Manufacturer"
  content := [filled "Catalog" "CatalogSection", filled "Hardware" "Product",
    filled "ApplicationPrograms" "ApplicationProgram"] ++ more
  spaces := []
  after := []

def sampleLibrary : Library := ⟨XmlReader.tagReader, some⟩

def sampleMetadata : KnxMetadata := ⟨20, "M-00FA".toList, "M-00FA_A-1".toList⟩

def sampleLanguages : Node :=
  .element (startTag "Languages")
    [.element (startTag "Language") [entry "TranslationUnit" "RefId" "_CS-"] []] []

def sampleMore : List Node := [sampleLanguages, filled "Baggages" "Baggage"]

theorem startTag_wellFormed {name : String} (h : IsName name.toList) :
    (startTag name).WellFormed :=
  ⟨h, by simp [startTag], by simp [startTag], (by decide : IsSpaces [])⟩

theorem element_wellFormed {name : String} {children : List Node} (h : IsName name.toList)
    (hchildren : WellFormed children) : (Node.element (startTag name) children []).WellFormed := by
  rw [Node.WellFormed]
  exact ⟨startTag_wellFormed h, rfl, hchildren, by decide⟩

theorem wellFormed_cons {n : Node} {ns : List Node} (h : n.WellFormed) (hns : WellFormed ns) :
    WellFormed (n :: ns) := by
  rw [SourceTrees.WellFormed]
  exact ⟨h, hns⟩

theorem wellFormed_nil : WellFormed [] := by
  rw [SourceTrees.WellFormed]
  trivial

theorem entry_wellFormed {name key value : String} (h : (entryTag name key value).WellFormed) :
    WellFormed [entry name key value] := by
  refine wellFormed_cons ?_ wellFormed_nil
  unfold entry
  rw [Node.WellFormed]
  exact ⟨h, rfl⟩

theorem filled_wellFormed {name inner : String} (h : IsName name.toList)
    (hinner : (entryTag inner "Id" "M-1").WellFormed) : (filled name inner).WellFormed :=
  element_wellFormed h (entry_wellFormed hinner)

theorem sampleLanguages_wellFormed : sampleLanguages.WellFormed :=
  element_wellFormed (by decide) (wellFormed_cons
    (element_wellFormed (by decide) (entry_wellFormed (by decide))) wellFormed_nil)

theorem sample_wellFormed {more : List Node} (h : WellFormed more) : (sample more).WellFormed :=
  ⟨startTag_wellFormed (by decide),
    wellFormed_cons (filled_wellFormed (by decide) (by decide))
      (wellFormed_cons (filled_wellFormed (by decide) (by decide))
        (wellFormed_cons (filled_wellFormed (by decide) (by decide)) h)),
    (by decide : IsSpaces [])⟩

theorem sampleLanguages_plain : PlainTranslations sampleLanguages where
  root := (by decide : '>' ∉ (startTag "Languages").body)
  language := by
    intro l hl
    obtain rfl := List.mem_singleton.mp hl
    exact (by decide : '>' ∉ (startTag "Language").body)
  unit := by
    intro l hl u hu
    obtain rfl := List.mem_singleton.mp hl
    obtain rfl := List.mem_singleton.mp hu
    exact (by decide : '>' ∉ (entryTag "TranslationUnit" "RefId" "_CS-").body)

theorem sample_located : (sample sampleMore).Located where
  wellFormed := sample_wellFormed (wellFormed_cons sampleLanguages_wellFormed
    (wellFormed_cons (filled_wellFormed (by decide) (by decide)) wellFormed_nil))
  plain := by decide
  opened := .bare (by decide) (by decide) (by decide +kernel)
  closed := .bare (by decide) rfl (by decide)

theorem sample_direct : ∀ name ∈ childNames, Direct name (sample sampleMore).content := by
  decide +kernel

theorem sample_translations :
    ∀ l ∈ child "Languages".toList (sample sampleMore).content, PlainTranslations l := by
  intro l hl
  obtain rfl : sampleLanguages = l := Option.some.inj hl
  exact sampleLanguages_plain

/-- The catalog goes with its translations, the hardware and the application without any. -/
theorem splitXml_documents_sample :
    splitXml sampleLibrary (sample sampleMore).xml sampleMetadata = .ok
      [(catalogFile, ((sample sampleMore).part (filled "Catalog" "CatalogSection")
          (some sampleLanguages)).xml),
        (hardwareFile, ((sample sampleMore).part (filled "Hardware" "Product") none).xml),
        ("M-00FA_A-1.xml".toList, ((sample sampleMore).part
          (filled "ApplicationPrograms" "ApplicationProgram") none).xml),
        (baggagesFile, ((sample sampleMore).part (filled "Baggages" "Baggage") none).xml)] :=
  (((splitXml_documents sampleLibrary XmlReader.tagReader_documented (sample sampleMore)
    sample_located sample_direct sampleMetadata).2 _ _ _ rfl rfl rfl).2 sample_translations).trans
      rfl

/-- The document of the catalog has more than the child. -/
theorem splitXml_adds_translations : (sample sampleMore).WellFormed ∧
    (∀ name ∈ childNames, ((sample sampleMore).content.filter (isChild name)).length ≤ 1) ∧
    ∃ files, splitXml sampleLibrary (sample sampleMore).xml sampleMetadata = .ok files ∧
      (catalogFile, (sample sampleMore).document (filled "Catalog" "CatalogSection") none) ∉
        files :=
  ⟨sample_located.wellFormed, by decide +kernel, _,
    splitXml_parts XmlReader.tagReader_documented sample_located sample_direct sample_translations
      sampleMetadata rfl rfl rfl, by decide +kernel⟩

end KnxRs.Split
