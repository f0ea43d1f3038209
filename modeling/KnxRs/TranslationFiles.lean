import KnxRs.AuthoredIds
import KnxRs.SignedNames
import KnxRs.SplitParts

set_option autoImplicit false

/-!
# The files of the translations

A unit goes with every file whose test its reference meets. An id of an authored product meets
one test, but that of a catalog item meets two.
-/
namespace KnxRs.SourceTrees
open Texts XmlDocuments

def Node.Named (p : Text → Bool) (n : Node) : Prop := ∃ e, n.head = some e ∧ p e.name = true

section
variable {p : Text → Bool}

theorem Node.outermost_named {n : Node} (h : n.Named p) (pos : Nat) :
    n.outermost p pos = [(pos, n)] := by
  obtain ⟨e, hhead, hname⟩ := h
  cases n with
  | token t =>
    cases t with
    | tag t =>
      cases hhead
      rw [Node.outermost]
      exact if_pos hname
    | text _ | comment _ | cdata _ | instruction _ | declaration _ | endTag _ _ => cases hhead
  | element tag children spaces =>
    cases hhead
    rw [Node.outermost]
    exact if_pos hname

theorem outer_self {ns : List Node} (h : ∀ n ∈ ns, n.Named p) : outer p ns = ns := by
  unfold outer
  generalize 0 = pos
  induction ns generalizing pos with
  | nil => rw [outermost, List.map_nil]
  | cons n ns ih =>
    obtain ⟨hn, hns⟩ := List.forall_mem_cons.mp h
    rw [outermost, n.outermost_named hn, List.map_append, ih hns]
    rfl

theorem wellFormed_mem {ns : List Node} (h : WellFormed ns) {n : Node} (hn : n ∈ ns) :
    n.WellFormed := by
  induction ns with
  | nil => cases hn
  | cons m ns ih =>
    rw [WellFormed] at h
    rcases List.mem_cons.mp hn with rfl | hn
    · exact h.1
    · exact ih h.2 hn

theorem outer_member {ns : List Node} (h : WellFormed ns) :
    ∀ n ∈ outer p ns, n.Named p ∧ n.WellFormed := by
  intro n hn
  obtain ⟨x, hx, rfl⟩ := List.mem_map.mp hn
  have houter := outermost_outer p 0 ns h ⟨[], [], (List.append_nil _).symm, rfl⟩ x hx
  exact ⟨houter.named, houter.wellFormed⟩

end

end KnxRs.SourceTrees

namespace KnxRs.Split
open Texts TextSearch XmlDocuments SourceTrees Renumber Sign Author

/-! ## The units of a language -/

/-- A language: its two tags, and its units in their order. -/
structure LanguageUnits where
  tags : Option (Tag × Text)
  units : List Node

def languageTags : Node → Option (Tag × Text)
  | .token _ => none
  | .element tag _ spaces => some (tag, spaces)

def languageUnits (l : Node) : LanguageUnits := ⟨languageTags l, unitNodes l⟩

/-- The languages of a product. -/
def languagesIn (content : List Node) : List LanguageUnits :=
  (child "Languages".toList content).elim [] fun n => (languageNodes n).map languageUnits

section
variable (lib : Library) (category : TranslationCategory)

def LanguageUnits.kept (l : LanguageUnits) : LanguageUnits :=
  { l with units := l.units.filter (keeps lib category) }

/-- The languages that have units of the category, with these. -/
def keptLanguages (ls : List LanguageUnits) : List LanguageUnits :=
  (ls.map (LanguageUnits.kept lib category)).filter fun l => !l.units.isEmpty

theorem keptLanguages_none {l : LanguageUnits} (h : l.units.filter (keeps lib category) = []) :
    keptLanguages lib category [l] = [] :=
  List.filter_cons_of_neg (by simpa [LanguageUnits.kept] using h)

theorem keptLanguages_some {l : LanguageUnits} (h : l.units.filter (keeps lib category) ≠ []) :
    keptLanguages lib category [l] = [l.kept lib category] :=
  List.filter_cons_of_pos (by simpa [LanguageUnits.kept] using h)

theorem translatedLanguage_units {l : Node} (hwell : l.WellFormed) :
    ((translatedLanguage lib category l).map languageUnits).toList =
      keptLanguages lib category [languageUnits l] := by
  have hunits : ∀ u ∈ (unitNodes l).filter (keeps lib category),
      u.Named (hasLocal "TranslationUnit".toList) := fun u hu =>
    (outer_member (Node.children_wellFormed hwell) u (List.mem_of_mem_filter hu)).1
  cases l with
  | token t =>
    have hnone : unitNodes (.token t) = [] := by
      unfold unitNodes outer
      rw [Node.children, outermost, List.map_nil]
    refine (keptLanguages_none lib category ?_).symm
    rw [languageUnits, hnone, List.filter_nil]
  | element tag children spaces =>
    have hsame : unitNodes (.element tag
        ((unitNodes (.element tag children spaces)).filter (keeps lib category)) spaces) =
        (unitNodes (.element tag children spaces)).filter (keeps lib category) :=
      outer_self hunits
    unfold translatedLanguage
    dsimp only
    by_cases hnone : (unitNodes (.element tag children spaces)).filter (keeps lib category) = []
    · rw [if_pos hnone]
      exact (keptLanguages_none lib category hnone).symm
    · rw [if_neg hnone, Option.map_some, Option.toList_some, languageUnits, hsame]
      exact (keptLanguages_some lib category
        (l := languageUnits (.element tag children spaces)) hnone).symm

theorem keptLanguages_cons (l : LanguageUnits) (ls : List LanguageUnits) :
    keptLanguages lib category (l :: ls) =
      keptLanguages lib category [l] ++ keptLanguages lib category ls := by
  unfold keptLanguages
  rw [← List.filter_append, ← List.map_append]
  rfl

theorem translatedLanguage_named {l m : Node} (hl : l.Named (hasLocal "Language".toList))
    (h : translatedLanguage lib category l = some m) : m.Named (hasLocal "Language".toList) := by
  cases l with
  | token t => cases h
  | element tag children spaces =>
    obtain ⟨e, hhead, hname⟩ := hl
    unfold translatedLanguage at h
    dsimp only at h
    split_ifs at h
    cases h
    exact ⟨e, hhead, hname⟩

theorem translatedLanguages_units {languages : Node} (hwell : languages.WellFormed) :
    ((translatedLanguages lib category languages).elim [] fun n =>
      (languageNodes n).map languageUnits) =
        keptLanguages lib category ((languageNodes languages).map languageUnits) := by
  have hmember : ∀ l ∈ languageNodes languages,
      l.Named (hasLocal "Language".toList) ∧ l.WellFormed :=
    outer_member (Node.children_wellFormed hwell)
  have htranslated : ((languageNodes languages).filterMap (translatedLanguage lib category)).map
      languageUnits = keptLanguages lib category ((languageNodes languages).map languageUnits) := by
    generalize languageNodes languages = ls at hmember ⊢
    induction ls with
    | nil => rfl
    | cons l ls ih =>
      obtain ⟨⟨_, hl⟩, hls⟩ := List.forall_mem_cons.mp hmember
      rw [List.map_cons, keptLanguages_cons, ← translatedLanguage_units lib category hl, ← ih hls,
        List.filterMap_cons]
      cases translatedLanguage lib category l <;> rfl
  have hnamed : ∀ m ∈ (languageNodes languages).filterMap (translatedLanguage lib category),
      m.Named (hasLocal "Language".toList) := by
    intro m hm
    obtain ⟨l, hl, hlm⟩ := List.mem_filterMap.mp hm
    exact translatedLanguage_named lib category (hmember l hl).1 hlm
  unfold translatedLanguages
  dsimp only
  by_cases hnone : (languageNodes languages).filterMap (translatedLanguage lib category) = []
  · rw [if_pos hnone, ← htranslated, hnone]
    rfl
  · have hsame : languageNodes (.element languagesTag
        ((languageNodes languages).filterMap (translatedLanguage lib category)) []) =
        (languageNodes languages).filterMap (translatedLanguage lib category) :=
      outer_self hnamed
    rw [if_neg hnone, Option.elim_some, hsame, htranslated]

end

/-! ## The files -/

namespace Product
variable (p : Product) (lib : Library)

theorem part_child {name : Text} {n : Node} (hn : isChild name n = false)
    {translations : Option Node} (h : ∀ t ∈ translations, isChild name t = true) :
    child name (p.part n translations).content = translations := by
  have htext (s : Text) : isChild name (.token (.text s)) = false := rfl
  unfold child part lineOf
  cases translations with
  | none => simp [htext, hn]
  | some t => simp [htext, hn, h t rfl]

theorem part_kept (hwell : p.WellFormed) {n : Node} (hn : isChild "Languages".toList n = false)
    (category : TranslationCategory) :
    languagesIn (p.part n (p.translations lib category)).content =
      keptLanguages lib category (languagesIn p.content) := by
  have hchild : ∀ t ∈ p.translations lib category, isChild "Languages".toList t = true := by
    intro t ht
    obtain ⟨l, _, htranslated⟩ := Option.bind_eq_some_iff.mp ht
    unfold translatedLanguages at htranslated
    dsimp only at htranslated
    split_ifs at htranslated
    cases htranslated
    rfl
  unfold languagesIn
  rw [p.part_child hn hchild]
  unfold translations
  cases hlanguages : child "Languages".toList p.content with
  | none => rfl
  | some l =>
    have hl : l.WellFormed := wellFormed_mem hwell.content (List.mem_of_find?_eq_some hlanguages)
    exact translatedLanguages_units lib category hl

/-- The product has the unit in a language of these tags. -/
def HasUnit (tags : Option (Tag × Text)) (unit : Node) : Prop :=
  ∃ l ∈ languagesIn p.content, l.tags = tags ∧ unit ∈ l.units

theorem part_hasUnit (hwell : p.WellFormed) {n : Node} (hn : isChild "Languages".toList n = false)
    (category : TranslationCategory) (tags : Option (Tag × Text)) (unit : Node) :
    (p.part n (p.translations lib category)).HasUnit tags unit ↔
      p.HasUnit tags unit ∧ keeps lib category unit = true := by
  unfold HasUnit
  rw [p.part_kept lib hwell hn category]
  unfold keptLanguages
  constructor
  · rintro ⟨l, hl, htags, hunit⟩
    obtain ⟨source, hsource, rfl⟩ := List.mem_map.mp (List.mem_of_mem_filter hl)
    obtain ⟨hmem, hkeeps⟩ := List.mem_filter.mp hunit
    exact ⟨⟨source, hsource, htags, hmem⟩, hkeeps⟩
  · rintro ⟨⟨source, hsource, htags, hmem⟩, hkeeps⟩
    have hunit : unit ∈ (source.kept lib category).units := List.mem_filter.mpr ⟨hmem, hkeeps⟩
    refine ⟨source.kept lib category, List.mem_filter.mpr ⟨List.mem_map_of_mem hsource, ?_⟩,
      htags, hunit⟩
    rw [Bool.not_eq_true', List.isEmpty_eq_false_iff]
    exact List.ne_nil_of_mem hunit

/-- The file that takes the translations of a category, and its tree. -/
def fileOf (metadata : KnxMetadata) (catalog hardware app : Node) :
    TranslationCategory → Text × Product
  | .catalog => (catalogFile, p.part catalog (p.translations lib .catalog))
  | .hardware => (hardwareFile, p.part hardware (p.translations lib .hardware))
  | .application => (applicationFile metadata, p.part app (p.translations lib .application))

end Product

/-! ## The tests -/

/-- What the reference of a unit has in it if the unit goes with the file of the category. -/
def Belongs (refId : Text) : TranslationCategory → Prop
  | .catalog => "_CS-".toList <:+: refId ∨ "_CI-".toList <:+: refId
  | .hardware => "_H-".toList <:+: refId ∨ "_HP-".toList <:+: refId
  | .application => "_A-".toList <:+: refId ∨
      ∀ mark ∈ ["_CS-", "_CI-", "_H-", "_HP-"], ¬ mark.toList <:+: refId

theorem find_isSome {pat s : Text} : (find pat s).isSome = true ↔ pat <:+: s := by
  refine ⟨fun h => ?_, fun h => ?_⟩
  · by_contra hno
    rw [find_none hno] at h
    cases h
  · obtain ⟨before, after, rfl⟩ := h
    induction before with
    | nil =>
      rw [List.nil_append, find_prefix (List.prefix_append pat after)]
      rfl
    | cons c before ih =>
      rw [List.cons_append, List.cons_append, find_cons]
      split_ifs
      · rfl
      · rw [Option.isSome_map]
        exact ih

theorem matchesCategory_iff (refId : Text) (category : TranslationCategory) :
    matchesCategory refId category = true ↔ Belongs refId category := by
  have hcontains (pat : Text) : contains pat refId = true ↔ pat <:+: refId := find_isSome
  have hmissing (pat : Text) : contains pat refId = false ↔ ¬ pat <:+: refId := by
    rw [← hcontains, Bool.not_eq_true]
  cases category with
  | catalog => simp only [matchesCategory, Belongs, Bool.or_eq_true, hcontains]
  | hardware => simp only [matchesCategory, Belongs, Bool.or_eq_true, hcontains]
  | application =>
    simp only [matchesCategory, Belongs, Bool.or_eq_true, Bool.and_eq_true, Bool.not_eq_true',
      hcontains, hmissing, List.forall_mem_cons, List.not_mem_nil, false_imp_iff, implies_true,
      and_true, and_assoc]

/-- No unit is lost. -/
theorem belongs_somewhere (refId : Text) : ∃ category, Belongs refId category := by
  by_cases hcatalog : Belongs refId .catalog
  · exact ⟨_, hcatalog⟩
  by_cases hhardware : Belongs refId .hardware
  · exact ⟨_, hhardware⟩
  obtain ⟨hsection, hitem⟩ := not_or.mp hcatalog
  obtain ⟨hhw, hprogram⟩ := not_or.mp hhardware
  refine ⟨.application, .inr ?_⟩
  simp only [List.forall_mem_cons, List.not_mem_nil, false_imp_iff, implies_true, and_true]
  exact ⟨hsection, hitem, hhw, hprogram⟩

theorem keeps_iff {lib : Library} {unit : Node} {refId : Text} (h : refIdOf lib unit = some refId)
    (category : TranslationCategory) :
    keeps lib category unit = true ↔ Belongs refId category := by
  unfold keeps
  rw [h]
  exact matchesCategory_iff refId category

/-! ## The ids of an authored product -/

/-- Segments that are marked off by underscores. -/
def joined (first : Text) (segments : List Text) : Text := first ++ segments.flatMap ('_' :: ·)

theorem prefix_joined {k s : Text} {segments : List Text} (hk : '_' ∉ k) :
    k <+: joined s segments ↔ k <+: s := by
  unfold joined
  cases segments with
  | nil => rw [List.flatMap_nil, List.append_nil]
  | cons t segments =>
    refine ⟨fun h => ?_, fun h => h.trans (List.prefix_append _ _)⟩
    rcases prefix_or_mem h with h | ⟨more, rfl⟩
    · exact h
    · exact absurd (List.mem_append_right s List.mem_cons_self) hk

theorem infix_joined {k first : Text} {segments : List Text} (hk : '_' ∉ k)
    (hfirst : '_' ∉ first) (hsegments : ∀ s ∈ segments, '_' ∉ s) :
    '_' :: k <:+: joined first segments ↔ ∃ s ∈ segments, k <+: s := by
  induction segments generalizing first with
  | nil =>
    refine iff_of_false (fun h => ?_) (by simp)
    rw [joined, List.flatMap_nil, List.append_nil] at h
    exact hfirst (h.subset List.mem_cons_self)
  | cons s segments ih =>
    obtain ⟨hs, hrest⟩ := List.forall_mem_cons.mp hsegments
    have hjoined : joined first (s :: segments) = first ++ '_' :: joined s segments := rfl
    have hskip : '_' :: k <:+: joined first (s :: segments) ↔
        '_' :: k <:+: '_' :: joined s segments := by
      rw [hjoined]
      exact ⟨ProgramId.infix_skip hfirst, fun h => h.trans (List.suffix_append _ _).isInfix⟩
    rw [hskip, List.infix_cons_iff, List.cons_prefix_cons, prefix_joined hk, ih hs hrest,
      List.exists_mem_cons_iff]
    simp

/-- Some segment begins with the mark. -/
def marked (segments : List Text) (mark : String) : Bool := segments.any mark.toList.isPrefixOf

def segmentsBelong (segments : List Text) : TranslationCategory → Bool
  | .catalog => marked segments "CS-" || marked segments "CI-"
  | .hardware => marked segments "H-" || marked segments "HP-"
  | .application => marked segments "A-" ||
      (!marked segments "CS-" && !marked segments "CI-" && !marked segments "H-" &&
        !marked segments "HP-")

theorem belongs_joined {first : Text} {segments : List Text} (hfirst : '_' ∉ first)
    (hsegments : ∀ s ∈ segments, '_' ∉ s) (category : TranslationCategory) :
    Belongs (joined first segments) category ↔ segmentsBelong segments category = true := by
  have hmark (mark : String) (h : '_' ∉ mark.toList) :
      '_' :: mark.toList <:+: joined first segments ↔ marked segments mark = true := by
    rw [infix_joined h hfirst hsegments]
    simp [marked]
  have hsection : "_CS-".toList <:+: joined first segments ↔ marked segments "CS-" = true :=
    hmark "CS-" (by decide)
  have hitem : "_CI-".toList <:+: joined first segments ↔ marked segments "CI-" = true :=
    hmark "CI-" (by decide)
  have hhardware : "_H-".toList <:+: joined first segments ↔ marked segments "H-" = true :=
    hmark "H-" (by decide)
  have hprogram : "_HP-".toList <:+: joined first segments ↔ marked segments "HP-" = true :=
    hmark "HP-" (by decide)
  have happlication : "_A-".toList <:+: joined first segments ↔ marked segments "A-" = true :=
    hmark "A-" (by decide)
  cases category with
  | catalog => simp only [Belongs, segmentsBelong, hsection, hitem, Bool.or_eq_true]
  | hardware => simp only [Belongs, segmentsBelong, hhardware, hprogram, Bool.or_eq_true]
  | application =>
    simp only [Belongs, segmentsBelong, List.forall_mem_cons, hsection, hitem, hhardware, hprogram,
      happlication, Bool.or_eq_true, Bool.and_eq_true, Bool.not_eq_true', Bool.not_eq_true,
      List.not_mem_nil, false_imp_iff, implies_true, and_true, and_assoc]

end KnxRs.Split

namespace KnxRs.Author.AppProgram
open Texts Split Sign Renumber

variable (app : AppProgram)

def partSegments (tail : Text) : Part → List Text
  | .hardware => []
  | .product orderNumber => ["P-".toList ++ encodeIdComponent orderNumber]
  | .program => ["HP-".toList ++ app.appTail]
  | .catalogItem => ["HP-".toList ++ app.appTail, "CI-".toList ++ tail]

def identitySegments : Identity → List Text
  | .catalogSection key => ["CS-".toList ++ encodeIdComponent key]
  | .part serialNumber versionNumber part =>
      ("H-".toList ++ hardwareTail serialNumber versionNumber) ::
        app.partSegments (hardwareTail serialNumber versionNumber) part

theorem identityId_joined (identity : Identity) :
    app.identityId identity = joined app.manufacturer (app.identitySegments identity) := by
  cases identity with
  | catalogSection key =>
    simp [identityId, identitySegments, joined]
  | part serialNumber versionNumber part =>
    rw [identityId, hardwareId_tail]
    cases part <;> simp [identitySegments, partSegments, partSuffix, joined]

/-- The files of the units of an authored element. -/
def identityCategories : Identity → List TranslationCategory
  | .catalogSection _ => [.catalog]
  | .part _ _ .catalogItem => [.catalog, .hardware]
  | .part _ _ _ => [.hardware]

theorem identitySegments_belong (identity : Identity) (category : TranslationCategory) :
    segmentsBelong (app.identitySegments identity) category =
      decide (category ∈ identityCategories identity) := by
  cases identity with
  | catalogSection key => cases category <;> rfl
  | part serialNumber versionNumber part => cases part <;> cases category <;> rfl

/-- The prefix is the id of a program. -/
structure Prefixed (id : ProgramId) : Prop where
  manufacturer : app.manufacturer = "M-".toList ++ id.manufacturer
  appTail : 'A' :: '-' :: app.appTail = id.tail

variable {app} {id : ProgramId}

theorem prefixed (h : app.appPrefix = id.text) : app.Prefixed id := by
  have hmanufacturer : '_' ∉ "M-".toList ++ id.manufacturer := by
    intro hmem
    rcases List.mem_cons.mp hmem with hm | hmem
    · cases hm
    · cases id.manufacturer_plain '_' hmem
  have hsplit : splitOnce "_A-".toList app.appPrefix =
      some ("M-".toList ++ id.manufacturer, id.tail.drop 2) := by
    have htext : id.text =
        ("M-".toList ++ id.manufacturer) ++ ("_A-".toList ++ id.tail.drop 2) := by
      rw [ProgramId.text, List.append_assoc, id.tail_eq]
      rfl
    rw [h, htext, show "_A-".toList = '_' :: "A-".toList from rfl, splitOnce_skip hmanufacturer,
      splitOnce_prefix]
    simp
  constructor
  · unfold manufacturer
    rw [hsplit]
  · unfold appTail
    rw [hsplit]
    rfl

theorem Prefixed.plain (h : app.Prefixed id) : '_' ∉ app.manufacturer ∧ '_' ∉ app.appTail := by
  have hplain {s : Text} (hs : ∀ c ∈ s, opens c = false) : '_' ∉ s := fun hmem => by
    cases hs '_' hmem
  constructor
  · rw [h.manufacturer]
    intro hmem
    rcases List.mem_cons.mp hmem with hm | hmem
    · cases hm
    · exact hplain id.manufacturer_plain hmem
  · intro hmem
    have htail : '_' ∈ id.tail := by
      rw [← h.appTail]
      exact List.mem_cons_of_mem _ (List.mem_cons_of_mem _ hmem)
    exact hplain id.tail_plain htail

theorem Prefixed.segments (h : app.Prefixed id) (identity : Identity) :
    ∀ s ∈ app.identitySegments identity, '_' ∉ s := by
  have hnot {mark s : Text} (hmark : '_' ∉ mark) (hs : '_' ∉ s) : '_' ∉ mark ++ s := fun hmem =>
    (List.mem_append.mp hmem).elim hmark hs
  have hcomponent (s : Text) : '_' ∉ encodeIdComponent s := (encodeIdComponent_separators s).2
  cases identity with
  | catalogSection key =>
    exact List.forall_mem_singleton.mpr (hnot (by decide) (hcomponent key))
  | part serialNumber versionNumber part =>
    have htail : '_' ∉ hardwareTail serialNumber versionNumber :=
      hardwareTail_underscore serialNumber versionNumber
    refine List.forall_mem_cons.mpr ⟨hnot (by decide) htail, ?_⟩
    cases part with
    | hardware => exact fun s hs => absurd hs List.not_mem_nil
    | product orderNumber =>
      exact List.forall_mem_singleton.mpr (hnot (by decide) (hcomponent orderNumber))
    | program => exact List.forall_mem_singleton.mpr (hnot (by decide) h.plain.2)
    | catalogItem =>
      exact List.forall_mem_cons.mpr ⟨hnot (by decide) h.plain.2,
        List.forall_mem_singleton.mpr (hnot (by decide) htail)⟩

/-- What is authored, and the files of its units. -/
structure UnitFiles (app : AppProgram) : Prop where
  catalog : ∀ indent, idsOf (app.writeCatalog indent) =
    (app.catalogSections.flatMap catalogIdentities).map app.identityId
  hardware : ∀ indent, idsOf (app.writeHardware indent) =
    (app.hardware.flatMap hardwareIdentities).map app.identityId
  identity : ∀ identity category,
    Belongs (app.identityId identity) category ↔ category ∈ identityCategories identity
  program : ∀ category, Belongs app.appPrefix category ↔ category = .application

theorem unitFiles (h : app.appPrefix = id.text) : app.UnitFiles := by
  have hprefixed : app.Prefixed id := prefixed h
  refine ⟨app.writeCatalog_ids, app.writeHardware_ids, fun identity category => ?_,
    fun category => ?_⟩
  · rw [identityId_joined, belongs_joined hprefixed.plain.1 (hprefixed.segments identity),
      identitySegments_belong, decide_eq_true_iff]
  · have hjoined : app.appPrefix = joined app.manufacturer ["A-".toList ++ app.appTail] := by
      have htail : "A-".toList ++ app.appTail = id.tail := hprefixed.appTail
      rw [h, ProgramId.text, List.append_assoc, id.tail_eq, htail, hprefixed.manufacturer]
      simp [joined]
    have hsegment : ∀ s ∈ ["A-".toList ++ app.appTail], '_' ∉ s := by
      refine List.forall_mem_singleton.mpr fun hmem => ?_
      rcases List.mem_append.mp hmem with hmem | hmem
      · exact absurd hmem (by decide)
      · exact hprefixed.plain.2 hmem
    rw [hjoined, belongs_joined hprefixed.plain.1 hsegment]
    cases category with
    | catalog => exact iff_of_false Bool.false_ne_true (by decide)
    | hardware => exact iff_of_false Bool.false_ne_true (by decide)
    | application => exact iff_of_true rfl rfl

end KnxRs.Author.AppProgram

namespace KnxRs.Split
open Texts TextSearch XmlDocuments SourceTrees Renumber Sign Author

/-! ## The units of a split -/

section
variable (lib : Library) {p : Product} (metadata : KnxMetadata) {catalog hardware app : Node}
  (hcatalog : child "Catalog".toList p.content = some catalog)
  (hhardware : child "Hardware".toList p.content = some hardware)
  (happ : child "ApplicationPrograms".toList p.content = some app)
include hcatalog hhardware happ

theorem fileOf_part (category : TranslationCategory) :
    ∃ n, (p.fileOf lib metadata catalog hardware app category).2 =
        p.part n (p.translations lib category) ∧ isChild "Languages".toList n = false := by
  have other {name : Text} {n : Node} (hname : name ≠ "Languages".toList)
      (hn : child name p.content = some n) : isChild "Languages".toList n = false := by
    have hchild : isChild name n = true := List.find?_some hn
    cases n with
    | token t =>
      cases t with
      | tag t => exact decide_eq_false (of_decide_eq_true hchild ▸ hname)
      | text _ | comment _ | cdata _ | instruction _ | declaration _ | endTag _ _ => cases hchild
    | element tag children spaces => exact decide_eq_false (of_decide_eq_true hchild ▸ hname)
  cases category with
  | catalog => exact ⟨catalog, rfl, other (by decide) hcatalog⟩
  | hardware => exact ⟨hardware, rfl, other (by decide) hhardware⟩
  | application => exact ⟨app, rfl, other (by decide) happ⟩

variable (located : p.Located)
include located

theorem fileOf_languages (category : TranslationCategory) :
    languagesIn (p.fileOf lib metadata catalog hardware app category).2.content =
      keptLanguages lib category (languagesIn p.content) := by
  obtain ⟨n, hfile, hn⟩ := fileOf_part lib metadata hcatalog hhardware happ category
  rw [hfile, p.part_kept lib located.wellFormed hn]

theorem fileOf_hasUnit {tags : Option (Tag × Text)} {unit : Node} (h : p.HasUnit tags unit)
    {refId : Text} (hrefId : refIdOf lib unit = some refId) (category : TranslationCategory) :
    (p.fileOf lib metadata catalog hardware app category).2.HasUnit tags unit ↔
      Belongs refId category := by
  obtain ⟨n, hfile, hn⟩ := fileOf_part lib metadata hcatalog hhardware happ category
  rw [hfile, p.part_hasUnit lib located.wellFormed hn, and_iff_right h, keeps_iff hrefId]

theorem fileOf_written (documented : lib.reader.Documented)
    (direct : ∀ name ∈ childNames, Direct name p.content)
    (plain : ∀ l ∈ child "Languages".toList p.content, PlainTranslations l) :
    ∃ files, splitXml lib p.xml metadata = .ok files ∧ ∀ category,
      ((p.fileOf lib metadata catalog hardware app category).1,
        (p.fileOf lib metadata catalog hardware app category).2.xml) ∈ files := by
  refine ⟨_, splitXml_parts documented located direct plain metadata hcatalog hhardware happ,
    fun category => ?_⟩
  unfold Product.parts Product.fileOf
  cases category <;> simp

end

/-- Each unit with a reference goes, as it is and in its language, with the files whose test the
    reference meets, and with one at least. A unit of an authored product goes with the file that
    declares its element, and one of a catalog item with the hardware as well. -/
theorem translations_copied {lib : Library} (documented : lib.reader.Documented) {p : Product}
    (located : p.Located) (direct : ∀ name ∈ childNames, Direct name p.content)
    (plain : ∀ l ∈ child "Languages".toList p.content, PlainTranslations l)
    (metadata : KnxMetadata) {catalog hardware app : Node}
    (hcatalog : child "Catalog".toList p.content = some catalog)
    (hhardware : child "Hardware".toList p.content = some hardware)
    (happ : child "ApplicationPrograms".toList p.content = some app) :
    (∃ files, splitXml lib p.xml metadata = .ok files ∧ ∀ category,
      ((p.fileOf lib metadata catalog hardware app category).1,
        (p.fileOf lib metadata catalog hardware app category).2.xml) ∈ files) ∧
    (∀ category, languagesIn (p.fileOf lib metadata catalog hardware app category).2.content =
      keptLanguages lib category (languagesIn p.content)) ∧
    (∀ tags unit refId, p.HasUnit tags unit → refIdOf lib unit = some refId →
      (∀ category, (p.fileOf lib metadata catalog hardware app category).2.HasUnit tags unit ↔
        Belongs refId category) ∧
      ∃ category, (p.fileOf lib metadata catalog hardware app category).2.HasUnit tags unit) ∧
    ∀ (id : ProgramId) (program : AppProgram), program.appPrefix = id.text → program.UnitFiles := by
  refine ⟨fileOf_written lib metadata hcatalog hhardware happ located documented direct plain,
    fileOf_languages lib metadata hcatalog hhardware happ located,
    fun tags unit refId hunit hrefId => ?_, fun id program h => AppProgram.unitFiles h⟩
  have belongs (category : TranslationCategory) :
      (p.fileOf lib metadata catalog hardware app category).2.HasUnit tags unit ↔
        Belongs refId category :=
    fileOf_hasUnit lib metadata hcatalog hhardware happ located hunit hrefId category
  obtain ⟨category, hcategory⟩ := belongs_somewhere refId
  exact ⟨belongs, category, (belongs category).mpr hcategory⟩

/-! ## A translated product -/

def programTag : String := "M-00FA_A-0001-01-0000"

def dimmer : String := "M-00FA_H-0x01-1"

def dimmerItem : String := "M-00FA_H-0x01-1_HP-0001-01-0000_CI-0x01-1"

theorem dimmer_ids :
    (pairProgram "0x02").identityId (.part "0x01".toList 1 .hardware) = dimmer.toList ∧
      (pairProgram "0x02").identityId (.part "0x01".toList 1 .catalogItem) = dimmerItem.toList := by
  decide +kernel

def unitTag (refId : String) : Tag :=
  ⟨"TranslationUnit".toList, [⟨[' '], "RefId".toList, [], [], '"', refId.toList⟩], [], false⟩

def translationUnit (refId : String) : Node :=
  .element (unitTag refId) [entry "Translation" "Text" "Dimmer"] []

def translatedUnits : List Node := [dimmerItem, dimmer, programTag].map translationUnit

def declaring (name inner id : String) : Node := .element (startTag name) [entry inner "Id" id] []

def translatedProduct : Product where
  before := []
  tag := startTag "Manufacturer"
  content := [declaring "Catalog" "CatalogItem" dimmerItem, declaring "Hardware" "Hardware" dimmer,
    declaring "ApplicationPrograms" "ApplicationProgram" programTag,
    .element (startTag "Languages") [.element (startTag "Language") translatedUnits []] []]
  spaces := []
  after := []

def translatedFile : TranslationCategory → Text × Product :=
  translatedProduct.fileOf sampleLibrary sampleMetadata
    (declaring "Catalog" "CatalogItem" dimmerItem) (declaring "Hardware" "Hardware" dimmer)
    (declaring "ApplicationPrograms" "ApplicationProgram" programTag)

def unitTags : Option (Tag × Text) := some (startTag "Language", [])

theorem translationUnit_wellFormed {refId : String} (h : (unitTag refId).WellFormed) :
    (translationUnit refId).WellFormed := by
  unfold translationUnit
  rw [Node.WellFormed]
  exact ⟨h, rfl, entry_wellFormed (by decide), by decide⟩

theorem translatedProduct_located : translatedProduct.Located where
  wellFormed := ⟨startTag_wellFormed (by decide),
    wellFormed_cons (element_wellFormed (by decide) (entry_wellFormed (by decide)))
      (wellFormed_cons (element_wellFormed (by decide) (entry_wellFormed (by decide)))
        (wellFormed_cons (element_wellFormed (by decide) (entry_wellFormed (by decide)))
          (wellFormed_cons (element_wellFormed (by decide) (wellFormed_cons (element_wellFormed
            (by decide) (wellFormed_cons (translationUnit_wellFormed (by decide))
              (wellFormed_cons (translationUnit_wellFormed (by decide))
                (wellFormed_cons (translationUnit_wellFormed (by decide)) wellFormed_nil))))
            wellFormed_nil)) wellFormed_nil))),
    (by decide : IsSpaces [])⟩
  plain := by decide
  opened := .bare (by decide) (by decide) (by decide +kernel)
  closed := .bare (by decide) rfl (by decide)

theorem translatedProduct_direct :
    ∀ name ∈ childNames, Direct name translatedProduct.content := by decide +kernel

theorem translatedProduct_plain :
    ∀ l ∈ child "Languages".toList translatedProduct.content, PlainTranslations l := by
  intro l hl
  obtain rfl := Option.some.inj hl
  refine ⟨(by decide : '>' ∉ (startTag "Languages").body), fun l hl => ?_, fun l hl u hu => ?_⟩
  · obtain rfl := List.mem_singleton.mp hl
    exact (by decide : '>' ∉ (startTag "Language").body)
  · obtain rfl := List.mem_singleton.mp hl
    obtain ⟨refId, hrefId, rfl⟩ := List.mem_map.mp (show u ∈ translatedUnits from hu)
    have hplain : ∀ refId ∈ [dimmerItem, dimmer, programTag], '>' ∉ (unitTag refId).body := by
      decide +kernel
    exact hplain refId hrefId

theorem translatedProduct_hasUnit {refId : String} (h : refId ∈ [dimmerItem, dimmer, programTag]) :
    translatedProduct.HasUnit unitTags (translationUnit refId) :=
  ⟨⟨unitTags, translatedUnits⟩, List.mem_singleton.mpr rfl, rfl, List.mem_map_of_mem h⟩

theorem translationUnit_refId (refId : String) :
    refIdOf sampleLibrary (translationUnit refId) = some refId.toList := rfl

theorem sampleReader_documented : sampleLibrary.reader.Documented := XmlReader.tagReader_documented

theorem translated_copied :
    (∀ category, (translatedFile category).2.HasUnit unitTags (translationUnit dimmer) ↔
      category = .hardware) ∧
    (∀ category, (translatedFile category).2.HasUnit unitTags (translationUnit programTag) ↔
      category = .application) ∧
    ∀ category, (translatedFile category).2.HasUnit unitTags (translationUnit dimmerItem) ↔
      category = .catalog ∨ category = .hardware := by
  obtain ⟨_, _, copied, authored⟩ := translations_copied sampleReader_documented
    translatedProduct_located translatedProduct_direct translatedProduct_plain sampleMetadata
    rfl rfl rfl
  have files : (pairProgram "0x02").UnitFiles := authored firstId _ (by decide)
  have ids := dimmer_ids
  have goes {refId : String} (h : refId ∈ [dimmerItem, dimmer, programTag])
      (category : TranslationCategory) :
      (translatedFile category).2.HasUnit unitTags (translationUnit refId) ↔
        Belongs refId.toList category :=
    (copied unitTags (translationUnit refId) refId.toList (translatedProduct_hasUnit h)
      (translationUnit_refId refId)).1 category
  refine ⟨fun category => (goes (by decide) category).trans ?_,
    fun category => (goes (by decide) category).trans ?_,
    fun category => (goes (by decide) category).trans ?_⟩
  · rw [← ids.1, files.identity]
    exact List.mem_singleton
  · exact files.program category
  · rw [← ids.2, files.identity]
    exact List.mem_pair

/-- The unit of a catalog item goes with the catalog and with the hardware. -/
theorem catalog_item_copied_twice :
    dimmerItem.toList ∈ AppProgram.idsOf ((pairProgram "0x02").writeCatalog 6) ∧
    translatedProduct.HasUnit unitTags (translationUnit dimmerItem) ∧
    (∃ files, splitXml sampleLibrary translatedProduct.xml sampleMetadata = .ok files ∧
      ∀ category, ((translatedFile category).1, (translatedFile category).2.xml) ∈ files) ∧
    (translatedFile .catalog).2.HasUnit unitTags (translationUnit dimmerItem) ∧
    (translatedFile .hardware).2.HasUnit unitTags (translationUnit dimmerItem) := by
  have hunit : translatedProduct.HasUnit unitTags (translationUnit dimmerItem) :=
    translatedProduct_hasUnit (by decide)
  have belongs : Belongs dimmerItem.toList .catalog ∧ Belongs dimmerItem.toList .hardware :=
    ⟨(matchesCategory_iff _ _).mp (by decide +kernel),
      (matchesCategory_iff _ _).mp (by decide +kernel)⟩
  have goes (category : TranslationCategory) :=
    fileOf_hasUnit sampleLibrary sampleMetadata rfl rfl rfl translatedProduct_located hunit
      (translationUnit_refId dimmerItem) category
  refine ⟨?_, hunit, fileOf_written sampleLibrary sampleMetadata rfl rfl rfl
    translatedProduct_located sampleReader_documented translatedProduct_direct
    translatedProduct_plain, (goes _).mpr belongs.1, (goes _).mpr belongs.2⟩
  decide +kernel

end KnxRs.Split
